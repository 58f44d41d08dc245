import Colloquy.Proofs.FieldType.Check
import Colloquy.Specification.Load
import Mathlib.Data.List.TakeWhile

/-!
# The grammar of type expressions

The notation of types by rules that know nothing of offsets and fuel, and the
reader held against them.  What is read is derived by the rules; and what the
rules derive is read, whatever follows it, as long as a word is not continued.

Main statement: a text is read as a type exactly if the rules derive the type
from it and the type is sound; every other text is refused, and fuel is never
what it is refused for.
-/

namespace Colloquy

namespace Text

/-- No word goes on in a text. -/
def StartsNoWord (text : List Char) : Prop :=
  ∀ c, text.head? = some c → isWordChar c = false

theorem toNat_of_isWordChar {c : Char} (hword : isWordChar c = true) :
    48 ≤ c.toNat ∧ c.toNat ≤ 122 := by
  by_cases hscore : c = '_'
  · rw [hscore]
    decide
  · delta isWordChar Char.isAlphanum Char.isAlpha Char.isUpper Char.isLower
      Char.isDigit at hword
    simp [UInt32.le_iff_toNat_le, hscore] at hword
    omega

theorem isWordChar_of_isWhiteSpace {c : Char} (hspace : isWhiteSpace c = true) :
    isWordChar c = false := by
  rw [← Bool.not_eq_true]
  intro hword
  have hcode := toNat_of_isWordChar hword
  simp [isWhiteSpace, whiteSpaceRanges] at hspace
  omega

theorem startsNoWord_of_blank {blank : List Char}
    (hblank : ∀ c ∈ blank, isWhiteSpace c = true) : StartsNoWord blank := by
  intro c hhead
  exact isWordChar_of_isWhiteSpace (hblank c (List.mem_of_mem_head? hhead))

theorem skipWhiteSpace_eq_nil_iff {text : List Char} :
    skipWhiteSpace text = [] ↔ ∀ c ∈ text, isWhiteSpace c = true :=
  List.dropWhile_eq_nil_iff

end Text

namespace FieldType

open Text (isWordChar isWhiteSpace skipWhiteSpace splitWord StartsNoWord)

/-! ## Built-in names -/

def Constructor.name : Constructor → String
  | optional => "optional"
  | union => "union"
  | set => "set"
  | list => "list"
  | dict => "dict"

/-- What a type constructor makes of its arguments. -/
inductive Constructor.Takes : Constructor → List FieldType → FieldType → Prop
  | optional (inner : FieldType) : Takes optional [inner] (.optional inner)
  | union (members : List FieldType) : Takes union members (.union members)
  | set (element : FieldType) : Takes set [element] (.set element)
  | list (element : FieldType) : Takes list [element] (.list element)
  | dict (key value : FieldType) : Takes dict [key, value] (.dict key value)

theorem Constructor.apply_eq_ok_iff {constructor : Constructor}
    {arguments : List FieldType} {type : FieldType} :
    constructor.apply arguments = .ok type ↔
      constructor.Takes arguments type := by
  constructor
  · intro happly
    rw [apply.eq_def] at happly
    split at happly <;> cases happly <;> constructor
  · intro htakes
    cases htakes <;> rfl

theorem Scalar.ofName?_eq_some_iff {name : String} {kind : Scalar} :
    Scalar.ofName? name = some kind ↔ name = kind.name := by
  constructor
  · intro hkind
    rw [Scalar.ofName?.eq_def] at hkind
    split at hkind <;> cases hkind <;> rfl
  · intro hname
    rw [hname]
    cases kind <;> rfl

theorem Constructor.ofName?_eq_some_iff {name : String}
    {constructor : Constructor} :
    ofName? name = some constructor ↔ name = constructor.name := by
  constructor
  · intro hconstructor
    rw [ofName?.eq_def] at hconstructor
    split at hconstructor <;> cases hconstructor <;> rfl
  · intro hname
    rw [hname]
    cases constructor <;> rfl

/-- A built-in name, with or without its prefix. -/
inductive Spells (name : String) : List Char → Prop
  | plain : Spells name name.toList
  | marked : Spells name ('p' :: 't' :: ':' :: name.toList)

/-! ## The rules -/

/-- What the rules are about. -/
inductive Phrase where
  | type (type : FieldType)
  /-- The arguments of a type constructor, in brackets. -/
  | arguments (arguments : List FieldType)
  /-- The arguments after the first, up to the closing bracket. -/
  | others (arguments : List FieldType)

/-- White space may stand before every phrase, so before types, brackets and
commas, and nowhere else.  What follows a type is never a word character, so the
name of a record is the whole word behind its prefix. -/
inductive Derives (types : CustomTypes) : Phrase → List Char → Prop
  | scalar {kind : Scalar} {word : List Char} (hword : Spells kind.name word) :
    Derives types (.type (.scalar kind)) word
  | custom {name : String} {record : StructType}
    (hname : ∀ c ∈ name.toList, isWordChar c = true)
    (hrecord : types.get? name = some record) :
    Derives types (.type (.struct record.name record.fields))
      ('c' :: 't' :: ':' :: name.toList)
  | composite {constructor : Constructor} {arguments : List FieldType}
    {type : FieldType} {word text : List Char}
    (hword : Spells constructor.name word)
    (htakes : constructor.Takes arguments type)
    (harguments : Derives types (.arguments arguments) text) :
    Derives types (.type type) (word ++ text)
  | arguments {first : FieldType} {others : List FieldType}
    {text rest : List Char} (hfirst : Derives types (.type first) text)
    (hothers : Derives types (.others others) rest) :
    Derives types (.arguments (first :: others)) ('[' :: (text ++ rest))
  | next {next : FieldType} {others : List FieldType} {text rest : List Char}
    (hnext : Derives types (.type next) text)
    (hothers : Derives types (.others others) rest) :
    Derives types (.others (next :: others)) (',' :: (text ++ rest))
  | close : Derives types (.others []) [']']
  | space {phrase : Phrase} {c : Char} {text : List Char}
    (hspace : isWhiteSpace c = true) (hphrase : Derives types phrase text) :
    Derives types phrase (c :: text)

/-- A text denotes a type: it is derived, and at most white space follows. -/
def Denotes (types : CustomTypes) (source : String) (type : FieldType) : Prop :=
  ∃ text blank, source.toList = text ++ blank
    ∧ Derives types (.type type) text
    ∧ ∀ c ∈ blank, isWhiteSpace c = true

/-- A phrase is read from the front of a text, and some of it is left. -/
def Consumes (types : CustomTypes) (size fuel : Nat) :
    Phrase → List Char → List Char → Prop
  | .type type, text, rest =>
    readType types size fuel text = .ok (type, rest)
  | .arguments arguments, text, rest =>
    readArguments types size fuel text = .ok (arguments, rest)
  | .others others, text, rest =>
    readMore types size fuel text = .ok (others, rest)

section Grammar

variable {types : CustomTypes} {size fuel : Nat} {phrase : Phrase}
  {text rest blank : List Char}

theorem derives_of_blank (hblank : ∀ c ∈ blank, isWhiteSpace c = true)
    (hderives : Derives types phrase text) :
    Derives types phrase (blank ++ text) := by
  induction blank with
  | nil => exact hderives
  | cons c blank ih =>
    have hc := List.forall_mem_cons.mp hblank
    exact .space hc.1 (ih hc.2)

theorem dropStart?_eq_some_iff {start : List Char} :
    dropStart? start text = some rest ↔ text = start ++ rest := by
  induction start generalizing text with
  | nil => simp [dropStart?]
  | cons c start ih =>
    cases text with
    | nil => simp [dropStart?]
    | cons d text =>
      by_cases heq : c = d
      · simp [dropStart?, heq, ih]
      · simp [dropStart?, heq, Ne.symm heq]

/-! ## What is read is derived -/

/-- The front of a text, up to a given rest, is derived. -/
def Fronts (types : CustomTypes) (phrase : Phrase) (text rest : List Char) :
    Prop :=
  ∃ front, text = front ++ rest ∧ Derives types phrase front

theorem fronts_of_skipWhiteSpace
    (hfronts : Fronts types phrase (skipWhiteSpace text) rest) :
    Fronts types phrase text rest := by
  obtain ⟨blank, htext, hblank⟩ := Text.exists_skipWhiteSpace text
  obtain ⟨front, hsolid, hderives⟩ := hfronts
  refine ⟨blank ++ front, ?_, derives_of_blank hblank hderives⟩
  rw [List.append_assoc, ← hsolid]
  exact htext

/-- A word in front of a text, with or without the prefix of built-in names. -/
theorem exists_spells (text : List Char) :
    let plain := (dropStart? ['p', 't', ':'] text).getD text
    ∃ word, text = word ++ (splitWord plain).2
      ∧ Spells (String.ofList (splitWord plain).1) word := by
  intro plain
  have hspells := @Spells.plain (String.ofList (splitWord plain).1)
  have hmarked := @Spells.marked (String.ofList (splitWord plain).1)
  rw [String.toList_ofList] at hspells hmarked
  have hsplit := Text.splitWord_append plain
  cases hmark : dropStart? ['p', 't', ':'] text with
  | none =>
    have hplain : plain = text := by simp only [plain, hmark, Option.getD_none]
    exact ⟨_, (hsplit.trans hplain).symm, hspells⟩
  | some unmarked =>
    have hplain : plain = unmarked := by
      simp only [plain, hmark, Option.getD_some]
    rw [dropStart?_eq_some_iff, ← hplain, ← hsplit] at hmark
    exact ⟨_, hmark, hmarked⟩

section Step

variable (hconsumes : ∀ {text rest} phrase,
  Consumes types size fuel phrase text rest → Fronts types phrase text rest)

include hconsumes

/-- An argument and those after it, which two of the readers read. -/
theorem fronts_of_bind {arguments : List FieldType}
    (hread : (do
      let (first, rest) ← readType types size fuel text
      let (others, rest) ← readMore types size fuel rest
      .ok (first :: others, rest)) = .ok (arguments, rest)) :
    ∃ first others front middle, arguments = first :: others
      ∧ text = front ++ middle ++ rest ∧ Derives types (.type first) front
      ∧ Derives types (.others others) middle := by
  obtain ⟨⟨first, later⟩, hfirst, hread⟩ := bind_eq_ok_iff.mp hread
  obtain ⟨⟨others, _⟩, hothers, hread⟩ := bind_eq_ok_iff.mp hread
  cases hread
  obtain ⟨front, htext, hfront⟩ := hconsumes (.type first) hfirst
  obtain ⟨middle, hlater, hmiddle⟩ := hconsumes (.others others) hothers
  refine ⟨first, others, front, middle, rfl, ?_, hfront, hmiddle⟩
  rw [htext, hlater, List.append_assoc]

theorem fronts_of_readType {type : FieldType}
    (hread : readType types size (fuel + 1) text = .ok (type, rest)) :
    Fronts types (.type type) text rest := by
  apply fronts_of_skipWhiteSpace
  rw [readType] at hread
  simp only at hread
  split at hread
  · rename_i named hcustom
    rw [dropStart?_eq_some_iff] at hcustom
    split at hread
    · rename_i name fields hrecord
      cases hread
      have hderives : Derives types (.type (.struct name fields))
          ('c' :: 't' :: ':' :: (String.ofList (splitWord named).1).toList) :=
        .custom (by simpa using fun c => Text.isWordChar_of_mem_splitWord)
          hrecord
      rw [String.toList_ofList] at hderives
      refine ⟨_, ?_, hderives⟩
      simpa only [List.cons_append, List.nil_append, Text.splitWord_append]
        using hcustom
    · cases hread
  · obtain ⟨word, hword, hspells⟩ := exists_spells (skipWhiteSpace text)
    split at hread
    · rename_i kind _ hkind
      rw [Scalar.ofName?_eq_some_iff] at hkind
      cases hread
      rw [hkind] at hspells
      exact ⟨word, hword, .scalar hspells⟩
    · rename_i constructor _ hconstructor
      rw [Constructor.ofName?_eq_some_iff] at hconstructor
      rw [hconstructor] at hspells
      obtain ⟨⟨arguments, later⟩, harguments, hread⟩ := bind_eq_ok_iff.mp hread
      obtain ⟨made, happly, hread⟩ := bind_eq_ok_iff.mp hread
      cases hread
      obtain ⟨front, hlater, hfront⟩ :=
        hconsumes (.arguments arguments) harguments
      refine ⟨word ++ front, ?_, .composite hspells
        (Constructor.apply_eq_ok_iff.mp happly) hfront⟩
      rw [List.append_assoc, ← hlater]
      exact hword
    · split at hread <;> cases hread

theorem fronts_of_readArguments {arguments : List FieldType}
    (hread : readArguments types size (fuel + 1) text = .ok (arguments, rest)) :
    Fronts types (.arguments arguments) text rest := by
  apply fronts_of_skipWhiteSpace
  rw [readArguments] at hread
  split at hread
  · rename_i opened hbracket
    obtain ⟨first, others, front, middle, rfl, hopened, hfirst, hothers⟩ :=
      fronts_of_bind hconsumes hread
    rw [hopened] at hbracket
    exact ⟨_, hbracket, .arguments hfirst hothers⟩
  · cases hread

theorem fronts_of_readMore {others : List FieldType}
    (hread : readMore types size (fuel + 1) text = .ok (others, rest)) :
    Fronts types (.others others) text rest := by
  apply fronts_of_skipWhiteSpace
  rw [readMore] at hread
  split at hread
  · rename_i later hcomma
    obtain ⟨next, others, front, middle, rfl, hlater, hnext, hothers⟩ :=
      fronts_of_bind hconsumes hread
    rw [hlater] at hcomma
    exact ⟨_, hcomma, .next hnext hothers⟩
  · rename_i hclose
    cases hread
    exact ⟨[']'], hclose, .close⟩
  · cases hread

end Step

/-- Whatever is read, the front of the text up to what is left is derived. -/
theorem fronts_of_consumes (phrase : Phrase)
    (hread : Consumes types size fuel phrase text rest) :
    Fronts types phrase text rest := by
  -- All three readers at once, since each calls the others with less fuel.
  induction fuel generalizing phrase text rest with
  | zero => cases phrase <;> cases hread
  | succ fuel ih =>
    cases phrase with
    | type type => exact fronts_of_readType ih hread
    | arguments arguments => exact fronts_of_readArguments ih hread
    | others others => exact fronts_of_readMore ih hread

/-! ## What is derived is read -/

theorem consumes_space {c : Char} (hspace : isWhiteSpace c = true)
    (hread : Consumes types size fuel phrase text rest) :
    Consumes types size fuel phrase (c :: text) rest := by
  cases fuel with
  | zero => cases phrase <;> cases hread
  | succ fuel =>
    cases phrase <;>
      simpa only [Consumes, readType, readArguments, readMore,
        Text.skipWhiteSpace_cons_of_space hspace] using hread

/-- A built-in name is taken for nothing else, whatever follows. -/
theorem split_of_spells {name : String} {word : List Char}
    (hspells : Spells name word)
    (hbuiltin : (∃ kind : Scalar, name = kind.name)
      ∨ ∃ constructor : Constructor, name = constructor.name)
    (hrest : StartsNoWord rest) :
    skipWhiteSpace (word ++ rest) = word ++ rest
      ∧ dropStart? ['c', 't', ':'] (word ++ rest) = none
      ∧ splitWord ((dropStart? ['p', 't', ':'] (word ++ rest)).getD
        (word ++ rest)) = (name.toList, rest) := by
  have hword : ∀ c ∈ name.toList, isWordChar c = true := by
    apply List.all_eq_true.mp
    cases hbuiltin with
    | inl hscalar =>
      obtain ⟨kind, rfl⟩ := hscalar
      cases kind <;> rfl
    | inr hconstructor =>
      obtain ⟨constructor, rfl⟩ := hconstructor
      cases constructor <;> rfl
  rw [← Text.splitWord_word_append hword hrest]
  cases hbuiltin with
  | inl hscalar =>
    obtain ⟨kind, rfl⟩ := hscalar
    cases kind <;> cases hspells <;> exact ⟨rfl, rfl, rfl⟩
  | inr hconstructor =>
    obtain ⟨constructor, rfl⟩ := hconstructor
    cases constructor <;> cases hspells <;> exact ⟨rfl, rfl, rfl⟩

theorem length_pos_of_spells {constructor : Constructor} {word : List Char}
    (hword : Spells constructor.name word) : 0 < word.length := by
  cases constructor <;> cases hword <;> decide

theorem startsNoWord_of_derives (hderives : Derives types phrase text)
    (hphrase : ∀ type, phrase ≠ .type type) (rest : List Char) :
    StartsNoWord (text ++ rest) := by
  have hcons : ∀ {c : Char} {text : List Char}, isWordChar c = false →
      StartsNoWord (c :: text) := by
    intro c text hsolid d hhead
    cases hhead
    exact hsolid
  cases hderives with
  | scalar => exact absurd rfl (hphrase _)
  | custom => exact absurd rfl (hphrase _)
  | composite => exact absurd rfl (hphrase _)
  | arguments => exact hcons (by decide)
  | next => exact hcons (by decide)
  | close => exact hcons (by decide)
  | space hspace => exact hcons (Text.isWordChar_of_isWhiteSpace hspace)

section Rules

variable {arguments others : List FieldType} {first type : FieldType}
  {word : List Char}

theorem readType_scalar {kind : Scalar} (hword : Spells kind.name word)
    (hrest : StartsNoWord rest) :
    readType types size (fuel + 1) (word ++ rest) = .ok (.scalar kind, rest) := by
  obtain ⟨hskip, hcustom, hsplit⟩ :=
    split_of_spells hword (Or.inl ⟨kind, rfl⟩) hrest
  have hkind := Scalar.ofName?_eq_some_iff.mpr (Eq.refl kind.name)
  simp only [readType, hskip, hcustom, hsplit, String.ofList_toList, hkind]

theorem readType_custom {name : String} {record : StructType}
    (hname : ∀ c ∈ name.toList, isWordChar c = true)
    (hrecord : types.get? name = some record) (hrest : StartsNoWord rest) :
    readType types size (fuel + 1) ('c' :: 't' :: ':' :: name.toList ++ rest)
      = .ok (.struct record.name record.fields, rest) := by
  have hskip : skipWhiteSpace ('c' :: 't' :: ':' :: name.toList ++ rest)
      = 'c' :: 't' :: ':' :: name.toList ++ rest := rfl
  have hcustom : dropStart? ['c', 't', ':']
      ('c' :: 't' :: ':' :: name.toList ++ rest) = some (name.toList ++ rest) :=
    dropStart?_eq_some_iff.mpr rfl
  simp only [readType, hskip, hcustom,
    Text.splitWord_word_append hname hrest, String.ofList_toList, hrecord]

theorem readType_composite {constructor : Constructor}
    (hword : Spells constructor.name word)
    (htakes : constructor.Takes arguments type) (hrest : StartsNoWord text)
    (harguments : readArguments types size fuel text = .ok (arguments, rest)) :
    readType types size (fuel + 1) (word ++ text) = .ok (type, rest) := by
  obtain ⟨hskip, hcustom, hsplit⟩ :=
    split_of_spells hword (Or.inr ⟨constructor, rfl⟩) hrest
  have hscalar : Scalar.ofName? constructor.name = none := by
    cases constructor <;> rfl
  have hconstructor :=
    Constructor.ofName?_eq_some_iff.mpr (Eq.refl constructor.name)
  have happly := Constructor.apply_eq_ok_iff.mpr htakes
  simp only [readType, hskip, hcustom, hsplit, String.ofList_toList, hscalar,
    hconstructor, harguments, happly, bind, Except.bind]

theorem readArguments_cons {later : List Char}
    (hfirst : readType types size fuel text = .ok (first, later))
    (hothers : readMore types size fuel later = .ok (others, rest)) :
    readArguments types size (fuel + 1) ('[' :: text)
      = .ok (first :: others, rest) := by
  have hskip : skipWhiteSpace ('[' :: text) = '[' :: text := rfl
  simp only [readArguments, hskip, hfirst, hothers, bind, Except.bind]

theorem readMore_next {later : List Char}
    (hnext : readType types size fuel text = .ok (first, later))
    (hothers : readMore types size fuel later = .ok (others, rest)) :
    readMore types size (fuel + 1) (',' :: text)
      = .ok (first :: others, rest) := by
  have hskip : skipWhiteSpace (',' :: text) = ',' :: text := rfl
  simp only [readMore, hskip, hnext, hothers, bind, Except.bind]

theorem readMore_close :
    readMore types size (fuel + 1) (']' :: rest) = .ok ([], rest) := by
  have hskip : skipWhiteSpace (']' :: rest) = ']' :: rest := rfl
  simp only [readMore, hskip]

end Rules

/-- Whatever is derived is read, if no word goes on behind it. -/
theorem consumes_of_derives (hderives : Derives types phrase text)
    (hrest : StartsNoWord rest) (hfuel : text.length ≤ fuel) :
    Consumes types size (fuel + 1) phrase (text ++ rest) rest := by
  induction hderives generalizing fuel rest with
  | scalar hword => exact readType_scalar hword hrest
  | custom hname hrecord => exact readType_custom hname hrecord hrest
  | composite hword htakes harguments ih =>
    have hpositive := length_pos_of_spells hword
    rw [List.length_append] at hfuel
    cases fuel with
    | zero => omega
    | succ fuel =>
      have hread := ih hrest (show _ ≤ fuel by omega)
      have hstart := startsNoWord_of_derives harguments nofun rest
      rw [List.append_assoc]
      exact readType_composite hword htakes hstart hread
  | arguments hfirst hothers ihfirst ihothers =>
    rw [List.length_cons, List.length_append] at hfuel
    cases fuel with
    | zero => omega
    | succ fuel =>
      have hstart := startsNoWord_of_derives hothers nofun rest
      have hread := ihfirst hstart (show _ ≤ fuel by omega)
      have hlater := ihothers hrest (show _ ≤ fuel by omega)
      rw [List.cons_append, List.append_assoc]
      exact readArguments_cons hread hlater
  | next hnext hothers ihnext ihothers =>
    rw [List.length_cons, List.length_append] at hfuel
    cases fuel with
    | zero => omega
    | succ fuel =>
      have hstart := startsNoWord_of_derives hothers nofun rest
      have hread := ihnext hstart (show _ ≤ fuel by omega)
      have hlater := ihothers hrest (show _ ≤ fuel by omega)
      rw [List.cons_append, List.append_assoc]
      exact readMore_next hread hlater
  | close => exact readMore_close
  | space hspace hphrase ih =>
    rw [List.length_cons] at hfuel
    exact consumes_space hspace (ih hrest (by omega))

/-! ## Fuel -/

/-- Two amounts of fuel make no difference to what is read from a text, nor to
why it is refused. -/
structure ReadsAlike (types : CustomTypes) (size fuel more : Nat)
    (text : List Char) : Prop where
  type : readType types size more text = readType types size fuel text
  arguments :
    readArguments types size more text = readArguments types size fuel text
  others : readMore types size more text = readMore types size fuel text

section More

variable {more : Nat}
  (halike : ∀ {text}, text.length ≤ fuel →
    ReadsAlike types size (fuel + 1) (more + 1) text)

include halike

theorem readType_of_readsAlike (hfuel : text.length ≤ fuel + 1) :
    readType types size (more + 2) text = readType types size (fuel + 2) text := by
  have hskip := Text.length_skipWhiteSpace_le text
  rw [readType, readType]
  cases hcustom : dropStart? ['c', 't', ':'] (skipWhiteSpace text) with
  | some named => rfl
  | none =>
    obtain ⟨word, hword, hspells⟩ := exists_spells (skipWhiteSpace text)
    have hlength := congrArg List.length hword
    rw [List.length_append] at hlength
    dsimp only
    split
    · rfl
    · rename_i constructor _ hconstructor
      rw [Constructor.ofName?_eq_some_iff.mp hconstructor] at hspells
      have hpositive := length_pos_of_spells hspells
      rw [(halike (by omega)).arguments]
    · rfl

/-- An argument and those after it, in two places of the reader. -/
theorem bind_readType_of_readsAlike (hfuel : text.length ≤ fuel) :
    (do
      let (first, rest) ← readType types size (more + 1) text
      let (others, rest) ← readMore types size (more + 1) rest
      .ok (first :: others, rest))
    = (do
      let (first, rest) ← readType types size (fuel + 1) text
      let (others, rest) ← readMore types size (fuel + 1) rest
      .ok (first :: others, rest)) := by
  rw [(halike hfuel).type]
  cases hread : readType types size (fuel + 1) text with
  | error fault => rfl
  | ok result =>
    obtain ⟨front, htext, -⟩ := fronts_of_consumes (.type result.1) hread
    have hlength := congrArg List.length htext
    rw [List.length_append] at hlength
    have hothers := (halike (show result.2.length ≤ fuel by omega)).others
    simp only [bind, Except.bind, hothers]

theorem readsAlike_succ (hfuel : text.length ≤ fuel + 1) :
    ReadsAlike types size (fuel + 2) (more + 2) text := by
  have hskip := Text.length_skipWhiteSpace_le text
  constructor
  · exact readType_of_readsAlike halike hfuel
  · rw [readArguments, readArguments]
    split
    · rename_i opened hbracket
      rw [hbracket, List.length_cons] at hskip
      exact bind_readType_of_readsAlike halike (by omega)
    · rfl
  · rw [readMore, readMore]
    split
    · rename_i later hcomma
      rw [hcomma, List.length_cons] at hskip
      exact bind_readType_of_readsAlike halike (by omega)
    · rfl
    · rfl

end More

theorem readsAlike_of_le {more : Nat} (hfuel : text.length ≤ fuel)
    (hmore : fuel ≤ more) :
    ReadsAlike types size (fuel + 1) (more + 1) text := by
  induction fuel generalizing text more with
  | zero =>
    rw [Nat.le_zero, List.length_eq_zero_iff] at hfuel
    rw [hfuel]
    exact ⟨rfl, rfl, rfl⟩
  | succ fuel ih =>
    cases more with
    | zero => omega
    | succ more =>
      exact readsAlike_succ (fun hlength => ih hlength (by omega)) hfuel

/-! ## Whole texts -/

theorem parse_of_denotes {source : String} {type : FieldType}
    (hdenotes : Denotes types source type) (hcheck : type.check = .ok ()) :
    parse types source = .ok type := by
  obtain ⟨text, blank, hsource, hderives, hblank⟩ := hdenotes
  have hlength : text.length ≤ source.toList.length := by
    rw [hsource, List.length_append]
    exact Nat.le_add_right _ _
  have hread : readType types (byteLength source.toList)
      (source.toList.length + 1) source.toList = .ok (type, blank) := by
    have hconsumes : Consumes types (byteLength source.toList)
        (source.toList.length + 1) (.type type) (text ++ blank) blank :=
      consumes_of_derives hderives (Text.startsNoWord_of_blank hblank) hlength
    rw [← hsource] at hconsumes
    exact hconsumes
  exact parse_eq_ok_iff.mpr
    ⟨blank, hread, Text.skipWhiteSpace_eq_nil_iff.mpr hblank, hcheck⟩

theorem denotes_of_parse {source : String} {type : FieldType}
    (hparse : parse types source = .ok type) :
    Denotes types source type ∧ type.check = .ok () := by
  obtain ⟨blank, hread, hblank, hcheck⟩ := parse_eq_ok_iff.mp hparse
  obtain ⟨front, hsource, hderives⟩ := fronts_of_consumes (.type type) hread
  rw [Text.skipWhiteSpace_eq_nil_iff] at hblank
  exact ⟨⟨front, blank, hsource, hderives, hblank⟩, hcheck⟩

end Grammar

end FieldType

/-- A text is accepted exactly for the types that the grammar derives from it, up
to white space at its end, and that pass the check; that is, that are sound.  Any
other text is refused as no type, and with more fuel it would be refused as
well. -/
theorem Specification.parseType_accepts (types : CustomTypes) (source : String) :
    (∀ type, parseType types source = .ok type ↔
      FieldType.Denotes types source type ∧ type.check = .ok ())
    ∧ (∀ type : FieldType, type.check = .ok () ↔ type.IsSound)
    ∧ ((∀ type, ¬ (FieldType.Denotes types source type ∧ type.check = .ok ())) →
      ∃ fault, parseType types source = .error (.invalidType source fault))
    ∧ ∀ fuel, source.toList.length < fuel →
      FieldType.readType types (FieldType.byteLength source.toList) fuel
          source.toList
        = FieldType.readType types (FieldType.byteLength source.toList)
          (source.toList.length + 1) source.toList := by
  have haccepts : ∀ type, parseType types source = .ok type ↔
      FieldType.Denotes types source type ∧ type.check = .ok () := by
    intro type
    rw [parseType, mapError_eq_ok_iff]
    exact ⟨FieldType.denotes_of_parse,
      fun hdenotes => FieldType.parse_of_denotes hdenotes.1 hdenotes.2⟩
  refine ⟨haccepts, fun type => FieldType.check_eq_ok_iff, ?_, ?_⟩
  · intro hnone
    cases hparse : FieldType.parse types source with
    | ok type =>
      exact absurd (FieldType.denotes_of_parse hparse) (hnone type)
    | error fault =>
      exact ⟨fault, by rw [parseType, hparse]; rfl⟩
  · intro fuel hfuel
    cases fuel with
    | zero => omega
    | succ fuel =>
      exact (FieldType.readsAlike_of_le (Nat.le_refl _) (by omega)).type

end Colloquy
