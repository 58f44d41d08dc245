import Colloquy.Document.Json

/-!
# Reading what was written

A document of texts is read back from its JSON text, whatever characters the
texts contain.  A character is read back from its escape, so a text is read back
up to the closing quote; the readers of values, items and members call each
other, and what they are given stops them before their fuel does.

Main statement: `ofJson document.toJson` is the document, with nothing behind it.
-/

namespace Colloquy.Document

/-- Texts, and complete sequences and mappings of such documents. -/
inductive IsTextual : Document → Prop where
  | text (content : String) : IsTextual (text content)
  | ofList {items : List Document} (hitems : ∀ item ∈ items, IsTextual item) :
    IsTextual (ofList items)
  | ofEntries {entries : List (String × Document)}
    (hentries : ∀ entry ∈ entries, IsTextual entry.2) :
    IsTextual (ofEntries entries)

/-! ## Quoted texts -/

section Quotes

variable {unit : Nat} {chars : List Char}

theorem hexNumber?_hexDigit :
    ∀ unit < 0x20, hexNumber?
      ['0', '0', hexDigit (unit / 16), hexDigit (unit % 16)] = some unit := by
  decide

theorem pushUnit_of_lt (hlt : unit < 0x20) :
    Quoted.pushUnit unit ⟨some chars, none⟩
      = ⟨some (Char.ofNat unit :: chars), none⟩ := by
  have hhigh : ¬ (0xD800 ≤ unit ∧ unit ≤ 0xDBFF) := by omega
  have hlow : ¬ (0xDC00 ≤ unit ∧ unit ≤ 0xDFFF) := by omega
  simp [Quoted.pushUnit, hhigh, hlow, Quoted.push]

theorem readQuoted_short {pair : Char × Char} (hpair : pair ∈ shortEscapes)
    (rest : List Char) :
    readQuoted ⟨some chars, none⟩ ('\\' :: pair.1 :: rest)
      = readQuoted ⟨some (pair.2 :: chars), none⟩ rest := by
  simp only [shortEscapes, List.mem_cons, List.not_mem_nil, or_false] at hpair
  rcases hpair with rfl | rfl | rfl | rfl | rfl | rfl | rfl <;> rfl

theorem readQuoted_escape (c : Char) (rest : List Char) :
    readQuoted ⟨some chars, none⟩ (escape c ++ rest)
      = readQuoted ⟨some (c :: chars), none⟩ rest := by
  rw [escape]
  split
  case h_1 pair hpair =>
    have hc : pair.2 = c := by simpa using List.find?_some hpair
    rw [← hc]
    exact readQuoted_short (List.mem_of_find?_eq_some hpair) rest
  case h_2 hnone =>
    split
    · rename_i hcontrol
      simp only [List.cons_append, List.nil_append, readQuoted,
        hexNumber?_hexDigit _ hcontrol, pushUnit_of_lt hcontrol,
        Char.ofNat_toNat]
    · rename_i hcontrol
      have hbackslash : c ≠ '\\' := by
        rintro rfl
        exact absurd hnone (by decide)
      have hquote : c ≠ '"' := by
        rintro rfl
        exact absurd hnone (by decide)
      simp [readQuoted, hbackslash, hcontrol, Quoted.push]

theorem readQuoted_escapes (content rest : List Char) :
    readQuoted ⟨some chars, none⟩ (content.flatMap escape ++ '"' :: rest)
      = (text (String.ofList (chars.reverse ++ content)), some rest) := by
  induction content generalizing chars with
  | nil => simp [readQuoted, Quoted.toDocument]
  | cons c content ih =>
    rw [List.flatMap_cons, List.append_assoc, readQuoted_escape, ih]
    simp

end Quotes

/-! ## Texts of documents -/

/-- The characters of the JSON text of a document. -/
def chars (document : Document) : List Char := document.toJson.toList

/-- The characters of a member of an object. -/
def memberChars (entry : String × Document) : List Char :=
  (text entry.1).chars ++ ':' :: entry.2.chars

/-- What stands behind the first of the phrases between two brackets: the other
phrases, each after a comma, and the closing bracket. -/
def behindFirst (closing : Char) (phrases : List (List Char)) : List Char :=
  phrases.flatMap (',' :: ·) ++ [closing]

theorem behindFirst_cons (closing : Char) (phrase : List Char)
    (phrases : List (List Char)) :
    behindFirst closing (phrase :: phrases)
      = ',' :: (phrase ++ behindFirst closing phrases) := by
  simp [behindFirst]

theorem chars_text (content : String) :
    (text content).chars = '"' :: (content.toList.flatMap escape ++ ['"']) := by
  simp [chars, toJson, quote]

theorem chars_ofList_cons (item : Document) (items : List Document) :
    (ofList (item :: items)).chars
      = '[' :: (item.chars ++ behindFirst ']' (items.map chars)) := by
  have hitems : (toJsonItems (item :: items)).toList ++ [']']
      = item.chars ++ behindFirst ']' (items.map chars) := by
    induction items generalizing item with
    | nil => rfl
    | cons second items ih =>
      have hwritten : toJsonItems (item :: second :: items)
          = toJson item ++ "," ++ toJsonItems (second :: items) := rfl
      simp [hwritten, ih, chars, behindFirst]
  rw [← hitems]
  simp [chars, ofList, toJson]

theorem chars_ofEntries_cons (entry : String × Document)
    (entries : List (String × Document)) :
    (ofEntries (entry :: entries)).chars = '\x7b' :: (memberChars entry
      ++ behindFirst '\x7d' (entries.map memberChars)) := by
  have hentries : (toJsonEntries ((entry :: entries).map fun entry =>
        (text entry.1, entry.2))).toList ++ ['\x7d']
      = memberChars entry ++ behindFirst '\x7d' (entries.map memberChars) := by
    induction entries generalizing entry with
    | nil => simp [toJsonEntries, memberChars, chars, behindFirst]
    | cons second entries ih =>
      have hwritten : toJsonEntries ((entry :: second :: entries).map fun entry =>
            (text entry.1, entry.2))
          = toJson (text entry.1) ++ ":" ++ toJson entry.2 ++ ","
            ++ toJsonEntries ((second :: entries).map fun entry =>
              (text entry.1, entry.2)) := rfl
      rw [hwritten, String.toList_append, List.append_assoc, ih]
      simp [memberChars, chars, behindFirst]
  rw [← hentries]
  simp [chars, ofEntries, toJson]

/-- A document of texts starts with a quote or an opening bracket. -/
theorem IsTextual.exists_chars {document : Document}
    (htextual : document.IsTextual) : ∃ c rest, document.chars = c :: rest
      ∧ isJsonBlank c = false ∧ c ≠ ']' := by
  cases htextual with
  | text content => exact ⟨_, _, chars_text content, rfl, by decide⟩
  | @ofList items _ =>
    cases items with
    | nil => exact ⟨_, _, rfl, rfl, by decide⟩
    | cons item items =>
      exact ⟨_, _, chars_ofList_cons item items, rfl, by decide⟩
  | @ofEntries entries _ =>
    cases entries with
    | nil => exact ⟨_, _, rfl, rfl, by decide⟩
    | cons entry entries =>
      exact ⟨_, _, chars_ofEntries_cons entry entries, rfl, by decide⟩

/-! ## Documents -/

/-- With enough fuel a document is read back from its text, and what follows is
left. -/
def ReadsBack (document : Document) : Prop :=
  ∀ fuel rest, document.chars.length < fuel →
    readJson fuel (document.chars ++ rest) = (document, some rest)

/-- A reader of what stands between brackets reads a phrase as a part of the whole;
a comma or the closing bracket behind it says how to go on. -/
structure ReadsPhrase {β : Type} (reader : Nat → List β → Bool → List Char →
      Document × Option (List Char)) (whole : List β → Document) (closing : Char)
    (phrase : List Char) (content : β) : Prop where
  next : ∀ {fuel}, phrase.length < fuel → ∀ before first rest,
    reader (fuel + 1) before first (phrase ++ ',' :: rest)
      = reader fuel (content :: before) false rest
  last : ∀ {fuel}, phrase.length < fuel → ∀ before first rest,
    reader (fuel + 1) before first (phrase ++ closing :: rest)
      = (whole (content :: before).reverse, some rest)

section Reading

variable {fuel : Nat} {item : Document} {items : List Document}
  {entry : String × Document} {entries : List (String × Document)}

theorem readQuoted_text (content : String) (rest : List Char) :
    readQuoted .empty (content.toList.flatMap escape ++ '"' :: rest)
      = (text content, some rest) := by
  rw [Quoted.empty, readQuoted_escapes]
  simp

theorem readsBack_text (content : String) : (text content).ReadsBack := by
  intro fuel rest hfuel
  obtain ⟨fuel, rfl⟩ := Nat.exists_eq_add_one.mpr (Nat.zero_lt_of_lt hfuel)
  rw [chars_text, List.cons_append, List.append_assoc, List.singleton_append]
  exact readQuoted_text content rest

theorem readsPhrase_item (hitem : item.IsTextual) (hread : item.ReadsBack) :
    ReadsPhrase readItems (sequence · true) ']' item.chars item := by
  obtain ⟨c, others, hchars, hblank, hclosing⟩ := hitem.exists_chars
  have hskip : ∀ rest, skipJsonBlank (item.chars ++ rest) = item.chars ++ rest := by
    simp [hchars, skipJsonBlank, hblank]
  constructor
  all_goals
    intro fuel hfuel before first rest
    rw [readItems.eq_def]
    dsimp only
    rw [hskip]
    split
    -- No item starts like the end of a sequence.
    · rename_i hfirst
      rw [hchars] at hfirst
      exact absurd (List.cons.inj hfirst).1 hclosing
    · rw [hread fuel _ hfuel]
      rfl

theorem readsPhrase_member (hread : entry.2.ReadsBack) :
    ReadsPhrase readMembers (mapping · true) '\x7d' (memberChars entry)
      (text entry.1, entry.2) := by
  have hchars : ∀ rest, memberChars entry ++ rest
      = '"' :: (entry.1.toList.flatMap escape
        ++ '"' :: ':' :: (entry.2.chars ++ rest)) := by
    simp [memberChars, chars_text]
  have hquote : ∀ rest, skipJsonBlank ('"' :: rest) = '"' :: rest := fun _ => rfl
  have hcolon : ∀ rest, skipJsonBlank (':' :: rest) = ':' :: rest := fun _ => rfl
  constructor
  all_goals
    intro fuel hfuel before first rest
    have hvalue : entry.2.chars.length < fuel := by
      simp only [memberChars, List.length_append, List.length_cons] at hfuel
      omega
    rw [readMembers.eq_def, hchars]
    simp only [hquote, hcolon, readQuoted_text, hread fuel _ hvalue]
    rfl

/-- What reads each of the phrases reads all of them: every step takes a phrase and
the character behind it, so what is left stays shorter than the fuel. -/
theorem read_phrases {α β : Type} {reader : Nat → List β → Bool → List Char →
      Document × Option (List Char)} {whole : List β → Document} {closing : Char}
    {phrase : α → List Char} {content : α → β} {head : α} {others : List α}
    (hreads : ∀ part ∈ head :: others,
      ReadsPhrase reader whole closing (phrase part) (content part))
    (hfuel : (phrase head
      ++ behindFirst closing (others.map phrase)).length < fuel)
    (before : List β) (first : Bool) (rest : List Char) :
    reader fuel before first
        (phrase head ++ (behindFirst closing (others.map phrase) ++ rest))
      = (whole (before.reverse ++ (head :: others).map content), some rest) := by
  obtain ⟨hhead, hothers⟩ := List.forall_mem_cons.mp hreads
  induction others generalizing fuel head before first with
  | nil =>
    obtain ⟨fuel, rfl⟩ := Nat.exists_eq_add_one.mpr (Nat.zero_lt_of_lt hfuel)
    have hshorter : (phrase head).length < fuel := by
      simpa [behindFirst] using hfuel
    simpa [behindFirst] using hhead.last hshorter before first rest
  | cons second others ih =>
    obtain ⟨fuel, rfl⟩ := Nat.exists_eq_add_one.mpr (Nat.zero_lt_of_lt hfuel)
    rw [List.map_cons, behindFirst_cons] at hfuel ⊢
    rw [List.length_append, List.length_cons] at hfuel
    have hshorter : (phrase second
        ++ behindFirst closing (others.map phrase)).length < fuel := by omega
    obtain ⟨hsecond, hlater⟩ := List.forall_mem_cons.mp hothers
    have hread := ih hothers hshorter (content head :: before) false hsecond hlater
    rw [List.cons_append, hhead.next (by omega), List.append_assoc, hread]
    simp

theorem readsBack_ofList
    (hitems : ∀ item ∈ items, item.IsTextual ∧ item.ReadsBack) :
    (ofList items).ReadsBack := by
  intro fuel rest hfuel
  obtain ⟨fuel, rfl⟩ := Nat.exists_eq_add_one.mpr (Nat.zero_lt_of_lt hfuel)
  cases items with
  | nil =>
    have hbrackets : 1 < fuel := Nat.lt_of_succ_lt_succ hfuel
    obtain ⟨fuel, rfl⟩ := Nat.exists_eq_add_one.mpr (Nat.zero_lt_of_lt hbrackets)
    rfl
  | cons item items =>
    rw [chars_ofList_cons] at hfuel ⊢
    have hphrases : ∀ part ∈ item :: items,
        ReadsPhrase readItems (sequence · true) ']' part.chars part :=
      fun part hmem => readsPhrase_item (hitems part hmem).1 (hitems part hmem).2
    have hread := read_phrases hphrases (Nat.lt_of_succ_lt_succ hfuel) [] true rest
    simpa [readJson, skipJsonBlank, isJsonBlank, ofList] using hread

theorem readsBack_ofEntries (hentries : ∀ entry ∈ entries, entry.2.ReadsBack) :
    (ofEntries entries).ReadsBack := by
  intro fuel rest hfuel
  obtain ⟨fuel, rfl⟩ := Nat.exists_eq_add_one.mpr (Nat.zero_lt_of_lt hfuel)
  cases entries with
  | nil =>
    have hbrackets : 1 < fuel := Nat.lt_of_succ_lt_succ hfuel
    obtain ⟨fuel, rfl⟩ := Nat.exists_eq_add_one.mpr (Nat.zero_lt_of_lt hbrackets)
    rfl
  | cons entry entries =>
    rw [chars_ofEntries_cons] at hfuel ⊢
    have hphrases : ∀ part ∈ entry :: entries, ReadsPhrase readMembers
        (mapping · true) '\x7d' (memberChars part) (text part.1, part.2) :=
      fun part hmem => readsPhrase_member (hentries part hmem)
    have hread := read_phrases hphrases (Nat.lt_of_succ_lt_succ hfuel) [] true rest
    simpa [readJson, skipJsonBlank, isJsonBlank, ofEntries] using hread

end Reading

theorem IsTextual.readsBack {document : Document}
    (htextual : document.IsTextual) : document.ReadsBack := by
  induction htextual with
  | text content => exact readsBack_text content
  | ofList hitems ih =>
    exact readsBack_ofList fun item hmem => ⟨hitems item hmem, ih item hmem⟩
  | ofEntries _ ih => exact readsBack_ofEntries ih

/-- A document of texts is read back from its JSON text, and nothing is left. -/
theorem ofJson_toJson {document : Document} (htextual : document.IsTextual) :
    ofJson document.toJson = (document, true) := by
  have hread := htextual.readsBack (document.chars.length + 1) []
    (Nat.lt_succ_self _)
  rw [List.append_nil, chars] at hread
  simp only [ofJson, hread]
  rfl

end Colloquy.Document
