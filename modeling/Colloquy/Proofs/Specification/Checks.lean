import Colloquy.Proofs.Specification.Load

/-!
# What each check lets pass

The checks that a source goes through when it is loaded, one by one, and what
each of them compiles.  Names are spelled out by their characters, records by
the types that their texts stand for in the order of declaration, and the tables
by their entries, whatever the order in which these are visited.
-/

namespace Colloquy

/-! ## Names -/

namespace Text

/-- A letter or an underscore, followed by letters, digits and underscores. -/
def IsIdentifier (name : String) : Prop :=
  ∃ first rest, name.toList = first :: rest
    ∧ (first.isAlpha = true ∨ first = '_')
    ∧ ∀ char ∈ rest, char.isAlphanum = true ∨ char = '_'

/-- A capital letter followed by letters and digits. -/
def IsTypeName (name : String) : Prop :=
  ∃ first rest, name.toList = first :: rest ∧ first.isUpper = true
    ∧ ∀ char ∈ rest, char.isAlphanum = true

theorem exists_cons_iff {chars : List Char} {first : Char} {rest : List Char}
    {motive : Char → List Char → Prop} (hchars : chars = first :: rest) :
    (∃ char others, chars = char :: others ∧ motive char others) ↔
      motive first rest := by
  subst hchars
  constructor
  · rintro ⟨_, _, heq, hmotive⟩
    cases heq
    exact hmotive
  · exact fun hmotive => ⟨first, rest, rfl, hmotive⟩

theorem isIdentifier_iff {name : String} :
    isIdentifier name = true ↔ IsIdentifier name := by
  rw [isIdentifier, IsIdentifier]
  cases hchars : name.toList with
  | nil => simp
  | cons first rest =>
    rw [exists_cons_iff rfl]
    simp [isWordChar]

theorem isTypeName_iff {name : String} :
    isTypeName name = true ↔ IsTypeName name := by
  rw [isTypeName, IsTypeName]
  cases hchars : name.toList with
  | nil => simp
  | cons first rest =>
    rw [exists_cons_iff rfl]
    simp

theorem isBlank_eq_false_iff {content : String} :
    isBlank content = false ↔
      ∃ char ∈ content.toList, isWhiteSpace char = false := by
  simp [isBlank]

end Text

namespace Source

/-! ## Records -/

/-- The fields of a record or of a speech act, each with the type that its text
stands for. -/
structure IsSchema (types : CustomTypes) (fields : OrderedMap String String)
    (schema : Schema) : Prop where
  keys : schema.keys = fields.keys
  types : ∀ name text, fields.get? name = some text →
    ∃ type, FieldType.parse types text = .ok type ∧ schema.get? name = some type

/-- Records are declared one after the other; the fields of each may use those
that were declared before it. -/
inductive Declares :
    List (String × OrderedMap String String) → CustomTypes → Prop where
  | nil : Declares [] ∅
  | snoc {entries : List (String × OrderedMap String String)}
      {types : CustomTypes} {name : String} {fields : OrderedMap String String}
      {members : Schema} (hbefore : Declares entries types)
      (hname : Text.IsTypeName name)
      (hfields : ∀ field ∈ fields.keys, Text.IsIdentifier field)
      (hmembers : IsSchema types fields members) :
      Declares (entries ++ [(name, fields)])
        (types.insertNew name members.entries)

end Source

namespace Specification

open Source

/-! ## Identity -/

theorem loadId_eq_ok_iff {source : Source} {id : ProtocolId} :
    loadId source = .ok id ↔
      (Text.isBlank source.author = false ∧ Text.isBlank source.name = false
        ∧ Text.isBlank source.version = false)
      ∧ id = ⟨source.author, source.name, source.version⟩ := by
  have hpart : ∀ part content, requirePart part content = .ok () ↔
      Text.isBlank content = false := by
    intro part content
    rw [requirePart]
    cases Text.isBlank content <;> simp
  simp only [loadId, andThen_eq_ok_iff, hpart, Except.ok.injEq, and_assoc,
    eq_comm (a := id)]

/-- Nothing but the identity of a specification depends on the names by which
its source is known. -/
theorem load_renamed {source : Source} {specification : Specification}
    (hload : load source = .ok specification) {author name version : String}
    (hauthor : Text.isBlank author = false) (hname : Text.isBlank name = false)
    (hversion : Text.isBlank version = false) :
    load { source with author, name, version }
      = .ok { specification with id := ⟨author, name, version⟩ } := by
  obtain ⟨types, hloaded⟩ := load_eq_ok_iff.mp hload
  apply load_eq_ok_iff.mpr
  exact ⟨types, { hloaded with
    id := loadId_eq_ok_iff.mpr ⟨⟨hauthor, hname, hversion⟩, rfl⟩ }⟩

/-! ## Records and contents -/

section Types

variable {types final : CustomTypes} {owner name text : String}
  {isName : String → Bool} {fields : OrderedMap String String} {schema : Schema}

theorem loadField_eq_ok_iff {type : FieldType} :
    loadField types owner isName name text = .ok type ↔
      isName name = true ∧ FieldType.parse types text = .ok type := by
  rw [loadField, parseType]
  by_cases hname : isName name = true <;> simp [hname, mapError_eq_ok_iff]

theorem traverse_loadField_eq_ok_iff :
    fields.traverse (loadField types owner isName) = .ok schema ↔
      (∀ field ∈ fields.keys, isName field = true)
        ∧ IsSchema types fields schema := by
  rw [OrderedMap.traverse_eq_ok_iff_get?]
  simp only [loadField_eq_ok_iff]
  constructor
  · rintro ⟨hkeys, hall⟩
    refine ⟨fun field hfield => ?_, hkeys, fun field text hfield => ?_⟩
    · obtain ⟨text, htext⟩ := OrderedMap.mem_keys_iff.mp hfield
      obtain ⟨type, ⟨hname, -⟩, -⟩ := hall field text htext
      exact hname
    · obtain ⟨type, ⟨-, hparse⟩, htype⟩ := hall field text hfield
      exact ⟨type, hparse, htype⟩
  · rintro ⟨hnames, hkeys, htypes⟩
    refine ⟨hkeys, fun field text hfield => ?_⟩
    obtain ⟨type, hparse, htype⟩ := htypes field text hfield
    have hmem := OrderedMap.mem_keys_iff.mpr ⟨text, hfield⟩
    exact ⟨type, ⟨hnames field hmem, hparse⟩, htype⟩

theorem loadCustomTypes_cons_eq_ok_iff
    {rest : List (String × OrderedMap String String)} :
    loadCustomTypes types ((name, fields) :: rest) = .ok final ↔
      Text.IsTypeName name
        ∧ (∀ field ∈ fields.keys, Text.IsIdentifier field)
        ∧ ∃ members, IsSchema types fields members
          ∧ loadCustomTypes (types.insertNew name members.entries) rest
            = .ok final := by
  rw [loadCustomTypes, ← Text.isTypeName_iff]
  simp only [← Text.isIdentifier_iff]
  by_cases hname : Text.isTypeName name = true
  · simp [hname, bind_eq_ok_iff, traverse_loadField_eq_ok_iff, and_assoc]
  · simp [hname]

theorem declares_of_load {before rest : List (String × OrderedMap String String)}
    (hbefore : Declares before types)
    (hload : loadCustomTypes types rest = .ok final) :
    Declares (before ++ rest) final := by
  induction rest generalizing before types with
  | nil =>
    cases hload
    rw [List.append_nil]
    exact hbefore
  | cons entry rest ih =>
    obtain ⟨hname, hfields, members, hmembers, hrest⟩ :=
      loadCustomTypes_cons_eq_ok_iff.mp hload
    have hnext := ih (hbefore.snoc hname hfields hmembers) hrest
    rw [List.append_assoc, List.singleton_append] at hnext
    exact hnext

theorem load_of_declares {entries rest : List (String × OrderedMap String String)}
    (hdeclares : Declares entries types)
    (hrest : loadCustomTypes types rest = .ok final) :
    loadCustomTypes ∅ (entries ++ rest) = .ok final := by
  -- The last record declared is the first one still to be loaded.
  induction hdeclares generalizing rest with
  | nil => exact hrest
  | snoc hbefore hname hfields hmembers ih =>
    rw [List.append_assoc, List.singleton_append]
    exact ih (loadCustomTypes_cons_eq_ok_iff.mpr
      ⟨hname, hfields, _, hmembers, hrest⟩)

theorem loadCustomTypes_eq_ok_iff
    {entries : List (String × OrderedMap String String)} :
    loadCustomTypes ∅ entries = .ok types ↔ Declares entries types := by
  constructor
  · exact fun hload => declares_of_load Declares.nil hload
  · intro hdeclares
    rw [← List.append_nil entries]
    exact load_of_declares hdeclares rfl

theorem isContentName_iff :
    isContentName name = true ↔ Text.IsIdentifier name ∧ name ∉ reservedNames := by
  rw [isContentName, ← Text.isIdentifier_iff, Bool.and_eq_true, decide_eq_true_iff]

theorem loadSchema_eq_ok_iff {performative : String} :
    loadSchema types performative fields = .ok schema ↔
      Text.IsIdentifier performative
        ∧ (∀ field ∈ fields.keys,
          Text.IsIdentifier field ∧ field ∉ reservedNames)
        ∧ IsSchema types fields schema := by
  rw [loadSchema, ← Text.isIdentifier_iff]
  by_cases hname : Text.isIdentifier performative = true
  · simp only [hname, Bool.not_true, Bool.false_eq_true, if_false, true_and]
    exact traverse_loadField_eq_ok_iff.trans (by simp only [isContentName_iff])
  · simp [hname]

/-- Fields whose texts are type expressions have types. -/
theorem exists_isSchema (htypes : ∀ name text, fields.get? name = some text →
      ∃ type, FieldType.parse types text = .ok type) :
    ∃ schema, IsSchema types fields schema := by
  have hload : ∃ schema,
      fields.traverse (loadField types "" fun _ => true) = .ok schema := by
    apply OrderedMap.exists_traverse
    intro name text hmem
    obtain ⟨type, hparse⟩ := htypes name text (OrderedMap.get?_eq_some_iff.mpr hmem)
    exact ⟨type, loadField_eq_ok_iff.mpr ⟨rfl, hparse⟩⟩
  obtain ⟨schema, hschema⟩ := hload
  exact ⟨schema, (traverse_loadField_eq_ok_iff.mp hschema).2⟩

end Types

/-! ## Replies -/

section Replies

variable {declared : List String} {reply : OrderedMap String (List String)}
  {performative : String}

theorem requireDeclared_eq_ok_iff {mention : Mention} :
    requireDeclared declared mention performative = .ok () ↔
      performative ∈ declared := by
  rw [requireDeclared]
  by_cases hmem : performative ∈ declared <;> simp [hmem]

theorem forM_requireDeclared_eq_ok_iff {mention : Mention}
    {performatives : List String} :
    performatives.forM (requireDeclared declared mention) = .ok () ↔
      ∀ performative ∈ performatives, performative ∈ declared := by
  simp only [forM_eq_ok_iff, requireDeclared_eq_ok_iff]

theorem checkReplies_eq_ok_iff {seen replies : List String} :
    checkReplies declared performative seen replies = .ok () ↔
      (∀ next ∈ replies, next ∈ declared)
        ∧ (∀ next ∈ replies, next ∉ seen) ∧ replies.Nodup := by
  induction replies generalizing seen with
  | nil => simp [checkReplies]
  | cons next rest ih =>
    rw [checkReplies, andThen_eq_ok_iff, requireDeclared_eq_ok_iff]
    by_cases hseen : next ∈ seen
    · simp [hseen]
    · rw [if_neg hseen, ih, distinct_cons_iff hseen, ← and_assoc,
        ← List.forall_mem_cons]

theorem checkReplyEntry_eq_ok_iff {replies : List String} :
    checkReplyEntry declared (performative, replies) = .ok () ↔
      performative ∈ declared ∧ (∀ next ∈ replies, next ∈ declared)
        ∧ replies.Nodup := by
  rw [checkReplyEntry, andThen_eq_ok_iff, requireDeclared_eq_ok_iff,
    checkReplies_eq_ok_iff]
  simp

theorem lacking?_eq_none_iff :
    lacking? declared reply = none ↔
      ∀ performative ∈ declared, performative ∈ reply.keys := by
  rw [lacking?, List.find?_eq_none]
  simp only [Text.mem_sort_iff, ← OrderedMap.contains_iff_mem, Bool.not_eq_true',
    Bool.not_eq_false]

theorem checkReplyTable_eq_ok_iff :
    checkReplyTable declared reply = .ok () ↔
      (∀ performative ∈ reply.keys, performative ∈ declared)
        ∧ (∀ replies ∈ reply.values, (∀ next ∈ replies, next ∈ declared)
          ∧ replies.Nodup)
        ∧ (∀ performative ∈ declared, performative ∈ reply.keys)
        ∧ [] ∈ reply.values := by
  have hentries : (∀ entry ∈ reply.entries, checkReplyEntry declared entry = .ok ())
      ↔ (∀ performative ∈ reply.keys, performative ∈ declared)
        ∧ ∀ replies ∈ reply.values, (∀ next ∈ replies, next ∈ declared)
          ∧ replies.Nodup := by
    simp only [OrderedMap.keys, OrderedMap.values, List.forall_mem_map,
      ← forall_and]
    exact forall_congr' fun _ => imp_congr_right fun _ =>
      checkReplyEntry_eq_ok_iff
  rw [checkReplyTable, andThen_eq_ok_iff, forM_eq_ok_iff, hentries, and_assoc,
    ← lacking?_eq_none_iff]
  cases lacking? declared reply with
  | some performative => simp
  | none => by_cases hterminal : [] ∈ reply.values <;> simp [hterminal]

end Replies

/-! ## Roles, end states and openers -/

section Parts

variable {declared : List String} {reply : OrderedMap String (List String)}

theorem loadRoles_eq_ok_iff {names : List String} {roles : String × String} :
    loadRoles names = .ok roles ↔
      names = [roles.1, roles.2] ∧ roles.1 ≠ roles.2 := by
  rw [loadRoles.eq_def]
  split
  · rename_i initiator responder
    by_cases hsame : initiator = responder
    · simp only [hsame, if_true, reduceCtorEq, List.cons.injEq, and_true,
        false_iff]
      rintro ⟨⟨hinitiator, hresponder⟩, hne⟩
      exact hne (hinitiator.symm.trans hresponder)
    · simp only [hsame, if_false, Except.ok.injEq, List.cons.injEq, and_true]
      constructor
      · rintro rfl
        exact ⟨⟨rfl, rfl⟩, hsame⟩
      · rintro ⟨⟨hinitiator, hresponder⟩, -⟩
        exact Prod.ext hinitiator hresponder
  · rename_i hother
    simp only [reduceCtorEq, false_iff, not_and]
    intro heq
    exact absurd heq (hother roles.1 roles.2)

theorem checkEndStates_eq_ok_iff {seen names : List String} :
    checkEndStates seen names = .ok () ↔
      (∀ name ∈ names, name ∉ seen) ∧ names.Nodup := by
  induction names generalizing seen with
  | nil => simp [checkEndStates]
  | cons name rest ih =>
    rw [checkEndStates]
    by_cases hseen : name ∈ seen
    · simp [hseen]
    · rw [if_neg hseen, ih, distinct_cons_iff hseen]

theorem mem_uncalled_iff {performative : String} :
    performative ∈ uncalled declared reply ↔
      performative ∈ declared
        ∧ ∀ replies ∈ reply.values, performative ∉ replies := by
  simp [uncalled]

theorem loadInitiation_eq_ok_iff {explicit : Option (List String)}
    {initiation : List String} :
    loadInitiation declared reply explicit = .ok initiation ↔
      (∀ openers, explicit = some openers →
        ∀ performative ∈ openers, performative ∈ declared)
      ∧ initiation ≠ []
      ∧ initiation = Text.sort (explicit.getD (uncalled declared reply)) := by
  have hsome : ∀ openers, (if openers = [] then
        (.error .noInitiatingPerformative : Except SpecError (List String))
      else .ok (Text.sort openers)) = .ok initiation ↔
        initiation ≠ [] ∧ initiation = Text.sort openers := by
    intro openers
    by_cases hnone : openers = []
    · simp only [hnone, if_true, reduceCtorEq, false_iff]
      exact fun hboth => hboth.1 hboth.2
    · rw [if_neg hnone, Except.ok.injEq, eq_comm]
      refine (and_iff_right_of_imp ?_).symm
      rintro rfl hempty
      exact hnone (Text.sort_eq_nil_iff.mp hempty)
  cases explicit with
  | none =>
    simp only [loadInitiation, bind_eq_ok_iff, Except.ok.injEq, exists_eq_left',
      hsome, reduceCtorEq, false_implies, implies_true, true_and,
      Option.getD_none]
  | some openers =>
    simp only [loadInitiation, bind_eq_ok_iff, Except.ok.injEq, exists_eq_left',
      hsome, Option.some.injEq, forall_eq', Option.getD_some]
    constructor
    · rintro ⟨⟨⟩, hdeclared, hopeners⟩
      exact ⟨forM_requireDeclared_eq_ok_iff.mp hdeclared, hopeners⟩
    · rintro ⟨hdeclared, hopeners⟩
      exact ⟨(), forM_requireDeclared_eq_ok_iff.mpr hdeclared, hopeners⟩

end Parts

/-! ## Speakers and outcomes -/

section Speakers

variable {declared : List String} {roles : String × String}
  {speakers final : OrderedMap Role (List String)}
  {entries : List (String × List String)}

theorem findRole_eq_ok_iff (hdistinct : roles.1 ≠ roles.2) {name : String}
    {role : Role} :
    findRole roles name = .ok role ↔
      name = match role with
        | .initiator => roles.1
        | .responder => roles.2 := by
  rw [findRole]
  by_cases hinitiator : name = roles.1
  · cases role <;> simp [hinitiator, hdistinct]
  · by_cases hresponder : name = roles.2 <;>
      cases role <;> simp [hinitiator, hresponder, hdistinct.symm]

theorem exists_findRole_iff {name : String} :
    (∃ role, findRole roles name = .ok role) ↔ name ∈ [roles.1, roles.2] := by
  rw [findRole]
  by_cases hinitiator : name = roles.1
  · simp [hinitiator]
  · rw [if_neg hinitiator]
    by_cases hresponder : name = roles.2 <;> simp [hinitiator, hresponder]

theorem loadSpeakers_cons_eq_ok_iff {name : String} {allowed : List String} :
    loadSpeakers declared roles speakers ((name, allowed) :: entries) = .ok final ↔
      ∃ role, findRole roles name = .ok role
        ∧ (∀ performative ∈ allowed, performative ∈ declared)
        ∧ loadSpeakers declared roles (speakers.set role allowed) entries
          = .ok final := by
  simp only [loadSpeakers, bind_eq_ok_iff]
  refine exists_congr fun role => and_congr_right fun _ => ?_
  rw [← forM_requireDeclared_eq_ok_iff]
  exact ⟨fun ⟨⟨⟩, hdeclared, hrest⟩ => ⟨hdeclared, hrest⟩,
    fun ⟨hdeclared, hrest⟩ => ⟨(), hdeclared, hrest⟩⟩

theorem exists_loadSpeakers_iff :
    (∃ final, loadSpeakers declared roles speakers entries = .ok final) ↔
      ∀ name allowed, (name, allowed) ∈ entries → name ∈ [roles.1, roles.2]
        ∧ ∀ performative ∈ allowed, performative ∈ declared := by
  induction entries generalizing speakers with
  | nil => simp [loadSpeakers]
  | cons entry rest ih =>
    obtain ⟨name, allowed⟩ := entry
    simp only [loadSpeakers_cons_eq_ok_iff]
    constructor
    · rintro ⟨final, role, hrole, hallowed, hrest⟩ other more hmem
      rcases List.mem_cons.mp hmem with heq | hlater
      · cases heq
        exact ⟨exists_findRole_iff.mp ⟨role, hrole⟩, hallowed⟩
      · exact ih.mp ⟨final, hrest⟩ other more hlater
    · intro hall
      obtain ⟨hname, hallowed⟩ := hall name allowed List.mem_cons_self
      obtain ⟨role, hrole⟩ := exists_findRole_iff.mpr hname
      obtain ⟨final, hfinal⟩ := ih.mpr fun other more hmem =>
        hall other more (List.mem_cons_of_mem _ hmem)
      exact ⟨final, role, hrole, hallowed, hfinal⟩

/-- A role is restricted to what is listed under its name. -/
theorem get?_of_loadSpeakers {nameOf : Role → String}
    (hroles : ∀ {name role}, findRole roles name = .ok role ↔ name = nameOf role)
    (hnodup : (entries.map Prod.fst).Nodup)
    (hload : loadSpeakers declared roles speakers entries = .ok final)
    (role : Role) :
    final.get? role
      = (OrderedMap.lookup (nameOf role) entries).or (speakers.get? role) := by
  induction entries generalizing speakers with
  | nil =>
    cases hload
    rfl
  | cons entry rest ih =>
    obtain ⟨name, allowed⟩ := entry
    obtain ⟨hnew, hrest⟩ := List.nodup_cons.mp hnodup
    obtain ⟨named, hnamed, -, hload⟩ := loadSpeakers_cons_eq_ok_iff.mp hload
    have hname := hroles.mp hnamed
    rw [ih hrest hload, OrderedMap.get?_set, OrderedMap.lookup]
    by_cases hrole : role = named
    · have habsent : OrderedMap.lookup name rest = none :=
        OrderedMap.lookup_eq_none_iff.mpr hnew
      rw [if_pos hrole, hrole, ← hname, if_pos rfl, habsent]
      rfl
    · -- Roles have names of their own, so this entry is about another role.
      have hother : nameOf role ≠ name := by
        intro heq
        have hfound : findRole roles name = .ok role := hroles.mpr heq.symm
        rw [hnamed] at hfound
        exact hrole (Except.ok.inj hfound).symm
      rw [if_neg hrole, if_neg hother]

theorem loadOutcome_eq_ok_iff {reply : OrderedMap String (List String)}
    {endStates : List String} {performative name : String} {state : EndState} :
    loadOutcome declared reply endStates performative name = .ok state ↔
      performative ∈ declared ∧ reply.get? performative = some []
        ∧ name ∈ endStates ∧ state = ⟨name⟩ := by
  rw [loadOutcome, andThen_eq_ok_iff, requireDeclared_eq_ok_iff]
  by_cases hterminal : reply.get? performative = some []
  · by_cases hname : name ∈ endStates <;> simp [hterminal, hname, eq_comm]
  · simp [hterminal]

end Speakers

end Specification

end Colloquy
