import Colloquy.FieldType.Interpret
import Colloquy.FieldType.Validate
import Colloquy.Proofs.FieldType.Check
import Mathlib.Data.List.Forall2
import Mathlib.Data.List.Nodup
import Mathlib.Data.List.Perm.Subperm

/-!
# What a type reads

Validating and reading taken apart: what holds of the parts of a type, a value or
a wire tree if the whole passes.  Each kind of well-formed type has a
lemma that says which wire trees it reads, and which values these stand for.
-/

namespace Colloquy.FieldType

/-! ## Lists side by side -/

section SideBySide

variable {α β : Type} {R : α → β → Prop} {left : List α} {right : List β}

theorem exists_left_of_mem (hlists : List.Forall₂ R left right) {b : β}
    (hmem : b ∈ right) : ∃ a ∈ left, R a b := by
  induction hlists with
  | nil => cases hmem
  | cons hhead _ ih =>
    rcases List.mem_cons.mp hmem with rfl | hrest
    · exact ⟨_, List.mem_cons_self, hhead⟩
    · obtain ⟨a, ha, hrelated⟩ := ih hrest
      exact ⟨a, List.mem_cons_of_mem _ ha, hrelated⟩

theorem exists_right_of_mem (hlists : List.Forall₂ R left right) {a : α}
    (hmem : a ∈ left) : ∃ b ∈ right, R a b :=
  exists_left_of_mem (List.Forall₂.flip hlists) hmem

theorem forall₂_with_mem (hlists : List.Forall₂ R left right) :
    List.Forall₂ (fun a b => a ∈ left ∧ b ∈ right ∧ R a b) left right := by
  obtain ⟨hlength, hzip⟩ := List.forall₂_iff_zip.mp hlists
  refine List.forall₂_iff_zip.mpr ⟨hlength, fun hmem => ?_⟩
  obtain ⟨hleft, hright⟩ := List.of_mem_zip hmem
  exact ⟨hleft, hright, hzip hmem⟩

theorem exists_forall₂_iff :
    (∃ right, List.Forall₂ R left right) ↔ ∀ a ∈ left, ∃ b, R a b := by
  induction left with
  | nil => simp
  | cons a rest ih =>
    simp only [List.forall₂_cons_left_iff, List.forall_mem_cons, ← ih]
    constructor
    · rintro ⟨_, b, others, hhead, hrest, rfl⟩
      exact ⟨⟨b, hhead⟩, others, hrest⟩
    · rintro ⟨⟨b, hhead⟩, others, hrest⟩
      exact ⟨b :: others, b, others, hhead, hrest, rfl⟩

theorem map_eq_map_of_forall₂ {γ : Type} {f : α → γ} {g : β → γ}
    (hlists : List.Forall₂ (fun a b => f a = g b ∧ R a b) left right) :
    left.map f = right.map g := by
  rw [← List.forall₂_eq_eq_eq, List.forall₂_map_left_iff,
    List.forall₂_map_right_iff]
  exact hlists.imp fun _ _ hhead => hhead.1

end SideBySide

/-! ## Well-formed types -/

/-- What reading relies on in a type that was checked: set elements and
dictionary keys are scalars, and the fields of a record are named apart. -/
inductive IsWellFormed : FieldType → Prop
  | scalar (kind : Scalar) : IsWellFormed (scalar kind)
  | optional {inner : FieldType} (hinner : IsWellFormed inner) :
    IsWellFormed (optional inner)
  | union {members : List FieldType}
    (hmembers : ∀ member ∈ members, IsWellFormed member) :
    IsWellFormed (union members)
  | set (kind : Scalar) : IsWellFormed (set (scalar kind))
  | list {element : FieldType} (helement : IsWellFormed element) :
    IsWellFormed (list element)
  | dict (kind : Scalar) {content : FieldType}
    (hcontent : IsWellFormed content) : IsWellFormed (dict (scalar kind) content)
  | struct (name : String) {fields : List (String × FieldType)}
    (hnodup : (fields.map Prod.fst).Nodup)
    (hfields : ∀ field ∈ fields, IsWellFormed field.2) :
    IsWellFormed (struct name fields)

theorem IsSound.isWellFormed {type : FieldType} (hsound : type.IsSound) :
    type.IsWellFormed := by
  induction hsound with
  | scalar kind => exact .scalar kind
  | optional _ ih => exact .optional ih
  | union _ _ _ ih => exact .union ih
  | @set kind _ => exact .set kind
  | list _ ih => exact .list ih
  | @dict kind _ _ _ ih => exact .dict kind ih
  | @struct name _ _ _ hdistinct ih => exact .struct name hdistinct ih

theorem isWellFormed_of_check (type : FieldType) (hcheck : type.check = .ok ()) :
    type.IsWellFormed :=
  (isSound_of_check type hcheck).isWellFormed

/-! ## Scalars and keys -/

theorem validateKey_eq_ok_iff {type : FieldType} {key : Key} :
    type.validateKey key = .ok () ↔
      ∃ kind, type = scalar kind ∧ kind.admits key.toValue = true := by
  cases type with
  | scalar kind => by_cases hadmits : kind.admits key.toValue = true <;>
      simp [validateKey, hadmits]
  | _ => simp [validateKey]

theorem validateKey_scalar_iff {kind : Scalar} {key : Key} :
    (scalar kind).validateKey key = .ok () ↔
      kind.admits key.toValue = true := by
  simp [validateKey_eq_ok_iff]

theorem interpret_scalar_eq_ok_iff {kind : Scalar} {wire : Wire}
    {value : Value} : (scalar kind).interpret wire = .ok value ↔
      wire = value.toWire ∧ kind.admits value = true := by
  constructor
  · intro hread
    simp only [interpret] at hread
    split at hread
    · rename_i hscalar
      cases hread
      cases kind <;> cases wire <;> simp_all [Scalar.interpret?] <;>
        subst hscalar <;> exact ⟨rfl, rfl⟩
    · cases hread
  · rintro ⟨rfl, hadmits⟩
    cases kind <;> cases value <;> simp_all [Scalar.admits, interpret,
      Value.toWire, Scalar.interpret?]

theorem keyOf_toValue (key : Key) : keyOf key.toValue = .ok key := by
  rw [keyOf, Value.toKey?_toValue]

theorem keyOf_eq_ok_iff {value : Value} {key : Key} :
    keyOf value = .ok key ↔ value = key.toValue := by
  constructor
  · intro hkey
    rw [keyOf] at hkey
    split at hkey
    · rename_i hfound
      cases hkey
      exact Value.eq_toValue_of_toKey? hfound
    · cases hkey
  · rintro rfl
    exact keyOf_toValue key

/-! ## Contents -/

section Contents

variable {element : Wire → Except TypeError Value}

theorem interpretItems_eq_ok_iff {items : List Wire} {values : List Value} :
    interpretItems element items = .ok values ↔
      List.Forall₂ (fun item value => element item = .ok value)
        items values := by
  induction items generalizing values with
  | nil => simp [interpretItems, eq_comm]
  | cons item rest ih =>
    simp only [interpretItems, bind_eq_ok_iff, Except.ok.injEq,
      List.forall₂_cons_left_iff, ih]
    constructor
    · rintro ⟨value, hvalue, others, hothers, rfl⟩
      exact ⟨value, others, hvalue, hothers, rfl⟩
    · rintro ⟨value, others, hvalue, hothers, rfl⟩
      exact ⟨value, hvalue, others, hothers, rfl⟩

/-- Each tree is read as a key, and no key was seen before or occurs twice. -/
theorem interpretKeys_eq_ok_iff {seen keys : List Key} {items : List Wire} :
    interpretKeys element seen items = .ok keys ↔
      List.Forall₂ (fun item key => element item = .ok key.toValue) items keys
        ∧ (∀ key ∈ keys, key ∉ seen) ∧ keys.Nodup := by
  induction items generalizing seen keys with
  | nil =>
    simp only [interpretKeys, Except.ok.injEq, List.forall₂_nil_left_iff]
    constructor
    · rintro rfl
      simp
    · rintro ⟨rfl, -⟩
      rfl
  | cons item rest ih =>
    simp only [interpretKeys, bind_eq_ok_iff, keyOf_eq_ok_iff,
      List.forall₂_cons_left_iff]
    constructor
    · rintro ⟨_, hitem, key, rfl, hread⟩
      split at hread
      · cases hread
      · rename_i hnew
        obtain ⟨others, hothers, hkeys⟩ := bind_eq_ok_iff.mp hread
        cases hkeys
        obtain ⟨hrest, hdistinct⟩ := ih.mp hothers
        exact ⟨⟨key, others, hitem, hrest, rfl⟩,
          (distinct_cons_iff hnew).mp hdistinct⟩
    · rintro ⟨⟨key, others, hitem, hrest, rfl⟩, hdistinct⟩
      have hnew := (List.forall_mem_cons.mp hdistinct.1).1
      have hothers := ih.mpr ⟨hrest, (distinct_cons_iff hnew).mpr hdistinct⟩
      refine ⟨_, hitem, key, rfl, ?_⟩
      rw [if_neg hnew, hothers]
      rfl

/-- Each entry is read as a key and a value, and no key was seen before or
occurs twice. -/
theorem interpretEntries_eq_ok_iff {readKey : Wire → Except TypeError Value}
    {seen : List Key} {before : List (Wire × Wire)}
    {entries : List (Key × Value)} :
    interpretEntries element readKey seen before = .ok entries ↔
      List.Forall₂ (fun found entry => readKey found.1 = .ok entry.1.toValue
          ∧ element found.2 = .ok entry.2) before entries
        ∧ (∀ key ∈ entries.map Prod.fst, key ∉ seen)
        ∧ (entries.map Prod.fst).Nodup := by
  induction before generalizing seen entries with
  | nil =>
    simp only [interpretEntries, Except.ok.injEq, List.forall₂_nil_left_iff]
    constructor
    · rintro rfl
      simp
    · rintro ⟨rfl, -⟩
      rfl
  | cons found rest ih =>
    obtain ⟨left, right⟩ := found
    simp only [interpretEntries, bind_eq_ok_iff, keyOf_eq_ok_iff,
      List.forall₂_cons_left_iff]
    constructor
    · rintro ⟨_, hkey, key, rfl, value, hvalue, hread⟩
      split at hread
      · cases hread
      · rename_i hnew
        obtain ⟨others, hothers, hentries⟩ := bind_eq_ok_iff.mp hread
        cases hentries
        obtain ⟨hrest, hdistinct⟩ := ih.mp hothers
        exact ⟨⟨(key, value), others, ⟨hkey, hvalue⟩, hrest, rfl⟩,
          (distinct_cons_iff hnew).mp hdistinct⟩
    · rintro ⟨⟨⟨key, value⟩, others, ⟨hkey, hvalue⟩, hrest, rfl⟩, hdistinct⟩
      have hnew := (List.forall_mem_cons.mp hdistinct.1).1
      have hothers := ih.mpr ⟨hrest, (distinct_cons_iff hnew).mpr hdistinct⟩
      refine ⟨_, hkey, key, rfl, value, hvalue, ?_⟩
      rw [if_neg hnew, hothers]
      rfl

/-- Each declared field is found among the entries and read at its type. -/
theorem interpretFields_eq_ok_iff {owner : String} {entries : List (Wire × Wire)}
    {fields : List (String × FieldType)} {values : List (String × Value)} :
    interpretFields owner entries fields = .ok values ↔
      List.Forall₂ (fun field value => field.1 = value.1
        ∧ ∃ wire, findField field.1 entries = some wire
          ∧ field.2.interpret wire = .ok value.2) fields values := by
  induction fields generalizing values with
  | nil => simp [interpretFields, eq_comm]
  | cons field rest ih =>
    obtain ⟨name, type⟩ := field
    rw [List.forall₂_cons_left_iff]
    constructor
    · intro hread
      rw [interpretFields] at hread
      split at hread
      · cases hread
      · rename_i wire hfound
        split at hread
        · cases hread
        · rename_i value hvalue
          obtain ⟨others, hothers, hvalues⟩ := bind_eq_ok_iff.mp hread
          cases hvalues
          exact ⟨(name, value), others, ⟨rfl, wire, hfound, hvalue⟩,
            ih.mp hothers, rfl⟩
    · rintro ⟨⟨_, value⟩, others, ⟨rfl, wire, hfound, hvalue⟩, hothers, rfl⟩
      simp only [interpretFields, hfound, hvalue, ih.mpr hothers]
      rfl

/-- Name and value of each field, in the order of declaration. -/
theorem validateFields_eq_ok_iff {owner : String}
    {fields : List (String × FieldType)} {values : List (String × Value)} :
    values.length = fields.length
        ∧ validateFields owner fields values = .ok () ↔
      List.Forall₂ (fun field value => field.1 = value.1
        ∧ field.2.validate value.2 = .ok ()) fields values := by
  induction fields generalizing values with
  | nil => cases values <;> simp [validateFields]
  | cons field rest ih =>
    obtain ⟨name, type⟩ := field
    cases values with
    | nil => simp
    | cons entry others =>
      obtain ⟨found, value⟩ := entry
      rw [List.forall₂_cons, ← ih, validateFields, List.length_cons,
        List.length_cons, Nat.succ_inj]
      by_cases hname : name = found
      · rw [if_neg (not_not_intro hname)]
        cases type.validate value <;> simp [hname]
      · simp [hname]

theorem mem_of_findField {name : String} {wire : Wire}
    {entries : List (Wire × Wire)}
    (hfound : findField name entries = some wire) :
    (.str name, wire) ∈ entries := by
  induction entries with
  | nil => cases hfound
  | cons entry rest ih =>
    obtain ⟨key, value⟩ := entry
    rw [List.mem_cons]
    cases key with
    | str text =>
      rw [findField] at hfound
      split at hfound
      · rename_i htext
        cases hfound
        exact Or.inl (by rw [htext])
      · exact Or.inr (ih hfound)
    | _ => exact Or.inr (ih hfound)

theorem findField_eq_some_iff {name : String} {wire : Wire}
    {entries : List (Wire × Wire)}
    (hnodup : (entries.map Prod.fst).Nodup) :
    findField name entries = some wire ↔ (.str name, wire) ∈ entries := by
  refine ⟨mem_of_findField, fun hmem => ?_⟩
  induction entries with
  | nil => cases hmem
  | cons entry rest ih =>
    obtain ⟨key, value⟩ := entry
    rw [List.map_cons, List.nodup_cons] at hnodup
    rcases List.mem_cons.mp hmem with heq | hrest
    · cases heq
      rw [findField, if_pos rfl]
    · have hkey : key ≠ .str name := by
        rintro rfl
        exact hnodup.1 (List.mem_map.mpr ⟨_, hrest, rfl⟩)
      cases key with
      | str text =>
        rw [findField, if_neg fun htext => hkey (congrArg Wire.str htext)]
        exact ih hnodup.2 hrest
      | _ => exact ih hnodup.2 hrest

theorem keys_toWireEntries (entries : List (Key × Value)) :
    (Value.toWireEntries entries).map Prod.fst
      = (entries.map Prod.fst).map Key.toWire := by
  simp [Value.toWireEntries_eq_map, List.map_map, Function.comp_def]

theorem keys_toWireFields (values : List (String × Value)) :
    (Value.toWireFields values).map Prod.fst
      = (values.map Prod.fst).map Wire.str := by
  simp [Value.toWireFields_eq_map, List.map_map, Function.comp_def]

/-- The fields of a record are found by their names. -/
theorem findField_toWireFields {values : List (String × Value)}
    (hnodup : (values.map Prod.fst).Nodup) {name : String} {value : Value}
    (hmem : (name, value) ∈ values) :
    findField name (Value.toWireFields values) = some value.toWire := by
  have hkeys : ((Value.toWireFields values).map Prod.fst).Nodup := by
    rw [keys_toWireFields]
    exact List.Nodup.map (fun _ _ => Wire.str.inj) hnodup
  rw [findField_eq_some_iff hkeys, Value.toWireFields_eq_map]
  exact List.mem_map.mpr ⟨_, hmem, rfl⟩

end Contents

/-! ## Reading by kind -/

/-- The type reads the wire tree as some value. -/
def Reads (type : FieldType) (wire : Wire) : Prop :=
  ∃ value, type.interpret wire = .ok value

section Kinds

variable {kind : Scalar} {inner element content : FieldType}
  {members : List FieldType} {name : String}
  {fields : List (String × FieldType)} {wire : Wire} {value : Value}

theorem interpret_optional_eq_ok_iff :
    (optional inner).interpret wire = .ok value ↔
      (wire = .array [.bool false] ∧ value = .absent)
        ∨ ∃ before found, wire = .array [.bool true, before]
          ∧ inner.interpret before = .ok found ∧ value = .present found := by
  constructor
  · intro hread
    unfold interpret at hread
    split at hread
    all_goals try (rename_i heq; cases heq)
    · cases hread
      exact Or.inl ⟨rfl, rfl⟩
    · obtain ⟨found, hfound, hvalue⟩ := bind_eq_ok_iff.mp hread
      cases hvalue
      exact Or.inr ⟨_, found, rfl, hfound, rfl⟩
    · cases hread
  · rintro (⟨rfl, rfl⟩ | ⟨before, found, rfl, hread, rfl⟩)
    · rfl
    · rw [interpret, hread]
      rfl

/-- A union takes the first member that reads the tree. -/
theorem interpretAny_eq_some_iff :
    interpretAny members wire = some value ↔
      ∃ earlier member later, members = earlier ++ member :: later
        ∧ (∀ other ∈ earlier, ¬other.Reads wire)
        ∧ member.interpret wire = .ok value := by
  induction members with
  | nil => simp [interpretAny]
  | cons first rest ih =>
    rw [interpretAny]
    constructor
    · intro hread
      split at hread
      · rename_i hfirst
        cases hread
        exact ⟨[], first, rest, rfl, List.forall_mem_nil _, hfirst⟩
      · rename_i hfirst
        obtain ⟨earlier, member, later, rfl, hothers, hmember⟩ := ih.mp hread
        refine ⟨first :: earlier, member, later, rfl,
          List.forall_mem_cons.mpr ⟨?_, hothers⟩, hmember⟩
        rintro ⟨other, hother⟩
        simp [hfirst] at hother
    · rintro ⟨earlier, member, later, hmembers, hothers, hmember⟩
      cases earlier with
      | nil =>
        cases hmembers
        simp [hmember]
      | cons _ earlier =>
        cases hmembers
        obtain ⟨hfirst, hearlier⟩ := List.forall_mem_cons.mp hothers
        split
        · rename_i other hother
          exact absurd ⟨other, hother⟩ hfirst
        · exact ih.mpr ⟨earlier, member, later, rfl, hearlier, hmember⟩

theorem interpret_union_eq_ok_iff :
    (union members).interpret wire = .ok value ↔
      ∃ earlier member later, members = earlier ++ member :: later
        ∧ (∀ other ∈ earlier, ¬other.Reads wire)
        ∧ member.interpret wire = .ok value := by
  rw [← interpretAny_eq_some_iff, interpret]
  cases interpretAny members wire <;> simp

theorem forall₂_isKey_iff {items : List Wire} {keys : List Key} :
    List.Forall₂ (fun item key => (scalar kind).interpret item = .ok key.toValue)
        items keys ↔
      items = keys.map Key.toWire
        ∧ ∀ key ∈ keys, kind.admits key.toValue = true := by
  simp only [interpret_scalar_eq_ok_iff, Value.toWire_toValue]
  induction keys generalizing items with
  | nil => simp
  | cons key rest ih =>
    simp only [List.forall₂_cons_right_iff, ih, List.forall_mem_cons,
      List.map_cons]
    constructor
    · rintro ⟨_, _, ⟨rfl, hkey⟩, ⟨rfl, hrest⟩, rfl⟩
      exact ⟨rfl, hkey, hrest⟩
    · rintro ⟨rfl, hkey, hrest⟩
      exact ⟨_, _, ⟨rfl, hkey⟩, ⟨rfl, hrest⟩, rfl⟩

/-- The tree of a set lists different keys in any order. -/
theorem interpret_set_eq_ok_iff :
    (set (scalar kind)).interpret wire = .ok value ↔
      ∃ keys, wire = .array (keys.map Key.toWire) ∧ value = .setOf keys
        ∧ keys.Nodup ∧ ∀ key ∈ keys, kind.admits key.toValue = true := by
  constructor
  · intro hread
    cases wire with
    | array items =>
      rw [interpret] at hread
      obtain ⟨keys, hkeys, hvalue⟩ := bind_eq_ok_iff.mp hread
      cases hvalue
      obtain ⟨hitems, -, hnodup⟩ := interpretKeys_eq_ok_iff.mp hkeys
      obtain ⟨rfl, hadmits⟩ := forall₂_isKey_iff.mp hitems
      exact ⟨keys, rfl, rfl, hnodup, hadmits⟩
    | _ => cases hread
  · rintro ⟨keys, rfl, rfl, hnodup, hadmits⟩
    have hkeys := interpretKeys_eq_ok_iff.mpr
      ⟨forall₂_isKey_iff.mpr ⟨rfl, hadmits⟩, fun _ _ => List.not_mem_nil, hnodup⟩
    rw [interpret, hkeys]
    rfl

theorem interpret_list_eq_ok_iff :
    (list element).interpret wire = .ok value ↔
      ∃ items values, wire = .array items ∧ value = .list values
        ∧ List.Forall₂ (fun item value => element.interpret item = .ok value)
          items values := by
  constructor
  · intro hread
    cases wire with
    | array items =>
      rw [interpret] at hread
      obtain ⟨values, hvalues, hvalue⟩ := bind_eq_ok_iff.mp hread
      cases hvalue
      exact ⟨items, values, rfl, rfl, interpretItems_eq_ok_iff.mp hvalues⟩
    | _ => cases hread
  · rintro ⟨items, values, rfl, rfl, hitems⟩
    rw [interpret, interpretItems_eq_ok_iff.mpr hitems]
    rfl

/-- The tree of a dictionary repeats no key. -/
theorem interpret_dict_eq_ok_iff :
    (dict (scalar kind) content).interpret wire = .ok value ↔
      ∃ before entries, wire = .map before ∧ value = .dict entries
        ∧ (entries.map Prod.fst).Nodup
        ∧ List.Forall₂ (fun found entry => found.1 = entry.1.toWire
          ∧ kind.admits entry.1.toValue = true
          ∧ content.interpret found.2 = .ok entry.2) before entries := by
  constructor
  · intro hread
    cases wire with
    | map before =>
      rw [interpret] at hread
      obtain ⟨entries, hentries, hvalue⟩ := bind_eq_ok_iff.mp hread
      cases hvalue
      obtain ⟨hbefore, -, hnodup⟩ := interpretEntries_eq_ok_iff.mp hentries
      simp only [interpret_scalar_eq_ok_iff, Value.toWire_toValue, and_assoc]
        at hbefore
      exact ⟨before, entries, rfl, rfl, hnodup, hbefore⟩
    | _ => cases hread
  · rintro ⟨before, entries, rfl, rfl, hnodup, hbefore⟩
    simp only [← and_assoc, ← Value.toWire_toValue,
      ← interpret_scalar_eq_ok_iff] at hbefore
    have hentries := interpretEntries_eq_ok_iff.mpr
      ⟨hbefore, fun _ _ => List.not_mem_nil, hnodup⟩
    rw [interpret, hentries]
    rfl

/-- The tree of a record has as many entries as there are fields, and each field
is found among them. -/
theorem interpret_struct_eq_ok_iff :
    (struct name fields).interpret wire = .ok value ↔
      ∃ before values, wire = .map before ∧ value = .struct values
        ∧ before.length = fields.length
        ∧ List.Forall₂ (fun field value => field.1 = value.1
          ∧ ∃ wire, findField field.1 before = some wire
            ∧ field.2.interpret wire = .ok value.2) fields values := by
  constructor
  · intro hread
    cases wire with
    | map before =>
      rw [interpret] at hread
      split at hread
      · cases hread
      · rename_i hlength
        obtain ⟨values, hvalues, hvalue⟩ := bind_eq_ok_iff.mp hread
        cases hvalue
        exact ⟨before, values, rfl, rfl, Decidable.not_not.mp hlength,
          interpretFields_eq_ok_iff.mp hvalues⟩
    | _ => cases hread
  · rintro ⟨before, values, rfl, rfl, hlength, hfields⟩
    rw [interpret, if_neg (not_not_intro hlength),
      interpretFields_eq_ok_iff.mpr hfields]
    rfl

/-! ## Values by kind -/

theorem validate_scalar_eq_ok_iff :
    (scalar kind).validate value = .ok () ↔ kind.admits value = true := by
  by_cases hadmits : kind.admits value = true <;> simp [validate, hadmits]

theorem validateAny_iff : validateAny members value = true ↔
    ∃ member ∈ members, member.validate value = .ok () := by
  induction members with
  | nil => simp [validateAny]
  | cons member rest ih => simp [validateAny, ih, isOk_iff]

theorem validate_union_eq_ok_iff : (union members).validate value = .ok () ↔
    ∃ member ∈ members, member.validate value = .ok () := by
  rw [← validateAny_iff, validate]
  cases validateAny members value <;> simp

theorem validate_dict_eq_ok_iff {key : FieldType}
    {entries : List (Key × Value)} :
    (dict key content).validate (.dict entries) = .ok () ↔
      ∀ entry ∈ entries, validateKey key entry.1 = .ok ()
        ∧ content.validate entry.2 = .ok () := by
  simp only [validate, forM_eq_ok_iff, andThen_eq_ok_iff]

theorem validate_struct_eq_ok_iff {values : List (String × Value)} :
    (struct name fields).validate (.struct values) = .ok () ↔
      List.Forall₂ (fun field value => field.1 = value.1
        ∧ field.2.validate value.2 = .ok ()) fields values := by
  rw [← @validateFields_eq_ok_iff name, validate]
  split
  · rename_i hlength
    simp [hlength]
  · rename_i hlength
    simp [Decidable.not_not.mp hlength]

end Kinds

/-! ## Values that are read back

If its parts are read back, so is a value whose keys are in order or told apart. -/

section Values

variable {kind : Scalar} {inner element content : FieldType} {name : String}
  {fields : List (String × FieldType)}

theorem interpret_optional_toWire {value : Value}
    (hvalue : inner.interpret value.toWire = .ok value) :
    (optional inner).interpret (Value.present value).toWire
      = .ok (.present value) :=
  interpret_optional_eq_ok_iff.mpr (Or.inr ⟨_, value, rfl, hvalue, rfl⟩)

theorem interpret_set_toWire {keys : List Key} (hincreasing : Key.Increasing keys)
    (hkeys : ∀ key ∈ keys, kind.admits key.toValue = true) :
    (set (scalar kind)).interpret (Value.set keys).toWire = .ok (.set keys) := by
  refine interpret_set_eq_ok_iff.mpr
    ⟨keys, rfl, ?_, Key.nodup_of_increasing hincreasing, hkeys⟩
  rw [Value.setOf, Key.sort_of_increasing hincreasing]

theorem interpret_list_toWire {items : List Value}
    (hitems : ∀ item ∈ items, element.interpret item.toWire = .ok item) :
    (list element).interpret (Value.list items).toWire = .ok (.list items) := by
  rw [Value.toWire, Value.toWireItems_eq_map]
  refine interpret_list_eq_ok_iff.mpr ⟨_, items, rfl, rfl, ?_⟩
  rw [List.forall₂_map_left_iff, List.forall₂_same]
  exact hitems

theorem interpret_dict_toWire {entries : List (Key × Value)}
    (hnodup : (entries.map Prod.fst).Nodup)
    (hentries : ∀ entry ∈ entries, kind.admits entry.1.toValue = true
      ∧ content.interpret entry.2.toWire = .ok entry.2) :
    (dict (scalar kind) content).interpret (Value.dict entries).toWire
      = .ok (.dict entries) := by
  rw [Value.toWire, Value.toWireEntries_eq_map]
  refine interpret_dict_eq_ok_iff.mpr ⟨_, entries, rfl, rfl, hnodup, ?_⟩
  rw [List.forall₂_map_left_iff, List.forall₂_same]
  exact fun entry hmem => ⟨rfl, hentries entry hmem⟩

theorem interpret_struct_toWire {values : List (String × Value)}
    (hnodup : (fields.map Prod.fst).Nodup)
    (hfields : List.Forall₂ (fun field value => field.1 = value.1
      ∧ field.2.interpret value.2.toWire = .ok value.2) fields values) :
    (struct name fields).interpret (Value.struct values).toWire
      = .ok (.struct values) := by
  rw [map_eq_map_of_forall₂ hfields] at hnodup
  refine interpret_struct_eq_ok_iff.mpr ⟨_, values, rfl, rfl, ?_,
    (forall₂_with_mem hfields).imp ?_⟩
  · rw [Value.toWireFields_eq_map, List.length_map, hfields.length_eq]
  · rintro ⟨name, type⟩ ⟨_, value⟩ ⟨-, hmem, rfl, hvalue⟩
    exact ⟨rfl, value.toWire, findField_toWireFields hnodup hmem, hvalue⟩

end Values

/-! ## Trees that are read -/

section Trees

variable {wire : Wire}

theorem interpretAny_eq_none {members : List FieldType}
    (hnone : interpretAny members wire = none) :
    ∀ member ∈ members, ¬member.Reads wire := by
  induction members with
  | nil => exact List.forall_mem_nil _
  | cons member rest ih =>
    rw [interpretAny] at hnone
    split at hnone
    · cases hnone
    · rename_i hmember
      refine List.forall_mem_cons.mpr ⟨?_, ih hnone⟩
      rintro ⟨value, hvalue⟩
      cases hmember.symm.trans hvalue

theorem reads_union_iff {members : List FieldType} :
    (union members).Reads wire ↔ ∃ member ∈ members, member.Reads wire := by
  constructor
  · rintro ⟨value, hread⟩
    obtain ⟨earlier, member, later, rfl, -, hmember⟩ :=
      interpret_union_eq_ok_iff.mp hread
    exact ⟨member, by simp, value, hmember⟩
  · rintro ⟨member, hmem, hmember⟩
    cases hany : interpretAny members wire with
    | none => exact absurd hmember (interpretAny_eq_none hany member hmem)
    | some value => exact ⟨value, by rw [interpret, hany]⟩

theorem reads_optional_iff {inner : FieldType} :
    (optional inner).Reads wire ↔
      wire = .array [.bool false]
        ∨ ∃ content, wire = .array [.bool true, content]
          ∧ inner.Reads content := by
  simp only [Reads, interpret_optional_eq_ok_iff]
  constructor
  · rintro ⟨value, ⟨hwire, -⟩ | ⟨content, found, hwire, hfound, -⟩⟩
    · exact Or.inl hwire
    · exact Or.inr ⟨content, hwire, found, hfound⟩
  · rintro (hwire | ⟨content, hwire, found, hfound⟩)
    · exact ⟨.absent, Or.inl ⟨hwire, rfl⟩⟩
    · exact ⟨.present found, Or.inr ⟨content, found, hwire, hfound, rfl⟩⟩

theorem reads_set_iff {kind : Scalar} :
    (set (scalar kind)).Reads wire ↔
      ∃ keys : List Key, wire = .array (keys.map Key.toWire) ∧ keys.Nodup
        ∧ ∀ key ∈ keys, kind.admits key.toValue = true := by
  simp only [Reads, interpret_set_eq_ok_iff]
  constructor
  · rintro ⟨value, keys, hwire, -, hkeys⟩
    exact ⟨keys, hwire, hkeys⟩
  · rintro ⟨keys, hwire, hkeys⟩
    exact ⟨.setOf keys, keys, hwire, rfl, hkeys⟩

theorem reads_list_iff {element : FieldType} :
    (list element).Reads wire ↔
      ∃ items, wire = .array items ∧ ∀ item ∈ items, element.Reads item := by
  simp only [Reads, interpret_list_eq_ok_iff, ← exists_forall₂_iff]
  constructor
  · rintro ⟨value, items, values, hwire, -, hitems⟩
    exact ⟨items, hwire, values, hitems⟩
  · rintro ⟨items, hwire, values, hitems⟩
    exact ⟨.list values, items, values, hwire, rfl, hitems⟩

/-- A dictionary is read with the keys of its tree. -/
theorem keys_of_entries {before : List (Wire × Wire)}
    {entries : List (Key × Value)} {P : Wire × Wire → Key × Value → Prop}
    (hentries : List.Forall₂ (fun found entry => found.1 = entry.1.toWire
      ∧ P found entry) before entries) :
    before.map Prod.fst = (entries.map Prod.fst).map Key.toWire := by
  rw [map_eq_map_of_forall₂ hentries, List.map_map]
  rfl

theorem reads_dict_iff {kind : Scalar} {content : FieldType} :
    (dict (scalar kind) content).Reads wire ↔
      ∃ before, wire = .map before ∧ (before.map Prod.fst).Nodup
        ∧ ∀ found ∈ before, (∃ key : Key, found.1 = key.toWire
          ∧ kind.admits key.toValue = true) ∧ content.Reads found.2 := by
  constructor
  · rintro ⟨value, hread⟩
    obtain ⟨before, entries, rfl, rfl, hnodup, hentries⟩ :=
      interpret_dict_eq_ok_iff.mp hread
    refine ⟨before, rfl, ?_, fun found hmem => ?_⟩
    · rw [keys_of_entries hentries]
      exact List.Nodup.map Key.toWire_injective hnodup
    · obtain ⟨entry, -, hkey, hadmits, hvalue⟩ := exists_right_of_mem hentries hmem
      exact ⟨⟨entry.1, hkey, hadmits⟩, entry.2, hvalue⟩
  · rintro ⟨before, rfl, hnodup, hfound⟩
    have hentries : ∀ found ∈ before, ∃ entry : Key × Value,
        found.1 = entry.1.toWire ∧ kind.admits entry.1.toValue = true
          ∧ content.interpret found.2 = .ok entry.2 := by
      intro found hmem
      obtain ⟨⟨key, hkey, hadmits⟩, value, hvalue⟩ := hfound found hmem
      exact ⟨(key, value), hkey, hadmits, hvalue⟩
    obtain ⟨entries, hentries⟩ := exists_forall₂_iff.mpr hentries
    rw [keys_of_entries hentries] at hnodup
    exact ⟨.dict entries, interpret_dict_eq_ok_iff.mpr
      ⟨before, entries, rfl, rfl, List.Nodup.of_map _ hnodup, hentries⟩⟩

/-- A record that is read has the names of its fields as keys: there are as many
entries as fields, and each field is found among them. -/
theorem keys_of_fields {fields : List (String × FieldType)}
    {values : List (String × Value)} {before : List (Wire × Wire)}
    (hnodup : (fields.map Prod.fst).Nodup)
    (hlength : before.length = fields.length)
    (hfields : List.Forall₂ (fun field value => field.1 = value.1
      ∧ ∃ found, findField field.1 before = some found
        ∧ field.2.interpret found = .ok value.2) fields values) :
    (before.map Prod.fst).Perm ((fields.map Prod.fst).map Wire.str) := by
  have hsubset : (fields.map Prod.fst).map Wire.str ⊆ before.map Prod.fst := by
    rw [List.map_map]
    intro key hmem
    obtain ⟨field, hfield, rfl⟩ := List.mem_map.mp hmem
    obtain ⟨value, -, -, found, hfound, -⟩ := exists_right_of_mem hfields hfield
    exact List.mem_map_of_mem (mem_of_findField hfound)
  have hnames := List.Nodup.map (fun _ _ => Wire.str.inj) hnodup
  exact ((List.subperm_of_subset hnames hsubset).perm_of_length_le
    (by simp [hlength])).symm

theorem reads_struct_iff {name : String} {fields : List (String × FieldType)}
    (hnodup : (fields.map Prod.fst).Nodup) :
    (struct name fields).Reads wire ↔
      ∃ before, wire = .map before
        ∧ (before.map Prod.fst).Perm ((fields.map Prod.fst).map Wire.str)
        ∧ ∀ field ∈ fields, ∃ found, (.str field.1, found) ∈ before
          ∧ field.2.Reads found := by
  constructor
  · rintro ⟨value, hread⟩
    obtain ⟨before, values, rfl, rfl, hlength, hfields⟩ :=
      interpret_struct_eq_ok_iff.mp hread
    refine ⟨before, rfl, keys_of_fields hnodup hlength hfields,
      fun field hmem => ?_⟩
    obtain ⟨value, -, -, found, hfound, hvalue⟩ := exists_right_of_mem hfields hmem
    exact ⟨found, mem_of_findField hfound, value.2, hvalue⟩
  · rintro ⟨before, rfl, hkeys, hreads⟩
    have hnames := hkeys.nodup_iff.mpr
      (List.Nodup.map (fun _ _ => Wire.str.inj) hnodup)
    have hfields : ∀ field ∈ fields, ∃ value : String × Value,
        field.1 = value.1 ∧ ∃ found, findField field.1 before = some found
          ∧ field.2.interpret found = .ok value.2 := by
      intro field hmem
      obtain ⟨found, hfound, value, hvalue⟩ := hreads field hmem
      exact ⟨(field.1, value), rfl, found,
        (findField_eq_some_iff hnames).mpr hfound, hvalue⟩
    obtain ⟨values, hvalues⟩ := exists_forall₂_iff.mpr hfields
    have hlength : before.length = fields.length := by
      simpa using hkeys.length_eq
    exact ⟨.struct values, interpret_struct_eq_ok_iff.mpr
      ⟨before, values, rfl, rfl, hlength, hvalues⟩⟩

end Trees

end Colloquy.FieldType
