import Colloquy.FieldType
import Colloquy.Result

/-!
# Checked types

What the check of a type says.  Main statement: it passes exactly on the sound
types, whose set elements and dictionary keys are hashable scalars, whose unions
have members and no two alike, and whose records have names and no two fields of
one name, all the way down.
-/

namespace Colloquy.FieldType

/-- Every scalar but a float may be a set element or a key. -/
theorem isHashable_iff {kind : Scalar} :
    kind.isHashable = true ↔ kind ≠ .float := by
  cases kind <;> decide

/-! ## One kind of type after the other -/

section Parts

variable {place : KeyPlace} {type element key value : FieldType}
  {members seen : List FieldType} {owner name : String}
  {names : List String} {fields : List (String × FieldType)}

theorem checkKey_eq_ok_iff :
    checkKey place type = .ok () ↔
      ∃ kind, type = scalar kind ∧ kind ≠ .float := by
  cases type with
  | scalar kind =>
    rw [checkKey]
    by_cases hkind : kind = .float
    · simp [hkind, mt isHashable_iff.mp]
    · simp [hkind, isHashable_iff.mpr]
  | _ => simp [checkKey]

theorem check_set_eq_ok_iff :
    (set element).check = .ok () ↔
      ∃ kind, element = scalar kind ∧ kind ≠ .float := by
  rw [check, checkKey_eq_ok_iff]

theorem check_dict_eq_ok_iff :
    (dict key value).check = .ok () ↔
      (∃ kind, key = scalar kind ∧ kind ≠ .float)
        ∧ value.check = .ok () := by
  rw [check, andThen_eq_ok_iff, checkKey_eq_ok_iff]

theorem checkMembers_eq_ok_iff :
    checkMembers seen members = .ok () ↔
      (∀ member ∈ members, member.check = .ok ())
        ∧ (∀ member ∈ members, member ∉ seen) ∧ members.Nodup := by
  induction members generalizing seen with
  | nil => simp [checkMembers]
  | cons member rest ih =>
    rw [checkMembers]
    by_cases hseen : member ∈ seen
    · simp [hseen]
    · rw [if_neg hseen, andThen_eq_ok_iff, ih, distinct_cons_iff hseen,
        ← and_assoc]
      apply and_congr_left'
      rw [List.forall_mem_cons]

theorem check_union_eq_ok_iff :
    (union members).check = .ok () ↔
      members ≠ [] ∧ (∀ member ∈ members, member.check = .ok ())
        ∧ members.Nodup := by
  cases members with
  | nil => simp [check]
  | cons member rest =>
    rw [check, andThen_eq_ok_iff, checkMembers_eq_ok_iff,
      distinct_cons_iff List.not_mem_nil]
    simp [and_assoc]

theorem checkFields_eq_ok_iff :
    checkFields owner names fields = .ok () ↔
      (∀ field ∈ fields, field.2.check = .ok ())
        ∧ (∀ name ∈ fields.map Prod.fst, name ∉ names)
        ∧ (fields.map Prod.fst).Nodup := by
  induction fields generalizing names with
  | nil => simp [checkFields]
  | cons field rest ih =>
    rw [checkFields]
    by_cases hseen : field.1 ∈ names
    · simp [hseen]
    · rw [if_neg hseen, andThen_eq_ok_iff, ih, distinct_cons_iff hseen,
        ← and_assoc]
      apply and_congr_left'
      rw [List.forall_mem_cons]

theorem check_struct_eq_ok_iff :
    (struct name fields).check = .ok () ↔
      name ≠ "" ∧ (∀ field ∈ fields, field.2.check = .ok ())
        ∧ (fields.map Prod.fst).Nodup := by
  rw [check]
  by_cases hname : name = ""
  · simp [hname]
  · simp [hname, checkFields_eq_ok_iff]

end Parts

/-! ## All the way down -/

/-- What the check of a type asks for. -/
inductive IsSound : FieldType → Prop
  | scalar (kind : Scalar) : IsSound (scalar kind)
  | optional {inner : FieldType} (hinner : IsSound inner) :
    IsSound (optional inner)
  | union {members : List FieldType} (hmember : members ≠ [])
    (hmembers : ∀ member ∈ members, IsSound member)
    (hdistinct : members.Nodup) : IsSound (union members)
  | set {kind : Scalar} (hkind : kind ≠ .float) : IsSound (set (scalar kind))
  | list {element : FieldType} (helement : IsSound element) :
    IsSound (list element)
  | dict {kind : Scalar} {value : FieldType} (hkind : kind ≠ .float)
    (hvalue : IsSound value) : IsSound (dict (scalar kind) value)
  | struct {name : String} {fields : List (String × FieldType)}
    (hname : name ≠ "") (hfields : ∀ field ∈ fields, IsSound field.2)
    (hdistinct : (fields.map Prod.fst).Nodup) : IsSound (struct name fields)

theorem IsSound.check {type : FieldType} (hsound : type.IsSound) :
    type.check = .ok () := by
  induction hsound with
  | scalar kind => exact FieldType.check.eq_1 kind
  | optional hinner ih => rw [FieldType.check, ih]
  | union hmember hmembers hdistinct ih =>
    exact check_union_eq_ok_iff.mpr ⟨hmember, ih, hdistinct⟩
  | set hkind => exact check_set_eq_ok_iff.mpr ⟨_, rfl, hkind⟩
  | list helement ih => rw [FieldType.check, ih]
  | dict hkind hvalue ih =>
    exact check_dict_eq_ok_iff.mpr ⟨⟨_, rfl, hkind⟩, ih⟩
  | struct hname hfields hdistinct ih =>
    exact check_struct_eq_ok_iff.mpr ⟨hname, ih, hdistinct⟩

mutual

theorem isSound_of_check : ∀ type : FieldType, type.check = .ok () →
    type.IsSound
  | scalar kind, _ => .scalar kind
  | optional inner, hcheck => .optional (isSound_of_check inner hcheck)
  | union members, hcheck => by
    have hunion := check_union_eq_ok_iff.mp hcheck
    exact .union hunion.1 (isSound_members members hunion.2.1) hunion.2.2
  | set element, hcheck => by
    obtain ⟨kind, rfl, hkind⟩ := check_set_eq_ok_iff.mp hcheck
    exact .set hkind
  | list element, hcheck => .list (isSound_of_check element hcheck)
  | dict key value, hcheck => by
    obtain ⟨⟨kind, rfl, hkind⟩, hvalue⟩ := check_dict_eq_ok_iff.mp hcheck
    exact .dict hkind (isSound_of_check value hvalue)
  | struct name fields, hcheck => by
    have hstruct := check_struct_eq_ok_iff.mp hcheck
    exact .struct hstruct.1 (isSound_fields fields hstruct.2.1) hstruct.2.2

theorem isSound_members : ∀ members : List FieldType,
    (∀ member ∈ members, member.check = .ok ()) →
    ∀ member ∈ members, member.IsSound
  | [], _ => List.forall_mem_nil _
  | member :: rest, hcheck => by
    have hchecks := List.forall_mem_cons.mp hcheck
    exact List.forall_mem_cons.mpr
      ⟨isSound_of_check member hchecks.1, isSound_members rest hchecks.2⟩

theorem isSound_fields : ∀ fields : List (String × FieldType),
    (∀ field ∈ fields, field.2.check = .ok ()) →
    ∀ field ∈ fields, field.2.IsSound
  | [], _ => List.forall_mem_nil _
  | (_, type) :: rest, hcheck => by
    have hchecks := List.forall_mem_cons.mp hcheck
    exact List.forall_mem_cons.mpr
      ⟨isSound_of_check type hchecks.1, isSound_fields rest hchecks.2⟩

end

theorem check_eq_ok_iff {type : FieldType} :
    type.check = .ok () ↔ type.IsSound :=
  ⟨isSound_of_check type, IsSound.check⟩

end Colloquy.FieldType
