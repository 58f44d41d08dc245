import Colloquy.Proofs.FieldType.Reading

/-!
# Values that belong to a type

`validate` runs through a value and stops at the first place that does not fit.
`Holds` is what it decides: one case for each way to belong to a type, with no
order of tests and no reasons for refusal.
-/

namespace Colloquy.FieldType

/-- Set elements and dictionary keys belong to scalar types only. -/
def HoldsKey (type : FieldType) (key : Key) : Prop :=
  ∃ kind, type = scalar kind ∧ kind.admits key.toValue = true

inductive Holds : FieldType → Value → Prop
  | scalar {kind : Scalar} {value : Value}
      (hadmits : kind.admits value = true) : Holds (scalar kind) value
  | absent (inner : FieldType) : Holds (optional inner) .absent
  | present {inner : FieldType} {value : Value} (hvalue : Holds inner value) :
      Holds (optional inner) value.present
  | member {members : List FieldType} {member : FieldType} {value : Value}
      (hmem : member ∈ members) (hvalue : Holds member value) :
      Holds (union members) value
  | set {element : FieldType} {keys : List Key}
      (hkeys : ∀ key ∈ keys, element.HoldsKey key) :
      Holds (set element) (.set keys)
  | list {element : FieldType} {items : List Value}
      (hitems : ∀ item ∈ items, Holds element item) :
      Holds (list element) (.list items)
  | dict {key content : FieldType} {entries : List (Key × Value)}
      (hkeys : ∀ entry ∈ entries, key.HoldsKey entry.1)
      (hvalues : ∀ entry ∈ entries, Holds content entry.2) :
      Holds (dict key content) (.dict entries)
  /-- Every field under its name, in the order of declaration. -/
  | struct {name : String} {fields : List (String × FieldType)}
      {values : List (String × Value)}
      (hnames : values.map Prod.fst = fields.map Prod.fst)
      (hvalues : ∀ pair ∈ fields.zip values, Holds pair.1.2 pair.2.2) :
      Holds (struct name fields) (.struct values)

/-! ## What is accepted belongs to the type -/

/-- A record fits if its names are the declared ones and its values fit, each
at the type beside it. -/
theorem validate_struct_iff_zip {name : String}
    {fields : List (String × FieldType)} {values : List (String × Value)} :
    (struct name fields).validate (.struct values) = .ok () ↔
      values.map Prod.fst = fields.map Prod.fst
        ∧ ∀ pair ∈ fields.zip values, pair.1.2.validate pair.2.2 = .ok () := by
  rw [validate_struct_eq_ok_iff]
  induction fields generalizing values with
  | nil => cases values <;> simp
  | cons field rest ih =>
    cases values with
    | nil => simp
    | cons entry others =>
      rw [List.forall₂_cons, ih, List.zip_cons_cons, List.forall_mem_cons,
        List.map_cons, List.map_cons, List.cons.injEq]
      constructor
      · rintro ⟨⟨hname, hvalue⟩, hnames, hvalues⟩
        exact ⟨⟨hname.symm, hnames⟩, hvalue, hvalues⟩
      · rintro ⟨⟨hname, hnames⟩, hvalue, hvalues⟩
        exact ⟨⟨hname.symm, hvalue⟩, hnames, hvalues⟩

mutual

theorem holds_of_validate : ∀ (type : FieldType) {value : Value},
    type.validate value = .ok () → type.Holds value
  | scalar kind, value, hvalid => .scalar (validate_scalar_eq_ok_iff.mp hvalid)
  | optional inner, value, hvalid => by
    cases value with
    | optional content =>
      cases content with
      | none => exact .absent inner
      | some content => exact .present (holds_of_validate inner hvalid)
    | _ => cases hvalid
  | union members, value, hvalid => by
    obtain ⟨member, hmem, hmember⟩ := validate_union_eq_ok_iff.mp hvalid
    exact .member hmem (holds_of_members members member hmem hmember)
  | set element, value, hvalid => by
    cases value with
    | set keys =>
      rw [validate, forM_eq_ok_iff] at hvalid
      exact .set fun key hmem => validateKey_eq_ok_iff.mp (hvalid key hmem)
    | _ => cases hvalid
  | list element, value, hvalid => by
    cases value with
    | list items =>
      rw [validate, forM_eq_ok_iff] at hvalid
      exact .list fun item hmem => holds_of_validate element (hvalid item hmem)
    | _ => cases hvalid
  | dict key content, value, hvalid => by
    cases value with
    | dict entries =>
      have hentries := validate_dict_eq_ok_iff.mp hvalid
      exact .dict
        (fun entry hmem => validateKey_eq_ok_iff.mp (hentries entry hmem).1)
        (fun entry hmem => holds_of_validate content (hentries entry hmem).2)
    | _ => cases hvalid
  | struct name fields, value, hvalid => by
    cases value with
    | struct values =>
      obtain ⟨hnames, hvalues⟩ := validate_struct_iff_zip.mp hvalid
      exact .struct hnames fun pair hpair =>
        holds_of_fields fields pair.1 (List.of_mem_zip hpair).1
          (hvalues pair hpair)
    | _ => cases hvalid

theorem holds_of_members : ∀ (members : List FieldType) {value : Value},
    ∀ member ∈ members, member.validate value = .ok () → member.Holds value
  | [], _ => by simp
  | member :: rest, _ =>
    List.forall_mem_cons.mpr ⟨holds_of_validate member, holds_of_members rest⟩

theorem holds_of_fields : ∀ (fields : List (String × FieldType)) {value : Value},
    ∀ field ∈ fields, field.2.validate value = .ok () → field.2.Holds value
  | [], _ => by simp
  | (_, type) :: rest, _ =>
    List.forall_mem_cons.mpr ⟨holds_of_validate type, holds_of_fields rest⟩

end

/-! ## What belongs to the type is accepted -/

theorem Holds.validate {type : FieldType} {value : Value}
    (hholds : type.Holds value) : type.validate value = .ok () := by
  induction hholds with
  | scalar hadmits => exact validate_scalar_eq_ok_iff.mpr hadmits
  | absent inner => rfl
  | present hvalue ih => exact ih
  | member hmem hvalue ih => exact validate_union_eq_ok_iff.mpr ⟨_, hmem, ih⟩
  | set hkeys =>
    rw [FieldType.validate, forM_eq_ok_iff]
    exact fun key hmem => validateKey_eq_ok_iff.mpr (hkeys key hmem)
  | list hitems ih =>
    rw [FieldType.validate, forM_eq_ok_iff]
    exact ih
  | dict hkeys hvalues ih =>
    exact validate_dict_eq_ok_iff.mpr fun entry hmem =>
      ⟨validateKey_eq_ok_iff.mpr (hkeys entry hmem), ih entry hmem⟩
  | struct hnames hvalues ih =>
    exact validate_struct_iff_zip.mpr ⟨hnames, ih⟩

theorem validate_eq_ok_iff {type : FieldType} {value : Value} :
    type.validate value = .ok () ↔ type.Holds value :=
  ⟨holds_of_validate type, Holds.validate⟩

end Colloquy.FieldType
