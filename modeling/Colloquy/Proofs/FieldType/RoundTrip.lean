import Colloquy.Proofs.FieldType.Reading

/-!
# Values read back at their type

A value is written by its own shape and read by its type.  Where the members of
a union share a shape, the first of them may read what another one wrote; where
they never do, every value that belongs to a type is read back as it was, with
the order of its sets, dictionaries and records.
-/

namespace Colloquy

/-- The shape of scalars of this kind on the wire. -/
def Scalar.wireKind : Scalar → Wire.Kind
  | bytes => .bin
  | str => .str
  | int => .int
  | float => .float
  | bool => .bool

namespace FieldType

mutual

/-- The outermost shapes that the values of a type have on the wire. -/
def wireKinds : FieldType → List Wire.Kind
  | scalar kind => [kind.wireKind]
  | optional _ => [.array]
  | union members => memberKinds members
  | set _ => [.array]
  | list _ => [.array]
  | dict _ _ => [.map]
  | struct _ _ => [.map]

def memberKinds : List FieldType → List Wire.Kind
  | [] => []
  | member :: rest => wireKinds member ++ memberKinds rest

end

mutual

/-- At every union in a type, no two members have a shape in common. -/
def isUnambiguous : FieldType → Bool
  | scalar _ => true
  | optional inner => isUnambiguous inner
  | union members => areDistinct members
  | set element => isUnambiguous element
  | list element => isUnambiguous element
  | dict key value => isUnambiguous key && isUnambiguous value
  | struct _ fields => areUnambiguous fields

/-- The members of a union, each told apart from those after it. -/
def areDistinct : List FieldType → Bool
  | [] => true
  | member :: rest =>
    isUnambiguous member
      && (wireKinds member).all (fun kind => kind ∉ memberKinds rest)
      && areDistinct rest

def areUnambiguous : List (String × FieldType) → Bool
  | [] => true
  | (_, type) :: rest => isUnambiguous type && areUnambiguous rest

end

/-! ## Shapes -/

section Shapes

variable {wire : Wire} {value : Value}

theorem kind_of_scalar_interpret {kind : Scalar}
    (hread : kind.interpret? wire = some value) :
    wire.kind = kind.wireKind := by
  cases kind <;> cases wire <;> simp_all [Scalar.interpret?, Wire.kind,
    Scalar.wireKind]

theorem kind_of_admits {kind : Scalar} (hadmits : kind.admits value = true) :
    value.toWire.kind = kind.wireKind := by
  cases kind <;> cases value <;> simp_all [Scalar.admits, Value.toWire,
    Wire.kind, Scalar.wireKind]

mutual

/-- A type reads only trees of its shapes. -/
theorem kind_mem_of_interpret : ∀ (type : FieldType) {wire : Wire}
    {value : Value}, type.interpret wire = .ok value →
    wire.kind ∈ type.wireKinds
  | scalar kind, wire, value, hread => by
    simp only [interpret] at hread
    split at hread
    · rename_i hscalar
      rw [wireKinds, kind_of_scalar_interpret hscalar]
      exact List.mem_singleton_self _
    · cases hread
  | union members, wire, value, hread => by
    simp only [interpret] at hread
    split at hread
    · rename_i hany
      exact kind_mem_of_interpretAny members hany
    · cases hread
  | optional inner, wire, value, hread => by
    cases wire <;> simp_all [interpret, wireKinds, Wire.kind]
  | set element, wire, value, hread => by
    cases wire <;> simp_all [interpret, wireKinds, Wire.kind]
  | list element, wire, value, hread => by
    cases wire <;> simp_all [interpret, wireKinds, Wire.kind]
  | dict key content, wire, value, hread => by
    cases wire <;> simp_all [interpret, wireKinds, Wire.kind]
  | struct name fields, wire, value, hread => by
    cases wire <;> simp_all [interpret, wireKinds, Wire.kind]

theorem kind_mem_of_interpretAny : ∀ (members : List FieldType) {wire : Wire}
    {value : Value}, interpretAny members wire = some value →
    wire.kind ∈ memberKinds members
  | [], wire, value, hread => by simp [interpretAny] at hread
  | member :: rest, wire, value, hread => by
    rw [memberKinds, List.mem_append]
    simp only [interpretAny] at hread
    split at hread
    · rename_i hmember
      exact Or.inl (kind_mem_of_interpret member hmember)
    · exact Or.inr (kind_mem_of_interpretAny rest hread)

end

mutual

/-- The values of a type have its shapes. -/
theorem kind_mem_of_validate : ∀ (type : FieldType) {value : Value},
    type.validate value = .ok () → value.toWire.kind ∈ type.wireKinds
  | scalar kind, value, hvalid => by
    simp only [validate] at hvalid
    split at hvalid
    · rename_i hadmits
      rw [wireKinds, kind_of_admits hadmits]
      exact List.mem_singleton_self _
    · cases hvalid
  | union members, value, hvalid => by
    simp only [validate] at hvalid
    split at hvalid
    · rename_i hany
      exact kind_mem_of_validateAny members hany
    · cases hvalid
  | optional inner, value, hvalid => by
    cases value <;> simp_all [validate, wireKinds, Value.toWire, Wire.kind]
  | set element, value, hvalid => by
    cases value <;> simp_all [validate, wireKinds, Value.toWire, Wire.kind]
  | list element, value, hvalid => by
    cases value <;> simp_all [validate, wireKinds, Value.toWire, Wire.kind]
  | dict key content, value, hvalid => by
    cases value <;> simp_all [validate, wireKinds, Value.toWire, Wire.kind]
  | struct name fields, value, hvalid => by
    cases value <;> simp_all [validate, wireKinds, Value.toWire, Wire.kind]

theorem kind_mem_of_validateAny : ∀ (members : List FieldType) {value : Value},
    validateAny members value = true → value.toWire.kind ∈ memberKinds members
  | [], value, hvalid => by simp [validateAny] at hvalid
  | member :: rest, value, hvalid => by
    rw [memberKinds, List.mem_append]
    rw [validateAny, Bool.or_eq_true] at hvalid
    rcases hvalid with hmember | hrest
    · left
      apply kind_mem_of_validate member
      exact isOk_iff.mp hmember
    · exact Or.inr (kind_mem_of_validateAny rest hrest)

end

end Shapes

/-! ## Reading back -/

/-- What is written of a proper value of the type is read back as that
value. -/
def ReadsBack (type : FieldType) : Prop :=
  ∀ value : Value, value.IsProper → type.validate value = .ok () →
    type.interpret value.toWire = .ok value

theorem readsBack_scalar (kind : Scalar) : (scalar kind).ReadsBack := by
  intro value _ hvalid
  have hadmits := validate_scalar_eq_ok_iff.mp hvalid
  exact interpret_scalar_eq_ok_iff.mpr ⟨rfl, hadmits⟩

theorem ReadsBack.optional {inner : FieldType} (hinner : inner.ReadsBack) :
    (optional inner).ReadsBack := by
  intro value hproper hvalid
  cases value with
  | optional content =>
    cases content with
    | none => rfl
    | some content => exact interpret_optional_toWire (hinner content hproper hvalid)
  | _ => cases hvalid

theorem readsBack_set (kind : Scalar) : (set (scalar kind)).ReadsBack := by
  intro value hproper hvalid
  cases value with
  | set keys =>
    refine interpret_set_toWire hproper fun key hmem => ?_
    exact validateKey_scalar_iff.mp (forM_eq_ok_iff.mp hvalid key hmem)
  | _ => cases hvalid

theorem ReadsBack.list {element : FieldType} (helement : element.ReadsBack) :
    (list element).ReadsBack := by
  intro value hproper hvalid
  cases value with
  | list items =>
    refine interpret_list_toWire fun item hmem => ?_
    exact helement item (Value.areProper_iff.mp hproper item hmem)
      (forM_eq_ok_iff.mp hvalid item hmem)
  | _ => cases hvalid

theorem ReadsBack.dict {kind : Scalar} {content : FieldType}
    (hcontent : content.ReadsBack) :
    (dict (scalar kind) content).ReadsBack := by
  intro value hproper hvalid
  cases value with
  | dict entries =>
    refine interpret_dict_toWire hproper.1 fun entry hmem => ?_
    obtain ⟨hkey, hvalue⟩ := validate_dict_eq_ok_iff.mp hvalid entry hmem
    exact ⟨validateKey_scalar_iff.mp hkey, hcontent entry.2
      (Value.areProperEntries_iff.mp hproper.2 entry hmem) hvalue⟩
  | _ => cases hvalid

/-- The member that a value belongs to reads it, because those before it have
no shape in common with it. -/
theorem interpretAny_toWire {members : List FieldType} {value : Value}
    (hdistinct : areDistinct members = true)
    (hmembers : ∀ member ∈ members, member.ReadsBack)
    (hproper : value.IsProper) (hvalid : validateAny members value = true) :
    interpretAny members value.toWire = some value := by
  induction members with
  | nil => cases hvalid
  | cons member rest ih =>
    rw [areDistinct, Bool.and_eq_true, Bool.and_eq_true, List.all_eq_true]
      at hdistinct
    obtain ⟨⟨-, hapart⟩, hothers⟩ := hdistinct
    obtain ⟨hmember, hrest⟩ := List.forall_mem_cons.mp hmembers
    rw [validateAny, Bool.or_eq_true, isOk_iff] at hvalid
    rw [interpretAny]
    cases hvalid with
    | inl hvalid => rw [hmember value hproper hvalid]
    | inr hvalid =>
      split
      · -- What this member can read has one of its own shapes.
        rename_i other hother
        have hmine := hapart _ (kind_mem_of_interpret member hother)
        have htheirs := kind_mem_of_validateAny rest hvalid
        simp [htheirs] at hmine
      · exact ih hothers hrest hvalid

theorem readsBack_union {members : List FieldType}
    (hdistinct : areDistinct members = true)
    (hmembers : ∀ member ∈ members, member.ReadsBack) :
    (union members).ReadsBack := by
  intro value hproper hvalid
  simp only [validate] at hvalid
  split at hvalid
  · rename_i hany
    simp only [interpret, interpretAny_toWire hdistinct hmembers hproper hany]
  · cases hvalid

theorem readsBack_struct {name : String} {fields : List (String × FieldType)}
    (hnodup : (fields.map Prod.fst).Nodup)
    (hfields : ∀ field ∈ fields, field.2.ReadsBack) :
    (struct name fields).ReadsBack := by
  intro value hproper hvalid
  cases value with
  | struct values =>
    have hvalues := validate_struct_eq_ok_iff.mp hvalid
    refine interpret_struct_toWire hnodup ((forall₂_with_mem hvalues).imp ?_)
    rintro field entry ⟨hfield, hentry, hname, hvalue⟩
    exact ⟨hname, hfields field hfield entry.2
      (Value.areProperFields_iff.mp hproper entry hentry) hvalue⟩
  | _ => cases hvalid

mutual

/-- Well-formed types whose unions are unambiguous read back what was written
of their values. -/
theorem readsBack : ∀ type : FieldType, type.isUnambiguous = true →
    type.check = .ok () → type.ReadsBack
  | scalar kind, _, _ => readsBack_scalar kind
  | optional inner, hdistinct, hcheck =>
    (readsBack inner hdistinct hcheck).optional
  | set element, _, hcheck => by
    obtain ⟨kind, rfl, -⟩ := check_set_eq_ok_iff.mp hcheck
    exact readsBack_set kind
  | list element, hdistinct, hcheck => (readsBack element hdistinct hcheck).list
  | dict key content, hdistinct, hcheck => by
    rw [isUnambiguous, Bool.and_eq_true] at hdistinct
    obtain ⟨⟨kind, rfl, -⟩, hvalue⟩ := check_dict_eq_ok_iff.mp hcheck
    have hcontent := readsBack content hdistinct.2 hvalue
    exact hcontent.dict
  | union members, hdistinct, hcheck =>
    readsBack_union hdistinct
      (readsBack_members members hdistinct
        (check_union_eq_ok_iff.mp hcheck).2.1)
  | struct name fields, hdistinct, hcheck => by
    obtain ⟨-, htypes, hnodup⟩ := check_struct_eq_ok_iff.mp hcheck
    exact readsBack_struct hnodup (readsBack_fields fields hdistinct htypes)

theorem readsBack_members : ∀ members : List FieldType,
    areDistinct members = true → (∀ member ∈ members, member.check = .ok ()) →
    ∀ member ∈ members, member.ReadsBack
  | [], _, _ => by simp
  | member :: rest, hdistinct, hcheck => by
    rw [areDistinct, Bool.and_eq_true, Bool.and_eq_true] at hdistinct
    obtain ⟨hfirst, hrest⟩ := List.forall_mem_cons.mp hcheck
    exact List.forall_mem_cons.mpr ⟨readsBack member hdistinct.1.1 hfirst,
      readsBack_members rest hdistinct.2 hrest⟩

theorem readsBack_fields : ∀ fields : List (String × FieldType),
    areUnambiguous fields = true → (∀ field ∈ fields, field.2.check = .ok ()) →
    ∀ field ∈ fields, field.2.ReadsBack
  | [], _, _ => by simp
  | (name, type) :: rest, hdistinct, hcheck => by
    rw [areUnambiguous, Bool.and_eq_true] at hdistinct
    obtain ⟨hfirst, hrest⟩ := List.forall_mem_cons.mp hcheck
    exact List.forall_mem_cons.mpr ⟨readsBack type hdistinct.1 hfirst,
      readsBack_fields rest hdistinct.2 hrest⟩

end

end FieldType

end Colloquy
