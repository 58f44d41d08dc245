import Colloquy.Proofs.FieldType.Reading

/-!
# How deeply a type is nested

A type bounds the depth of the wire trees of its values: every container adds a
level, a union has those of its deepest member.
-/

namespace Colloquy

namespace Wire

theorem depthItems_le_iff {items : List Wire} {levels : Nat} :
    depthItems items ≤ levels ↔ ∀ item ∈ items, item.depth ≤ levels := by
  induction items with
  | nil => simp [depthItems]
  | cons item rest ih =>
    rw [depthItems, Nat.max_le, ih, List.forall_mem_cons]

theorem depthEntries_le_iff {entries : List (Wire × Wire)} {levels : Nat} :
    depthEntries entries ≤ levels ↔
      ∀ entry ∈ entries, entry.1.depth ≤ levels ∧ entry.2.depth ≤ levels := by
  induction entries with
  | nil => simp [depthEntries]
  | cons entry rest ih =>
    rw [depthEntries, Nat.max_le, Nat.max_le, ih, List.forall_mem_cons]

end Wire

theorem Key.depth_toWire (key : Key) : key.toWire.depth = 0 := by
  cases key <;> rfl

namespace FieldType

mutual

/-- How many arrays and maps may stand inside each other in a value. -/
def levels : FieldType → Nat
  | scalar _ => 0
  | optional inner => levels inner + 1
  | union members => memberLevels members
  | set _ => 1
  | list element => levels element + 1
  | dict _ content => levels content + 1
  | struct _ fields => fieldLevels fields + 1

def memberLevels : List FieldType → Nat
  | [] => 0
  | member :: rest => max (levels member) (memberLevels rest)

def fieldLevels : List (String × FieldType) → Nat
  | [] => 0
  | (_, type) :: rest => max (levels type) (fieldLevels rest)

end

theorem levels_le_memberLevels {members : List FieldType} {member : FieldType}
    (hmem : member ∈ members) : member.levels ≤ memberLevels members := by
  induction members with
  | nil => cases hmem
  | cons first rest ih =>
    rw [memberLevels]
    rcases List.mem_cons.mp hmem with rfl | hrest
    · exact Nat.le_max_left _ _
    · exact Nat.le_trans (ih hrest) (Nat.le_max_right _ _)

theorem levels_le_fieldLevels {fields : List (String × FieldType)}
    {field : String × FieldType} (hmem : field ∈ fields) :
    field.2.levels ≤ fieldLevels fields := by
  induction fields with
  | nil => cases hmem
  | cons first rest ih =>
    rw [fieldLevels]
    rcases List.mem_cons.mp hmem with rfl | hrest
    · exact Nat.le_max_left _ _
    · exact Nat.le_trans (ih hrest) (Nat.le_max_right _ _)

/-- No value is nested deeper than its type. -/
theorem IsWellFormed.depth_le_levels {type : FieldType} {value : Value}
    (hwell : type.IsWellFormed) (hvalid : type.validate value = .ok ()) :
    value.toWire.depth ≤ type.levels := by
  induction hwell generalizing value with
  | scalar kind =>
    rw [validate] at hvalid
    split at hvalid
    · rename_i hadmits
      cases kind <;> cases value <;> first | exact Nat.zero_le 0 | cases hadmits
    · cases hvalid
  | optional _ ih =>
    cases value with
    | optional inner =>
      cases inner with
      | none => exact Nat.succ_le_succ (Nat.zero_le _)
      | some inner =>
        have hinner := ih hvalid
        refine Nat.succ_le_succ (Wire.depthItems_le_iff.mpr fun item hmem => ?_)
        rw [Value.toWireOption, List.mem_pair] at hmem
        rcases hmem with rfl | rfl
        · exact Nat.zero_le _
        · exact hinner
    | _ => cases hvalid
  | union _ ih =>
    obtain ⟨member, hmem, hmember⟩ := validate_union_eq_ok_iff.mp hvalid
    exact Nat.le_trans (ih member hmem hmember) (levels_le_memberLevels hmem)
  | set kind =>
    cases value with
    | set keys =>
      refine Nat.succ_le_succ (Wire.depthItems_le_iff.mpr fun item hmem => ?_)
      obtain ⟨key, -, rfl⟩ := List.mem_map.mp hmem
      exact Nat.le_of_eq key.depth_toWire
    | _ => cases hvalid
  | list _ ih =>
    cases value with
    | list items =>
      have hitems := forM_eq_ok_iff.mp hvalid
      refine Nat.succ_le_succ (Wire.depthItems_le_iff.mpr fun wire hmem => ?_)
      rw [Value.toWireItems_eq_map] at hmem
      obtain ⟨item, hitem, rfl⟩ := List.mem_map.mp hmem
      exact ih (hitems item hitem)
    | _ => cases hvalid
  | dict kind _ ih =>
    cases value with
    | dict entries =>
      have hentries := validate_dict_eq_ok_iff.mp hvalid
      refine Nat.succ_le_succ (Wire.depthEntries_le_iff.mpr fun wire hmem => ?_)
      rw [Value.toWireEntries_eq_map] at hmem
      obtain ⟨entry, hentry, rfl⟩ := List.mem_map.mp hmem
      refine ⟨?_, ih (hentries entry hentry).2⟩
      exact Nat.le_trans (Nat.le_of_eq entry.1.depth_toWire) (Nat.zero_le _)
    | _ => cases hvalid
  | struct name _ _ ih =>
    cases value with
    | struct values =>
      have hfields := validate_struct_eq_ok_iff.mp hvalid
      refine Nat.succ_le_succ (Wire.depthEntries_le_iff.mpr fun wire hmem => ?_)
      rw [Value.toWireFields_eq_map] at hmem
      obtain ⟨entry, hentry, rfl⟩ := List.mem_map.mp hmem
      obtain ⟨field, hfield, -, hvalue⟩ := exists_left_of_mem hfields hentry
      refine ⟨Nat.zero_le _, ?_⟩
      exact Nat.le_trans (ih field hfield hvalue) (levels_le_fieldLevels hfield)
    | _ => cases hvalid

end FieldType

end Colloquy
