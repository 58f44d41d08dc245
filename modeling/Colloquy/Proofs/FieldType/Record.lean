import Colloquy.Proofs.FieldType.Reading

/-!
# Records on the wire

A record is read by counting the entries of a map and looking up each declared
name, the first entry of a name being the one that counts.  Main statement: no
entry is read past in this way.  The entries that are read are those of the
declared fields, one for each, in any order; so no name occurs twice, none is
unknown, and the value does not depend on the order of the entries.
-/

namespace Colloquy.FieldType

/-- One entry for each field of a record, in the order of declaration: the key is
the name as a text, and the value can be read at the type of the field. -/
def Enumerates (fields : List (String × FieldType))
    (entries : List (Wire × Wire)) : Prop :=
  List.Forall₂ (fun field entry => .str field.1 = entry.1
    ∧ field.2.Reads entry.2) fields entries

section Records

variable {name : String} {fields : List (String × FieldType)}
  {entries ordered shuffled : List (Wire × Wire)} {value : Value}

theorem Enumerates.keys_eq (henumerates : Enumerates fields ordered) :
    ordered.map Prod.fst = (fields.map Prod.fst).map Wire.str := by
  rw [List.map_map]
  exact (map_eq_map_of_forall₂ henumerates).symm

theorem Enumerates.nodup (henumerates : Enumerates fields ordered)
    (hnodup : (fields.map Prod.fst).Nodup) : (ordered.map Prod.fst).Nodup := by
  rw [henumerates.keys_eq]
  exact List.Nodup.map (fun _ _ => Wire.str.inj) hnodup

/-- Entries that can be picked out of a map, one for each field, are all of it if
there are no more entries than fields. -/
theorem exists_enumerates (hnodup : (fields.map Prod.fst).Nodup)
    (hlength : entries.length = fields.length)
    (hreads : ∀ field ∈ fields, ∃ wire, (.str field.1, wire) ∈ entries
      ∧ field.2.Reads wire) :
    ∃ ordered, entries.Perm ordered ∧ Enumerates fields ordered := by
  have hpicked : ∀ field ∈ fields, ∃ entry : Wire × Wire,
      entry ∈ entries ∧ .str field.1 = entry.1 ∧ field.2.Reads entry.2 := by
    intro field hmem
    obtain ⟨wire, hwire, hread⟩ := hreads field hmem
    exact ⟨_, hwire, rfl, hread⟩
  obtain ⟨ordered, hordered⟩ := exists_forall₂_iff.mpr hpicked
  have henumerates : Enumerates fields ordered :=
    hordered.imp fun _ _ hentry => hentry.2
  have hsubset : ordered ⊆ entries := by
    intro entry hmem
    obtain ⟨_, -, hentry, -⟩ := exists_left_of_mem hordered hmem
    exact hentry
  have hdistinct : ordered.Nodup :=
    List.Nodup.of_map _ (henumerates.nodup hnodup)
  refine ⟨ordered, ?_, henumerates⟩
  exact ((List.subperm_of_subset hdistinct hsubset).perm_of_length_le
    (Nat.le_of_eq (hlength.trans henumerates.length_eq))).symm

theorem reads_struct_iff_enumerates (hnodup : (fields.map Prod.fst).Nodup) :
    (struct name fields).Reads (.map entries) ↔
      ∃ ordered, entries.Perm ordered ∧ Enumerates fields ordered := by
  rw [reads_struct_iff hnodup]
  constructor
  · rintro ⟨_, hentries, hkeys, hreads⟩
    cases hentries
    exact exists_enumerates hnodup (by simpa using hkeys.length_eq) hreads
  · rintro ⟨ordered, hperm, henumerates⟩
    refine ⟨entries, rfl, ?_, fun field hmem => ?_⟩
    · rw [← henumerates.keys_eq]
      exact hperm.map Prod.fst
    · obtain ⟨⟨key, wire⟩, hentry, rfl, hread⟩ :=
        exists_right_of_mem henumerates hmem
      exact ⟨wire, hperm.mem_iff.mpr hentry, hread⟩

theorem findField_of_perm (hdistinct : (entries.map Prod.fst).Nodup)
    (hperm : shuffled.Perm entries) (field : String) :
    findField field shuffled = findField field entries := by
  have hshuffled := (hperm.map Prod.fst).nodup_iff.mpr hdistinct
  apply Option.ext
  intro wire
  rw [findField_eq_some_iff hshuffled, findField_eq_some_iff hdistinct,
    hperm.mem_iff]

theorem interpret_struct_of_perm (hdistinct : (entries.map Prod.fst).Nodup)
    (hperm : shuffled.Perm entries)
    (hread : (struct name fields).interpret (.map entries) = .ok value) :
    (struct name fields).interpret (.map shuffled) = .ok value := by
  obtain ⟨_, values, hentries, rfl, hlength, hfields⟩ :=
    interpret_struct_eq_ok_iff.mp hread
  cases hentries
  refine interpret_struct_eq_ok_iff.mpr
    ⟨shuffled, values, rfl, rfl, hperm.length_eq.trans hlength, ?_⟩
  simpa only [findField_of_perm hdistinct hperm] using hfields

end Records

/-- A record whose fields are named apart is read from a map exactly if the
entries are those of its fields, one for each, in some order.  Then no two entries
have the same key and no key is unknown; the value lists what the entries hold
under the names of the fields, in the order of declaration; and any other order
of the entries is read as the same value. -/
theorem interpret_struct_exact (name : String)
    {fields : List (String × FieldType)} (hnodup : (fields.map Prod.fst).Nodup)
    (entries : List (Wire × Wire)) :
    ((∃ value, (struct name fields).interpret (.map entries) = .ok value) ↔
      ∃ ordered, entries.Perm ordered ∧ Enumerates fields ordered) ∧
    ∀ value, (struct name fields).interpret (.map entries) = .ok value →
      (entries.map Prod.fst).Nodup ∧
      (∀ entry ∈ entries, ∃ field ∈ fields, entry.1 = .str field.1) ∧
      (∃ values, value = .struct values
        ∧ List.Forall₂ (fun field found => field.1 = found.1
          ∧ ∃ wire, (.str field.1, wire) ∈ entries
            ∧ field.2.interpret wire = .ok found.2) fields values) ∧
      ∀ shuffled, shuffled.Perm entries →
        (struct name fields).interpret (.map shuffled) = .ok value := by
  refine ⟨reads_struct_iff_enumerates hnodup, fun value hread => ?_⟩
  obtain ⟨ordered, hperm, henumerates⟩ :=
    (reads_struct_iff_enumerates hnodup).mp ⟨value, hread⟩
  have hdistinct : (entries.map Prod.fst).Nodup :=
    (hperm.map Prod.fst).nodup_iff.mpr (henumerates.nodup hnodup)
  refine ⟨hdistinct, fun entry hmem => ?_, ?_, fun shuffled hshuffled =>
    interpret_struct_of_perm hdistinct hshuffled hread⟩
  · obtain ⟨field, hfield, hkey, -⟩ :=
      exists_left_of_mem henumerates (hperm.mem_iff.mp hmem)
    exact ⟨field, hfield, hkey.symm⟩
  · obtain ⟨_, values, hentries, hvalue, -, hfields⟩ :=
      interpret_struct_eq_ok_iff.mp hread
    cases hentries
    refine ⟨values, hvalue, hfields.imp ?_⟩
    rintro field found ⟨hname, wire, hwire, hfound⟩
    exact ⟨hname, wire, mem_of_findField hwire, hfound⟩

/-- What to search for, and how much of it. -/
def searchFields : List (String × FieldType) :=
  [("subject", scalar .str), ("limit", scalar .int)]

/-- A search is read from either order of its entries; a subject in the place of
the limit is not read past. -/
theorem interpret_struct_exact_search :
    let read := (struct "Search" searchFields).interpret
    let subject : Wire × Wire := (.str "subject", .str "books")
    let limit : Wire × Wire := (.str "limit", .int 4)
    (searchFields.map Prod.fst).Nodup
      ∧ read (.map [limit, subject])
        = .ok (.struct [("subject", .str "books"), ("limit", .int 4)])
      ∧ read (.map [subject, limit])
        = .ok (.struct [("subject", .str "books"), ("limit", .int 4)])
      ∧ ¬ ∃ value, read (.map [subject, (.str "subject", .str "pears")])
        = .ok value := by
  intro read subject limit
  have hnodup : (searchFields.map Prod.fst).Nodup := by decide
  have hread : read (.map [limit, subject])
      = .ok (.struct [("subject", .str "books"), ("limit", .int 4)]) := rfl
  obtain ⟨-, hexact⟩ :=
    interpret_struct_exact "Search" hnodup [limit, subject]
  obtain ⟨-, hrepeated⟩ := interpret_struct_exact "Search" hnodup
    [subject, (.str "subject", .str "pears")]
  refine ⟨hnodup, hread, (hexact _ hread).2.2.2 _ (List.Perm.swap _ _ _), ?_⟩
  rintro ⟨value, hvalue⟩
  simpa [subject] using (hrepeated value hvalue).1

end Colloquy.FieldType
