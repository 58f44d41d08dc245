import Colloquy.Document
import Mathlib.Data.List.Forall2

/-!
# Mappings without repeated keys

What is read from a mapping keeps every entry of it, in the same order, or nothing
is read at all: a key that was seen before is an error, so the map that was
read has one entry for each entry of the document.
-/

namespace Colloquy.Document

section Mappings

variable {ν : Type} {value : Document → Except Fault ν} {render : ν → Document}
  {document : Document} {entries : List (Document × Document)}
  {map seen : OrderedMap String ν}

/-- The keys of a mapping that can be read. -/
def names : Document → List String
  | mapping entries _ => entries.filterMap fun entry => (asText entry.1).toOption
  | _ => []

/-- What stands in a mapping, under any key. -/
def contents : Document → List Document
  | mapping entries _ => entries.map Prod.snd
  | _ => []

theorem names_of_isNull (hnull : document.isNull = true) : document.names = [] := by
  cases document with
  | mapping entries ended => cases hnull
  | _ => rfl

theorem contents_of_isNull (hnull : document.isNull = true) :
    document.contents = [] := by
  cases document with
  | mapping entries ended => cases hnull
  | _ => rfl

/-- An entry is read as a name and a value. -/
def ReadsEntry (value : Document → Except Fault ν) (entry : Document × Document)
    (found : String × ν) : Prop :=
  asText entry.1 = .ok found.1 ∧ value entry.2 = .ok found.2

theorem names_of_readsEntry {found : List (String × ν)}
    (hread : List.Forall₂ (ReadsEntry value) entries found) (ended : Bool) :
    (mapping entries ended).names = found.map Prod.fst := by
  induction hread with
  | nil => rfl
  | cons hentry _ ih =>
    rw [names] at ih ⊢
    rw [List.filterMap_cons, hentry.1, ih]
    rfl

theorem exists_of_readsEntry {found : List (String × ν)}
    (hread : List.Forall₂ (ReadsEntry value) entries found) :
    ∀ entry ∈ entries, ∃ pair ∈ found, ReadsEntry value entry pair := by
  induction hread with
  | nil => exact List.forall_mem_nil _
  | cons hentry _ ih =>
    refine List.forall_mem_cons.mpr ⟨⟨_, List.mem_cons_self, hentry⟩, ?_⟩
    intro entry hmem
    obtain ⟨pair, hpair, hreads⟩ := ih entry hmem
    exact ⟨pair, List.mem_cons_of_mem _ hpair, hreads⟩

theorem requireEnd_eq_ok_iff {ended : Bool} :
    requireEnd ended = .ok () ↔ ended = true := by
  cases ended <;> simp [requireEnd]

/-- Every entry is read and put behind those that were seen.  None can be left
out, because a map has no two entries under one key. -/
theorem readEntries_eq_ok_iff :
    readEntries value seen entries = .ok map ↔
      ∃ found, List.Forall₂ (ReadsEntry value) entries found
        ∧ map.entries = seen.entries ++ found := by
  induction entries generalizing seen with
  | nil =>
    simp only [readEntries, Except.ok.injEq, List.forall₂_nil_left_iff,
      exists_eq_left, List.append_nil]
    constructor
    · rintro rfl
      rfl
    · intro hentries
      exact (OrderedMap.ext_entries hentries).symm
  | cons entry rest ih =>
    obtain ⟨key, document⟩ := entry
    simp only [readEntries, bind_eq_ok_iff]
    constructor
    · rintro ⟨name, hname, content, hcontent, hrest⟩
      split at hrest
      · cases hrest
      rename_i hnew
      rw [OrderedMap.contains_iff_mem] at hnew
      obtain ⟨found, hfound, hentries⟩ := ih.mp hrest
      rw [OrderedMap.entries_insertNew_of_not_mem _ hnew, List.append_assoc]
        at hentries
      exact ⟨_, .cons ⟨hname, hcontent⟩ hfound, hentries⟩
    · rintro ⟨_, hread, hentries⟩
      cases hread with
      | @cons _ first _ found hfirst hfound =>
        have hnew : first.1 ∉ seen.keys := by
          intro hmem
          have hnodup := map.nodup_keys
          rw [hentries, List.map_append, List.nodup_append] at hnodup
          exact hnodup.2.2 _ hmem _ List.mem_cons_self rfl
        refine ⟨_, hfirst.1, _, hfirst.2, ?_⟩
        rw [if_neg (mt OrderedMap.contains_iff_mem.mp hnew), ih]
        refine ⟨found, hfound, ?_⟩
        rw [OrderedMap.entries_insertNew_of_not_mem _ hnew, hentries]
        simp

theorem asOrderedMap_eq_ok_iff :
    asOrderedMap value document = .ok map ↔
      document.isNull = true ∧ map = ∅ ∨ ∃ entries,
        document = mapping entries true
          ∧ List.Forall₂ (ReadsEntry value) entries map.entries := by
  rw [asOrderedMap.eq_def]
  split
  case isTrue hnull =>
    constructor
    · intro heq
      cases heq
      exact .inl ⟨hnull, rfl⟩
    · rintro (⟨-, rfl⟩ | ⟨entries, rfl, -⟩)
      · rfl
      · cases hnull
  case isFalse hnull =>
    split
    · rename_i entries ended
      simp only [bind_eq_ok_iff, readEntries_eq_ok_iff]
      constructor
      · rintro ⟨_, ⟨found, hfound, hentries⟩, ⟨⟩, hended, heq⟩
        cases heq
        cases requireEnd_eq_ok_iff.mp hended
        refine .inr ⟨entries, rfl, ?_⟩
        rwa [hentries]
      · rintro (⟨hempty, -⟩ | ⟨_, heq, hentries⟩)
        · exact absurd hempty hnull
        · cases heq
          exact ⟨map, ⟨_, hentries, rfl⟩, (), rfl, rfl⟩
    · rename_i hother
      constructor
      · intro heq
        cases heq
      · rintro (⟨hempty, -⟩ | ⟨entries, heq, -⟩)
        · exact absurd hempty hnull
        · exact (hother entries true heq).elim

/-- So the names in a mapping that is read are told apart. -/
theorem names_of_asOrderedMap (hread : asOrderedMap value document = .ok map) :
    document.names = map.keys := by
  rcases asOrderedMap_eq_ok_iff.mp hread with
    ⟨hnull, rfl⟩ | ⟨entries, rfl, hentries⟩
  · exact names_of_isNull hnull
  · exact names_of_readsEntry hentries true

theorem exists_of_mem_contents (hread : asOrderedMap value document = .ok map) :
    ∀ content ∈ document.contents, ∃ found, value content = .ok found := by
  intro content hmem
  rcases asOrderedMap_eq_ok_iff.mp hread with
    ⟨hnull, rfl⟩ | ⟨entries, rfl, hentries⟩
  · rw [contents_of_isNull hnull] at hmem
    cases hmem
  · obtain ⟨entry, hentry, rfl⟩ := List.mem_map.mp hmem
    obtain ⟨pair, -, -, hvalue⟩ := exists_of_readsEntry hentries entry hentry
    exact ⟨pair.2, hvalue⟩

theorem asOrderedMap_ofOrderedMap
    (hrender : ∀ content, value (render content) = .ok content)
    (map : OrderedMap String ν) :
    asOrderedMap value (ofOrderedMap render map) = .ok map := by
  refine asOrderedMap_eq_ok_iff.mpr (.inr ⟨_, rfl, ?_⟩)
  simp [OrderedMap.mapValues, ReadsEntry, asText, hrender]

end Mappings

end Colloquy.Document
