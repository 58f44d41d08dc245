/-!
# Sorted texts

Texts in increasing order, each once.  Texts compare by code points, which is
also the order of their UTF-8 bytes.
-/

namespace Colloquy.Text

/-- Put a text into its place; one that is there already is not added again. -/
def insertSorted (text : String) : List String → List String
  | [] => [text]
  | first :: rest =>
    if text < first then text :: first :: rest
    else if text = first then first :: rest
    else first :: insertSorted text rest

/-- The texts of a list in increasing order, each once. -/
def sort (texts : List String) : List String :=
  texts.foldr insertSorted []

theorem mem_insertSorted_iff {text other : String} {texts : List String} :
    other ∈ insertSorted text texts ↔ other = text ∨ other ∈ texts := by
  induction texts with
  | nil => simp [insertSorted]
  | cons first rest ih =>
    simp only [insertSorted]
    split
    · simp
    · split
      · rename_i heq
        subst heq
        simp
      · simp only [List.mem_cons, ih]
        exact or_left_comm

@[simp]
theorem mem_sort_iff {text : String} {texts : List String} :
    text ∈ sort texts ↔ text ∈ texts := by
  induction texts with
  | nil => simp [sort]
  | cons first rest ih =>
    rw [sort, List.foldr_cons, mem_insertSorted_iff, List.mem_cons]
    exact or_congr_right ih

theorem sort_eq_nil_iff {texts : List String} : sort texts = [] ↔ texts = [] := by
  constructor
  · intro hempty
    cases texts with
    | nil => rfl
    | cons first rest =>
      have hmem : first ∈ sort (first :: rest) :=
        mem_sort_iff.mpr List.mem_cons_self
      rw [hempty] at hmem
      cases hmem
  · rintro rfl
    rfl

theorem pairwise_insertSorted {text : String} {texts : List String}
    (hsorted : texts.Pairwise (· < ·)) :
    (insertSorted text texts).Pairwise (· < ·) := by
  induction texts with
  | nil => exact List.pairwise_singleton _ text
  | cons first rest ih =>
    obtain ⟨hfirst, hrest⟩ := List.pairwise_cons.mp hsorted
    simp only [insertSorted]
    split
    · rename_i hlt
      refine List.pairwise_cons.mpr ⟨fun other hmem => ?_, hsorted⟩
      rcases List.mem_cons.mp hmem with rfl | hlater
      · exact hlt
      · exact String.lt_trans hlt (hfirst other hlater)
    · split
      · exact hsorted
      · rename_i hge hne
        refine List.pairwise_cons.mpr ⟨fun other hmem => ?_, ih hrest⟩
        rcases mem_insertSorted_iff.mp hmem with rfl | hlater
        · exact Std.lt_of_le_of_ne (String.not_lt.mp hge) (Ne.symm hne)
        · exact hfirst other hlater

theorem pairwise_sort (texts : List String) :
    (sort texts).Pairwise (· < ·) := by
  induction texts with
  | nil => exact List.Pairwise.nil
  | cons first rest ih => exact pairwise_insertSorted ih

/-- Sorting does not see the order of a list, nor what it repeats. -/
theorem sort_congr {left right : List String}
    (hmem : ∀ text, text ∈ left ↔ text ∈ right) : sort left = sort right := by
  have hnodup : ∀ texts : List String, (sort texts).Nodup := fun texts =>
    (pairwise_sort texts).imp String.ne_of_lt
  have hperm : (sort left).Perm (sort right) :=
    (List.perm_ext_iff_of_nodup (hnodup left) (hnodup right)).mpr fun text => by
      rw [mem_sort_iff, mem_sort_iff, hmem]
  refine hperm.eq_of_pairwise (fun first second _ _ hlt hgt => ?_)
    (pairwise_sort left) (pairwise_sort right)
  exact absurd hgt (String.lt_asymm hlt)

end Colloquy.Text
