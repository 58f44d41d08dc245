import Colloquy.Bytes

/-!
# Keys

Set elements and dictionary keys are scalars with a total order: bytes before
texts before integers before booleans.  `Key.sort` lists keys in increasing
order, each once; it keeps their membership, and a list that is increasing
already stays as it is.
-/

namespace Colloquy

inductive Key where
  | bytes (content : Bytes)
  | str (text : String)
  | int (number : Int64)
  | bool (truth : Bool)
  deriving DecidableEq, Repr

namespace Key

def asStr? : Key → Option String
  | str text => some text
  | _ => none

/-! ## Order -/

/-- The place of a kind of keys among the kinds. -/
def rank : Key → Nat
  | bytes _ => 0
  | str _ => 1
  | int _ => 2
  | bool _ => 3

/-- Keys compare by kind first; texts and bytes compare from the left, texts by
code points, which is also the order of their UTF-8 bytes. -/
def compare : Key → Key → Ordering
  | bytes a, bytes b => Ord.compare a b
  | str a, str b => Ord.compare a b
  | int a, int b => Ord.compare a b
  | bool a, bool b => Ord.compare a b
  | a, b => Ord.compare a.rank b.rank

instance : Ord Key := ⟨Key.compare⟩

theorem compare_swap (a b : Key) : a.compare b = (b.compare a).swap := by
  cases a <;> cases b <;> simp only [compare] <;>
    exact Std.OrientedCmp.eq_swap

theorem isLE_compare_trans {a b c : Key} (hab : (a.compare b).isLE = true)
    (hbc : (b.compare c).isLE = true) : (a.compare c).isLE = true := by
  cases a <;> cases b <;> cases c <;> simp only [compare, rank] at hab hbc ⊢ <;>
    first
    | exact Std.TransCmp.isLE_trans hab hbc
    | assumption
    | exact absurd (And.intro hab hbc) (by decide)

theorem compare_eq_iff {a b : Key} : a.compare b = .eq ↔ a = b := by
  cases a <;> cases b <;> simp [compare, rank]

instance : Std.TransOrd Key where
  eq_swap {a b} := compare_swap a b
  isLE_trans := isLE_compare_trans

instance : Std.LawfulEqOrd Key where
  eq_of_compare := compare_eq_iff.mp

theorem lt_compare_trans {a b c : Key} (hab : a.compare b = .lt)
    (hbc : b.compare c = .lt) : a.compare c = .lt := by
  have htrans : Ord.compare a b = .lt → Ord.compare b c = .lt →
      Ord.compare a c = .lt := Std.TransCmp.lt_trans
  exact htrans hab hbc

/-- No key is larger than the true one. -/
theorem compare_bool_true_ne_lt (key : Key) :
    (bool true).compare key ≠ .lt := by
  intro hlt
  cases key with
  | bool truth => cases truth <;> cases hlt
  | _ => cases hlt

/-! ## Sorting -/

/-- Every key is smaller than all keys after it. -/
def Increasing (keys : List Key) : Prop :=
  keys.Pairwise fun a b => a.compare b = .lt

theorem ne_of_compare_eq_lt {a b : Key} (hlt : a.compare b = .lt) : a ≠ b := by
  rintro rfl
  rw [compare_eq_iff.mpr rfl] at hlt
  cases hlt

theorem nodup_of_increasing {keys : List Key} (hkeys : Increasing keys) :
    keys.Nodup :=
  hkeys.imp ne_of_compare_eq_lt

/-- Put a key into its place in an increasing list; one that is there already
is not added again. -/
def insert (key : Key) : List Key → List Key
  | [] => [key]
  | first :: rest =>
    match key.compare first with
    | .lt => key :: first :: rest
    | .eq => first :: rest
    | .gt => first :: insert key rest

/-- The keys of a list in increasing order, each once. -/
def sort (keys : List Key) : List Key :=
  keys.foldl (fun sorted key => insert key sorted) []

theorem mem_insert_iff {key other : Key} {keys : List Key} :
    other ∈ insert key keys ↔ other = key ∨ other ∈ keys := by
  induction keys with
  | nil => simp [insert]
  | cons first rest ih =>
    rw [insert]
    split
    · simp
    · rename_i heq
      rw [compare_eq_iff.mp heq]
      simp
    · simp only [List.mem_cons, ih]
      exact or_left_comm

theorem increasing_insert {keys : List Key} (key : Key)
    (hkeys : Increasing keys) : Increasing (insert key keys) := by
  induction keys with
  | nil => exact List.pairwise_singleton _ _
  | cons first rest ih =>
    obtain ⟨hfirst, hrest⟩ := List.pairwise_cons.mp hkeys
    rw [insert]
    split
    · rename_i hlt
      refine List.pairwise_cons.mpr ⟨fun other hmem => ?_, hkeys⟩
      rcases List.mem_cons.mp hmem with rfl | hother
      · exact hlt
      · exact lt_compare_trans hlt (hfirst other hother)
    · exact hkeys
    · rename_i hgt
      have hlt : first.compare key = .lt := by
        rw [compare_swap, hgt]
        rfl
      refine List.pairwise_cons.mpr ⟨fun other hmem => ?_, ih hrest⟩
      rcases mem_insert_iff.mp hmem with rfl | hother
      · exact hlt
      · exact hfirst other hother

/-- A key above all others is put at the end. -/
theorem insert_eq_append {key : Key} {keys : List Key}
    (habove : ∀ other ∈ keys, other.compare key = .lt) :
    insert key keys = keys ++ [key] := by
  induction keys with
  | nil => rfl
  | cons first rest ih =>
    have hgt : key.compare first = .gt := by
      rw [compare_swap, habove first List.mem_cons_self]
      rfl
    simp only [insert, hgt, List.cons_append]
    rw [ih fun other hmem => habove other (List.mem_cons_of_mem first hmem)]

/-- Sorting goes on from any list that is sorted already. -/
abbrev sortOnto (sorted keys : List Key) : List Key :=
  keys.foldl (fun sorted key => insert key sorted) sorted

theorem mem_sortOnto_iff {key : Key} {sorted keys : List Key} :
    key ∈ sortOnto sorted keys ↔ key ∈ sorted ∨ key ∈ keys := by
  induction keys generalizing sorted with
  | nil => simp
  | cons first rest ih =>
    rw [sortOnto, List.foldl_cons, ih, mem_insert_iff, List.mem_cons, or_assoc,
      or_left_comm]

theorem increasing_sortOnto {sorted : List Key} (keys : List Key)
    (hsorted : Increasing sorted) : Increasing (sortOnto sorted keys) := by
  induction keys generalizing sorted with
  | nil => exact hsorted
  | cons first rest ih => exact ih (increasing_insert first hsorted)

theorem sortOnto_eq_append {sorted keys : List Key}
    (hincreasing : Increasing (sorted ++ keys)) :
    sortOnto sorted keys = sorted ++ keys := by
  induction keys generalizing sorted with
  | nil => simp
  | cons first rest ih =>
    have habove : ∀ other ∈ sorted, other.compare first = .lt := fun other hmem =>
      (List.pairwise_append.mp hincreasing).2.2 other hmem first
        List.mem_cons_self
    have happend : sorted ++ first :: rest = (sorted ++ [first]) ++ rest := by simp
    rw [happend] at hincreasing ⊢
    rw [sortOnto, List.foldl_cons, insert_eq_append habove]
    exact ih hincreasing

@[simp]
theorem mem_sort_iff {key : Key} {keys : List Key} : key ∈ sort keys ↔ key ∈ keys := by
  rw [sort, mem_sortOnto_iff]
  simp

theorem increasing_sort (keys : List Key) : Increasing (sort keys) :=
  increasing_sortOnto keys List.Pairwise.nil

theorem perm_sort {keys : List Key} (hnodup : keys.Nodup) :
    keys.Perm (sort keys) :=
  (List.perm_ext_iff_of_nodup hnodup
    (nodup_of_increasing (increasing_sort keys))).mpr fun _ => mem_sort_iff.symm

theorem sort_of_increasing {keys : List Key} (hkeys : Increasing keys) :
    sort keys = keys :=
  sortOnto_eq_append hkeys

end Key

end Colloquy
