import Colloquy.Result

/-!
# Ordered maps

Finite maps that keep their entries in the order in which the keys were first
added.  No key occurs twice: that is part of the type.  The view of a map is
`get?`, and every operation has one lemma that says what it does to it.
-/

namespace Colloquy

structure OrderedMap (κ ν : Type) where
  entries : List (κ × ν)
  nodup_keys : (entries.map Prod.fst).Nodup

namespace OrderedMap

variable {κ ν μ : Type}

theorem ext_entries {left right : OrderedMap κ ν}
    (hentries : left.entries = right.entries) : left = right := by
  cases left
  cases right
  simp_all

instance [Repr κ] [Repr ν] : Repr (OrderedMap κ ν) :=
  ⟨fun map precedence => reprPrec map.entries precedence⟩

instance [DecidableEq κ] [DecidableEq ν] : DecidableEq (OrderedMap κ ν) :=
  fun left right =>
    decidable_of_iff (left.entries = right.entries)
      ⟨ext_entries, congrArg entries⟩

def empty : OrderedMap κ ν := ⟨[], List.nodup_nil⟩

instance : EmptyCollection (OrderedMap κ ν) := ⟨empty⟩

instance : Inhabited (OrderedMap κ ν) := ⟨empty⟩

def keys (map : OrderedMap κ ν) : List κ := map.entries.map Prod.fst

def values (map : OrderedMap κ ν) : List ν := map.entries.map Prod.snd

def size (map : OrderedMap κ ν) : Nat := map.entries.length

def isEmpty (map : OrderedMap κ ν) : Bool := map.entries.isEmpty

theorem nodup_entries (map : OrderedMap κ ν) : map.entries.Nodup :=
  List.Pairwise.of_map Prod.fst
    (fun _ _ hne heq => hne (congrArg Prod.fst heq)) map.nodup_keys

/-- The values of a map, each replaced by its image; the keys stay. -/
def mapValues (f : ν → μ) (map : OrderedMap κ ν) : OrderedMap κ μ where
  entries := map.entries.map fun entry => (entry.1, f entry.2)
  nodup_keys := by
    have hkeys : (map.entries.map fun entry => (entry.1, f entry.2)).map Prod.fst
        = map.entries.map Prod.fst := by simp [List.map_map, Function.comp_def]
    exact hkeys ▸ map.nodup_keys

/-- The entries that pass a test, in the same order. -/
def filter (keep : κ → ν → Bool) (map : OrderedMap κ ν) : OrderedMap κ ν where
  entries := map.entries.filter fun entry => keep entry.1 entry.2
  nodup_keys := (List.filter_sublist.map Prod.fst).nodup map.nodup_keys

/-! ## Maps of results -/

section Traverse

variable {ε : Type} (f : κ → ν → Except ε μ)

/-- The images of the values of some entries, up to the first error. -/
def traverseEntries : List (κ × ν) → Except ε (List (κ × μ))
  | [] => .ok []
  | (key, value) :: rest => do
    let image ← f key value
    let images ← traverseEntries rest
    .ok ((key, image) :: images)

theorem traverseEntries_cons_eq_ok_iff {key : κ} {value : ν}
    {rest : List (κ × ν)} {images : List (κ × μ)} :
    traverseEntries f ((key, value) :: rest) = .ok images ↔
      ∃ image others, f key value = .ok image
        ∧ traverseEntries f rest = .ok others
        ∧ images = (key, image) :: others := by
  simp only [traverseEntries, bind_eq_ok_iff, Except.ok.injEq]
  constructor
  · rintro ⟨image, hfirst, others, hrest, rfl⟩
    exact ⟨image, others, hfirst, hrest, rfl⟩
  · rintro ⟨image, others, hfirst, hrest, rfl⟩
    exact ⟨image, hfirst, others, hrest, rfl⟩

theorem keys_of_traverseEntries {entries : List (κ × ν)}
    {images : List (κ × μ)} (hrun : traverseEntries f entries = .ok images) :
    images.map Prod.fst = entries.map Prod.fst := by
  induction entries generalizing images with
  | nil =>
    cases hrun
    rfl
  | cons entry rest ih =>
    obtain ⟨image, others, -, hrest, rfl⟩ :=
      (traverseEntries_cons_eq_ok_iff f).mp hrun
    rw [List.map_cons, List.map_cons, ih hrest]

/-- The map of the images of all values, or the first error in order. -/
def traverse (map : OrderedMap κ ν) : Except ε (OrderedMap κ μ) :=
  match hrun : traverseEntries f map.entries with
  | .error cause => .error cause
  | .ok images =>
    .ok ⟨images, keys_of_traverseEntries f hrun ▸ map.nodup_keys⟩

theorem traverse_eq_ok_iff {map : OrderedMap κ ν} {image : OrderedMap κ μ} :
    map.traverse f = .ok image ↔
      traverseEntries f map.entries = .ok image.entries := by
  rw [traverse]
  split
  · rename_i hrun
    simp [hrun]
  · rename_i images hrun
    constructor
    · intro heq
      cases heq
      exact hrun
    · intro himage
      rw [Except.ok.injEq]
      exact ext_entries (Except.ok.inj (hrun.symm.trans himage))

variable {f}

/-- Every image is that of an entry with the same key. -/
theorem exists_of_mem_traverseEntries {entries : List (κ × ν)}
    {images : List (κ × μ)} (hrun : traverseEntries f entries = .ok images)
    {key : κ} {image : μ} (hmem : (key, image) ∈ images) :
    ∃ value, (key, value) ∈ entries ∧ f key value = .ok image := by
  induction entries generalizing images with
  | nil =>
    cases hrun
    cases hmem
  | cons entry rest ih =>
    obtain ⟨first, others, hfirst, hrest, rfl⟩ :=
      (traverseEntries_cons_eq_ok_iff f).mp hrun
    rcases List.mem_cons.mp hmem with heq | hlater
    · cases heq
      exact ⟨entry.2, List.mem_cons_self, hfirst⟩
    · obtain ⟨value, hvalue, himage⟩ := ih hrest hlater
      exact ⟨value, List.mem_cons_of_mem _ hvalue, himage⟩

theorem exists_image_of_mem {entries : List (κ × ν)} {images : List (κ × μ)}
    (hrun : traverseEntries f entries = .ok images) {key : κ} {value : ν}
    (hmem : (key, value) ∈ entries) :
    ∃ image, f key value = .ok image ∧ (key, image) ∈ images := by
  induction entries generalizing images with
  | nil => cases hmem
  | cons entry rest ih =>
    obtain ⟨first, others, hfirst, hrest, rfl⟩ :=
      (traverseEntries_cons_eq_ok_iff f).mp hrun
    rcases List.mem_cons.mp hmem with heq | hlater
    · cases heq
      exact ⟨first, hfirst, List.mem_cons_self⟩
    · obtain ⟨image, himage, hin⟩ := ih hrest hlater
      exact ⟨image, himage, List.mem_cons_of_mem _ hin⟩

theorem traverseEntries_of_images {entries : List (κ × ν)}
    {images : List (κ × μ)} (hnodup : (entries.map Prod.fst).Nodup)
    (hkeys : images.map Prod.fst = entries.map Prod.fst)
    (hall : ∀ key value, (key, value) ∈ entries →
      ∃ image, f key value = .ok image ∧ (key, image) ∈ images) :
    traverseEntries f entries = .ok images := by
  induction entries generalizing images with
  | nil =>
    rw [List.map_eq_nil_iff.mp hkeys]
    rfl
  | cons entry rest ih =>
    obtain ⟨key, value⟩ := entry
    obtain ⟨⟨name, image⟩, others, rfl, hname, hothers⟩ :=
      List.map_eq_cons_iff.mp hkeys
    change name = key at hname
    subst hname
    obtain ⟨hnew, hrest⟩ := List.nodup_cons.mp hnodup
    have hhere : f name value = .ok image := by
      obtain ⟨result, hresult, hin⟩ := hall name value List.mem_cons_self
      rcases List.mem_cons.mp hin with heq | hlater
      · cases heq
        exact hresult
      · exact absurd (hothers ▸ List.mem_map_of_mem hlater) hnew
    refine (traverseEntries_cons_eq_ok_iff f).mpr
      ⟨image, others, hhere, ih hrest hothers ?_, rfl⟩
    intro other found hmem
    obtain ⟨result, hresult, hin⟩ :=
      hall other found (List.mem_cons_of_mem _ hmem)
    rcases List.mem_cons.mp hin with heq | hlater
    · cases heq
      exact absurd (List.mem_map_of_mem hmem) hnew
    · exact ⟨result, hresult, hlater⟩

/-- If no key occurs twice, the images are those of the entries, key by key. -/
theorem traverseEntries_eq_ok_iff {entries : List (κ × ν)}
    {images : List (κ × μ)} (hnodup : (entries.map Prod.fst).Nodup) :
    traverseEntries f entries = .ok images ↔
      images.map Prod.fst = entries.map Prod.fst
        ∧ ∀ key value, (key, value) ∈ entries →
          ∃ image, f key value = .ok image ∧ (key, image) ∈ images :=
  ⟨fun hrun => ⟨keys_of_traverseEntries f hrun,
      fun _ _ hmem => exists_image_of_mem hrun hmem⟩,
    fun ⟨hkeys, hall⟩ => traverseEntries_of_images hnodup hkeys hall⟩

theorem exists_traverseEntries {entries : List (κ × ν)}
    (hall : ∀ key value, (key, value) ∈ entries →
      ∃ image, f key value = .ok image) :
    ∃ images, traverseEntries f entries = .ok images := by
  induction entries with
  | nil => exact ⟨[], rfl⟩
  | cons entry rest ih =>
    obtain ⟨image, himage⟩ := hall entry.1 entry.2 List.mem_cons_self
    obtain ⟨images, himages⟩ :=
      ih fun key value hmem => hall key value (List.mem_cons_of_mem _ hmem)
    exact ⟨_, (traverseEntries_cons_eq_ok_iff f).mpr
      ⟨image, images, himage, himages, rfl⟩⟩

/-- A function that has a result everywhere has a map of results. -/
theorem exists_traverse {map : OrderedMap κ ν}
    (hall : ∀ key value, (key, value) ∈ map.entries →
      ∃ image, f key value = .ok image) :
    ∃ image, map.traverse f = .ok image := by
  obtain ⟨images, himages⟩ := exists_traverseEntries hall
  have hnodup : (images.map Prod.fst).Nodup :=
    keys_of_traverseEntries f himages ▸ map.nodup_keys
  exact ⟨⟨images, hnodup⟩, (traverse_eq_ok_iff f).mpr himages⟩

/-- A function with the same images has the same result. -/
theorem traverseEntries_of_agree {δ : Type} {g : κ → ν → Except δ μ}
    {entries : List (κ × ν)} {images : List (κ × μ)}
    (hrun : traverseEntries f entries = .ok images)
    (hagree : ∀ key value image, (key, value) ∈ entries →
      (key, image) ∈ images → f key value = .ok image →
      g key value = .ok image) :
    traverseEntries g entries = .ok images := by
  induction entries generalizing images with
  | nil =>
    cases hrun
    rfl
  | cons entry rest ih =>
    obtain ⟨image, others, hfirst, hrest, rfl⟩ :=
      (traverseEntries_cons_eq_ok_iff f).mp hrun
    apply (traverseEntries_cons_eq_ok_iff g).mpr
    have hhere := hagree entry.1 entry.2 image List.mem_cons_self
      List.mem_cons_self hfirst
    have hlater := ih hrest fun key value found hentry hfound =>
      hagree key value found (List.mem_cons_of_mem _ hentry)
        (List.mem_cons_of_mem _ hfound)
    exact ⟨image, others, hhere, hlater, rfl⟩

end Traverse

variable [DecidableEq κ]

/-- The value of the first entry of a list that has the given key. -/
def lookup (key : κ) : List (κ × ν) → Option ν
  | [] => none
  | (other, value) :: rest => if key = other then some value else lookup key rest

def get? (map : OrderedMap κ ν) (key : κ) : Option ν := lookup key map.entries

def contains (map : OrderedMap κ ν) (key : κ) : Bool := (map.get? key).isSome

theorem lookup_eq_none_iff {key : κ} {entries : List (κ × ν)} :
    lookup key entries = none ↔ key ∉ entries.map Prod.fst := by
  induction entries with
  | nil => simp [lookup]
  | cons entry rest ih =>
    obtain ⟨other, value⟩ := entry
    by_cases hkey : key = other <;> simp [lookup, hkey, ih]

theorem mem_of_lookup_eq_some {key : κ} {value : ν} {entries : List (κ × ν)}
    (hfound : lookup key entries = some value) : (key, value) ∈ entries := by
  induction entries with
  | nil => simp [lookup] at hfound
  | cons entry rest ih =>
    obtain ⟨other, first⟩ := entry
    by_cases hkey : key = other
    · simp_all [lookup]
    · simp only [lookup, hkey, if_false] at hfound
      exact List.mem_cons_of_mem _ (ih hfound)

/-- Without repeated keys every entry is found under its key. -/
theorem lookup_eq_some_iff {key : κ} {value : ν} {entries : List (κ × ν)}
    (hnodup : (entries.map Prod.fst).Nodup) :
    lookup key entries = some value ↔ (key, value) ∈ entries := by
  refine ⟨mem_of_lookup_eq_some, fun hmem => ?_⟩
  induction entries with
  | nil => simp at hmem
  | cons entry rest ih =>
    obtain ⟨other, first⟩ := entry
    simp only [List.map_cons, List.nodup_cons] at hnodup
    rcases List.mem_cons.mp hmem with heq | hrest
    · simp_all [lookup]
    · have hne : key ≠ other := fun heq =>
        hnodup.1 (heq ▸ List.mem_map.mpr ⟨_, hrest, rfl⟩)
      simp only [lookup, hne, if_false]
      exact ih hnodup.2 hrest

/-- Nor does it matter then from which end one looks. -/
theorem lookup_reverse_iff_mem {key : κ} {value : ν} {entries : List (κ × ν)}
    (hnodup : (entries.map Prod.fst).Nodup) :
    lookup key entries.reverse = some value ↔ (key, value) ∈ entries := by
  have hreverse : (entries.reverse.map Prod.fst).Nodup :=
    ((List.reverse_perm entries).map Prod.fst).nodup_iff.mpr hnodup
  rw [lookup_eq_some_iff hreverse, List.mem_reverse]

theorem get?_eq_some_iff {map : OrderedMap κ ν} {key : κ} {value : ν} :
    map.get? key = some value ↔ (key, value) ∈ map.entries :=
  lookup_eq_some_iff map.nodup_keys

theorem get?_eq_none_iff {map : OrderedMap κ ν} {key : κ} :
    map.get? key = none ↔ key ∉ map.keys :=
  lookup_eq_none_iff

theorem contains_iff_mem {map : OrderedMap κ ν} {key : κ} :
    map.contains key = true ↔ key ∈ map.keys := by
  rw [contains, Option.isSome_iff_ne_none, ne_eq, get?_eq_none_iff,
    Decidable.not_not]

theorem mem_keys_iff {map : OrderedMap κ ν} {key : κ} :
    key ∈ map.keys ↔ ∃ value, map.get? key = some value := by
  rw [← contains_iff_mem, contains, Option.isSome_iff_exists]

theorem mem_values_iff {map : OrderedMap κ ν} {value : ν} :
    value ∈ map.values ↔ ∃ key, map.get? key = some value := by
  simp only [values, List.mem_map, get?_eq_some_iff]
  constructor
  · rintro ⟨⟨key, _⟩, hmem, rfl⟩
    exact ⟨key, hmem⟩
  · rintro ⟨key, hmem⟩
    exact ⟨(key, value), hmem, rfl⟩

theorem contains_iff_exists {map : OrderedMap κ ν} {key : κ} :
    map.contains key = true ↔ ∃ value, map.get? key = some value := by
  rw [contains, Option.isSome_iff_exists]

/-- A map of results has the keys of the map and the result under each. -/
theorem traverse_eq_ok_iff_get? {ε : Type} {f : κ → ν → Except ε μ}
    {map : OrderedMap κ ν} {image : OrderedMap κ μ} :
    map.traverse f = .ok image ↔
      image.keys = map.keys ∧ ∀ key value, map.get? key = some value →
        ∃ result, f key value = .ok result ∧ image.get? key = some result := by
  simp only [traverse_eq_ok_iff, traverseEntries_eq_ok_iff map.nodup_keys,
    get?_eq_some_iff, keys]

/-! ## Adding entries -/

/-- Append an entry, unless the key is there already. -/
def insertNew (map : OrderedMap κ ν) (key : κ) (value : ν) : OrderedMap κ ν :=
  if habsent : key ∈ map.keys then map
  else
    { entries := map.entries ++ [(key, value)]
      nodup_keys := by
        rw [List.map_append, List.nodup_append]
        refine ⟨map.nodup_keys, by simp, ?_⟩
        rintro a ha b hb rfl
        simp only [List.map_cons, List.map_nil, List.mem_singleton] at hb
        exact habsent (hb ▸ ha) }

/-- The map of the first entry of every key in a list. -/
def ofList (entries : List (κ × ν)) : OrderedMap κ ν :=
  entries.foldl (fun map entry => map.insertNew entry.1 entry.2) ∅

theorem entries_insertNew_of_mem {map : OrderedMap κ ν} {key : κ} (value : ν)
    (hmem : key ∈ map.keys) : (map.insertNew key value).entries = map.entries := by
  rw [insertNew, dif_pos hmem]

theorem entries_insertNew_of_not_mem {map : OrderedMap κ ν} {key : κ} (value : ν)
    (habsent : key ∉ map.keys) :
    (map.insertNew key value).entries = map.entries ++ [(key, value)] := by
  rw [insertNew, dif_neg habsent]

theorem lookup_append (key : κ) (left right : List (κ × ν)) :
    lookup key (left ++ right) = (lookup key left).or (lookup key right) := by
  induction left with
  | nil => rfl
  | cons entry rest ih =>
    obtain ⟨other, value⟩ := entry
    by_cases hkey : key = other <;> simp [lookup, hkey, ih]

/-- The entry that is found is the first one with its key. -/
theorem lookup_eq_some_iff_first {key : κ} {value : ν} {entries : List (κ × ν)} :
    lookup key entries = some value ↔
      ∃ before after, entries = before ++ (key, value) :: after
        ∧ key ∉ before.map Prod.fst := by
  constructor
  · intro hfound
    induction entries with
    | nil => cases hfound
    | cons entry rest ih =>
      obtain ⟨other, first⟩ := entry
      rw [lookup] at hfound
      split at hfound
      · rename_i hkey
        cases hfound
        exact ⟨[], rest, by rw [hkey, List.nil_append], List.not_mem_nil⟩
      · rename_i hkey
        obtain ⟨before, after, rfl, hbefore⟩ := ih hfound
        exact ⟨(other, first) :: before, after, rfl, by simp [hkey, hbefore]⟩
  · rintro ⟨before, after, rfl, hbefore⟩
    rw [lookup_append, lookup_eq_none_iff.mpr hbefore, Option.none_or, lookup,
      if_pos rfl]

/-- What was there before is found before the new entry. -/
theorem get?_insertNew (map : OrderedMap κ ν) (key other : κ) (value : ν) :
    (map.insertNew key value).get? other =
      (map.get? other).or (lookup other [(key, value)]) := by
  by_cases hmem : key ∈ map.keys
  · rw [get?, entries_insertNew_of_mem value hmem, ← get?]
    by_cases hother : other = key
    · obtain ⟨old, hold⟩ :=
        contains_iff_exists.mp (contains_iff_mem.mpr (hother ▸ hmem))
      rw [hold, Option.some_or]
    · simp [lookup, hother]
  · rw [get?, entries_insertNew_of_not_mem value hmem, lookup_append, ← get?]

/-- The first entry of a key in a list is the one that counts. -/
theorem get?_ofList (entries : List (κ × ν)) (key : κ) :
    (ofList entries).get? key = lookup key entries := by
  have hfold : ∀ (rest : List (κ × ν)) (map : OrderedMap κ ν),
      (rest.foldl (fun map entry => map.insertNew entry.1 entry.2) map).get? key
        = (map.get? key).or (lookup key rest) := by
    intro rest
    induction rest with
    | nil => simp [lookup]
    | cons entry rest ih =>
      intro map
      rw [List.foldl_cons, ih, get?_insertNew, Option.or_assoc,
        ← lookup_append, List.singleton_append]
  rw [ofList, hfold]
  rfl

/-- Replace the value of a key in its place, or append a new entry. -/
def assign (key : κ) (value : ν) : List (κ × ν) → List (κ × ν)
  | [] => [(key, value)]
  | (other, old) :: rest =>
    if key = other then (key, value) :: rest
    else (other, old) :: assign key value rest

theorem mem_keys_assign_iff {key other : κ} {value : ν}
    {entries : List (κ × ν)} :
    other ∈ (assign key value entries).map Prod.fst ↔
      other = key ∨ other ∈ entries.map Prod.fst := by
  induction entries with
  | nil => simp [assign]
  | cons entry rest ih =>
    obtain ⟨first, old⟩ := entry
    by_cases hkey : key = first
    · simp [assign, hkey]
    · simp only [assign, hkey, if_false, List.map_cons, List.mem_cons, ih]
      exact or_left_comm

theorem nodup_keys_assign {key : κ} {value : ν} {entries : List (κ × ν)}
    (hnodup : (entries.map Prod.fst).Nodup) :
    ((assign key value entries).map Prod.fst).Nodup := by
  induction entries with
  | nil => simp [assign]
  | cons entry rest ih =>
    obtain ⟨first, old⟩ := entry
    simp only [List.map_cons, List.nodup_cons] at hnodup
    by_cases hkey : key = first
    · simpa [assign, hkey] using hnodup
    · simp only [assign, hkey, if_false, List.map_cons, List.nodup_cons,
        mem_keys_assign_iff, not_or]
      exact ⟨⟨fun heq => hkey heq.symm, hnodup.1⟩, ih hnodup.2⟩

def set (map : OrderedMap κ ν) (key : κ) (value : ν) : OrderedMap κ ν :=
  ⟨assign key value map.entries, nodup_keys_assign map.nodup_keys⟩

/-- The map without a key. -/
def erase (map : OrderedMap κ ν) (key : κ) : OrderedMap κ ν :=
  map.filter fun other _ => other ≠ key

theorem lookup_assign (key other : κ) (value : ν) (entries : List (κ × ν)) :
    lookup other (assign key value entries) =
      if other = key then some value else lookup other entries := by
  induction entries with
  | nil => simp [assign, lookup]
  | cons entry rest ih =>
    obtain ⟨first, old⟩ := entry
    by_cases hkey : key = first
    · subst hkey
      by_cases hother : other = key <;> simp [assign, lookup, hother]
    · by_cases hfirst : other = first
      · have hne : other ≠ key := fun heq => hkey (heq ▸ hfirst)
        simp [assign, lookup, hkey, hfirst, Ne.symm hkey]
      · simp [assign, lookup, hkey, hfirst, ih]

@[simp]
theorem get?_set (map : OrderedMap κ ν) (key other : κ) (value : ν) :
    (map.set key value).get? other =
      if other = key then some value else map.get? other :=
  lookup_assign key other value map.entries

theorem lookup_filter (keep : κ → ν → Bool) (key : κ)
    {entries : List (κ × ν)} (hnodup : (entries.map Prod.fst).Nodup) :
    lookup key (entries.filter fun entry => keep entry.1 entry.2) =
      (lookup key entries).filter (keep key) := by
  induction entries with
  | nil => rfl
  | cons entry rest ih =>
    obtain ⟨other, value⟩ := entry
    simp only [List.map_cons, List.nodup_cons] at hnodup
    have hrest := ih hnodup.2
    by_cases hkey : key = other
    · subst hkey
      have habsent : lookup key rest = none :=
        lookup_eq_none_iff.mpr hnodup.1
      cases hkeep : keep key value <;>
        simp [lookup, hkeep, hrest, habsent, Option.filter]
    · cases hkeep : keep other value <;> simp [lookup, hkeep, hkey, hrest]

@[simp]
theorem get?_filter (map : OrderedMap κ ν) (keep : κ → ν → Bool) (key : κ) :
    (map.filter keep).get? key = (map.get? key).filter (keep key) :=
  lookup_filter keep key map.nodup_keys

@[simp]
theorem get?_erase (map : OrderedMap κ ν) (key other : κ) :
    (map.erase key).get? other =
      if other = key then none else map.get? other := by
  rw [erase, get?_filter]
  by_cases hkey : other = key
  · cases map.get? other <;> simp [hkey, Option.filter]
  · cases map.get? other <;> simp [hkey, Option.filter]

@[simp]
theorem get?_empty (key : κ) : (∅ : OrderedMap κ ν).get? key = none := rfl

/-! ## Equality -/

/-- A value is replaced in its place. -/
theorem keys_set_of_mem {map : OrderedMap κ ν} {key : κ} (value : ν)
    (hmem : key ∈ map.keys) : (map.set key value).keys = map.keys := by
  have hassign : ∀ entries : List (κ × ν), key ∈ entries.map Prod.fst →
      (assign key value entries).map Prod.fst = entries.map Prod.fst := by
    intro entries
    induction entries with
    | nil => exact nofun
    | cons entry rest ih =>
      obtain ⟨other, old⟩ := entry
      intro hkey
      by_cases hsame : key = other
      · simp [assign, hsame]
      · have hrest : key ∈ rest.map Prod.fst := by simpa [hsame] using hkey
        simp [assign, hsame, ih hrest]
  exact hassign map.entries hmem

/-- Maps with the same keys in the same order, and the same value under each, are
the same. -/
theorem ext_get? {left right : OrderedMap κ ν} (hkeys : left.keys = right.keys)
    (hget : ∀ key, left.get? key = right.get? key) : left = right := by
  have hview : ∀ map : OrderedMap κ ν,
      map.entries.map (fun entry => (entry.1, some entry.2))
        = map.keys.map fun key => (key, map.get? key) := by
    intro map
    rw [keys, List.map_map]
    apply List.map_congr_left
    intro entry hmem
    rw [Function.comp_apply, get?_eq_some_iff.mpr hmem]
  have hentries := hview left
  rw [hkeys, funext hget, ← hview right] at hentries
  apply ext_entries
  apply (List.map_inj_right _).mp hentries
  intro entry other heq
  rw [Prod.mk.injEq, Option.some.injEq] at heq
  exact Prod.ext heq.1 heq.2

end OrderedMap

end Colloquy
