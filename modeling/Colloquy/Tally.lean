import Colloquy.OrderedMap
import Colloquy.Text.Quoted
import Colloquy.Text.Sorted

/-!
# Tallies

A fixed family of counters, one for every name given at the start.  What has no
counter is not counted.  Counters wrap around at 2⁶⁴.
-/

namespace Colloquy

structure Tally where
  /-- The counters, in increasing order of their names. -/
  counts : OrderedMap String UInt64
  deriving DecidableEq, Repr

namespace Tally

instance : Inhabited Tally := ⟨⟨∅⟩⟩

/-- A counter at zero for every name. -/
def ofNames (names : List String) : Tally where
  counts := .ofList ((Text.sort names).map fun name => (name, 0))

def get? (tally : Tally) (name : String) : Option UInt64 :=
  tally.counts.get? name

def knows (tally : Tally) (name : String) : Bool := tally.counts.contains name

/-- Count one more, if there is a counter of that name. -/
def record (tally : Tally) (name : String) : Tally :=
  match tally.get? name with
  | some count => ⟨tally.counts.set name (count + 1)⟩
  | none => tally

/-- The sum of all counters. -/
def total (tally : Tally) : UInt64 := tally.counts.values.foldl (· + ·) 0

def size (tally : Tally) : Nat := tally.counts.size

/-- The counters as a text, names in quotes. -/
def text (tally : Tally) : String :=
  let entries := tally.counts.entries.map fun entry =>
    Text.quote entry.1 ++ ": " ++ toString entry.2
  "\x7b" ++ ", ".intercalate entries ++ "\x7d"

theorem record_of_get?_eq_none {tally : Tally} {name : String}
    (habsent : tally.get? name = none) : tally.record name = tally := by
  simp [record, habsent]

theorem get?_record {tally : Tally} {name : String} {count : UInt64}
    (hcount : tally.get? name = some count) (other : String) :
    (tally.record name).get? other =
      if other = name then some (count + 1) else tally.get? other := by
  have hrecord : tally.record name = ⟨tally.counts.set name (count + 1)⟩ := by
    simp [record, hcount]
  rw [hrecord]
  exact OrderedMap.get?_set tally.counts name other (count + 1)

/-- Recording adds one to the counter of that name, if there is one. -/
theorem get?_record_eq_map (tally : Tally) (name other : String) :
    (tally.record name).get? other = (tally.get? other).map fun count =>
      if other = name then count + 1 else count := by
  cases hcount : tally.get? name with
  | none =>
    rw [record_of_get?_eq_none hcount]
    by_cases hother : other = name
    · simp [hother, hcount]
    · simp [hother]
  | some count =>
    rw [get?_record hcount]
    by_cases hother : other = name
    · simp [hother, hcount]
    · simp [hother]

theorem keys_record (tally : Tally) (name : String) :
    (tally.record name).counts.keys = tally.counts.keys := by
  cases hcount : tally.get? name with
  | none => rw [record_of_get?_eq_none hcount]
  | some count =>
    have hmem : name ∈ tally.counts.keys :=
      OrderedMap.mem_keys_iff.mpr ⟨count, hcount⟩
    rw [record, hcount]
    exact OrderedMap.keys_set_of_mem _ hmem

/-- It does not matter which of two is counted first. -/
theorem record_comm (tally : Tally) (name other : String) :
    (tally.record name).record other = (tally.record other).record name := by
  have hcounts : ((tally.record name).record other).counts
      = ((tally.record other).record name).counts := by
    apply OrderedMap.ext_get?
    · rw [keys_record, keys_record, keys_record, keys_record]
    · intro key
      change ((tally.record name).record other).get? key
        = ((tally.record other).record name).get? key
      rw [get?_record_eq_map, get?_record_eq_map, get?_record_eq_map,
        get?_record_eq_map, Option.map_map, Option.map_map]
      apply congrArg (fun f => (tally.get? key).map f)
      funext count
      simp only [Function.comp_apply]
      split <;> split <;> rfl
  exact congrArg Tally.mk hcounts

theorem get?_ofNames (names : List String) (name : String) :
    (ofNames names).get? name = if name ∈ names then some 0 else none := by
  have hlookup : ∀ listed : List String,
      OrderedMap.lookup name (listed.map fun other => (other, (0 : UInt64)))
        = if name ∈ listed then some 0 else none := by
    intro listed
    induction listed with
    | nil => rfl
    | cons first rest ih =>
      by_cases hfirst : name = first <;>
        simp [OrderedMap.lookup, hfirst, ih]
  rw [get?, ofNames, OrderedMap.get?_ofList, hlookup]
  simp only [Text.mem_sort_iff]

end Tally

end Colloquy
