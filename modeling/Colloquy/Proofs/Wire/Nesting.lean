import Colloquy.Proofs.Wire.RoundTrip

/-!
# Trees that are nested too deeply

A reader with fewer levels than a tree has stops at the first array or map for
which none is left, wherever in the tree it stands: the items before it are
read, and the fault is that of nesting.
-/

namespace Colloquy

namespace MessagePack

/-- A row of items breaks off at the first that cannot be read. -/
theorem times_flatMap_eq_error {α ε : Type}
    {item : Bytes → Except ε (α × Bytes)} {write : α → Bytes}
    {values : List α} {cause : ε}
    (hitems : ∀ value ∈ values,
      (∀ rest, item (write value ++ rest) = .ok (value, rest))
        ∨ ∀ rest, item (write value ++ rest) = .error cause)
    (hfault : ∃ value ∈ values, ∀ rest,
      item (write value ++ rest) = .error cause) (rest : Bytes) :
    times item values.length (values.flatMap write ++ rest) = .error cause := by
  induction values with
  | nil =>
    obtain ⟨_, hmem, -⟩ := hfault
    cases hmem
  | cons value others ih =>
    obtain ⟨hvalue, hothers⟩ := List.forall_mem_cons.mp hitems
    rw [List.length_cons, List.flatMap_cons, List.append_assoc, times_succ]
    rcases hvalue with hread | herror
    · have hlater : ∃ value ∈ others, ∀ rest,
          item (write value ++ rest) = .error cause := by
        obtain ⟨fault, hmem, hfault⟩ := hfault
        rcases List.mem_cons.mp hmem with rfl | hlater
        · cases (hread []).symm.trans (hfault [])
        · exact ⟨fault, hlater, hfault⟩
      rw [hread]
      simp only [ih hothers hlater]
    · rw [herror]

end MessagePack

namespace Wire

open MessagePack

mutual

/-- A tree that is nested deeper than its reader may go is refused for that. -/
theorem read_write_append_of_lt : ∀ (wire : Wire) (levels : Nat) (rest : Bytes),
    levels < wire.depth → wire.write.length < Bytes.capacity 4 →
    read levels (wire.write ++ rest) = .error .tooDeep
  | nil, _, _, hdepth, _ => absurd hdepth (Nat.not_lt_zero _)
  | bool _, _, _, hdepth, _ => absurd hdepth (Nat.not_lt_zero _)
  | int _, _, _, hdepth, _ => absurd hdepth (Nat.not_lt_zero _)
  | float _, _, _, hdepth, _ => absurd hdepth (Nat.not_lt_zero _)
  | str _, _, _, hdepth, _ => absurd hdepth (Nat.not_lt_zero _)
  | bin _, _, _, hdepth, _ => absurd hdepth (Nat.not_lt_zero _)
  | array items, levels, rest, hdepth, hsize => by
    rw [write, List.length_append] at hsize
    have hcount := length_le_writeItems items
    have hfits : (Token.array items.length).Fits := by
      show items.length < Bytes.capacity 4
      omega
    have hheader : (Token.array items.length).canonical
        = .array items.length := rfl
    rw [write, List.append_assoc, read_token_append _ hfits, hheader]
    cases levels with
    | zero => rfl
    | succ levels =>
      rw [depth] at hdepth
      rw [nested?, readContent, times_read_writeItems_of_lt items levels rest
        (by omega) (by omega)]
      rfl
  | map entries, levels, rest, hdepth, hsize => by
    rw [write, List.length_append] at hsize
    have hcount := length_le_writeEntries entries
    have hfits : (Token.map entries.length).Fits := by
      show entries.length < Bytes.capacity 4
      omega
    have hheader : (Token.map entries.length).canonical
        = .map entries.length := rfl
    rw [write, List.append_assoc, read_token_append _ hfits, hheader]
    cases levels with
    | zero => rfl
    | succ levels =>
      rw [depth] at hdepth
      rw [nested?, readContent, times_read_writeEntries_of_lt entries levels rest
        (by omega) (by omega)]
      rfl

theorem times_read_writeItems_of_lt : ∀ (items : List Wire) (levels : Nat)
    (rest : Bytes), levels < depthItems items →
    (writeItems items).length < Bytes.capacity 4 →
    times (read levels) items.length (writeItems items ++ rest)
      = .error .tooDeep
  | [], _, _, hdepth, _ => absurd hdepth (Nat.not_lt_zero _)
  | item :: items, levels, rest, hdepth, hsize => by
    rw [depthItems] at hdepth
    rw [writeItems, List.length_append] at hsize
    rw [List.length_cons, times_succ, writeItems, List.append_assoc]
    by_cases hfirst : item.depth ≤ levels
    · rw [read_write_append item levels _ hfirst (by omega)]
      simp only [times_read_writeItems_of_lt items levels rest (by omega)
        (by omega)]
    · rw [read_write_append_of_lt item levels _ (by omega) (by omega)]

theorem times_read_writeEntries_of_lt : ∀ (entries : List (Wire × Wire))
    (levels : Nat) (rest : Bytes), levels < depthEntries entries →
    (writeEntries entries).length < Bytes.capacity 4 →
    times (readPair (read levels) (read levels)) entries.length
      (writeEntries entries ++ rest) = .error .tooDeep
  | [], _, _, hdepth, _ => absurd hdepth (Nat.not_lt_zero _)
  | (key, value) :: entries, levels, rest, hdepth, hsize => by
    rw [depthEntries] at hdepth
    rw [writeEntries, List.length_append, List.length_append] at hsize
    rw [List.length_cons, times_succ, writeEntries, List.append_assoc,
      List.append_assoc, readPair]
    by_cases hkey : key.depth ≤ levels
    · rw [read_write_append key levels _ hkey (by omega)]
      by_cases hvalue : value.depth ≤ levels
      · have hread := read_write_append value levels
          (writeEntries entries ++ rest) hvalue (by omega)
        have hothers := times_read_writeEntries_of_lt entries levels rest
          (by omega) (by omega)
        simp only [bind, Except.bind, hread, hothers]
      · have hread := read_write_append_of_lt value levels
          (writeEntries entries ++ rest) (by omega) (by omega)
        simp only [bind, Except.bind, hread]
    · rw [read_write_append_of_lt key levels _ (by omega) (by omega)]
      rfl

end

end Wire

end Colloquy
