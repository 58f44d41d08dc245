import Colloquy.MessagePack.Token.Lemmas
import Colloquy.MessagePack.Wire

/-!
# Wire trees read back

A reader that may go as deep as a tree does gives back the tree that was
written, and leaves alone what follows it.  The format has four bytes for a
size, which is enough for every tree that is written in fewer bytes than those
can count, because every item takes at least one.
-/

namespace Colloquy

namespace MessagePack

theorem readToken_write_append (token : Token) (hfits : token.Fits)
    (rest : Bytes) :
    readToken (token.write ++ rest) = .ok (token.canonical, rest) := by
  rw [readToken, Token.read?_write_append hfits]

theorem exactly_eq_ok {α : Type} {item : Bytes → Except Fault (α × Bytes)}
    {bytes : Bytes} {value : α} (hread : item bytes = .ok (value, [])) :
    exactly item bytes = .ok value := by
  simp only [exactly, bind, Except.bind, hread, if_true]

/-- Items that are read back one by one are read back together. -/
theorem times_flatMap {α ε : Type} {item : Bytes → Except ε (α × Bytes)}
    {write : α → Bytes} {values : List α}
    (hitems : ∀ value ∈ values, ∀ rest,
      item (write value ++ rest) = .ok (value, rest)) (rest : Bytes) :
    times item values.length (values.flatMap write ++ rest)
      = .ok (values, rest) := by
  induction values with
  | nil => rfl
  | cons value others ih =>
    obtain ⟨hvalue, hothers⟩ := List.forall_mem_cons.mp hitems
    rw [List.length_cons, List.flatMap_cons, List.append_assoc, times_succ,
      hvalue]
    simp only [ih hothers]

theorem length_le_flatMap {α : Type} {write : α → Bytes} {values : List α}
    (hwrite : ∀ value, 0 < (write value).length) :
    values.length ≤ (values.flatMap write).length := by
  induction values with
  | nil => exact Nat.le_refl _
  | cons value others ih =>
    rw [List.flatMap_cons, List.length_append, List.length_cons]
    have hvalue := hwrite value
    omega

/-! ## Lengths -/

namespace Token

theorem length_writeUint_pos (number : Nat) :
    0 < (writeUint number).length := by
  rw [writeUint]
  repeat' split
  all_goals simp

theorem length_write_pos (token : Token) : 0 < token.write.length := by
  cases token with
  | nil => simp [write]
  | bool truth => simp [write]
  | uint number => exact length_writeUint_pos number.toNat
  | sint number =>
    simp only [write, writeInt]
    split
    · exact length_writeUint_pos _
    · repeat' split
      all_goals simp
  | float number => simp [write]
  | str text =>
    simp only [write, writeText]
    repeat' split
    all_goals simp
  | bin content =>
    simp only [write, writeBin]
    repeat' split
    all_goals simp
  | ext kind content =>
    rw [write, writeExt, List.length_append, List.length_cons]
    omega
  | array size =>
    simp only [write, writeArray]
    repeat' split
    all_goals simp
  | map size =>
    simp only [write, writeMap]
    repeat' split
    all_goals simp

theorem length_le_writeText (content : Bytes) :
    content.length ≤ (writeText content).length := by
  rw [writeText]
  repeat' split
  all_goals simp
  all_goals omega

theorem length_le_writeBin (content : Bytes) :
    content.length ≤ (writeBin content).length := by
  rw [writeBin]
  repeat' split
  all_goals simp
  all_goals omega

theorem fits_str {text : String}
    (hsize : (str text).write.length < Bytes.capacity 4) : (str text).Fits :=
  Nat.lt_of_le_of_lt (length_le_writeText _) hsize

theorem fits_bin {content : Bytes}
    (hsize : (bin content).write.length < Bytes.capacity 4) : (bin content).Fits :=
  Nat.lt_of_le_of_lt (length_le_writeBin _) hsize

end Token

end MessagePack

namespace Wire

open MessagePack

theorem length_write_pos (wire : Wire) : 0 < wire.write.length := by
  cases wire with
  | array items =>
    rw [write, List.length_append]
    have hheader := (Token.array items.length).length_write_pos
    omega
  | map entries =>
    rw [write, List.length_append]
    have hheader := (Token.map entries.length).length_write_pos
    omega
  | nil => exact Token.nil.length_write_pos
  | bool truth => exact (Token.bool truth).length_write_pos
  | int number => exact (Token.sint number).length_write_pos
  | float number => exact (Token.float number).length_write_pos
  | str text => exact (Token.str text).length_write_pos
  | bin content => exact (Token.bin content).length_write_pos

theorem length_le_writeItems (items : List Wire) :
    items.length ≤ (writeItems items).length := by
  rw [writeItems_eq_flatMap]
  exact length_le_flatMap length_write_pos

theorem length_le_writeEntries (entries : List (Wire × Wire)) :
    entries.length ≤ (writeEntries entries).length := by
  rw [writeEntries_eq_flatMap]
  refine length_le_flatMap fun entry => ?_
  rw [List.length_append]
  have hkey := entry.1.length_write_pos
  omega

/-! ## Reading back -/

/-- How the levels of a reader go over to what is inside. -/
def nested? : (levels : Nat) → Option (Bytes → Except Fault (Wire × Bytes))
  | 0 => none
  | levels + 1 => some (read levels)

theorem read_token_append (token : Token) (hfits : token.Fits) (levels : Nat)
    (rest : Bytes) :
    read levels (token.write ++ rest) =
      readContent (nested? levels) token.canonical rest := by
  cases levels with
  | zero => simp only [read, readToken_write_append token hfits, bind, Except.bind,
      nested?]
  | succ levels => simp only [read, readToken_write_append token hfits, bind,
      Except.bind, nested?]

/-- An integer that is not negative comes back from its unsigned form. -/
theorem readContent_int
    (nested : Option (Bytes → Except Fault (Wire × Bytes))) (number : Int64)
    (rest : Bytes) :
    readContent nested (Token.sint number).canonical rest
      = .ok (int number, rest) := by
  rw [Token.canonical]
  by_cases hnonneg : 0 ≤ number
  · have hsmall : number.toUInt64.toNat < 0x8000000000000000 := by
      rw [Int64.toNat_toUInt64_of_le hnonneg]
      have hbound := number.toInt_lt
      rw [Int64.toNatClampNeg]
      omega
    rw [if_pos hnonneg, readContent, if_pos hsmall, Int64.toInt64_toUInt64]
  · rw [if_neg hnonneg, readContent]

mutual

theorem read_write_append : ∀ (wire : Wire) (levels : Nat) (rest : Bytes),
    wire.depth ≤ levels → wire.write.length < Bytes.capacity 4 →
    read levels (wire.write ++ rest) = .ok (wire, rest)
  | nil, levels, rest, _, _ => by
    rw [write, read_token_append Token.nil trivial]
    rfl
  | bool truth, levels, rest, _, _ => by
    rw [write, read_token_append (Token.bool truth) trivial]
    rfl
  | int number, levels, rest, _, _ => by
    rw [write, read_token_append (Token.sint number) trivial]
    exact readContent_int (nested? levels) number rest
  | float number, levels, rest, _, _ => by
    rw [write, read_token_append (Token.float number) trivial]
    rfl
  | str text, levels, rest, _, hsize => by
    rw [write, read_token_append (Token.str text) (Token.fits_str hsize)]
    rfl
  | bin content, levels, rest, _, hsize => by
    rw [write, read_token_append (Token.bin content) (Token.fits_bin hsize)]
    rfl
  | array items, 0, _, hdepth, _ => by simp [depth] at hdepth
  | array items, levels + 1, rest, hdepth, hsize => by
    rw [depth] at hdepth
    rw [write, List.length_append] at hsize
    have hcount := length_le_writeItems items
    have hfits : (Token.array items.length).Fits := by
      show items.length < Bytes.capacity 4
      omega
    have hheader : (Token.array items.length).canonical
        = .array items.length := rfl
    have hitems := times_read_writeItems items levels rest (by omega) (by omega)
    rw [write, List.append_assoc, read_token_append _ hfits, nested?,
      hheader, readContent, hitems]
    rfl
  | map entries, 0, _, hdepth, _ => by simp [depth] at hdepth
  | map entries, levels + 1, rest, hdepth, hsize => by
    rw [depth] at hdepth
    rw [write, List.length_append] at hsize
    have hcount := length_le_writeEntries entries
    have hfits : (Token.map entries.length).Fits := by
      show entries.length < Bytes.capacity 4
      omega
    have hheader : (Token.map entries.length).canonical
        = .map entries.length := rfl
    have hentries :=
      times_read_writeEntries entries levels rest (by omega) (by omega)
    rw [write, List.append_assoc, read_token_append _ hfits, nested?,
      hheader, readContent, hentries]
    rfl

theorem times_read_writeItems : ∀ (items : List Wire) (levels : Nat)
    (rest : Bytes), depthItems items ≤ levels →
    (writeItems items).length < Bytes.capacity 4 →
    times (read levels) items.length (writeItems items ++ rest)
      = .ok (items, rest)
  | [], _, _, _, _ => rfl
  | item :: items, levels, rest, hdepth, hsize => by
    rw [depthItems] at hdepth
    rw [writeItems, List.length_append] at hsize
    have hfirst := read_write_append item levels
      (writeItems items ++ rest) (by omega) (by omega)
    have hothers := times_read_writeItems items levels rest (by omega)
      (by omega)
    rw [List.length_cons, times_succ, writeItems, List.append_assoc, hfirst]
    simp only [hothers]

theorem times_read_writeEntries : ∀ (entries : List (Wire × Wire))
    (levels : Nat) (rest : Bytes), depthEntries entries ≤ levels →
    (writeEntries entries).length < Bytes.capacity 4 →
    times (readPair (read levels) (read levels)) entries.length
      (writeEntries entries ++ rest) = .ok (entries, rest)
  | [], _, _, _, _ => rfl
  | (key, value) :: entries, levels, rest, hdepth, hsize => by
    rw [depthEntries] at hdepth
    rw [writeEntries, List.length_append, List.length_append] at hsize
    have hkey := read_write_append key levels
      (value.write ++ (writeEntries entries ++ rest)) (by omega) (by omega)
    have hvalue := read_write_append value levels
      (writeEntries entries ++ rest) (by omega) (by omega)
    have hothers := times_read_writeEntries entries levels rest (by omega)
      (by omega)
    rw [List.length_cons, times_succ, writeEntries, List.append_assoc,
      List.append_assoc, readPair, hkey]
    simp only [bind, Except.bind, hvalue, hothers]

end

end Wire

end Colloquy
