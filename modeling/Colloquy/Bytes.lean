/-!
# Byte strings

Byte strings as lists, with the three things that framing needs: numbers as
big-endian digits, texts as UTF-8, and a cut at a known length.  Each comes
with the lemma that reading gives back what was written.
-/

namespace Colloquy

abbrev Bytes := List UInt8

namespace Bytes

/-! ## Numbers -/

/-- The lowest `width` bytes of a number, most significant first. -/
def bigEndian : (width : Nat) → Nat → Bytes
  | 0, _ => []
  | width + 1, number =>
    bigEndian width (number / 256) ++ [UInt8.ofNat number]

/-- How many numbers fit into `width` bytes: 256 to the power of the width. -/
def capacity : (width : Nat) → Nat
  | 0 => 1
  | width + 1 => 256 * capacity width

example : capacity 4 = 4294967296 := rfl

/-- The number with the given big-endian digits. -/
def toNat (bytes : Bytes) : Nat :=
  bytes.foldl (fun number byte => 256 * number + byte.toNat) 0

@[simp]
theorem length_bigEndian (width number : Nat) :
    (bigEndian width number).length = width := by
  induction width generalizing number with
  | zero => rfl
  | succ width ih => simp [bigEndian, ih]

theorem toNat_append_singleton (bytes : Bytes) (byte : UInt8) :
    toNat (bytes ++ [byte]) = 256 * toNat bytes + byte.toNat := by
  simp [toNat]

/-- Digits that were cut off do not come back. -/
theorem toNat_bigEndian (width number : Nat) :
    toNat (bigEndian width number) = number % capacity width := by
  induction width generalizing number with
  | zero => simp [bigEndian, toNat, capacity, Nat.mod_one]
  | succ width ih =>
    rw [bigEndian, toNat_append_singleton, ih, capacity, Nat.mod_mul]
    simp [Nat.add_comm]

theorem toNat_bigEndian_of_lt {width number : Nat}
    (hsmall : number < capacity width) :
    toNat (bigEndian width number) = number := by
  rw [toNat_bigEndian, Nat.mod_eq_of_lt hsmall]

/-! ## Texts -/

/-- The UTF-8 bytes of a text. -/
def ofText (text : String) : Bytes := text.toByteArray.data.toList

/-- The text with the given UTF-8 bytes, if there is one. -/
def text? (bytes : Bytes) : Option String := String.fromUTF8? ⟨bytes.toArray⟩

@[simp]
theorem text?_ofText (text : String) : text? (ofText text) = some text := by
  have harray : (ByteArray.mk (ofText text).toArray) = text.toByteArray := by
    simp [ofText]
  rw [text?, harray, String.fromUTF8?, dif_pos text.isValidUTF8]
  rfl

theorem ofText_of_text? {bytes : Bytes} {text : String}
    (hread : text? bytes = some text) : ofText text = bytes := by
  simp only [text?, String.fromUTF8?] at hread
  split at hread
  · injection hread with hread
    subst hread
    simp [ofText, String.fromUTF8]
  · cases hread

/-! ## Cutting -/

/-- The first `size` bytes and the rest, if there are that many. -/
def splitAt? (size : Nat) (bytes : Bytes) : Option (Bytes × Bytes) :=
  let front := bytes.take size
  if front.length = size then some (front, bytes.drop size) else none

@[simp]
theorem splitAt?_append (front rest : Bytes) :
    splitAt? front.length (front ++ rest) = some (front, rest) := by
  simp [splitAt?]

theorem eq_append_of_splitAt? {size : Nat} {bytes front rest : Bytes}
    (hsplit : splitAt? size bytes = some (front, rest)) :
    front.length = size ∧ bytes = front ++ rest := by
  simp only [splitAt?] at hsplit
  split at hsplit
  · cases hsplit
    exact ⟨by assumption, (List.take_append_drop size bytes).symm⟩
  · cases hsplit

end Bytes

end Colloquy
