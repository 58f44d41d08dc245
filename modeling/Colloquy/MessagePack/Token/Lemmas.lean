import Colloquy.MessagePack.Token

/-!
# Tokens read back

Reading gives back the token that was written and leaves alone what follows it.
The only token that changes its constructor is an integer that is not negative:
it is written, and therefore read, as an unsigned one.  Sizes have to fit into
the four bytes that the format has for them.
-/

namespace Colloquy.MessagePack.Token

/-! ## Numbers -/

/-- Digits beyond the width are cut off. -/
theorem readNumber?_bigEndian (width number : Nat) (rest : Bytes) :
    readNumber? width (Bytes.bigEndian width number ++ rest) =
      some (number % Bytes.capacity width, rest) := by
  have hcut := Bytes.splitAt?_append (Bytes.bigEndian width number) rest
  rw [Bytes.length_bigEndian] at hcut
  simp [readNumber?, hcut, Bytes.toNat_bigEndian]

theorem readNumber?_bigEndian_of_lt {width number : Nat}
    (hsmall : number < Bytes.capacity width) (rest : Bytes) :
    readNumber? width (Bytes.bigEndian width number ++ rest) =
      some (number, rest) := by
  rw [readNumber?_bigEndian, Nat.mod_eq_of_lt hsmall]

theorem read?_writeUint {number : Nat} (hnumber : number < Bytes.capacity 8)
    (rest : Bytes) :
    read? (writeUint number ++ rest) = some (.uint number.toUInt64, rest) := by
  rw [writeUint]
  split
  · rename_i hsmall
    have hlead : (UInt8.ofNat number).toNat = number := by
      rw [UInt8.toNat_ofNat']
      omega
    have hword : (UInt8.ofNat number).toUInt64 = number.toUInt64 := by
      apply UInt64.toNat_inj.mp
      rw [UInt8.toNat_toUInt64, hlead, UInt64.toNat_ofNat']
      omega
    simp [read?, hlead, hsmall, hword]
  split
  · rename_i hsmall
    have hread :=
      readNumber?_bigEndian_of_lt hsmall rest
    simp [read?, readLong?, readUint?, hread]
  split
  · rename_i hsmall
    have hread :=
      readNumber?_bigEndian_of_lt hsmall rest
    simp [read?, readLong?, readUint?, hread]
  split
  · rename_i hsmall
    have hread :=
      readNumber?_bigEndian_of_lt hsmall rest
    simp [read?, readLong?, readUint?, hread]
  have hread :=
    readNumber?_bigEndian_of_lt hnumber rest
  simp [read?, readLong?, readUint?, hread]

/-- The bits of an integer, read as a number, are the integer modulo 2⁶⁴. -/
theorem bmod_toNat_toUInt64 (number : Int64) :
    (number.toUInt64.toNat : Int).bmod (Bytes.capacity 8) = number.toInt := by
  have hcapacity : Bytes.capacity 8 = 2 ^ 64 := rfl
  rw [hcapacity, ← Int64.toNat_toBitVec, ← BitVec.toInt_eq_toNat_bmod]
  rfl

/-- An integer comes back from as many of its bytes as it needs. -/
theorem readSint?_bigEndian {width : Nat} (number : Int64)
    (hwidth : Bytes.capacity width ∣ Bytes.capacity 8)
    (hlow : -(Bytes.capacity width : Int) ≤ number.toInt * 2)
    (hhigh : number.toInt * 2 < Bytes.capacity width) (rest : Bytes) :
    readSint? width (Bytes.bigEndian width number.toUInt64.toNat ++ rest) =
      some (.sint number, rest) := by
  have hdigits :
      ((number.toUInt64.toNat : Int) % Bytes.capacity width).bmod
        (Bytes.capacity width) = number.toInt := by
    rw [Int.emod_bmod, ← Int.bmod_bmod_of_dvd hwidth,
      bmod_toNat_toUInt64]
    exact Int.bmod_eq_of_le_mul_two (by omega) (by omega)
  simp [readSint?, readNumber?_bigEndian, hdigits]

theorem read?_writeInt_of_neg {number : Int64} (hneg : number < 0)
    (rest : Bytes) :
    read? (writeInt number ++ rest) = some (.sint number, rest) := by
  have hnot : ¬ 0 ≤ number := Int64.not_le.mpr hneg
  have hint : number.toInt < 0 := Int64.lt_iff_toInt_lt.mp hneg
  simp only [writeInt, hnot, if_false]
  split
  · rename_i hsmall
    have hlow : -32 ≤ number.toInt := Int64.le_iff_toInt_le.mp hsmall
    have hlead : ((UInt8.ofNat number.toUInt64.toNat).toNat : Int) =
        256 + number.toInt := by
      have hcapacity : (Bytes.capacity 8 : Int) = 18446744073709551616 := rfl
      have hbits := bmod_toNat_toUInt64 number
      have hword := number.toUInt64.toNat_lt
      rw [UInt8.toNat_ofNat']
      rw [Int.bmod_def, hcapacity] at hbits
      split at hbits <;> omega
    have hread : read? (UInt8.ofNat number.toUInt64.toNat :: rest) =
        some (.sint number, rest) := by
      simp only [read?]
      rw [if_neg (by omega), if_neg (by omega), if_neg (by omega),
        if_neg (by omega), if_neg (by omega), hlead]
      have hback : (256 + number.toInt - 256 : Int) = number.toInt := by omega
      rw [hback, Int64.ofInt_toInt]
    exact hread
  split
  · rename_i hsmall
    have hlow : -128 ≤ number.toInt := Int64.le_iff_toInt_le.mp hsmall
    have hcapacity : (Bytes.capacity 1 : Int) = 256 := rfl
    have hread := readSint?_bigEndian number
      (show Bytes.capacity 1 ∣ Bytes.capacity 8 by decide)
      (by omega) (by omega) rest
    simp [read?, readLong?, hread]
  split
  · rename_i hsmall
    have hlow : -32768 ≤ number.toInt := Int64.le_iff_toInt_le.mp hsmall
    have hcapacity : (Bytes.capacity 2 : Int) = 65536 := rfl
    have hread := readSint?_bigEndian number
      (show Bytes.capacity 2 ∣ Bytes.capacity 8 by decide)
      (by omega) (by omega) rest
    simp [read?, readLong?, hread]
  split
  · rename_i hsmall
    have hlow : -2147483648 ≤ number.toInt := Int64.le_iff_toInt_le.mp hsmall
    have hcapacity : (Bytes.capacity 4 : Int) = 4294967296 := rfl
    have hread := readSint?_bigEndian number
      (show Bytes.capacity 4 ∣ Bytes.capacity 8 by decide)
      (by omega) (by omega) rest
    simp [read?, readLong?, hread]
  have hlow := number.le_toInt
  have hcapacity : (Bytes.capacity 8 : Int) = 18446744073709551616 := rfl
  have hread := readSint?_bigEndian number
      (show Bytes.capacity 8 ∣ Bytes.capacity 8 by decide)
      (by omega) (by omega) rest
  simp [read?, readLong?, hread]

/-- A non-negative integer is written as an unsigned one. -/
theorem writeInt_of_nonneg {number : Int64} (hnonneg : 0 ≤ number) :
    writeInt number = writeUint number.toUInt64.toNat := by
  simp only [writeInt, hnonneg, if_true]

/-! ## Texts, byte strings and headers -/

theorem readText?_append (content rest : Bytes) :
    readText? content.length (content ++ rest) =
      some (ofContent content, rest) := by
  simp [readText?]

theorem readSizedText?_append {width : Nat} {content : Bytes}
    (hsize : content.length < Bytes.capacity width) (rest : Bytes) :
    readSizedText? width
        (Bytes.bigEndian width content.length ++ (content ++ rest)) =
      some (ofContent content, rest) := by
  simp [readSizedText?, readNumber?_bigEndian_of_lt hsize, readText?_append]

theorem readSizedBin?_append {width : Nat} {content : Bytes}
    (hsize : content.length < Bytes.capacity width) (rest : Bytes) :
    readSizedBin? width
        (Bytes.bigEndian width content.length ++ (content ++ rest)) =
      some (.bin content, rest) := by
  simp [readSizedBin?, readNumber?_bigEndian_of_lt hsize]

theorem readExt?_append (kind : UInt8) (content rest : Bytes) :
    readExt? content.length (kind :: (content ++ rest)) =
      some (.ext kind content, rest) := by
  simp [readExt?]

theorem readSizedExt?_append {width : Nat} {content : Bytes}
    (hsize : content.length < Bytes.capacity width) (kind : UInt8) (rest : Bytes) :
    readSizedExt? width
        (Bytes.bigEndian width content.length ++ kind :: (content ++ rest)) =
      some (.ext kind content, rest) := by
  simp [readSizedExt?, readNumber?_bigEndian_of_lt hsize, readExt?_append]

theorem readHeader?_append (header : Nat → Token) {width size : Nat}
    (hsize : size < Bytes.capacity width) (rest : Bytes) :
    readHeader? header width (Bytes.bigEndian width size ++ rest) =
      some (header size, rest) := by
  simp [readHeader?, readNumber?_bigEndian_of_lt hsize]

theorem read?_writeText {content : Bytes}
    (hsize : content.length < Bytes.capacity 4) (rest : Bytes) :
    read? (writeText content ++ rest) = some (ofContent content, rest) := by
  simp only [writeText]
  split
  · rename_i hsmall
    have hlead : (UInt8.ofNat (0xA0 + content.length)).toNat =
        0xA0 + content.length := by
      rw [UInt8.toNat_ofNat']
      omega
    rw [List.cons_append, read?]
    simp only [hlead]
    rw [if_neg (by omega), if_neg (by omega), if_neg (by omega),
      if_pos (by omega), Nat.add_sub_cancel_left]
    exact readText?_append content rest
  split
  · rename_i hsmall
    have hread :=
      readSizedText?_append hsmall rest
    simp [read?, readLong?, hread]
  split
  · rename_i hsmall
    have hread :=
      readSizedText?_append hsmall rest
    simp [read?, readLong?, hread]
  have hread :=
    readSizedText?_append hsize rest
  simp [read?, readLong?, hread]

theorem read?_writeBin {content : Bytes}
    (hsize : content.length < Bytes.capacity 4) (rest : Bytes) :
    read? (writeBin content ++ rest) = some (.bin content, rest) := by
  simp only [writeBin]
  split
  · rename_i hsmall
    have hread :=
      readSizedBin?_append hsmall rest
    simp [read?, readLong?, hread]
  split
  · rename_i hsmall
    have hread :=
      readSizedBin?_append hsmall rest
    simp [read?, readLong?, hread]
  have hread :=
    readSizedBin?_append hsize rest
  simp [read?, readLong?, hread]

theorem read?_writeExt {content : Bytes}
    (hsize : content.length < Bytes.capacity 4) (kind : UInt8) (rest : Bytes) :
    read? (writeExt kind content ++ rest) = some (.ext kind content, rest) := by
  have hfixed := readExt?_append kind content rest
  simp only [writeExt, writeExtSize]
  split
  · rename_i hone
    rw [hone] at hfixed
    simp [read?, readLong?, hfixed]
  split
  · rename_i htwo
    rw [htwo] at hfixed
    simp [read?, readLong?, hfixed]
  split
  · rename_i hfour
    rw [hfour] at hfixed
    simp [read?, readLong?, hfixed]
  split
  · rename_i height
    rw [height] at hfixed
    simp [read?, readLong?, hfixed]
  split
  · rename_i hsixteen
    rw [hsixteen] at hfixed
    simp [read?, readLong?, hfixed]
  split
  · rename_i hsmall
    have hread := readSizedExt?_append
      hsmall kind rest
    simp [read?, readLong?, hread]
  split
  · rename_i hsmall
    have hread := readSizedExt?_append
      hsmall kind rest
    simp [read?, readLong?, hread]
  have hread := readSizedExt?_append
    hsize kind rest
  simp [read?, readLong?, hread]

theorem read?_writeArray {size : Nat} (hsize : size < Bytes.capacity 4)
    (rest : Bytes) :
    read? (writeArray size ++ rest) = some (.array size, rest) := by
  simp only [writeArray]
  split
  · rename_i hsmall
    have hlead : (UInt8.ofNat (0x90 + size)).toNat = 0x90 + size := by
      rw [UInt8.toNat_ofNat']
      omega
    rw [List.singleton_append, read?]
    simp only [hlead]
    rw [if_neg (by omega), if_neg (by omega), if_pos (by omega),
      Nat.add_sub_cancel_left]
  split
  · rename_i hsmall
    have hread :=
      readHeader?_append .array hsmall rest
    simp [read?, readLong?, hread]
  have hread := readHeader?_append .array hsize rest
  simp [read?, readLong?, hread]

theorem read?_writeMap {size : Nat} (hsize : size < Bytes.capacity 4)
    (rest : Bytes) :
    read? (writeMap size ++ rest) = some (.map size, rest) := by
  simp only [writeMap]
  split
  · rename_i hsmall
    have hlead : (UInt8.ofNat (0x80 + size)).toNat = 0x80 + size := by
      rw [UInt8.toNat_ofNat']
      omega
    rw [List.singleton_append, read?]
    simp only [hlead]
    rw [if_neg (by omega), if_pos (by omega), Nat.add_sub_cancel_left]
  split
  · rename_i hsmall
    have hread := readHeader?_append .map hsmall rest
    simp [read?, readLong?, hread]
  have hread := readHeader?_append .map hsize rest
  simp [read?, readLong?, hread]

/-! ## All tokens -/

/-- Whether the size of a token can be written. -/
def Fits : Token → Prop
  | str text => (Bytes.ofText text).length < Bytes.capacity 4
  | bin content => content.length < Bytes.capacity 4
  | ext _ content => content.length < Bytes.capacity 4
  | array size => size < Bytes.capacity 4
  | map size => size < Bytes.capacity 4
  | _ => True

/-- The token as it is read back. -/
def canonical : Token → Token
  | sint number => if 0 ≤ number then uint number.toUInt64 else sint number
  | token => token

theorem read?_write_append {token : Token} (hfits : token.Fits) (rest : Bytes) :
    read? (token.write ++ rest) = some (token.canonical, rest) := by
  cases token with
  | nil => rfl
  | bool truth => cases truth <;> rfl
  | uint number =>
    have hread := read?_writeUint number.toNat_lt rest
    simpa [write, canonical] using hread
  | sint number =>
    by_cases hnonneg : 0 ≤ number
    · have hread := read?_writeUint number.toUInt64.toNat_lt rest
      simpa [write, canonical, hnonneg, writeInt_of_nonneg hnonneg] using hread
    · have hread := read?_writeInt_of_neg (Int64.not_le.mp hnonneg) rest
      simpa [write, canonical, hnonneg] using hread
  | float number =>
    have hread :=
      readNumber?_bigEndian_of_lt
        (show number.bits.toNat < Bytes.capacity 8 from number.bits.toNat_lt)
        rest
    simp [write, canonical, read?, readLong?, hread]
  | str text =>
    have hread := read?_writeText hfits rest
    simpa [write, canonical, ofContent] using hread
  | bin content => exact read?_writeBin hfits rest
  | ext kind content => exact read?_writeExt hfits kind rest
  | array size => exact read?_writeArray hfits rest
  | map size => exact read?_writeMap hfits rest

end Colloquy.MessagePack.Token
