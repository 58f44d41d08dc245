/-!
# Double precision floats by their bits

A float is carried as its IEEE 754 binary64 bit pattern, so that nothing on
its way through a message can change it: neither the payload of a NaN nor the
sign of a zero.  Numeric comparison and the widening of single precision are
defined on the bits.
-/

namespace Colloquy

structure Binary64 where
  bits : UInt64
  deriving DecidableEq, Repr

namespace Binary64

instance : Inhabited Binary64 := ⟨⟨0⟩⟩

/-- The quiet NaN with no payload. -/
def nan : Binary64 := ⟨0x7FF8000000000000⟩

/-- The bits without the sign. -/
def magnitude (x : Binary64) : UInt64 := x.bits &&& 0x7FFFFFFFFFFFFFFF

def isNaN (x : Binary64) : Bool := x.magnitude > 0x7FF0000000000000

def isZero (x : Binary64) : Bool := x.magnitude == 0

/-- Numeric equality: a NaN equals nothing, and the two zeros are equal. -/
def equal (x y : Binary64) : Bool :=
  !x.isNaN && !y.isNaN && (x.bits == y.bits || (x.isZero && y.isZero))

/-- The double of the same value as a single precision bit pattern.  A NaN
keeps its payload and becomes quiet. -/
def ofSingle (single : UInt32) : Binary64 :=
  let sign : UInt64 := (single >>> 31).toUInt64 <<< 63
  let exponent : UInt64 := ((single >>> 23) &&& 0xFF).toUInt64
  let fraction : UInt64 := (single &&& 0x7FFFFF).toUInt64
  let widened : UInt64 := fraction <<< 29
  if exponent = 0xFF then
    let quiet : UInt64 := if fraction = 0 then 0 else 0x0008000000000000
    ⟨sign ||| 0x7FF0000000000000 ||| quiet ||| widened⟩
  else if exponent ≠ 0 then
    let rebiased : UInt64 := (exponent + 896) <<< 52
    ⟨sign ||| rebiased ||| widened⟩
  else if fraction = 0 then ⟨sign⟩
  else
    -- A subnormal single is a normal double: its highest bit becomes implicit.
    let top := fraction.toNat.log2
    let rebiased : UInt64 := (top + 874).toUInt64 <<< 52
    let rest : UInt64 := (fraction.toNat - 1 <<< top).toUInt64
    ⟨sign ||| rebiased ||| rest <<< (52 - top).toUInt64⟩

example : ofSingle 0x3F800000 = ⟨0x3FF0000000000000⟩ := by decide
example : ofSingle 0x00000001 = ⟨0x36A0000000000000⟩ := by decide
example : ofSingle 0xFF7FFFFF = ⟨0xC7EFFFFFE0000000⟩ := by decide

@[simp]
theorem not_equal_nan (x : Binary64) : equal x nan = false := by
  have hnan : nan.isNaN = true := by decide
  simp [equal, hnan]

theorem equal_comm (x y : Binary64) : equal x y = equal y x := by
  have hbits : (x.bits == y.bits) = (y.bits == x.bits) := Bool.beq_comm
  simp only [equal, hbits]
  cases x.isNaN <;> cases y.isNaN <;> cases x.isZero <;> cases y.isZero <;> simp

theorem equal_self_of_number {x : Binary64} (hnumber : x.isNaN = false) :
    equal x x = true := by
  simp [equal, hnumber]

end Binary64

end Colloquy
