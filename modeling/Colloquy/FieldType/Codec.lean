import Colloquy.FieldType.Interpret
import Colloquy.FieldType.Validate
import Colloquy.ProtocolError

/-!
# Single values as payloads

`encode` writes a value of a type, `decode` reads one.  What is decoded at a
type need not be the value that was encoded: a union takes the first member
that fits.
-/

namespace Colloquy.FieldType

/-- The payload of a value, if it belongs to the type. -/
def encode (type : FieldType) (value : Value) : Except ProtocolError Bytes := do
  (type.validate value).mapError .serialization
  .ok value.toWire.write

/-- The value of a type that a payload holds. -/
def decode (type : FieldType) (payload : Bytes) : Except DecodeError Value := do
  let wire ← (Wire.readExact payload).mapError .payload
  (type.interpret wire).mapError .type

end Colloquy.FieldType
