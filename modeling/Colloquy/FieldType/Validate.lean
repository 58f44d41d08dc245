import Colloquy.TypeError

/-!
# Values of a type

`validate` decides whether a value belongs to a type and says why not.  An
optional type wants its values wrapped; a record wants its fields in
declaration order.
-/

namespace Colloquy

/-- Whether a value is a scalar of this kind. -/
def Scalar.admits : Scalar → Value → Bool
  | bytes, .bytes _ => true
  | str, .str _ => true
  | int, .int _ => true
  | float, .float _ => true
  | bool, .bool _ => true
  | _, _ => false

namespace FieldType

/-- Only scalars hold set elements and dictionary keys. -/
def validateKey (type : FieldType) (key : Key) : Except TypeError Unit :=
  match type with
  | scalar kind =>
    if kind.admits key.toValue then .ok ()
    else .error (.mismatch (scalar kind) key.kind)
  | other => .error (.mismatch other key.kind)

mutual

def validate : FieldType → Value → Except TypeError Unit
  | scalar kind, value =>
    if kind.admits value then .ok ()
    else .error (.mismatch (scalar kind) value.kind)
  | union members, value =>
    if validateAny members value then .ok ()
    else .error (.noUnionMember members)
  | optional _, .optional none => .ok ()
  | optional inner, .optional (some value) => validate inner value
  | set element, .set keys => keys.forM (validateKey element)
  | list element, .list items => items.forM fun item => validate element item
  | dict key type, .dict entries =>
    entries.forM fun entry => do
      validateKey key entry.1
      validate type entry.2
  | struct name fields, .struct values =>
    if values.length ≠ fields.length then
      .error (.fieldCount name fields.length values.length)
    else validateFields name fields values
  | type, value => .error (.mismatch type value.kind)

/-- Whether some member admits the value. -/
def validateAny : List FieldType → Value → Bool
  | [], _ => false
  | member :: rest, value =>
    (validate member value).isOk || validateAny rest value

/-- Name and value of every field of the record `owner`, in order. -/
def validateFields (owner : String) :
    List (String × FieldType) → List (String × Value) → Except TypeError Unit
  | (name, type) :: rest, (found, value) :: values =>
    if name ≠ found then .error (.fieldName owner name found)
    else
      match validate type value with
      | .ok () => validateFields owner rest values
      | .error cause => .error (.fieldValue owner name cause)
  | _, _ => .ok ()

end

end FieldType

end Colloquy
