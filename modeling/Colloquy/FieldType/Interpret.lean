import Colloquy.TypeError

/-!
# Wire trees at a type

Encoding is directed by the value, reading by the type: `interpret` says which
value of a type a wire tree stands for.  A union takes the first member that
can read the tree, a set and a dictionary refuse to hold one key twice, and a
record takes its fields in any order and gives them back in declaration order.
-/

namespace Colloquy

/-- A scalar of this kind from a wire tree. -/
def Scalar.interpret? : Scalar → Wire → Option Value
  | bytes, .bin content => some (.bytes content)
  | str, .str text => some (.str text)
  | int, .int number => some (.int number)
  | float, .float number => some (.float number)
  | bool, .bool truth => some (.bool truth)
  | _, _ => none

namespace FieldType

/-- A value as a set element or dictionary key. -/
def keyOf (value : Value) : Except TypeError Key :=
  match value.toKey? with
  | some key => .ok key
  | none => .error (.unhashable value.kind)

/-- The value under a text key of a wire map: the first one counts. -/
def findField (name : String) : List (Wire × Wire) → Option Wire
  | [] => none
  | (.str key, value) :: rest =>
    if key = name then some value else findField name rest
  | _ :: rest => findField name rest

section Containers

variable (element : Wire → Except TypeError Value)

/-- The items of a list, each read at the element type. -/
def interpretItems : List Wire → Except TypeError (List Value)
  | [] => .ok []
  | item :: rest => do
    let value ← element item
    let values ← interpretItems rest
    .ok (value :: values)

/-- Set elements in wire order, none of them among `seen` or twice. -/
def interpretKeys (seen : List Key) : List Wire → Except TypeError (List Key)
  | [] => .ok []
  | item :: rest => do
    let value ← element item
    let key ← keyOf value
    if key ∈ seen then .error (.duplicateEntry .set)
    else do
      let keys ← interpretKeys (key :: seen) rest
      .ok (key :: keys)

/-- Dictionary entries in wire order, no key among `seen` or twice.  A key is
read before its value, and a repeated key is noticed after it. -/
def interpretEntries (key : Wire → Except TypeError Value) (seen : List Key) :
    List (Wire × Wire) → Except TypeError (List (Key × Value))
  | [] => .ok []
  | (left, right) :: rest => do
    let found ← key left
    let found ← keyOf found
    let value ← element right
    if found ∈ seen then .error (.duplicateEntry .dict)
    else do
      let entries ← interpretEntries key (found :: seen) rest
      .ok ((found, value) :: entries)

end Containers

mutual

/-- The value of a type that a wire tree stands for. -/
def interpret : FieldType → Wire → Except TypeError Value
  | scalar kind, wire =>
    match kind.interpret? wire with
    | some value => .ok value
    | none => .error (.wireMismatch (scalar kind) wire.kind)
  | union members, wire =>
    match interpretAny members wire with
    | some value => .ok value
    | none => .error (.noUnionMember members)
  | optional _, .array [.bool false] => .ok .absent
  | optional inner, .array [.bool true, wire] => do
    let value ← interpret inner wire
    .ok (.present value)
  | set element, .array items => do
    let keys ← interpretKeys (fun wire => interpret element wire) [] items
    .ok (.setOf keys)
  | list element, .array items => do
    let values ← interpretItems (fun wire => interpret element wire) items
    .ok (.list values)
  | dict key value, .map entries => do
    let entries ← interpretEntries (fun wire => interpret value wire)
      (fun wire => interpret key wire) [] entries
    .ok (.dict entries)
  | struct name fields, .map entries =>
    if entries.length ≠ fields.length then
      .error (.fieldCount name fields.length entries.length)
    else do
      let values ← interpretFields name entries fields
      .ok (.struct values)
  | type, wire => .error (.wireMismatch type wire.kind)

/-- The value of the first member that can read the tree. -/
def interpretAny : List FieldType → Wire → Option Value
  | [], _ => none
  | member :: rest, wire =>
    match interpret member wire with
    | .ok value => some value
    | .error _ => interpretAny rest wire

/-- The declared fields of the record `owner`, found among map entries. -/
def interpretFields (owner : String) (entries : List (Wire × Wire)) :
    List (String × FieldType) → Except TypeError (List (String × Value))
  | [] => .ok []
  | (name, type) :: rest =>
    match findField name entries with
    | none => .error (.fieldMissing owner name)
    | some wire =>
      match interpret type wire with
      | .error cause => .error (.fieldValue owner name cause)
      | .ok value => do
        let values ← interpretFields owner entries rest
        .ok ((name, value) :: values)

end

end FieldType

end Colloquy
