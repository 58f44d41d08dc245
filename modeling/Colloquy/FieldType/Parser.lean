import Colloquy.FieldType
import Colloquy.OrderedMap
import Colloquy.Result
import Colloquy.Text.Identifier
import Colloquy.Text.WhiteSpace

/-!
# Reading type expressions

A type expression is a scalar name, one of `optional`, `union`, `set`, `list`
and `dict` with its arguments in brackets, or `ct:` and the name of a record
declared before.  Built-in names may carry the prefix `pt:`.  White space may
stand before a type, before brackets and commas, and at the end.

The reader works on characters and counts offsets in UTF-8 bytes.  Its fuel
bounds the number of nested or listed arguments; `parse` supplies one unit for
every character, which is always enough because each step consumes one.
-/

namespace Colloquy

/-- A record, as it was declared. -/
structure StructType where
  name : String
  /-- The fields in declaration order. -/
  fields : List (String × FieldType)
  deriving DecidableEq, Repr

/-- Records declared so far, by the names under which they are known. -/
abbrev CustomTypes := OrderedMap String StructType

namespace CustomTypes

/-- Declare a record under its own name; one declared before is replaced. -/
def set (types : CustomTypes) (name : String)
    (fields : List (String × FieldType)) : CustomTypes :=
  OrderedMap.set types name ⟨name, fields⟩

/-- Declare a record under its own name, unless there is one already. -/
def insertNew (types : CustomTypes) (name : String)
    (fields : List (String × FieldType)) : CustomTypes :=
  OrderedMap.insertNew types name ⟨name, fields⟩

end CustomTypes

namespace FieldType

/-- Why a text is no type expression. -/
inductive Fault where
  | typeExpected (offset : Nat)
  | unknownType (name : String)
  | unknownCustomType (name : String)
  | bracketExpected (offset : Nat)
  | separatorExpected (offset : Nat)
  | notOneArgument (found : Nat)
  | notTwoArguments (found : Nat)
  | leftover (rest : String)
  | illFormed (defect : Defect)
  deriving DecidableEq, Repr

def Fault.message : Fault → String
  | typeExpected offset => "expected a type at offset " ++ toString offset
  | unknownType name => "unknown type `" ++ name ++ "`"
  | unknownCustomType name => "unknown custom type `ct:" ++ name ++ "`"
  | bracketExpected offset => "expected `[` at offset " ++ toString offset
  | separatorExpected offset =>
    "expected `,` or `]` at offset " ++ toString offset
  | notOneArgument found => "expected 1 argument, found " ++ toString found
  | notTwoArguments found => "dict takes 2 arguments, found " ++ toString found
  | leftover rest => "unexpected `" ++ rest ++ "`"
  | illFormed defect => defect.message

/-- Length of a text in UTF-8 bytes. -/
def byteLength (text : List Char) : Nat :=
  text.foldl (fun size char => size + char.utf8Size) 0

/-- The built-in scalar types by name. -/
def Scalar.ofName? : String → Option Scalar
  | "bytes" => some .bytes
  | "str" => some .str
  | "int" => some .int
  | "float" => some .float
  | "bool" => some .bool
  | _ => none

/-- The built-in type constructors. -/
inductive Constructor where
  | optional
  | union
  | set
  | list
  | dict
  deriving DecidableEq, Repr

def Constructor.ofName? : String → Option Constructor
  | "optional" => some optional
  | "union" => some union
  | "set" => some set
  | "list" => some list
  | "dict" => some dict
  | _ => none

/-- Apply a type constructor to the arguments written for it. -/
def Constructor.apply : Constructor → List FieldType → Except Fault FieldType
  | optional, [inner] => .ok (.optional inner)
  | optional, arguments => .error (.notOneArgument arguments.length)
  | set, [element] => .ok (.set element)
  | set, arguments => .error (.notOneArgument arguments.length)
  | list, [element] => .ok (.list element)
  | list, arguments => .error (.notOneArgument arguments.length)
  | dict, [key, value] => .ok (.dict key value)
  | dict, arguments => .error (.notTwoArguments arguments.length)
  | union, arguments => .ok (.union arguments)

/-- A text without the given beginning, if it begins so. -/
def dropStart? : List Char → List Char → Option (List Char)
  | [], text => some text
  | _ :: _, [] => none
  | c :: start, d :: text => if c = d then dropStart? start text else none

section Reader

variable (types : CustomTypes) (size : Nat)

/-- The offset at which a rest begins in a text of `size` bytes. -/
def offsetOf (rest : List Char) : Nat := size - byteLength rest

mutual

/-- Read one type from the front of a text. -/
def readType : Nat → List Char → Except Fault (FieldType × List Char)
  | 0, text => .error (.typeExpected (offsetOf size text))
  | fuel + 1, text =>
    let text := Text.skipWhiteSpace text
    match dropStart? ['c', 't', ':'] text with
    | some text =>
      let (word, rest) := Text.splitWord text
      let name := String.ofList word
      match types.get? name with
      | some ⟨name, fields⟩ => .ok (.struct name fields, rest)
      | none => .error (.unknownCustomType name)
    | none =>
      let text := (dropStart? ['p', 't', ':'] text).getD text
      let (word, rest) := Text.splitWord text
      let name := String.ofList word
      match Scalar.ofName? name, Constructor.ofName? name with
      | some kind, _ => .ok (.scalar kind, rest)
      | none, some constructor => do
        let (arguments, rest) ← readArguments fuel rest
        let type ← constructor.apply arguments
        .ok (type, rest)
      | none, none =>
        if name = "" then .error (.typeExpected (offsetOf size rest))
        else .error (.unknownType name)

/-- Read the bracketed arguments of a type constructor. -/
def readArguments :
    Nat → List Char → Except Fault (List FieldType × List Char)
  | 0, text => .error (.bracketExpected (offsetOf size text))
  | fuel + 1, text =>
    match Text.skipWhiteSpace text with
    | '[' :: text => do
      let (first, rest) ← readType fuel text
      let (others, rest) ← readMore fuel rest
      .ok (first :: others, rest)
    | rest => .error (.bracketExpected (offsetOf size rest))

/-- Read the arguments after the first, up to the closing bracket. -/
def readMore : Nat → List Char → Except Fault (List FieldType × List Char)
  | 0, text => .error (.separatorExpected (offsetOf size text))
  | fuel + 1, text =>
    match Text.skipWhiteSpace text with
    | ',' :: text => do
      let (next, rest) ← readType fuel text
      let (others, rest) ← readMore fuel rest
      .ok (next :: others, rest)
    | ']' :: rest => .ok ([], rest)
    | rest => .error (.separatorExpected (offsetOf size rest))

end

end Reader

/-- The well-formed type that a text denotes. -/
def parse (types : CustomTypes) (source : String) : Except Fault FieldType := do
  let text := source.toList
  let (type, rest) ← readType types (byteLength text) (text.length + 1) text
  match Text.skipWhiteSpace rest with
  | [] =>
    match type.check with
    | .ok () => .ok type
    | .error defect => .error (.illFormed defect)
  | rest => .error (.leftover (String.ofList rest))

theorem parse_eq_ok_iff {types : CustomTypes} {source : String}
    {type : FieldType} :
    parse types source = .ok type ↔
      ∃ rest, readType types (byteLength source.toList)
          (source.toList.length + 1) source.toList = .ok (type, rest)
        ∧ Text.skipWhiteSpace rest = [] ∧ type.check = .ok () := by
  rw [parse]
  constructor
  · intro hparse
    obtain ⟨⟨found, rest⟩, hread, hparse⟩ := bind_eq_ok_iff.mp hparse
    dsimp only at hparse
    split at hparse
    · rename_i hrest
      split at hparse
      · rename_i hcheck
        cases hparse
        exact ⟨rest, hread, hrest, hcheck⟩
      · cases hparse
    · cases hparse
  · intro hread
    obtain ⟨rest, hread, hrest, hcheck⟩ := hread
    simp only [hread, bind, Except.bind, hrest, hcheck]

end FieldType

end Colloquy
