import Colloquy.FieldType
import Colloquy.Wire

/-!
# Type errors

Why a value, or a wire tree, is not of a type.
-/

namespace Colloquy

/-- Containers that refuse to hold one thing twice. -/
inductive Container where
  | set
  | dict
  deriving DecidableEq, Repr

def Container.name : Container → String
  | set => "set"
  | dict => "dict"

inductive TypeError where
  | mismatch (expected : FieldType) (found : Value.Kind)
  | wireMismatch (expected : FieldType) (found : Wire.Kind)
  | unhashable (found : Value.Kind)
  | noUnionMember (members : List FieldType)
  | duplicateEntry (container : Container)
  | fieldCount (record : String) (expected found : Nat)
  | fieldName (record expected found : String)
  | fieldMissing (record field : String)
  | fieldValue (record field : String) (cause : TypeError)
  deriving DecidableEq, Repr

namespace TypeError

def message : TypeError → String
  | mismatch expected found =>
    "expected " ++ expected.render ++ ", found " ++ found.name
  | wireMismatch expected found =>
    "expected " ++ expected.render ++ ", found " ++ found.name
  | unhashable found => "expected hashable scalar, found " ++ found.name
  | noUnionMember members =>
    "no member of " ++ (FieldType.union members).render ++ " matched"
  | duplicateEntry container => "duplicate " ++ container.name ++ " entry"
  | fieldCount record expected found =>
    "struct " ++ record ++ ": expected " ++ toString expected
      ++ " fields, found " ++ toString found
  | fieldName record expected found =>
    "struct " ++ record ++ ": expected field `" ++ expected ++ "`, found `"
      ++ found ++ "`"
  | fieldMissing record field =>
    "struct " ++ record ++ ": missing field `" ++ field ++ "`"
  | fieldValue record field cause =>
    "struct " ++ record ++ ": field `" ++ field ++ "`: " ++ cause.message

end TypeError

end Colloquy
