import Colloquy.TypeError

/-!
# Field errors

Why fields do not make up the contents of a speech act.
-/

namespace Colloquy

inductive FieldError where
  | unknownPerformative (performative : String)
  | missing (performative field : String)
  | undeclared (performative field : String)
  | type (field : String) (cause : TypeError)
  deriving DecidableEq, Repr

def FieldError.message : FieldError → String
  | unknownPerformative performative =>
    "unknown performative `" ++ performative ++ "`"
  | missing performative field =>
    "performative `" ++ performative ++ "`: missing field `" ++ field ++ "`"
  | undeclared performative field =>
    "performative `" ++ performative ++ "`: undeclared field `" ++ field ++ "`"
  | type field cause => "field `" ++ field ++ "`: " ++ cause.message

end Colloquy
