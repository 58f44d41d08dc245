import Colloquy.Document
import Colloquy.FieldType.Parser

/-!
# Specification errors

Why a source does not make up a specification.
-/

namespace Colloquy

/-- The parts of a protocol's identity. -/
inductive IdentityPart where
  | author
  | name
  | version
  deriving DecidableEq, Repr

def IdentityPart.text : IdentityPart → String
  | author => "author"
  | name => "name"
  | version => "version"

/-- The places where a source mentions performatives. -/
inductive Mention where
  | replyTable
  | initiation
  | speakers
  | terminalOutcomes
  deriving DecidableEq, Repr

def Mention.text : Mention → String
  | replyTable => "reply table"
  | initiation => "initiation"
  | speakers => "speakers"
  | terminalOutcomes => "terminal outcomes"

inductive SpecError where
  | source (fault : Document.Fault)
  | blankIdentity (part : IdentityPart)
  | invalidType (type : String) (fault : FieldType.Fault)
  | invalidTypeName (name : String)
  | invalidContentName (owner name : String)
  | undeclaredPerformative (performative : String) (mention : Mention)
  | missingReply (performative : String)
  | noTerminalPerformative
  | noInitiatingPerformative
  | roleCount (found : Nat)
  | duplicateReply (performative reply : String)
  | duplicateRole (name : String)
  | duplicateEndState (name : String)
  | unknownRole (name : String)
  | unknownEndState (name : String)
  | nonTerminalOutcome (performative : String)
  deriving DecidableEq, Repr

def SpecError.message : SpecError → String
  | source fault => "malformed specification source" ++ fault.detail
  | blankIdentity part =>
    "invalid protocol identity: " ++ part.text ++ " is empty"
  | invalidType type fault =>
    "invalid type `" ++ type ++ "`: " ++ fault.message
  | invalidTypeName name =>
    "invalid type `ct:" ++ name
      ++ "`: custom type names must match [A-Z][a-zA-Z0-9]*"
  | invalidContentName owner name =>
    "performative `" ++ owner ++ "`: invalid content name `" ++ name ++ "`"
  | undeclaredPerformative performative mention =>
    "undeclared performative `" ++ performative ++ "` referenced in "
      ++ mention.text
  | missingReply performative =>
    "performative `" ++ performative ++ "` has no entry in the reply table"
  | noTerminalPerformative => "reply graph has no terminal performative"
  | noInitiatingPerformative =>
    "no initiating performative could be designated"
  | roleCount found =>
    "expected exactly two roles, found " ++ toString found
  | duplicateReply performative reply =>
    "duplicate reply `" ++ performative ++ " -> " ++ reply ++ "`"
  | duplicateRole name => "duplicate role `" ++ name ++ "`"
  | duplicateEndState name => "duplicate end state `" ++ name ++ "`"
  | unknownRole name => "unknown role `" ++ name ++ "`"
  | unknownEndState name => "unknown end state `" ++ name ++ "`"
  | nonTerminalOutcome performative =>
    "outcome bound to non-terminal performative `" ++ performative ++ "`"

end Colloquy
