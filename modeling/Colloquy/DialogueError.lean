import Colloquy.Label
import Colloquy.Specification

/-!
# Dialogue errors

Why a well-formed message has no place in a dialogue, or a dialogue none in a
registry.
-/

namespace Colloquy

inductive DialogueError where
  /-- Ids and targets count up from 1 and 0 without end. -/
  | outOfOrder (expectedId expectedTarget : Nat) (messageId target : UInt64)
  /-- The performative before it is missing where the dialogue starts. -/
  | illegalTransition (after : Option String) (performative : String)
  | roleViolation (role performative : String)
  | terminated (label : Label)
  | unknownDialogue (reference : Reference) (opponent : Address)
  | referenceMismatch (expected found : Reference)
  | referenceCollision (reference : Reference)
  | selfAddressed (address : Address)
  | registryFull (capacity : Nat)
  | unknownEndState (state : EndState)
  deriving DecidableEq, Repr

namespace DialogueError

def message : DialogueError → String
  | outOfOrder expectedId expectedTarget messageId target =>
    "out of order: expected id " ++ toString expectedId ++ " targeting "
      ++ toString expectedTarget ++ ", got id " ++ toString messageId
      ++ " targeting " ++ toString target
  | illegalTransition after performative =>
    let after :=
      match after with
      | none => "dialogue start"
      | some previous => "`" ++ previous ++ "`"
    "illegal transition: `" ++ performative ++ "` cannot follow " ++ after
  | roleViolation role performative =>
    "role `" ++ role ++ "` may not send `" ++ performative ++ "`"
  | terminated label => "dialogue " ++ label.text ++ " has ended"
  | unknownDialogue reference opponent =>
    "no dialogue for reference " ++ reference.text ++ " with " ++ opponent.text
  | referenceMismatch expected found =>
    "reference " ++ found.text ++ " does not match dialogue reference "
      ++ expected.text
  | referenceCollision reference =>
    "reference " ++ reference.text ++ " already in use"
  | selfAddressed address =>
    "cannot open a dialogue with self (" ++ address.text ++ ")"
  | registryFull capacity =>
    "registry full (" ++ toString capacity ++ " dialogues)"
  | unknownEndState state =>
    "end state `" ++ state.name ++ "` is not declared by the protocol"

/-- Nothing is held under a label. -/
def unknown (label : Label) : DialogueError :=
  unknownDialogue label.reference label.opponent

end DialogueError

end Colloquy
