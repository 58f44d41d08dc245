import Colloquy.FieldType
import Colloquy.OrderedMap
import Colloquy.ProtocolId
import Colloquy.Role

/-!
# Protocol specifications

What a protocol allows: the contents of its speech acts, which performative may
follow which, which may open a dialogue, who may send it, and which end state a
last performative leads to.  A specification only answers questions; what makes
one consistent is checked when it is loaded from its source.
-/

namespace Colloquy

/-- The name of a way in which a dialogue may end. -/
structure EndState where
  name : String
  deriving DecidableEq, Repr, Inhabited

/-- The fields of a speech act, in declaration order. -/
abbrev Schema := OrderedMap String FieldType

structure Specification where
  id : ProtocolId
  description : Option String
  speechActs : OrderedMap String Schema
  reply : OrderedMap String (List String)
  /-- The name of the role that opens a dialogue. -/
  initiator : String
  responder : String
  endStates : List EndState
  /-- The performatives that may open a dialogue, in increasing order. -/
  initiation : List String
  /-- What a role may send, for every role that is restricted. -/
  speakers : OrderedMap Role (List String)
  outcomes : OrderedMap String EndState
  deriving DecidableEq, Repr, Inhabited

namespace Specification

/-- The contents of a performative, if it is declared. -/
def schema? (specification : Specification) (performative : String) :
    Option Schema :=
  specification.speechActs.get? performative

/-- The legal replies to a performative, if it is declared. -/
def replies? (specification : Specification) (performative : String) :
    Option (List String) :=
  specification.reply.get? performative

def isReply (specification : Specification) (previous next : String) : Bool :=
  match specification.replies? previous with
  | some replies => next ∈ replies
  | none => false

/-- Whether a dialogue ends with this performative. -/
def isTerminal (specification : Specification) (performative : String) : Bool :=
  specification.replies? performative = some []

def isInitiating (specification : Specification) (performative : String) :
    Bool :=
  performative ∈ specification.initiation

def maySend (specification : Specification) (role : Role)
    (performative : String) : Bool :=
  match specification.speakers.get? role with
  | some allowed => performative ∈ allowed
  | none => true

/-- The end state that is recorded when a dialogue ends with this
performative. -/
def outcome? (specification : Specification) (performative : String) :
    Option EndState :=
  specification.outcomes.get? performative

def hasEndState (specification : Specification) (state : EndState) : Bool :=
  state ∈ specification.endStates

def roleName (specification : Specification) : Role → String
  | .initiator => specification.initiator
  | .responder => specification.responder

def role? (specification : Specification) (name : String) : Option Role :=
  if name = specification.initiator then some .initiator
  else if name = specification.responder then some .responder
  else none

theorem isReply_iff {specification : Specification} {previous next : String} :
    specification.isReply previous next = true ↔
      ∃ replies, specification.replies? previous = some replies
        ∧ next ∈ replies := by
  rw [isReply]
  cases specification.replies? previous <;> simp

theorem isInitiating_iff {specification : Specification}
    {performative : String} :
    specification.isInitiating performative = true ↔
      performative ∈ specification.initiation := by
  simp [isInitiating]

/-- A role that is not restricted may send anything. -/
theorem maySend_iff {specification : Specification} {role : Role}
    {performative : String} :
    specification.maySend role performative = true ↔
      ∀ allowed, specification.speakers.get? role = some allowed →
        performative ∈ allowed := by
  rw [maySend]
  cases specification.speakers.get? role <;> simp

theorem isTerminal_iff {specification : Specification} {performative : String} :
    specification.isTerminal performative = true ↔
      specification.replies? performative = some [] := by
  simp [isTerminal]

/-- Nothing follows a last performative. -/
theorem not_isReply_of_isTerminal {specification : Specification}
    {previous : String} (hterminal : specification.isTerminal previous = true)
    (next : String) : specification.isReply previous next = false := by
  rw [isTerminal_iff] at hterminal
  simp [isReply, hterminal]

end Specification

end Colloquy
