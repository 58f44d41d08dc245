import Colloquy.DialogueError
import Colloquy.Message

/-!
# Dialogues

One conversation under one protocol: the messages exchanged so far, the role that
sent each of them, and the state that follows from them.  Checking a message
changes nothing; a message that is refused leaves the dialogue as it was.
-/

namespace Colloquy

inductive Dialogue.State where
  /-- Nothing more than the opener has been exchanged. -/
  | started
  | inProgress
  /-- No further messages are accepted.  The last performative need not lead to
  a declared end state. -/
  | ended (outcome : Option EndState)
  deriving DecidableEq, Repr, Inhabited

structure Dialogue where
  label : Label
  /-- The role of the local agent. -/
  role : Role
  /-- What was said, the oldest message first. -/
  messages : List Message
  /-- Who said it, in the order of the messages. -/
  senders : List Role
  state : Dialogue.State
  aligned : senders.length = messages.length
  deriving Repr

namespace Dialogue

/-- A dialogue in which nothing has been said. -/
def start (label : Label) (role : Role) : Dialogue where
  label
  role
  messages := []
  senders := []
  state := .started
  aligned := rfl

instance : Inhabited Dialogue := ⟨start default default⟩

/-! ## Views -/

def isSelfInitiated (dialogue : Dialogue) : Bool := dialogue.role = .initiator

def isEnded (dialogue : Dialogue) : Bool :=
  match dialogue.state with
  | .ended _ => true
  | _ => false

def outcome? (dialogue : Dialogue) : Option EndState :=
  match dialogue.state with
  | .ended outcome => outcome
  | _ => none

/-- Messages with their senders, the oldest one first. -/
def history (dialogue : Dialogue) : List (Role × Message) :=
  dialogue.senders.zip dialogue.messages

def last? (dialogue : Dialogue) : Option Message := dialogue.messages.getLast?

/-- The place of a message id; the first message has the lowest id. -/
def index? (id : UInt64) : Option Nat :=
  if id < startingMessageId then none
  else some (id - startingMessageId).toNat

def message? (dialogue : Dialogue) (id : UInt64) : Option Message := do
  let message ← dialogue.messages[← index? id]?
  if message.routing.messageId = id then some message else none

/-- The role that sent a message. -/
def sender? (dialogue : Dialogue) (id : UInt64) : Option Role := do
  dialogue.senders[← index? id]?

def lastSentBy? (dialogue : Dialogue) (role : Role) : Option Message :=
  ((dialogue.history.filter fun entry => entry.1 = role).map Prod.snd).getLast?

def lastOutgoing? (dialogue : Dialogue) : Option Message :=
  dialogue.lastSentBy? dialogue.role

def lastIncoming? (dialogue : Dialogue) : Option Message :=
  dialogue.lastSentBy? dialogue.role.counterpart

/-! ## Moves -/

/-- The id and the target that the next message has.  Both are numbers without a
bound; in 64 bits the next id would be another one after the highest of all, and
no list that fits in memory is that long. -/
def nextPosition (dialogue : Dialogue) : Nat × Nat :=
  match dialogue.last? with
  | some last =>
    (last.routing.messageId.toNat + 1, last.routing.messageId.toNat)
  | none => (startingMessageId.toNat, startingTarget.toNat)

/-- The routing of the next message that the local agent sends. -/
def nextRouting (dialogue : Dialogue) : Routing where
  reference := dialogue.label.reference
  messageId := dialogue.nextPosition.1.toUInt64
  target := dialogue.nextPosition.2.toUInt64

/-- Whether a performative may follow the one before it, or open a dialogue. -/
def follows (specification : Specification) (previous : Option Message)
    (performative : String) : Bool :=
  match previous with
  | none => specification.isInitiating performative
  | some last => specification.isReply last.performative performative

/-- Whether a message may be the next one: the dialogue has not ended, the
position is the next one, the performative may follow, and the sender may send
it.  The first of these that does not hold is the error. -/
def check (specification : Specification) (dialogue : Dialogue)
    (message : Message) (sender : Role) : Except DialogueError Unit :=
  let position := dialogue.nextPosition
  let routing := message.routing
  let performative := message.performative
  if dialogue.isEnded then .error (.terminated dialogue.label)
  else if (routing.messageId.toNat, routing.target.toNat) ≠ position then
    .error (.outOfOrder position.1 position.2 routing.messageId routing.target)
  else if !follows specification dialogue.last? performative then
    .error (.illegalTransition
      (dialogue.last?.map Message.performative) performative)
  else if !specification.maySend sender performative then
    .error (.roleViolation (specification.roleName sender) performative)
  else .ok ()

/-- Whether a message may be the next one. -/
def isValidReply (specification : Specification) (dialogue : Dialogue)
    (message : Message) (sender : Role) : Bool :=
  (dialogue.check specification message sender).isOk

/-- The state after a message that was accepted. -/
def stateAfter (specification : Specification) (dialogue : Dialogue)
    (performative : String) : State :=
  if specification.isTerminal performative then
    .ended (specification.outcome? performative)
  else if dialogue.messages.isEmpty then .started
  else .inProgress

/-- The dialogue with one more message, in the state after it. -/
def extend (dialogue : Dialogue) (message : Message) (sender : Role)
    (state : State) : Dialogue where
  label := dialogue.label
  role := dialogue.role
  messages := dialogue.messages ++ [message]
  senders := dialogue.senders ++ [sender]
  state
  aligned := by simp [dialogue.aligned]

/-- Accept a message as the next one. -/
def append (specification : Specification) (dialogue : Dialogue)
    (message : Message) (sender : Role) : Except DialogueError Dialogue := do
  dialogue.check specification message sender
  .ok (dialogue.extend message sender
    (dialogue.stateAfter specification message.performative))

/-- End a dialogue early, with a declared end state. -/
def finish (specification : Specification) (dialogue : Dialogue)
    (outcome : EndState) : Except DialogueError Dialogue :=
  if dialogue.isEnded then .error (.terminated dialogue.label)
  else if !specification.hasEndState outcome then
    .error (.unknownEndState outcome)
  else .ok { dialogue with state := .ended (some outcome) }

/-- The same dialogue under another label. -/
def relabel (dialogue : Dialogue) (label : Label) : Dialogue :=
  { dialogue with label }

/-! ## Messages with their senders -/

section History

variable (dialogue : Dialogue)

@[simp]
theorem role_start (label : Label) (role : Role) :
    (start label role).role = role := rfl

@[simp]
theorem history_start (label : Label) (role : Role) :
    (start label role).history = [] := rfl

theorem length_history : dialogue.history.length = dialogue.messages.length := by
  rw [history, List.length_zip, dialogue.aligned, Nat.min_self]

theorem map_snd_history : dialogue.history.map Prod.snd = dialogue.messages :=
  List.map_snd_zip (Nat.le_of_eq dialogue.aligned.symm)

@[simp]
theorem history_extend (message : Message) (sender : Role) (state : State) :
    (dialogue.extend message sender state).history
      = dialogue.history ++ [(sender, message)] :=
  List.zip_append dialogue.aligned

end History

end Dialogue

end Colloquy
