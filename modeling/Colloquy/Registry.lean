import Colloquy.Message.Codec
import Colloquy.ProtocolError
import Colloquy.Registry.Half
import Colloquy.Registry.Stats

/-!
# Dialogue registries

All dialogues that one agent holds under one protocol.  A dialogue is held under
its label.  The initiator's label becomes complete with the first answer and
the responder's is complete from the start, so the label before that is kept as
another name of the dialogue.

Every operation returns its result together with the registry afterwards.  An
error leaves the dialogues and their labels as they were; what may change is
what is counted, and which ended dialogues had to make room.
-/

namespace Colloquy

/-- How many dialogues a registry holds unless it is told otherwise. -/
def maxDialogues : Nat := 10000

namespace Registry

structure Limits where
  /-- Dialogues held at once; ended ones make room for new ones. -/
  dialogues : Nat := maxDialogues
  /-- The size of a payload that is still read. -/
  payload : Nat := maxMessageSize
  deriving DecidableEq, Repr, Inhabited

end Registry

structure Registry where
  specification : Specification
  address : Address
  limits : Registry.Limits
  dialogues : OrderedMap Label Dialogue
  /-- The label that took the place of an incomplete one. -/
  completed : OrderedMap Label Label
  stats : Stats
  deriving Repr, Inhabited

namespace Registry

/-- A result, or why there is none, and the registry afterwards. -/
abbrev Outcome (α : Type) := Except ProtocolError α × Registry

def empty (specification : Specification) (address : Address)
    (limits : Limits) : Registry where
  specification
  address
  limits
  dialogues := ∅
  completed := ∅
  stats := .ofEndStates specification.endStates

def fail {α : Type} (registry : Registry) (cause : DialogueError) : Outcome α :=
  (.error (.dialogue cause), registry)

/-! ## Looking up -/

/-- The label under which a dialogue of the given name is held. -/
def current (registry : Registry) (label : Label) : Label :=
  (registry.completed.get? label).getD label

/-- The label under which the dialogue that a label names is held.  A complete
label may also name a dialogue whose reference is not complete yet. -/
def resolve? (registry : Registry) (label : Label) : Option Label :=
  let direct := registry.current label
  if registry.dialogues.contains direct then some direct
  else if label.isComplete then
    let earlier := registry.current label.incomplete
    if registry.dialogues.contains earlier then some earlier else none
  else none

/-- The dialogue that a label names, with the label under which it is held. -/
def find? (registry : Registry) (label : Label) : Option (Label × Dialogue) := do
  let key ← registry.resolve? label
  let dialogue ← registry.dialogues.get? key
  some (key, dialogue)

def dialogue? (registry : Registry) (label : Label) : Option Dialogue :=
  (registry.find? label).map Prod.snd

/-- Every half that a held dialogue uses. -/
def usedHalves (registry : Registry) : List String :=
  registry.dialogues.keys.flatMap fun label =>
    [label.reference.initiator, label.reference.responder]

/-! ## Making room -/

/-- Drop the ended dialogues, and the names of dialogues that are gone. -/
def evictEnded (registry : Registry) : Registry :=
  let kept := registry.dialogues.filter fun _ dialogue => !dialogue.isEnded
  { registry with
    dialogues := kept
    completed := registry.completed.filter fun _ label => kept.contains label }

/-- Drop the ended dialogues, and say how many there were. -/
def evict (registry : Registry) : Nat × Registry :=
  let evicted := registry.evictEnded
  (registry.dialogues.size - evicted.dialogues.size, evicted)

/-- The registry with room for one more dialogue; ended ones are dropped only
if there is none. -/
def makeRoom (registry : Registry) : Except DialogueError Unit × Registry :=
  if registry.dialogues.size < registry.limits.dialogues then (.ok (), registry)
  else
    let evicted := registry.evictEnded
    if evicted.dialogues.size < registry.limits.dialogues then (.ok (), evicted)
    else (.error (.registryFull registry.limits.dialogues), evicted)

/-! ## Accepting messages -/

/-- Append a message to a dialogue and count it. -/
def accept (registry : Registry) (dialogue : Dialogue) (message : Message)
    (sender : Role) : Outcome Dialogue :=
  match dialogue.append registry.specification message sender with
  | .error cause =>
    fail { registry with stats := registry.stats.recordRejected } cause
  | .ok dialogue =>
    let stats := registry.stats.recordAccepted.recordOutcome dialogue
    (.ok dialogue, { registry with stats })

/-- Hold a dialogue under a label. -/
def hold (registry : Registry) (label : Label) (dialogue : Dialogue) :
    Registry :=
  { registry with dialogues := registry.dialogues.set label dialogue }

/-- Let an incomplete label name the dialogue held under a complete one. -/
def addName (registry : Registry) (incomplete complete : Label) : Registry :=
  { registry with
    completed := registry.completed.set incomplete complete }

def countOpened (registry : Registry) : Registry :=
  { registry with stats := registry.stats.recordOpened }

/-! ## Sending -/

/-- Open a dialogue with another agent. -/
def openWith (registry : Registry) (supply : HalfSupply) (performative : String)
    (fields : List (String × Value)) (opponent : Address) :
    Outcome (Label × Message) :=
  if opponent = registry.address then
    registry.fail (.selfAddressed opponent)
  else
    match registry.makeRoom with
    | (.error cause, registry) => registry.fail cause
    | (.ok (), registry) =>
      let reference := Reference.opened (supply.next registry.usedHalves)
      let label : Label := ⟨reference, registry.address, opponent⟩
      let dialogue := Dialogue.start label .initiator
      match Message.build registry.specification performative fields
          dialogue.nextRouting with
      | .error cause => (.error (.field cause), registry)
      | .ok message =>
        match registry.accept dialogue message .initiator with
        | (.error cause, registry) => (.error cause, registry)
        | (.ok dialogue, registry) =>
          (.ok (label, message), (registry.hold label dialogue).countOpened)

/-- Make the next local move in a dialogue. -/
def reply (registry : Registry) (label : Label) (performative : String)
    (fields : List (String × Value)) : Outcome Message :=
  match registry.find? label with
  | none => registry.fail (.unknown label)
  | some (key, dialogue) =>
    match Message.build registry.specification performative fields
        dialogue.nextRouting with
    | .error cause => (.error (.field cause), registry)
    | .ok message =>
      match registry.accept dialogue message dialogue.role with
      | (.error cause, registry) => (.error cause, registry)
      | (.ok dialogue, registry) => (.ok message, registry.hold key dialogue)

/-- Send a message: open a dialogue, or go on in the one that is named. -/
def send (registry : Registry) (supply : HalfSupply) (performative : String)
    (fields : List (String × Value)) (opponent : Address)
    (label : Option Label) : Outcome Message :=
  match label with
  | none =>
    match registry.openWith supply performative fields opponent with
    | (.ok (_, message), registry) => (.ok message, registry)
    | (.error cause, registry) => (.error cause, registry)
  | some label =>
    if label.opponent ≠ opponent then registry.fail (.unknown label)
    else registry.reply label performative fields

/-! ## Receiving -/

/-- Hold a new dialogue that the opponent opened, under a reference with a half
of our own. -/
def acceptOpening (registry : Registry) (supply : HalfSupply) (label : Label)
    (message : Message) : Outcome Dialogue :=
  if label.isComplete then
    registry.fail
      (.referenceMismatch label.reference.opening label.reference)
  else
    match registry.makeRoom with
    | (.error cause, registry) => registry.fail cause
    | (.ok (), registry) =>
      let half := supply.next registry.usedHalves
      let complete :=
        label.withReference (label.reference.withResponder half)
      let dialogue := Dialogue.start complete .responder
      match registry.accept dialogue message .initiator with
      | (.error cause, registry) => (.error cause, registry)
      | (.ok dialogue, registry) =>
        let registry := (registry.hold complete dialogue).addName label complete
        (.ok dialogue, registry.countOpened)

/-- How a reference in a message relates to that of the dialogue it was found
for. -/
inductive Fit where
  /-- It belongs to the dialogue as it is. -/
  | same
  /-- It completes the reference of the dialogue. -/
  | completes
  | mismatch
  deriving DecidableEq, Repr

/-- An initiator accepts any complete reference with its own half until it has
one; a responder accepts the opening reference until it has sent something. -/
def fit (dialogue : Dialogue) (theirs : Reference) : Fit :=
  let ours := dialogue.label.reference
  if ours.isComplete then
    if theirs = ours then .same
    else if dialogue.role = .responder ∧ theirs = ours.opening
        ∧ dialogue.lastOutgoing?.isNone then .same
    else .mismatch
  else if dialogue.role = .initiator ∧ theirs.isComplete
      ∧ theirs.initiator = ours.initiator then .completes
  else .mismatch

/-- Move a dialogue from its label to the one that its completed reference gives
it. -/
def rekey (registry : Registry) (dialogue : Dialogue) (complete : Label) :
    Registry :=
  let dialogues := (registry.dialogues.erase dialogue.label).set complete
    (dialogue.relabel complete)
  { registry with dialogues }.addName dialogue.label complete

/-- Take the next message of the opponent in a dialogue. -/
def continueWith (registry : Registry) (key : Label) (dialogue : Dialogue)
    (message : Message) : Outcome Dialogue :=
  let ours := dialogue.label.reference
  let theirs := message.routing.reference
  let sender := dialogue.role.counterpart
  match fit dialogue theirs with
  | .mismatch => registry.fail (.referenceMismatch ours theirs)
  | .same =>
    match registry.accept dialogue message sender with
    | (.error cause, registry) => (.error cause, registry)
    | (.ok dialogue, registry) => (.ok dialogue, registry.hold key dialogue)
  | .completes =>
    match dialogue.check registry.specification message sender with
    | .error cause =>
      fail { registry with stats := registry.stats.recordRejected } cause
    | .ok () =>
      let complete := dialogue.label.withReference theirs
      if registry.dialogues.contains complete then
        registry.fail (.referenceCollision theirs)
      else
        let registry := registry.rekey dialogue complete
        match registry.accept (dialogue.relabel complete) message sender with
        | (.error cause, registry) => (.error cause, registry)
        | (.ok dialogue, registry) =>
          (.ok dialogue, registry.hold complete dialogue)

/-- Take a message of another agent. -/
def receiveMessage (registry : Registry) (supply : HalfSupply)
    (message : Message) (sender : Address) : Outcome Dialogue :=
  if message.protocol ≠ registry.specification.id then
    (.error (.decode (.protocolMismatch registry.specification.id
      message.protocol.text)), registry)
  else if sender = registry.address then
    registry.fail (.selfAddressed sender)
  else
    let label : Label := ⟨message.routing.reference, registry.address, sender⟩
    match registry.find? label with
    | some (key, dialogue) => registry.continueWith key dialogue message
    | none =>
      if message.isOpener then registry.acceptOpening supply label message
      else
        fail { registry with stats := registry.stats.recordRejected }
          (.unknown label)

/-- Take a payload of another agent. -/
def receive (registry : Registry) (supply : HalfSupply) (payload : Bytes)
    (sender : Address) : Outcome (Dialogue × Message) :=
  match Message.decode registry.specification registry.limits.payload payload with
  | .error cause =>
    (.error (.decode cause),
      { registry with stats := registry.stats.recordDecodeFailure })
  | .ok message =>
    match registry.receiveMessage supply message sender with
    | (.ok dialogue, registry) => (.ok (dialogue, message), registry)
    | (.error cause, registry) => (.error cause, registry)

/-! ## Ending -/

/-- End a dialogue early, with a declared end state. -/
def endDialogue (registry : Registry) (label : Label) (state : EndState) :
    Outcome Unit :=
  match registry.find? label with
  | none => registry.fail (.unknown label)
  | some (key, dialogue) =>
    match dialogue.finish registry.specification state with
    | .error cause => registry.fail cause
    | .ok dialogue =>
      let stats := registry.stats.recordOutcome dialogue
      (.ok (), { registry with stats }.hold key dialogue)

end Registry

end Colloquy
