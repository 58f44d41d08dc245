import Colloquy.Specification
import Colloquy.Specification.Error
import Colloquy.Specification.Source
import Colloquy.Text.Sorted

/-!
# Loading specifications

`Specification.load` checks a source and compiles it.  The parts are checked in
a fixed order, each of them in the order of the source, and the first fault is
reported.
-/

namespace Colloquy.Specification

/-- Names that messages use themselves. -/
def reservedNames : List String :=
  ["body", "message_id", "dialogue_reference", "target", "performative"]

/-! ## Identity -/

def requirePart (part : IdentityPart) (content : String) :
    Except SpecError Unit :=
  if Text.isBlank content then .error (.blankIdentity part) else .ok ()

def loadId (source : Source) : Except SpecError ProtocolId := do
  requirePart .author source.author
  requirePart .name source.name
  requirePart .version source.version
  .ok ⟨source.author, source.name, source.version⟩

/-! ## Types -/

def parseType (types : CustomTypes) (text : String) :
    Except SpecError FieldType :=
  (FieldType.parse types text).mapError (.invalidType text)

/-- A named field of a record or a speech act. -/
def loadField (types : CustomTypes) (owner : String) (isName : String → Bool)
    (name text : String) : Except SpecError FieldType :=
  if isName name then parseType types text
  else .error (.invalidContentName owner name)

/-- Declare records on top of those in `types`, each of which may use the ones
before it. -/
def loadCustomTypes (types : CustomTypes) :
    List (String × OrderedMap String String) → Except SpecError CustomTypes
  | [] => .ok types
  | (name, fields) :: rest =>
    if !Text.isTypeName name then .error (.invalidTypeName name)
    else do
      let owner := "ct:" ++ name
      let members ←
        fields.traverse fun field text =>
          loadField types owner Text.isIdentifier field text
      loadCustomTypes (types.insertNew name members.entries) rest

def isContentName (name : String) : Bool :=
  Text.isIdentifier name && name ∉ reservedNames

def loadSchema (types : CustomTypes) (performative : String)
    (contents : OrderedMap String String) : Except SpecError Schema :=
  if !Text.isIdentifier performative then
    .error (.invalidContentName performative performative)
  else
    contents.traverse fun name text =>
      loadField types performative isContentName name text

/-! ## Reply table -/

def requireDeclared (declared : List String) (mention : Mention)
    (performative : String) : Except SpecError Unit :=
  if performative ∈ declared then .ok ()
  else .error (.undeclaredPerformative performative mention)

/-- The replies to a performative are declared and none is listed twice. -/
def checkReplies (declared : List String) (performative : String)
    (seen : List String) : List String → Except SpecError Unit
  | [] => .ok ()
  | reply :: rest => do
    requireDeclared declared .replyTable reply
    if reply ∈ seen then .error (.duplicateReply performative reply)
    else checkReplies declared performative (reply :: seen) rest

def checkReplyEntry (declared : List String)
    (entry : String × List String) : Except SpecError Unit := do
  requireDeclared declared .replyTable entry.1
  checkReplies declared entry.1 [] entry.2

/-- The first performative in increasing order that lacks a reply entry. -/
def lacking? (declared : List String)
    (reply : OrderedMap String (List String)) : Option String :=
  (Text.sort declared).find? fun performative => !reply.contains performative

def checkReplyTable (declared : List String)
    (reply : OrderedMap String (List String)) : Except SpecError Unit := do
  reply.entries.forM (checkReplyEntry declared)
  match lacking? declared reply with
  | some performative => .error (.missingReply performative)
  | none =>
    if [] ∈ reply.values then .ok () else .error .noTerminalPerformative

/-! ## Roles and end states -/

def loadRoles : List String → Except SpecError (String × String)
  | [initiator, responder] =>
    if initiator = responder then .error (.duplicateRole initiator)
    else .ok (initiator, responder)
  | roles => .error (.roleCount roles.length)

/-- No end state is listed twice. -/
def checkEndStates (seen : List String) : List String → Except SpecError Unit
  | [] => .ok ()
  | name :: rest =>
    if name ∈ seen then .error (.duplicateEndState name)
    else checkEndStates (name :: seen) rest

/-! ## Openers, speakers and outcomes -/

/-- Performatives that follow no other one. -/
def uncalled (declared : List String)
    (reply : OrderedMap String (List String)) : List String :=
  declared.filter fun performative => performative ∉ reply.values.flatten

def loadInitiation (declared : List String)
    (reply : OrderedMap String (List String)) (explicit : Option (List String)) :
    Except SpecError (List String) := do
  let openers ←
    match explicit with
    | some openers => do
      openers.forM (requireDeclared declared .initiation)
      .ok openers
    | none => .ok (uncalled declared reply)
  if openers = [] then .error .noInitiatingPerformative
  else .ok (Text.sort openers)

/-- The role that a name stands for. -/
def findRole (roles : String × String) (name : String) :
    Except SpecError Role :=
  if name = roles.1 then .ok .initiator
  else if name = roles.2 then .ok .responder
  else .error (.unknownRole name)

/-- Restrict roles on top of the restrictions in `speakers`. -/
def loadSpeakers (declared : List String) (roles : String × String)
    (speakers : OrderedMap Role (List String)) :
    List (String × List String) →
      Except SpecError (OrderedMap Role (List String))
  | [] => .ok speakers
  | (name, performatives) :: rest => do
    let role ← findRole roles name
    performatives.forM (requireDeclared declared .speakers)
    loadSpeakers declared roles (speakers.set role performatives) rest

def loadOutcome (declared : List String)
    (reply : OrderedMap String (List String)) (endStates : List String)
    (performative name : String) : Except SpecError EndState := do
  requireDeclared declared .terminalOutcomes performative
  if reply.get? performative ≠ some [] then
    .error (.nonTerminalOutcome performative)
  else if name ∉ endStates then .error (.unknownEndState name)
  else .ok ⟨name⟩

/-! ## Specifications -/

/-- The specification that a source describes. -/
def load (source : Source) : Except SpecError Specification := do
  let id ← loadId source
  let types ← loadCustomTypes ∅ source.customTypes.entries
  let speechActs ← source.speechActs.traverse (loadSchema types)
  let declared := speechActs.keys
  checkReplyTable declared source.reply
  let roles ← loadRoles source.roles
  checkEndStates [] source.endStates
  let initiation ← loadInitiation declared source.reply source.initiation
  let speakers ← loadSpeakers declared roles ∅ source.speakers.entries
  let outcomes ←
    source.terminalOutcomes.traverse
      (loadOutcome declared source.reply source.endStates)
  .ok {
    id, speechActs, initiation, speakers, outcomes
    description := source.description
    reply := source.reply
    initiator := roles.1
    responder := roles.2
    endStates := source.endStates.map EndState.mk }

def ofJson (text : String) : Except SpecError Specification := do
  load (← (Source.ofJson text).mapError .source)

def ofYaml (text : String) : Except SpecError Specification := do
  load (← (Source.ofYaml text).mapError .source)

end Colloquy.Specification
