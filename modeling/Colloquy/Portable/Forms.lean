import Colloquy.Portable
import Colloquy.Registry.Snapshot

/-!
# Portable forms

The portable forms of addresses, identities, references, labels, roles, states
and statistics, and how they are read from documents.  Records may come without
their field names, as sequences of exactly their fields.
-/

namespace Colloquy

open Document (Fault asText asOption asRecord asUInt64 require requireText
  requireUInt64)

/-! ## Names -/

namespace Address

def toPortable (address : Address) : Portable := .text address.text

def ofDocument (document : Document) : Except Fault Address :=
  (asText document).map Address.mk

end Address

namespace EndState

def toPortable (state : EndState) : Portable := .text state.name

def ofDocument (document : Document) : Except Fault EndState :=
  (asText document).map EndState.mk

end EndState

namespace ProtocolId

def toPortable (id : ProtocolId) : Portable :=
  .record [("author", .text id.author), ("name", .text id.name),
    ("version", .text id.version)]

def ofDocument (document : Document) : Except Fault ProtocolId := do
  let fields ← asRecord ["author", "name", "version"] document
  let author ← requireText fields "author"
  let name ← requireText fields "name"
  let version ← requireText fields "version"
  .ok { author, name, version }

end ProtocolId

namespace Reference

def toPortable (reference : Reference) : Portable :=
  .record [("initiator", .text reference.initiator),
    ("responder", .text reference.responder)]

def ofDocument (document : Document) : Except Fault Reference := do
  let fields ← asRecord ["initiator", "responder"] document
  let initiator ← requireText fields "initiator"
  let responder ← requireText fields "responder"
  .ok { initiator, responder }

end Reference

namespace Label

def toPortable (label : Label) : Portable :=
  .record [("reference", label.reference.toPortable),
    ("self_address", label.self.toPortable),
    ("opponent", label.opponent.toPortable)]

def ofDocument (document : Document) : Except Fault Label := do
  let fields ← asRecord ["reference", "self_address", "opponent"] document
  let reference ← Reference.ofDocument (← require fields "reference")
  let self ← Address.ofDocument (← require fields "self_address")
  let opponent ← Address.ofDocument (← require fields "opponent")
  .ok { reference, self, opponent }

end Label

/-! ## Variants -/

namespace Role

def toPortable (role : Role) : Portable := .text role.name

def ofName : String → Except Fault Role
  | "Initiator" => .ok initiator
  | "Responder" => .ok responder
  | _ => .error .malformed

/-- A role by its name, which may be the key of a null. -/
def ofDocument : Document → Except Fault Role
  | .text name => ofName name
  | .mapping [(.text name, .null)] true => ofName name
  | _ => .error .malformed

end Role

namespace Dialogue.State

def toPortable : State → Portable
  | started => .text "Started"
  | inProgress => .text "InProgress"
  | ended outcome =>
    let content :=
      match outcome with
      | some state => state.toPortable
      | none => .null
    .variant "Ended" (.record [("outcome", content)])

def ofName : String → Except Fault State
  | "Started" => .ok started
  | "InProgress" => .ok inProgress
  | _ => .error .malformed

/-- An end state, or null or nothing at all if there is none. -/
def ofEnding (document : Document) : Except Fault State := do
  let fields ← asRecord ["outcome"] document
  match fields.get? "outcome" with
  | some outcome =>
    let state ← asOption EndState.ofDocument outcome
    .ok (ended state)
  | none => .ok (ended none)

def ofDocument : Document → Except Fault State
  | .text name => ofName name
  | .mapping [(.text "Ended", content)] true => ofEnding content
  | .mapping [(.text name, .null)] true => ofName name
  | _ => .error .malformed

end Dialogue.State

/-! ## Statistics -/

namespace Tally

def toPortable (tally : Tally) : Portable := .counts tally.counts.entries

end Tally

namespace Snapshot

def toPortable (snapshot : Snapshot) : Portable :=
  .record [("self_initiated", .counts snapshot.selfInitiated.entries),
    ("other_initiated", .counts snapshot.otherInitiated.entries),
    ("dialogues_opened", .number snapshot.opened),
    ("messages_accepted", .number snapshot.accepted),
    ("messages_rejected", .number snapshot.rejected),
    ("decode_failures", .number snapshot.decodeFailures)]

/-- Counts by name; of several for one name the last one counts. -/
def readCounts (seen : OrderedMap String UInt64) :
    List (Document × Document) → Except Fault (OrderedMap String UInt64)
  | [] => .ok seen
  | (key, document) :: rest => do
    let name ← asText key
    let count ← asUInt64 document
    readCounts (seen.set name count) rest

/-- A map with its entries in increasing order of their keys. -/
def sortEntries (map : OrderedMap String UInt64) : OrderedMap String UInt64 :=
  .ofList <| (Text.sort map.keys).filterMap fun name =>
    (map.get? name).map fun count => (name, count)

def asCounts : Document → Except Fault (OrderedMap String UInt64)
  | .mapping entries ended => do
    let counts ← readCounts ∅ entries
    Document.requireEnd ended
    .ok (sortEntries counts)
  | _ => .error .malformed

def ofDocument (document : Document) : Except Fault Snapshot := do
  let fields ←
    asRecord ["self_initiated", "other_initiated", "dialogues_opened",
      "messages_accepted", "messages_rejected", "decode_failures"] document
  let selfInitiated ← asCounts (← require fields "self_initiated")
  let otherInitiated ← asCounts (← require fields "other_initiated")
  let opened ← requireUInt64 fields "dialogues_opened"
  let accepted ← requireUInt64 fields "messages_accepted"
  let rejected ← requireUInt64 fields "messages_rejected"
  let decodeFailures ← requireUInt64 fields "decode_failures"
  .ok {
    selfInitiated, otherInitiated, opened, accepted, rejected, decodeFailures }

end Snapshot

end Colloquy
