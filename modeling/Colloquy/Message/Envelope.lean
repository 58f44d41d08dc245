import Colloquy.MessagePack.Wire
import Colloquy.Reference

/-!
# Message envelopes

The layout of a message in MessagePack, before any specification gives its
fields a type: six slots in a fixed order.  Envelopes are written as arrays;
maps from slot names or slot numbers are read as well.  Slots may be read from
wider encodings than they are written in.
-/

namespace Colloquy

open MessagePack

structure Envelope where
  protocol : String
  reference : Reference
  messageId : UInt64
  target : UInt64
  performative : String
  body : List (String × Wire)
  deriving Repr, Inhabited

namespace Envelope

/-! ## Writing -/

def writeText (text : String) : Bytes := (Token.str text).write

def writeReference (reference : Reference) : Bytes :=
  (Token.array 2).write ++ writeText reference.initiator
    ++ writeText reference.responder

def writeField (field : String × Wire) : Bytes :=
  (Token.array 2).write ++ writeText field.1 ++ field.2.write

def writeBody (body : List (String × Wire)) : Bytes :=
  (Token.array body.length).write ++ body.flatMap writeField

def write (envelope : Envelope) : Bytes :=
  (Token.array 6).write ++ writeText envelope.protocol
    ++ writeReference envelope.reference
    ++ (Token.uint envelope.messageId).write
    ++ (Token.uint envelope.target).write
    ++ writeText envelope.performative
    ++ writeBody envelope.body

/-! ## Reading values -/

/-- A text, which may be encoded as bytes. -/
def readText (bytes : Bytes) : Except Fault (String × Bytes) := do
  match ← readToken bytes with
  | (.str text, rest) => .ok (text, rest)
  | (.bin content, rest) =>
    match Bytes.text? content with
    | some text => .ok (text, rest)
    | none => .error .malformed
  | _ => .error .malformed

/-- A number that is not negative, in any integer encoding. -/
def readUInt64 (bytes : Bytes) : Except Fault (UInt64 × Bytes) := do
  match ← readToken bytes with
  | (.uint number, rest) => .ok (number, rest)
  | (.sint number, rest) =>
    if 0 ≤ number then .ok (number.toUInt64, rest) else .error .malformed
  | _ => .error .malformed

/-- An array of two items. -/
def readCouple {α β : Type} (left : Bytes → Except Fault (α × Bytes))
    (right : Bytes → Except Fault (β × Bytes)) (bytes : Bytes) :
    Except Fault ((α × β) × Bytes) := do
  match ← readToken bytes with
  | (.array size, rest) =>
    if size < 2 then .error .malformed
    else do
      let result ← readPair left right rest
      if size = 2 then .ok result else .error .malformed
  | _ => .error .malformed

def readReference (bytes : Bytes) : Except Fault (Reference × Bytes) := do
  let ((initiator, responder), rest) ← readCouple readText readText bytes
  .ok (⟨initiator, responder⟩, rest)

def readField : Bytes → Except Fault ((String × Wire) × Bytes) :=
  readCouple readText (Wire.read maxNestingDepth)

/-- An array of fields.  No bytes at all are no fields. -/
def readBody (bytes : Bytes) :
    Except Fault (List (String × Wire) × Bytes) := do
  match ← readToken bytes with
  | (.array size, rest) => times readField size rest
  | (.bin [], rest) => .ok ([], rest)
  | _ => .error .malformed

/-- How deeply a value may be nested that nobody reads; an extension counts as
a level. -/
def maxSkippedDepth : Nat := 1022

/-- The rest after a value that nobody reads. -/
def skip : (levels : Nat) → Bytes → Except Fault (Unit × Bytes)
  | levels, bytes => do
    let (token, rest) ← readToken bytes
    match token, levels with
    | .array size, levels + 1 => do
      let (_, rest) ← times (skip levels) size rest
      .ok ((), rest)
    | .map size, levels + 1 => do
      let (_, rest) ← times (readPair (skip levels) (skip levels)) size rest
      .ok ((), rest)
    | .array _, 0 => .error .malformed
    | .map _, 0 => .error .malformed
    | .ext _ _, 0 => .error .malformed
    | _, _ => .ok ((), rest)

/-! ## Reading slots -/

inductive Slot where
  | protocol
  | reference
  | messageId
  | target
  | performative
  | body
  deriving DecidableEq, Repr

/-- The slots in the order in which they are written. -/
def Slot.all : List Slot :=
  [protocol, reference, messageId, target, performative, body]

def Slot.name : Slot → String
  | protocol => "protocol"
  | reference => "dialogue_reference"
  | messageId => "message_id"
  | target => "target"
  | performative => "performative"
  | body => "body"

/-- An envelope of which some slots have been read. -/
structure Draft where
  protocol : Option String := none
  reference : Option Reference := none
  messageId : Option UInt64 := none
  target : Option UInt64 := none
  performative : Option String := none
  body : Option (List (String × Wire)) := none

namespace Draft

/-- Read a slot that must not have been read before. -/
def readOnce {α : Type} (read : Option α)
    (value : Bytes → Except Fault (α × Bytes)) (store : Option α → Draft)
    (bytes : Bytes) : Except Fault (Draft × Bytes) :=
  match read with
  | some _ => .error .malformed
  | none => do
    let (content, rest) ← value bytes
    .ok (store (some content), rest)

def readSlot (draft : Draft) :
    Slot → Bytes → Except Fault (Draft × Bytes)
  | .protocol =>
    readOnce draft.protocol readText fun protocol => { draft with protocol }
  | .reference =>
    readOnce draft.reference readReference fun reference =>
      { draft with reference }
  | .messageId =>
    readOnce draft.messageId readUInt64 fun messageId =>
      { draft with messageId }
  | .target =>
    readOnce draft.target readUInt64 fun target => { draft with target }
  | .performative =>
    readOnce draft.performative readText fun performative =>
      { draft with performative }
  | .body => readOnce draft.body readBody fun body => { draft with body }

def readSlots (draft : Draft) :
    List Slot → Bytes → Except Fault (Draft × Bytes)
  | [], bytes => .ok (draft, bytes)
  | slot :: rest, bytes => do
    let (draft, bytes) ← draft.readSlot slot bytes
    draft.readSlots rest bytes

/-- The slot that a key stands for; nothing if it is to be skipped. -/
def slotOfKey : Token → Except Fault (Option Slot)
  | .str name => .ok (Slot.all.find? fun slot => slot.name = name)
  | .bin content =>
    .ok (Slot.all.find? fun slot => Bytes.ofText slot.name = content)
  | .uint number => .ok Slot.all[number.toNat]?
  | _ => .error .malformed

/-- Read map entries, one after the other. -/
def readEntries (draft : Draft) :
    (count : Nat) → Bytes → Except Fault (Draft × Bytes)
  | 0, bytes => .ok (draft, bytes)
  | count + 1, bytes => do
    let (key, rest) ← readToken bytes
    match ← slotOfKey key with
    | some slot => do
      let (draft, rest) ← draft.readSlot slot rest
      draft.readEntries count rest
    | none => do
      let (_, rest) ← skip maxSkippedDepth rest
      draft.readEntries count rest

/-- The envelope of a draft in which no slot is missing. -/
def finish : Draft → Except Fault Envelope
  | ⟨some protocol, some reference, some messageId, some target,
      some performative, some body⟩ =>
    .ok { protocol, reference, messageId, target, performative, body }
  | _ => .error .malformed

end Draft

/-- The envelope at the front of a byte string, and the rest. -/
def read (bytes : Bytes) : Except Fault (Envelope × Bytes) := do
  match ← readToken bytes with
  | (.array size, rest) => do
    let (draft, rest) ← ({} : Draft).readSlots (Slot.all.take size) rest
    if size = 6 then .ok (← draft.finish, rest) else .error .malformed
  | (.map size, rest) => do
    let (draft, rest) ← ({} : Draft).readEntries size rest
    .ok (← draft.finish, rest)
  | _ => .error .malformed

def readExact (bytes : Bytes) : Except Fault Envelope := exactly read bytes

end Envelope

end Colloquy
