import Colloquy.FieldType.Interpret
import Colloquy.Message
import Colloquy.Message.Envelope

/-!
# Messages as payloads

`Message.encode` writes a message, `Message.decode` reads one under a
specification.  Whatever the order of the fields in a payload, a message has
them in declaration order.
-/

namespace Colloquy

/-- The default limit of a payload: one mebibyte. -/
def maxMessageSize : Nat := 1024 * 1024

namespace Message

def toEnvelope (message : Message) : Envelope where
  protocol := message.protocol.text
  reference := message.routing.reference
  messageId := message.routing.messageId
  target := message.routing.target
  performative := message.performative
  body := message.fields.map fun field => (field.1, field.2.toWire)

/-- The payload of a message. -/
def encode (message : Message) : Bytes := message.toEnvelope.write

/-- The fields of a body by name: all of them declared, and none twice. -/
def collectBody (performative : String) (schema : Schema)
    (seen : OrderedMap String Wire) :
    List (String × Wire) → Except DecodeError (OrderedMap String Wire)
  | [] => .ok seen
  | (name, wire) :: rest =>
    if !schema.contains name then
      .error (.field (.undeclared performative name))
    else if seen.contains name then .error (.repeatedField name)
    else collectBody performative schema (seen.insertNew name wire) rest

/-- The value of a declared field. -/
def interpretField (performative : String) (body : OrderedMap String Wire)
    (name : String) (type : FieldType) : Except DecodeError Value :=
  match body.get? name with
  | none => .error (.field (.missing performative name))
  | some wire =>
    (type.interpret wire).mapError fun cause => .field (.type name cause)

/-- The message of an envelope. -/
def ofEnvelope (specification : Specification) (envelope : Envelope) :
    Except DecodeError Message := do
  if envelope.protocol ≠ specification.id.text then
    .error (.protocolMismatch specification.id envelope.protocol)
  else if envelope.reference.initiator = unassigned then
    .error .emptyInitiator
  else if envelope.messageId < startingMessageId then
    .error (.messageId envelope.messageId)
  else
    let performative := envelope.performative
    match specification.schema? performative with
    | none => .error (.field (.unknownPerformative performative))
    | some schema => do
      let body ← collectBody performative schema ∅ envelope.body
      let fields ← schema.traverse (interpretField performative body)
      .ok {
        protocol := specification.id
        routing :=
          { reference := envelope.reference
            messageId := envelope.messageId
            target := envelope.target }
        performative
        fields := fields.entries }

/-- The message that a payload of limited size holds. -/
def decode (specification : Specification) (limit : Nat) (payload : Bytes) :
    Except DecodeError Message := do
  if limit < payload.length then .error (.tooLarge payload.length limit)
  else
    let envelope ← (Envelope.readExact payload).mapError .payload
    ofEnvelope specification envelope

/-! ## What is read -/

theorem ofEnvelope_eq_ok_iff {specification : Specification}
    {envelope : Envelope} {message : Message} :
    ofEnvelope specification envelope = .ok message ↔
      envelope.protocol = specification.id.text
        ∧ envelope.reference.initiator ≠ unassigned
        ∧ startingMessageId ≤ envelope.messageId
        ∧ ∃ schema body fields,
          specification.schema? envelope.performative = some schema
          ∧ collectBody envelope.performative schema ∅ envelope.body = .ok body
          ∧ schema.traverse (interpretField envelope.performative body)
            = .ok fields
          ∧ message = ⟨specification.id,
            ⟨envelope.reference, envelope.messageId, envelope.target⟩,
            envelope.performative, fields.entries⟩ := by
  rw [ofEnvelope]
  by_cases hprotocol : envelope.protocol = specification.id.text
  · by_cases hinitiator : envelope.reference.initiator = unassigned
    · simp [hprotocol, hinitiator]
    · by_cases hid : envelope.messageId < startingMessageId
      · simp [hprotocol, hinitiator, hid, UInt64.not_le.mpr hid]
      · cases hschema : specification.schema? envelope.performative <;>
          simp [hprotocol, hinitiator, hid, hschema, bind_eq_ok_iff,
            UInt64.not_lt.mp hid, eq_comm (a := message)]
  · simp [hprotocol]

theorem decode_eq_ok_iff {specification : Specification} {limit : Nat}
    {payload : Bytes} {message : Message} :
    decode specification limit payload = .ok message ↔
      payload.length ≤ limit ∧ ∃ envelope,
        Envelope.readExact payload = .ok envelope
          ∧ ofEnvelope specification envelope = .ok message := by
  rw [decode]
  split
  · rename_i hlimit
    simp [Nat.not_le.mpr hlimit]
  · rename_i hlimit
    simp only [bind_eq_ok_iff, mapError_eq_ok_iff, Nat.not_lt.mp hlimit,
      true_and]

end Message

end Colloquy
