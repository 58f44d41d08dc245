import Colloquy.Agent
import Colloquy.Message.Codec
import Colloquy.Negotiation.Specification
import Colloquy.Proofs.Message.Envelope
import Colloquy.Proofs.Specification.Checks

/-!
# Payloads of another protocol

A payload names its protocol by the text of its identity.  Whatever else it
holds, it is read under no protocol whose identity has another text, and an
agent that is handed it there keeps all its dialogues as they are.  Identities
that differ have different texts if no author contains the first separator and
no version the second.  Otherwise the text may be cut in two ways, and a payload
of one protocol is taken for one of the other.
-/

namespace Colloquy

/-! ## Identity texts -/

namespace ProtocolId

/-- An identity whose text is cut at the first slash and the last colon. -/
structure IsPlain (id : ProtocolId) : Prop where
  author : '/' ∉ id.author.toList
  version : ':' ∉ id.version.toList

theorem toList_text (id : ProtocolId) :
    id.text.toList = id.author.toList
      ++ '/' :: (id.name.toList ++ ':' :: id.version.toList) := by
  simp [text]

/-- A separator that neither beginning contains is in the same place. -/
theorem append_separator_inj {separator : Char} {left right : List Char}
    (hleft : separator ∉ left) (hright : separator ∉ right)
    {rest others : List Char}
    (heq : left ++ separator :: rest = right ++ separator :: others) :
    left = right ∧ rest = others := by
  induction left generalizing right with
  | nil =>
    cases right with
    | nil => exact ⟨rfl, (List.cons.inj heq).2⟩
    | cons char chars =>
      rw [(List.cons.inj heq).1] at hright
      exact absurd List.mem_cons_self hright
  | cons char chars ih =>
    cases right with
    | nil =>
      rw [← (List.cons.inj heq).1] at hleft
      exact absurd List.mem_cons_self hleft
    | cons another more =>
      obtain ⟨rfl, htail⟩ := List.cons.inj heq
      obtain ⟨rfl, hrest⟩ := ih (List.not_mem_of_not_mem_cons hleft)
        (List.not_mem_of_not_mem_cons hright) htail
      exact ⟨rfl, hrest⟩

/-- The same, read from the other end. -/
theorem append_separator_inj_right {separator : Char} {rest others : List Char}
    (hrest : separator ∉ rest) (hothers : separator ∉ others)
    {left right : List Char}
    (heq : left ++ separator :: rest = right ++ separator :: others) :
    left = right ∧ rest = others := by
  have hreverse : rest.reverse ++ separator :: left.reverse
      = others.reverse ++ separator :: right.reverse := by
    simpa using congrArg List.reverse heq
  obtain ⟨hends, hbeginnings⟩ := append_separator_inj
    (mt List.mem_reverse.mp hrest) (mt List.mem_reverse.mp hothers) hreverse
  exact ⟨List.reverse_inj.mp hbeginnings, List.reverse_inj.mp hends⟩

theorem text_injective_of_isPlain {id other : ProtocolId} (hid : id.IsPlain)
    (hother : other.IsPlain) (htext : id.text = other.text) : id = other := by
  have hchars := congrArg String.toList htext
  rw [toList_text, toList_text] at hchars
  obtain ⟨hauthor, hrest⟩ :=
    append_separator_inj hid.author hother.author hchars
  obtain ⟨hname, hversion⟩ :=
    append_separator_inj_right hid.version hother.version hrest
  cases id
  cases other
  rw [mk.injEq]
  exact ⟨String.toList_inj.mp hauthor, String.toList_inj.mp hname,
    String.toList_inj.mp hversion⟩

end ProtocolId

/-! ## Reading -/

namespace Envelope

open MessagePack

variable {draft next : Draft} {slot : Slot} {bytes rest : Bytes}
  {protocol : String}

theorem Draft.readOnce_eq_ok_iff {α : Type} {read : Option α}
    {value : Bytes → Except Fault (α × Bytes)} {store : Option α → Draft} :
    Draft.readOnce read value store bytes = .ok (next, rest) ↔
      read = none ∧ ∃ content, value bytes = .ok (content, rest)
        ∧ next = store (some content) := by
  cases read with
  | some content => simp [readOnce]
  | none =>
    simp only [readOnce, bind_eq_ok_iff, true_and]
    constructor
    · rintro ⟨⟨content, others⟩, hvalue, hstore⟩
      cases hstore
      exact ⟨content, hvalue, rfl⟩
    · rintro ⟨content, hvalue, rfl⟩
      exact ⟨(content, rest), hvalue, rfl⟩

/-- No slot is read twice, so later slots leave the protocol as it was read. -/
theorem Draft.protocol_readSlot (hprotocol : draft.protocol = some protocol)
    (hread : draft.readSlot slot bytes = .ok (next, rest)) :
    next.protocol = some protocol := by
  cases slot <;> rw [readSlot] at hread
  case protocol =>
    obtain ⟨hnone, -⟩ := readOnce_eq_ok_iff.mp hread
    rw [hprotocol] at hnone
    cases hnone
  all_goals
    obtain ⟨-, content, -, rfl⟩ := readOnce_eq_ok_iff.mp hread
    exact hprotocol

theorem Draft.protocol_readSlots {slots : List Slot}
    (hprotocol : draft.protocol = some protocol)
    (hread : draft.readSlots slots bytes = .ok (next, rest)) :
    next.protocol = some protocol := by
  induction slots generalizing draft bytes with
  | nil =>
    cases hread
    exact hprotocol
  | cons slot slots ih =>
    obtain ⟨⟨later, others⟩, hslot, hslots⟩ := bind_eq_ok_iff.mp hread
    exact ih (protocol_readSlot hprotocol hslot) hslots

theorem Draft.protocol_finish {envelope : Envelope}
    (hfinish : draft.finish = .ok envelope) :
    draft.protocol = some envelope.protocol := by
  rw [finish.eq_def] at hfinish
  split at hfinish
  · cases hfinish
    rfl
  · cases hfinish

/-- Behind the header of an array of six, the slots are read in order. -/
theorem read_eq_ok_of_array {envelope : Envelope} {others : Bytes}
    (hheader : readToken bytes = .ok (.array 6, rest))
    (hread : read bytes = .ok (envelope, others)) :
    ∃ draft, ({} : Draft).readSlots Slot.all rest = .ok (draft, others)
      ∧ draft.finish = .ok envelope := by
  obtain ⟨token, htoken, hslots⟩ := bind_eq_ok_iff.mp hread
  rw [hheader] at htoken
  cases htoken
  obtain ⟨⟨draft, remaining⟩, hdraft, hfinal⟩ := bind_eq_ok_iff.mp hslots
  dsimp only at hfinal
  rw [if_pos rfl] at hfinal
  obtain ⟨result, hfinish, hpair⟩ := bind_eq_ok_iff.mp hfinal
  cases hpair
  exact ⟨draft, hdraft, hfinish⟩

/-- Whether or not the rest of an envelope can be read back, its protocol is. -/
theorem protocol_of_readExact {envelope found : Envelope}
    (hsize : (writeText envelope.protocol).length < Bytes.capacity 4)
    (hread : readExact envelope.write = .ok found) :
    found.protocol = envelope.protocol := by
  obtain ⟨⟨result, others⟩, hresult, hexact⟩ := bind_eq_ok_iff.mp hread
  have hsame : result = found := by
    dsimp only at hexact
    split at hexact
    · exact Except.ok.inj hexact
    · cases hexact
  have hfits : (Token.array 6).Fits := show 6 < Bytes.capacity 4 by decide
  simp only [write, List.append_assoc] at hresult
  obtain ⟨draft, hslots, hfinish⟩ :=
    read_eq_ok_of_array (readToken_write_append _ hfits _) hresult
  obtain ⟨⟨first, rest⟩, hfirst, hlater⟩ := bind_eq_ok_iff.mp hslots
  rw [Draft.readSlot] at hfirst
  obtain ⟨-, protocol, hprotocol, rfl⟩ := Draft.readOnce_eq_ok_iff.mp hfirst
  rw [readText_write _ _ hsize] at hprotocol
  cases hprotocol
  have hkept := Draft.protocol_readSlots rfl hlater
  rw [Draft.protocol_finish hfinish, hsame] at hkept
  exact Option.some.inj hkept

end Envelope

/-! ## Refusal -/

namespace Message

variable {specification : Specification} {limit : Nat} {message : Message}

theorem decode_of_protocol_ne {payload : Bytes} {envelope : Envelope}
    (hlimit : payload.length ≤ limit)
    (hread : Envelope.readExact payload = .ok envelope)
    (hother : envelope.protocol ≠ specification.id.text) :
    decode specification limit payload
      = .error (.protocolMismatch specification.id envelope.protocol) := by
  rw [decode, if_neg (Nat.not_lt.mpr hlimit), hread]
  exact if_pos hother

theorem length_protocol_le (message : Message) :
    (Envelope.writeText message.protocol.text).length
      ≤ message.encode.length := by
  simp only [encode, toEnvelope, Envelope.write, List.length_append]
  omega

/-- The text of the protocol is found again in a payload that is read at all,
unless it is too long for the format and no limit says so before. -/
theorem protocol_of_readExact_encode {envelope : Envelope}
    (hsize : limit < Bytes.capacity 4
      ∨ (Envelope.writeText message.protocol.text).length < Bytes.capacity 4)
    (hlimit : message.encode.length ≤ limit)
    (hread : Envelope.readExact message.encode = .ok envelope) :
    envelope.protocol = message.protocol.text := by
  have hfits : (Envelope.writeText message.protocol.text).length
      < Bytes.capacity 4 := by
    rcases hsize with hshort | hfits
    · calc
        (Envelope.writeText message.protocol.text).length
            ≤ message.encode.length := message.length_protocol_le
        _ ≤ limit := hlimit
        _ < Bytes.capacity 4 := hshort
    · exact hfits
  exact Envelope.protocol_of_readExact hfits hread

theorem exists_decode_eq_error
    (hsize : limit < Bytes.capacity 4
      ∨ (Envelope.writeText message.protocol.text).length < Bytes.capacity 4)
    (hother : message.protocol.text ≠ specification.id.text) :
    ∃ cause, decode specification limit message.encode = .error cause := by
  cases hresult : decode specification limit message.encode with
  | error cause => exact ⟨cause, rfl⟩
  | ok found =>
    obtain ⟨hlimit, envelope, hread, hfound⟩ := decode_eq_ok_iff.mp hresult
    obtain ⟨hprotocol, -⟩ := ofEnvelope_eq_ok_iff.mp hfound
    rw [protocol_of_readExact_encode hsize hlimit hread] at hprotocol
    exact absurd hprotocol hother

/-- What is read under the protocol it names is refused for its protocol under
any other. -/
theorem decode_eq_error_of_isOk {foreign : Specification}
    (hother : foreign.id.text ≠ specification.id.text) {payload : Bytes}
    (hread : (decode foreign limit payload).isOk = true) :
    decode specification limit payload
      = .error (.protocolMismatch specification.id foreign.id.text) := by
  cases hresult : decode foreign limit payload with
  | error cause =>
    rw [hresult] at hread
    cases hread
  | ok found =>
    obtain ⟨hlimit, envelope, henvelope, hfound⟩ := decode_eq_ok_iff.mp hresult
    obtain ⟨hprotocol, -⟩ := ofEnvelope_eq_ok_iff.mp hfound
    rw [← hprotocol] at hother ⊢
    exact decode_of_protocol_ne hlimit henvelope hother

end Message

namespace Agent

theorem registry?_setRegistry (agent : Agent) (id other : ProtocolId)
    (registry : Registry) :
    let after := agent.setRegistry id registry
    after.registry? other
      = if other = id then some registry else agent.registry? other :=
  OrderedMap.get?_set agent.registries id other registry

/-- A payload that its registry cannot read is counted there, and that is all. -/
theorem receive_of_decode_eq_error {agent : Agent} {id : ProtocolId}
    {registry : Registry} {payload : Bytes} {cause : DecodeError}
    (hregistry : agent.registry? id = some registry)
    (hdecode : Message.decode registry.specification registry.limits.payload
      payload = .error cause) (supply : HalfSupply) (sender : Address) :
    agent.receive supply id payload sender
      = (.error (.decode cause), agent.setRegistry id
        { registry with stats := registry.stats.recordDecodeFailure }) := by
  simp only [receive, hregistry, Registry.receive, hdecode]

/-- A message that was built under a protocol is not read under another one whose
identity has another text, and an agent that is handed its payload there only
counts that it was not read.  If the payload can be read under its own protocol,
it is refused for naming it.  Identities that differ have different texts if
both are plain. -/
theorem refuses_foreign {foreign specification : Specification}
    {performative : String} {given : List (String × Value)} {routing : Routing}
    {message : Message}
    (hbuild : Message.build foreign performative given routing = .ok message)
    (hdiffer : foreign.id ≠ specification.id) :
    (foreign.id.IsPlain → specification.id.IsPlain →
      foreign.id.text ≠ specification.id.text)
    ∧ (foreign.id.text ≠ specification.id.text → ∀ limit,
      limit < Bytes.capacity 4
        ∨ (Envelope.writeText foreign.id.text).length < Bytes.capacity 4 →
      ∃ cause, Message.decode specification limit message.encode = .error cause
        ∧ ((Message.decode foreign limit message.encode).isOk = true →
          cause = .protocolMismatch specification.id foreign.id.text)
        ∧ ∀ (agent : Agent) (registry : Registry),
          agent.registry? specification.id = some registry →
          registry.specification = specification →
          registry.limits.payload = limit → ∀ supply sender,
            agent.receive supply specification.id message.encode sender
              = (.error (.decode cause), agent.setRegistry specification.id
                { registry with
                  stats := registry.stats.recordDecodeFailure })) := by
  refine ⟨fun hforeign hown htext => ?_, fun htext limit hsize => ?_⟩
  · exact hdiffer (ProtocolId.text_injective_of_isPlain hforeign hown htext)
  · rw [← Message.protocol_of_build hbuild] at hsize
    have hother : message.protocol.text ≠ specification.id.text := by
      rw [Message.protocol_of_build hbuild]
      exact htext
    obtain ⟨cause, hcause⟩ := Message.exists_decode_eq_error hsize hother
    refine ⟨cause, hcause, fun hread => ?_, ?_⟩
    · have hmismatch := Message.decode_eq_error_of_isOk htext hread
      rw [hcause] at hmismatch
      exact Except.error.inj hmismatch
    · intro agent registry hregistry hspecification hlimit supply sender
      rw [← hspecification, ← hlimit] at hcause
      exact receive_of_decode_eq_error hregistry hcause supply sender

/-- The negotiation under another identity. -/
def renamed (author name version : String) : Specification :=
  { Negotiation.specification with id := ⟨author, name, version⟩ }

/-- A call that Alice makes under one of these. -/
def renamedCall (foreign : Specification) : Message where
  protocol := foreign.id
  routing := .opening (.opened "1")
  performative := "cfp"
  fields := (Negotiation.Act.cfp ⟨"books", {}⟩).toFields

/-- Bob takes part in two protocols and is handed the call under the second. -/
def answering (foreign specification : Specification) :
    Except ProtocolError (Dialogue × Message) × Agent :=
  (((empty ⟨"bob"⟩ {}).register foreign).register specification).receive
    (.preferring "2" Nat.one_pos) specification.id
    (renamedCall foreign).encode ⟨"alice"⟩

/-- A call under the next version is refused. -/
theorem refuses_foreign_version :
    let foreign := renamed "fetchai" "two_party_negotiation" "0.2.0"
    let specification := Negotiation.specification
    let registry := Registry.empty specification ⟨"bob"⟩ {}
    let after := (answering foreign specification).2
    Message.build foreign "cfp" (renamedCall foreign).fields
        (.opening (.opened "1")) = .ok (renamedCall foreign)
      ∧ foreign.id ≠ specification.id ∧ foreign.id.text ≠ specification.id.text
      ∧ (Message.decode foreign maxMessageSize
        (renamedCall foreign).encode).isOk = true
      ∧ (answering foreign specification).1
        = .error (.decode (.protocolMismatch specification.id foreign.id.text))
      ∧ after.registry? specification.id
        = some { registry with stats := registry.stats.recordDecodeFailure } := by
  intro foreign specification registry after
  have hbuild : Message.build foreign "cfp" (renamedCall foreign).fields
      (.opening (.opened "1")) = .ok (renamedCall foreign) :=
    rfl
  have hdiffer : foreign.id ≠ specification.id := by decide +kernel
  have hforeign : foreign.id.IsPlain := ⟨by decide +kernel, by decide +kernel⟩
  have hplain : specification.id.IsPlain :=
    ⟨by decide +kernel, by decide +kernel⟩
  have hread : (Message.decode foreign maxMessageSize
      (renamedCall foreign).encode).isOk = true := by
    decide +kernel
  obtain ⟨hinjective, hrefused⟩ := refuses_foreign hbuild hdiffer
  have htext := hinjective hforeign hplain
  obtain ⟨cause, -, hmismatch, hagent⟩ :=
    hrefused htext maxMessageSize (Or.inl (by decide))
  have hreceive := hagent
    (((empty ⟨"bob"⟩ {}).register foreign).register specification) registry
    rfl rfl rfl (.preferring "2" Nat.one_pos) ⟨"alice"⟩
  rw [hmismatch hread] at hreceive
  have hafter : after.registry? specification.id
      = some { registry with stats := registry.stats.recordDecodeFailure } := by
    simp only [after, answering, hreceive]
    exact (registry?_setRegistry _ _ _ _).trans (if_pos rfl)
  exact ⟨hbuild, hdiffer, htext, hread, congrArg Prod.fst hreceive, hafter⟩

/-- The author of one and the name of the other contain a slash.  Their texts are
the same, and the call under the one opens a dialogue under the other. -/
theorem not_refuses_foreign_slash :
    let foreign := renamed "a" "b/c" "1"
    let specification := renamed "a/b" "c" "1"
    let after := (answering foreign specification).2
    Specification.load
        { Negotiation.source with author := "a", name := "b/c", version := "1" }
        = .ok foreign
      ∧ Specification.load
        { Negotiation.source with author := "a/b", name := "c", version := "1" }
        = .ok specification
      ∧ foreign.id ≠ specification.id
      ∧ Message.build foreign "cfp" (renamedCall foreign).fields
        (.opening (.opened "1")) = .ok (renamedCall foreign)
      ∧ (Message.decode specification maxMessageSize
        (renamedCall foreign).encode).isOk = true
      ∧ (answering foreign specification).1.isOk = true
      ∧ ∃ registry, after.registry? specification.id = some registry
        ∧ registry.dialogues.size = 1 := by
  intro foreign specification after
  let held := after.registry? specification.id
  have hopened : held.map (fun registry => registry.dialogues.size) = some 1 := by
    decide +kernel
  have hload : ∀ author name, Text.isBlank author = false →
      Text.isBlank name = false → Specification.load
        { Negotiation.source with author, name, version := "1" }
        = .ok (renamed author name "1") :=
    fun _ _ hauthor hname =>
      Specification.load_renamed Negotiation.load_source hauthor hname (by decide)
  exact ⟨hload "a" "b/c" (by decide) (by decide),
    hload "a/b" "c" (by decide) (by decide), by decide, rfl, by decide +kernel,
    by decide +kernel, Option.map_eq_some_iff.mp hopened⟩

end Agent

end Colloquy
