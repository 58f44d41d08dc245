import Colloquy.Proofs.Registry.Resolution
import Colloquy.Proofs.Registry.Statistics

/-!
# Traffic

What becomes of the payloads that other agents send, and which counter says so.
The way of a payload has many ends, and each has to do its own counting.

Main statement: every payload moves one counter by one, as accepted, refused or
unreadable, except for messages that come from the agent itself, that were found
a dialogue whose reference they do not fit, or that would open a dialogue for
which there is no room.  Those are refused, and no counter tells.
-/

namespace Colloquy

/-! ## What is counted -/

/-- What becomes of a payload. -/
inductive Receipt where
  | accepted
  | rejected
  | unread
  /-- The message is refused without being counted. -/
  | unnoticed
  deriving DecidableEq, Repr

/-- The counters that payloads move. -/
structure Traffic where
  accepted : UInt64
  rejected : UInt64
  decodeFailures : UInt64
  deriving DecidableEq, Repr

def Traffic.record (traffic : Traffic) : Receipt → Traffic
  | .accepted => { traffic with accepted := traffic.accepted + 1 }
  | .rejected => { traffic with rejected := traffic.rejected + 1 }
  | .unread => { traffic with decodeFailures := traffic.decodeFailures + 1 }
  | .unnoticed => traffic

def Stats.traffic (stats : Stats) : Traffic :=
  ⟨stats.accepted, stats.rejected, stats.decodeFailures⟩

/-- How a dialogue ends is counted apart. -/
theorem Stats.traffic_recordOutcome (stats : Stats) (dialogue : Dialogue) :
    (stats.recordOutcome dialogue).traffic = stats.traffic := by
  rw [recordOutcome]
  split
  · rfl
  · split <;> rfl

theorem Stats.traffic_accepted (stats : Stats) (dialogue : Dialogue) :
    (stats.recordAccepted.recordOutcome dialogue).traffic
      = stats.traffic.record .accepted :=
  traffic_recordOutcome _ _

namespace Registry

/-- A message is refused without being counted. -/
inductive Overlooks (registry : Registry) (message : Message)
    (sender : Address) : Prop where
  /-- It comes from the agent itself. -/
  | own (hself : sender = registry.address)
  /-- It leads to a dialogue that has another reference. -/
  | mismatched {key : Label} {dialogue : Dialogue}
      (hfound : registry.find?
        ⟨message.routing.reference, registry.address, sender⟩
          = some (key, dialogue))
      (hfit : fit dialogue message.routing.reference = .mismatch)
  /-- It opens a dialogue under a reference that is complete already. -/
  | complete
      (hunknown : registry.find?
        ⟨message.routing.reference, registry.address, sender⟩ = none)
      (hopener : message.isOpener = true)
      (hcomplete : message.routing.reference.isComplete = true)
  /-- It opens a dialogue for which there is no room. -/
  | full
      (hunknown : registry.find?
        ⟨message.routing.reference, registry.address, sender⟩ = none)
      (hopener : message.isOpener = true) (hfull : registry.evictEnded.IsFull)

/-- A message that was read has been counted as what it was taken for, unless it
was overlooked. -/
inductive Counted {α : Type} (before : Registry) (overlooked : Prop) :
    Outcome α → Prop where
  | accepted {value : α} {after : Registry} (hseen : ¬ overlooked)
      (htraffic : after.stats.traffic = before.stats.traffic.record .accepted) :
      Counted before overlooked (.ok value, after)
  | rejected {cause : ProtocolError} {after : Registry} (hseen : ¬ overlooked)
      (htraffic : after.stats.traffic = before.stats.traffic.record .rejected) :
      Counted before overlooked (.error cause, after)
  | unnoticed {cause : ProtocolError} {after : Registry}
      (hoverlooked : overlooked) (hstats : after.stats = before.stats) :
      Counted before overlooked (.error cause, after)

section Receiving

variable {registry base : Registry}

theorem Counted.congr {α : Type} {overlooked unseen : Prop} {outcome : Outcome α}
    (hcounted : Counted registry overlooked outcome)
    (hiff : overlooked ↔ unseen) : Counted registry unseen outcome := by
  cases hcounted with
  | accepted hseen htraffic => exact .accepted (mt hiff.mpr hseen) htraffic
  | rejected hseen htraffic => exact .rejected (mt hiff.mpr hseen) htraffic
  | unnoticed hoverlooked hstats =>
    exact .unnoticed (hiff.mp hoverlooked) hstats

theorem continueWith_counted (htraceable : registry.Traceable) {key : Label}
    {dialogue : Dialogue} (hheld : registry.Holds key dialogue)
    (message : Message) :
    Counted registry (fit dialogue message.routing.reference = .mismatch)
      (registry.continueWith key dialogue message) := by
  cases hfit : fit dialogue message.routing.reference with
  | mismatch =>
    simp only [continueWith, hfit]
    exact .unnoticed trivial rfl
  | same =>
    cases happend : dialogue.append registry.specification message
        dialogue.role.counterpart with
    | error cause =>
      simp only [continueWith, hfit, accept, happend]
      exact .rejected (by decide) rfl
    | ok next =>
      rw [continueWith_of_same hfit happend]
      exact .accepted (by decide) (Stats.traffic_accepted _ _)
  | completes =>
    cases hcheck : dialogue.check registry.specification message
        dialogue.role.counterpart with
    | error cause =>
      simp only [continueWith, hfit, hcheck]
      exact .rejected (by decide) rfl
    | ok =>
      have hfree := htraceable.not_contains_of_completes hheld hfit
      obtain ⟨next, -, hcontinue⟩ :=
        continueWith_of_completes key hfit rfl hcheck hfree
      rw [hcontinue]
      exact .accepted (by decide) (Stats.traffic_accepted _ _)

theorem exists_makeRoom (hroom : ¬ registry.evictEnded.IsFull) :
    ∃ base, registry.makeRoom = (.ok (), base) := by
  rw [IsFull, Nat.not_le] at hroom
  rw [makeRoom]
  split
  · exact ⟨_, rfl⟩
  · exact ⟨_, if_pos hroom⟩

theorem acceptOpening_counted (registry : Registry) (supply : HalfSupply)
    (label : Label) (message : Message) :
    Counted registry (label.isComplete = true ∨ registry.evictEnded.IsFull)
      (registry.acceptOpening supply label message) := by
  by_cases hcomplete : label.isComplete = true
  · rw [acceptOpening, if_pos hcomplete]
    exact .unnoticed (Or.inl hcomplete) rfl
  · rw [acceptOpening, if_neg hcomplete]
    by_cases hfull : registry.evictEnded.IsFull
    · rw [makeRoom_of_isFull hfull]
      exact .unnoticed (Or.inr hfull) rfl
    · have hseen : ¬ (label.isComplete = true ∨ registry.evictEnded.IsFull) :=
        not_or.mpr ⟨hcomplete, hfull⟩
      obtain ⟨base, hroom⟩ := exists_makeRoom hfull
      have hstats := (cleared_of_makeRoom hroom).stats_eq
      simp only [hroom, accept]
      split
      · rename_i hrefused
        split at hrefused <;> cases hrefused
        apply Counted.rejected hseen
        rw [← hstats]
        rfl
      · rename_i haccepted
        split at haccepted <;> cases haccepted
        apply Counted.accepted hseen
        rw [← hstats]
        exact Stats.traffic_accepted _ _

section Overlooks

variable {message : Message}

theorem overlooks_iff_of_find? {sender : Address} (hsender : sender ≠ registry.address)
    {key : Label} {dialogue : Dialogue}
    (hfound : registry.find?
      ⟨message.routing.reference, registry.address, sender⟩
        = some (key, dialogue)) :
    registry.Overlooks message sender ↔
      fit dialogue message.routing.reference = .mismatch := by
  constructor
  · intro hoverlooks
    cases hoverlooks with
    | own hself => exact absurd hself hsender
    | mismatched hother hfit =>
      cases hfound.symm.trans hother
      exact hfit
    | complete hunknown => cases hfound.symm.trans hunknown
    | full hunknown => cases hfound.symm.trans hunknown
  · exact .mismatched hfound

theorem overlooks_iff_of_unknown {sender : Address} (hsender : sender ≠ registry.address)
    (hunknown : registry.find?
      ⟨message.routing.reference, registry.address, sender⟩ = none) :
    registry.Overlooks message sender ↔
      message.isOpener = true
        ∧ (message.routing.reference.isComplete = true
          ∨ registry.evictEnded.IsFull) := by
  constructor
  · intro hoverlooks
    cases hoverlooks with
    | own hself => exact absurd hself hsender
    | mismatched hfound => cases hunknown.symm.trans hfound
    | complete _ hopener hcomplete => exact ⟨hopener, Or.inl hcomplete⟩
    | full _ hopener hfull => exact ⟨hopener, Or.inr hfull⟩
  · intro hopening
    cases hopening.2 with
    | inl hcomplete => exact .complete hunknown hopening.1 hcomplete
    | inr hfull => exact .full hunknown hopening.1 hfull

theorem receiveMessage_counted (htraceable : registry.Traceable)
    (supply : HalfSupply) (sender : Address)
    (hprotocol : message.protocol = registry.specification.id) :
    Counted registry (registry.Overlooks message sender)
      (registry.receiveMessage supply message sender) := by
  by_cases hsender : sender = registry.address
  · rw [receiveMessage, if_neg (not_not_intro hprotocol), if_pos hsender]
    exact .unnoticed (.own hsender) rfl
  · cases hfound : registry.find?
        ⟨message.routing.reference, registry.address, sender⟩ with
    | some found =>
      have hheld := (find?_eq_some_iff_resolve?.mp hfound).2
      rw [receiveMessage_of_find? supply hprotocol hsender hfound]
      apply (continueWith_counted htraceable hheld message).congr
      exact (overlooks_iff_of_find? hsender hfound).symm
    | none =>
      have hiff := overlooks_iff_of_unknown hsender hfound
      simp only [receiveMessage, hprotocol, hsender, hfound, ne_eq,
        not_true_eq_false, if_false]
      by_cases hopener : message.isOpener = true
      · rw [if_pos hopener]
        apply (acceptOpening_counted registry supply _ message).congr
        exact (hiff.trans (and_iff_right hopener)).symm
      · rw [if_neg hopener]
        exact .rejected (fun hoverlooks => hopener (hiff.mp hoverlooks).1) rfl

theorem protocol_of_decode {specification : Specification} {limit : Nat}
    {payload : Bytes}
    (hdecode : Message.decode specification limit payload = .ok message) :
    message.protocol = specification.id := by
  obtain ⟨-, envelope, -, hread⟩ := Message.decode_eq_ok_iff.mp hdecode
  obtain ⟨-, -, -, _, _, _, -, -, -, rfl⟩ :=
    Message.ofEnvelope_eq_ok_iff.mp hread
  rfl

theorem receive_counted_of_decode (htraceable : registry.Traceable)
    (supply : HalfSupply) (sender : Address) {payload : Bytes}
    (hdecode : Message.decode registry.specification registry.limits.payload
      payload = .ok message) :
    Counted registry (registry.Overlooks message sender)
      (registry.receive supply payload sender) := by
  have hcounted := receiveMessage_counted htraceable supply sender
    (protocol_of_decode hdecode)
  simp only [receive, hdecode]
  split
  · rename_i haccepted
    rw [haccepted] at hcounted
    cases hcounted with
    | accepted hseen htraffic => exact .accepted hseen htraffic
  · rename_i hrefused
    rw [hrefused] at hcounted
    cases hcounted with
    | rejected hseen htraffic => exact .rejected hseen htraffic
    | unnoticed hoverlooked hsame => exact .unnoticed hoverlooked hsame

end Overlooks

end Receiving

/-- After any operations let a payload arrive.  Of the counters of what was
accepted, refused or could not be read, one goes up by one: the first exactly if
the message is accepted, the last exactly if the payload cannot be read, and
otherwise the one between; except that none moves if the message is overlooked. -/
theorem receive_counted (specification : Specification) (address : Address)
    (limits : Limits) (operations : List Operation) (supply : HalfSupply)
    (payload : Bytes) (sender : Address) :
    let before := (empty specification address limits).run operations
    let outcome := before.receive supply payload sender
    let decoded := Message.decode specification limits.payload payload
    ∃ receipt : Receipt,
      outcome.2.stats.traffic = before.stats.traffic.record receipt
        ∧ (receipt = .accepted ↔ ∃ value, outcome.1 = .ok value)
        ∧ (receipt = .unread ↔ ∃ cause, decoded = .error cause)
        ∧ (receipt = .unnoticed ↔ ∃ message, decoded = .ok message
          ∧ before.Overlooks message sender) := by
  intro before outcome decoded
  have htraceable : before.Traceable :=
    (traceable_empty specification address limits).run operations
  have hdecoded : Message.decode before.specification before.limits.payload
      payload = decoded := by
    rw [specification_run, limits_run]
    rfl
  cases hread : decoded with
  | error failure =>
    have houtcome : outcome = (.error (.decode failure),
        { before with stats := before.stats.recordDecodeFailure }) := by
      simp only [outcome, receive, hdecoded, hread]
    refine ⟨.unread, ?_, ?_, ?_, ?_⟩
    · rw [houtcome]
      rfl
    · simp [houtcome]
    · simp
    · simp
  | ok message =>
    have hcounted : Counted before (before.Overlooks message sender) outcome :=
      receive_counted_of_decode htraceable supply sender
        (hdecoded.trans hread)
    clear_value outcome
    cases hcounted with
    | accepted hseen htraffic => exact ⟨.accepted, htraffic, by simp [hseen]⟩
    | rejected hseen htraffic => exact ⟨.rejected, htraffic, by simp [hseen]⟩
    | unnoticed hoverlooked hsame =>
      exact ⟨.unnoticed, congrArg Stats.traffic hsame, by simp [hoverlooked]⟩

/-- Alice may hold one dialogue, and has called Bob for proposals. -/
def crowded : Registry :=
  let query := (Negotiation.Act.cfp ⟨"books", {}⟩).toFields
  let limits : Limits := { dialogues := 1 }
  (empty Negotiation.specification ⟨"alice"⟩ limits).run
    [.openWith (.preferring "a" Nat.one_pos) "cfp" query ⟨"bob"⟩]

/-- Bob answers without a half of his own, Carol calls while there is no room,
and a call seems to come from Alice herself.  All three are read and refused, and
no counter moves. -/
theorem not_counted_crowded :
    let supply := HalfSupply.preferring "a" Nat.one_pos
    let query := (Negotiation.Act.cfp ⟨"books", {}⟩).toFields
    let answer : Message := ⟨Negotiation.specification.id, ⟨.opened "a", 2, 1⟩,
      "decline", [("reason", .absent)]⟩
    let call : Message :=
      ⟨Negotiation.specification.id, .opening (.opened "c"), "cfp", query⟩
    ∀ arrival ∈ [(answer, ⟨"bob"⟩), (call, ⟨"carol"⟩), (call, crowded.address)],
      let payload := arrival.1.encode
      let outcome := crowded.receive supply payload arrival.2
      (Message.decode crowded.specification crowded.limits.payload payload).isOk
          = true
        ∧ outcome.1.isOk = false ∧ outcome.2.stats = crowded.stats := by
  decide +kernel

end Registry

end Colloquy
