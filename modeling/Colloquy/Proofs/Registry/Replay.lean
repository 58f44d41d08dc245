import Colloquy.Proofs.Registry.Completion
import Colloquy.Proofs.Registry.Resolution

/-!
# Replays

A payload may arrive again at any time: after its dialogue has gone on, after
the reference has been completed, after the dialogue has ended.  Main
statement: as long as the dialogue that accepted it is held, it is refused, and
no dialogue changes, whatever was asked of the registry in between and under
whatever references messages were handed over.

The dialogue is always found again, because everything that is said in it names
the initiator half of its label; and there the message is refused, because its
place in the history is taken.
-/

namespace Colloquy

/-- A message that stands in a dialogue is not accepted by it a second time. -/
theorem Dialogue.append_ne_ok_of_mem {specification : Specification}
    {dialogue next : Dialogue} {message : Message} {author sender : Role}
    (hpath : History.IsPath specification dialogue.history)
    (hmem : (author, message) ∈ dialogue.history) :
    dialogue.append specification message sender ≠ .ok next := by
  intro happend
  have hcheck := check_of_append happend
  obtain ⟨-, hgrown⟩ := (check_eq_ok_iff hpath).mp hcheck
  obtain ⟨-, hnext, -⟩ := History.isPath_concat_iff.mp hgrown
  exact hpath.not_isNext_of_mem hmem hnext

namespace Registry

/-- The history is a legal path, and everything in it names the initiator half of
the label. -/
structure IsTranscript (specification : Specification) (key : Label)
    (dialogue : Dialogue) : Prop where
  consistent : dialogue.Consistent specification
  initiator_eq : ∀ entry ∈ dialogue.history,
    entry.2.routing.reference.initiator = key.reference.initiator

/-- What holds of a registry whatever messages are handed over. -/
structure Faithful (registry : Registry) : Prop where
  traceable : registry.Traceable
  transcript : ∀ {key dialogue}, registry.Holds key dialogue →
    IsTranscript registry.specification key dialogue

/-- Whatever half is in supply, a payload is refused, and no dialogue and no name
changes. -/
def Refuses (registry : Registry) (payload : Bytes) (sender : Address) : Prop :=
  ∀ supply,
    let outcome := registry.perform (.receive supply payload sender)
    (∃ cause, outcome.1 = .error cause)
      ∧ outcome.2.dialogues = registry.dialogues
      ∧ outcome.2.completed = registry.completed

section Replays

variable {registry before after : Registry} {event : Event}
  {specification : Specification} {key later : Label}
  {dialogue next final : Dialogue}

/-! ## Transcripts -/

theorem isTranscript_start (specification : Specification) (key : Label)
    (role : Role) : IsTranscript specification key (Dialogue.start key role) :=
  ⟨Dialogue.consistent_start specification key role, List.forall_mem_nil _⟩

theorem IsTranscript.append (htranscript : IsTranscript specification key dialogue)
    {message : Message} {sender : Role}
    (hhalf : message.routing.reference.initiator = key.reference.initiator)
    (happend : dialogue.append specification message sender = .ok next) :
    IsTranscript specification key next where
  consistent := htranscript.consistent.append happend
  initiator_eq :=
    Dialogue.forall_mem_of_append happend htranscript.initiator_eq hhalf

theorem IsTranscript.relabel
    (htranscript : IsTranscript specification key dialogue)
    (hhalf : later.reference.initiator = key.reference.initiator) :
    IsTranscript specification later (dialogue.relabel later) where
  consistent := htranscript.consistent.relabel later
  initiator_eq := by
    rw [hhalf]
    exact htranscript.initiator_eq

theorem IsTranscript.finish
    (htranscript : IsTranscript specification key dialogue) {outcome : EndState}
    (hfinish : dialogue.finish specification outcome = .ok next) :
    IsTranscript specification key next where
  consistent := htranscript.consistent.finish hfinish
  initiator_eq := by
    obtain ⟨-, -, rfl⟩ := Dialogue.finish_eq_ok_iff.mp hfinish
    exact htranscript.initiator_eq

theorem Effect.transcript (heffect : Effect before event after)
    (hkeyed : before.Keyed)
    (hbefore : ∀ {key dialogue}, before.Holds key dialogue →
      IsTranscript before.specification key dialogue)
    (hheld : after.Holds key dialogue) :
    IsTranscript before.specification key dialogue := by
  cases heffect with
  | counted stats => exact hbefore hheld
  | cleared stats => exact hbefore (holds_evictEnded_iff.mp hheld).1
  | opened stats hopponent hroom hfresh hhalf hlabel hbuild happend =>
    rcases holds_hold_iff.mp hheld with ⟨rfl, rfl⟩ | ⟨-, hother⟩
    · apply (isTranscript_start _ key .initiator).append _ happend
      rw [Message.routing_of_build hbuild]
      rfl
    · exact hbefore (holds_of_makeRoom hroom hother)
  | admitted stats hsender hlabel hunknown hopener hincomplete hroom hfresh hhalf
      hcomplete happend =>
    rcases holds_hold_iff.mp hheld with ⟨rfl, rfl⟩ | ⟨-, hother⟩
    · apply (isTranscript_start _ key .responder).append _ happend
      rw [hcomplete, hlabel]
      rfl
    · exact hbefore (holds_of_makeRoom hroom hother)
  | spoke stats hfound hbuild happend =>
    obtain ⟨hprior, -⟩ := hkeyed.holds_of_find? hfound
    rcases holds_hold_iff.mp hheld with ⟨rfl, rfl⟩ | ⟨-, hother⟩
    · apply (hbefore hprior).append _ happend
      rw [Message.routing_of_build hbuild, ← hkeyed.label_eq hprior]
      rfl
    · exact hbefore hother
  | heard stats hsender hlabel hfound hfit happend =>
    obtain ⟨hprior, hsame⟩ := hkeyed.holds_of_find? hfound
    rcases holds_hold_iff.mp hheld with ⟨rfl, rfl⟩ | ⟨-, hother⟩
    · apply (hbefore hprior).append _ happend
      rw [(Label.incomplete_eq_iff.mp hsame).1, hlabel]
    · exact hbefore hother
  | completed stats hsender hlabel hfound hfit hcomplete hfree happend =>
    obtain ⟨hprior, -⟩ := hkeyed.holds_of_find? hfound
    obtain ⟨-, -, -, hhalf⟩ := fit_eq_completes_iff.mp hfit
    rw [hkeyed.label_eq hprior] at hcomplete hhalf
    rcases holds_hold_iff.mp hheld with ⟨rfl, rfl⟩ | ⟨hne, hother⟩
    · rw [hcomplete] at happend ⊢
      exact ((hbefore hprior).relabel hhalf).append rfl happend
    · rcases holds_rekey_iff.mp hother with ⟨heq, -⟩ | ⟨-, -, hkept⟩
      · exact absurd heq hne
      · exact hbefore hkept
  | finished stats hfound hfinish =>
    obtain ⟨hprior, -⟩ := hkeyed.holds_of_find? hfound
    rcases holds_hold_iff.mp hheld with ⟨rfl, rfl⟩ | ⟨-, hother⟩
    · exact (hbefore hprior).finish hfinish
    · exact hbefore hother

theorem faithful_empty (specification : Specification) (address : Address)
    (limits : Limits) : (empty specification address limits).Faithful where
  traceable := traceable_empty specification address limits
  transcript hheld := absurd hheld not_holds_empty

theorem Faithful.perform (hfaithful : registry.Faithful)
    (operation : Operation) : (registry.perform operation).2.Faithful where
  traceable := hfaithful.traceable.perform operation
  transcript hheld := by
    have heffect := perform_effect registry operation
    rw [heffect.specification_eq]
    exact heffect.transcript hfaithful.traceable.keyed hfaithful.transcript hheld

theorem Faithful.run (hfaithful : registry.Faithful)
    (operations : List Operation) : (registry.run operations).Faithful :=
  run_induction hfaithful fun _ operation _ hkept => hkept.perform operation

/-! ## Refusing what was accepted -/

/-- What stands in a dialogue with its sender finds that dialogue. -/
theorem Faithful.find?_of_mem (hfaithful : registry.Faithful)
    (hheld : registry.Holds key dialogue) {entry : Role × Message}
    (hmem : entry ∈ dialogue.history)
    (hnamed : entry.2.routing.reference.initiator ≠ unassigned) :
    registry.find? ⟨entry.2.routing.reference, registry.address, key.opponent⟩
      = some (key, dialogue) := by
  have hlabel : Label.IsNamed
      ⟨entry.2.routing.reference, registry.address, key.opponent⟩ := hnamed
  apply (hfaithful.traceable.find?_eq_some_iff hlabel).mpr
  refine ⟨hheld, Label.incomplete_eq_iff.mpr ⟨?_, ?_, rfl⟩⟩
  · exact ((hfaithful.transcript hheld).initiator_eq entry hmem).symm
  · exact hfaithful.traceable.self_eq hheld

theorem Faithful.receiveMessage_of_mem (hfaithful : registry.Faithful)
    (hheld : registry.Holds key dialogue) {author : Role} {message : Message}
    (hmem : (author, message) ∈ dialogue.history)
    (hnamed : message.routing.reference.initiator ≠ unassigned)
    (supply : HalfSupply) :
    ∃ cause base, registry.receiveMessage supply message key.opponent
      = (.error cause, base) ∧ Refused registry base := by
  have hfound := hfaithful.find?_of_mem hheld hmem hnamed
  rcases hreceive : registry.receiveMessage supply message key.opponent
    with ⟨cause | next, base⟩
  · obtain ⟨-, vacated, hcleared, hrefused⟩ := receiveMessage_eq_error hreceive
    rw [hcleared.eq_self] at hrefused
    · exact ⟨cause, base, rfl, hrefused⟩
    · rintro ⟨hadmits, -⟩
      rw [hadmits.unknown] at hfound
      cases hfound
  · obtain ⟨-, -, label, rfl, ⟨other, prior, hother, hcontinue⟩
      | ⟨hunknown, -⟩⟩ := receiveMessage_eq_ok hreceive
    · rw [hfound] at hother
      cases hother
      have hpath := (hfaithful.transcript hheld).consistent.path
      obtain ⟨-, happend, -⟩ | ⟨complete, -, -, -, happend, -⟩ :=
        continueWith_eq_ok hcontinue
      · exact absurd happend (Dialogue.append_ne_ok_of_mem hpath hmem)
      · exact absurd happend (Dialogue.append_ne_ok_of_mem hpath hmem)
    · rw [hunknown] at hfound
      cases hfound

theorem Faithful.refuses (hfaithful : registry.Faithful)
    (hheld : registry.Holds key dialogue) {author : Role} {message : Message}
    (hmem : (author, message) ∈ dialogue.history) {payload : Bytes}
    (hdecode : Message.decode registry.specification registry.limits.payload
      payload = .ok message) : registry.Refuses payload key.opponent := by
  intro supply
  obtain ⟨cause, base, hmessage, hrefused⟩ := hfaithful.receiveMessage_of_mem
    hheld hmem (initiator_ne_of_decode hdecode) supply
  have hreceive : registry.receive supply payload key.opponent
      = (.error cause, base) := by
    simp only [receive, hdecode, hmessage]
  obtain ⟨hdialogues, hcompleted, -⟩ := hrefused.unchanged
  rw [Registry.perform, hreceive]
  exact ⟨⟨cause, rfl⟩, hdialogues, hcompleted⟩

/-- An accepted message is the last one of a dialogue with its sender. -/
theorem receiveMessage_holds (hkeyed : registry.Keyed) {supply : HalfSupply}
    {message : Message} {sender : Address}
    (hreceive : registry.receiveMessage supply message sender
      = (.ok next, after)) :
    ∃ key, after.Holds key next ∧ key.opponent = sender
      ∧ next.history.getLast? = some (next.role.counterpart, message) := by
  have hlast : ∀ {prior : Dialogue} {author : Role},
      prior.append registry.specification message author = .ok next →
        author = prior.role.counterpart →
          next.history.getLast? = some (next.role.counterpart, message) := by
    rintro prior author happend rfl
    rw [Dialogue.getLast?_of_append happend, Dialogue.role_of_append happend]
  obtain ⟨-, -, label, rfl, ⟨key, prior, hfound, hcontinue⟩
    | ⟨-, -, haccept⟩⟩ := receiveMessage_eq_ok hreceive
  · obtain ⟨hprior, hsame⟩ := hkeyed.holds_of_find? hfound
    obtain ⟨-, -, hopponent⟩ := Label.incomplete_eq_iff.mp hsame
    obtain ⟨-, happend, rfl⟩ | ⟨complete, -, hcomplete, -, happend, rfl⟩ :=
      continueWith_eq_ok hcontinue
    · exact ⟨key, holds_hold_iff.mpr (Or.inl ⟨rfl, rfl⟩), hopponent,
        hlast happend rfl⟩
    · refine ⟨complete, holds_hold_iff.mpr (Or.inl ⟨rfl, rfl⟩), ?_,
        hlast happend rfl⟩
      rw [hcomplete, hkeyed.label_eq hprior]
      exact hopponent
  · obtain ⟨-, base, complete, -, hcomplete, happend, rfl⟩ :=
      acceptOpening_eq_ok haccept
    exact ⟨complete, holds_hold_iff.mpr (Or.inl ⟨rfl, rfl⟩),
      by rw [hcomplete]; rfl, hlast happend rfl⟩

/-! ## Following the dialogue -/

/-- A dialogue was held up to an operation that dropped ended ones, and had ended
by then. -/
inductive Dropped : Registry → List Operation → Label → Dialogue → Prop where
  | here {registry : Registry} {operation : Operation} {rest : List Operation}
      {key : Label} {dialogue : Dialogue}
      (hheld : registry.Holds key dialogue) (hended : dialogue.isEnded = true)
      (hevicts : operation.Evicts registry) :
      Dropped registry (operation :: rest) key dialogue
  | step {registry : Registry} {operation : Operation} {rest : List Operation}
      {key later : Label} {dialogue next : Dialogue}
      (hheld : registry.Holds key dialogue)
      (hdevelops : Develops key dialogue later next)
      (hrest : Dropped (registry.perform operation).2 rest later next) :
      Dropped registry (operation :: rest) key dialogue

theorem Develops.refl (key : Label) (dialogue : Dialogue) :
    Develops key dialogue key dialogue :=
  ⟨rfl, rfl, List.prefix_rfl⟩

theorem Develops.trans {last : Label}
    (hdevelops : Develops key dialogue later next)
    (hfurther : Develops later next last final) :
    Develops key dialogue last final :=
  ⟨hfurther.role.trans hdevelops.role,
    hfurther.opponent.trans hdevelops.opponent,
    hdevelops.history.trans hfurther.history⟩

theorem Grows.develops (hgrows : Grows key dialogue later next) :
    Develops key dialogue later next where
  role := hgrows.role
  opponent := (Label.incomplete_eq_iff.mp hgrows.incomplete).2.2
  history := by
    rcases hgrows.history with hsame | ⟨entry, hlonger⟩
    · exact hsame ▸ List.prefix_rfl
    · rw [hlonger]
      exact List.prefix_append _ _

theorem Becomes.develops {operations : List Operation}
    (hbecomes : Becomes registry operations key dialogue later final) :
    (registry.run operations).Holds later final
      ∧ Develops key dialogue later final := by
  induction hbecomes with
  | here hheld => exact ⟨hheld, .refl _ _⟩
  | step hheld hdevelops hrest ih =>
    obtain ⟨hlast, hfurther⟩ := ih
    exact ⟨hlast, hdevelops.trans hfurther⟩

/-- From one operation to the next a dialogue goes on, unless it had ended and
was dropped. -/
theorem develops_or_evicted (hkeyed : registry.Keyed)
    (hheld : registry.Holds key dialogue) (operation : Operation) :
    (∃ later next, (registry.perform operation).2.Holds later next
        ∧ Develops key dialogue later next)
      ∨ dialogue.isEnded = true ∧ operation.Evicts registry := by
  obtain ⟨taken, put, htouches⟩ := perform_touches hkeyed operation
  by_cases htaken : taken = some (key, dialogue)
  · obtain ⟨-, later, next, hput, hgrows⟩ := htouches.grows htaken
    exact Or.inl ⟨later, next, (htouches.concerns hput).1, hgrows.develops⟩
  · rcases htouches.kept hheld htaken with hkept | hdropped
    · exact Or.inl ⟨key, dialogue, hkept, .refl key dialogue⟩
    · exact Or.inr hdropped

theorem becomes_or_dropped (hkeyed : registry.Keyed)
    (hheld : registry.Holds key dialogue) (operations : List Operation) :
    (∃ later final, Becomes registry operations key dialogue later final)
      ∨ Dropped registry operations key dialogue := by
  induction operations generalizing registry key dialogue with
  | nil => exact Or.inl ⟨key, dialogue, .here hheld⟩
  | cons operation rest ih =>
    rcases develops_or_evicted hkeyed hheld operation with
      ⟨later, next, hnext, hdevelops⟩ | ⟨hended, hevicts⟩
    · have hkeyedNext := (perform_effect registry operation).keyed hkeyed
      rcases ih hkeyedNext hnext with ⟨last, final, hbecomes⟩ | hdropped
      · exact Or.inl ⟨last, final, .step hheld hdevelops hbecomes⟩
      · exact Or.inr (.step hheld hdevelops hdropped)
    · exact Or.inr (.here hheld hended hevicts)

end Replays

/-- After any operations, if a payload is received, its message is the last one
of a dialogue with its sender.  Over any number of further operations this
dialogue goes on being held, unless it has ended and an operation drops it; and
as long as it is held, it contains the message, and the payload is refused when
the same sender hands it over again. -/
theorem refuses_received (specification : Specification) (address : Address)
    (limits : Limits) (operations : List Operation) {supply : HalfSupply}
    {payload : Bytes} {sender : Address} {dialogue : Dialogue}
    {message : Message}
    (hreceived : (((empty specification address limits).run operations).perform
      (.receive supply payload sender)).1 = .ok (.received dialogue message)) :
    let before := (empty specification address limits).run operations
    let after := (before.perform (.receive supply payload sender)).2
    ∃ key, after.Holds key dialogue ∧ key.opponent = sender
      ∧ dialogue.history.getLast? = some (dialogue.role.counterpart, message)
      ∧ ∀ further,
        (∀ later final, Becomes after further key dialogue later final →
          (after.run further).Holds later final
            ∧ (dialogue.role.counterpart, message) ∈ final.history
            ∧ (after.run further).Refuses payload sender) ∧
        ((∃ later final, Becomes after further key dialogue later final)
          ∨ Dropped after further key dialogue) := by
  intro before after
  have hfaithful : before.Faithful :=
    (faithful_empty specification address limits).run operations
  have hafter : after.Faithful := hfaithful.perform _
  obtain ⟨_, _, hanswer, hdecode, hmessage⟩ := perform_receive_eq_ok hreceived
  cases hanswer
  obtain ⟨key, hheld, hopponent, hlast⟩ :=
    receiveMessage_holds hfaithful.traceable.keyed hmessage
  refine ⟨key, hheld, hopponent, hlast, fun further => ⟨?_, ?_⟩⟩
  · intro later final hbecomes
    obtain ⟨hlater, hdevelops⟩ := hbecomes.develops
    have hmem : (dialogue.role.counterpart, message) ∈ final.history :=
      hdevelops.history.subset (List.mem_of_getLast? hlast)
    have hsame : Message.decode (after.run further).specification
        (after.run further).limits.payload payload = .ok message := by
      have heffect := perform_effect before (.receive supply payload sender)
      rw [specification_run, limits_run, heffect.specification_eq,
        heffect.limits_eq]
      exact hdecode
    have hrefuses := (hafter.run further).refuses hlater hmem hsame
    rw [hdevelops.opponent, hopponent] at hrefuses
    exact ⟨hlater, hmem, hrefuses⟩
  · exact becomes_or_dropped hafter.traceable.keyed hheld further

/-- Bob's proposal, as it is sent. -/
def proposalPayload : Bytes :=
  (answerCall "propose"
    (Negotiation.Act.propose ⟨0x3ff0000000000000⟩ [] (.text "cash")).toFields).encode

/-- The proposal completes the reference of the call, Alice declines it, and it
arrives again. -/
theorem refuses_received_calling :
    let receipt : Operation :=
      .receive (.preferring "a" (by decide)) proposalPayload ⟨"bob"⟩
    let after := (calling.perform receipt).2
    let refusal : Operation :=
      .reply ⟨⟨"a", "b"⟩, ⟨"alice"⟩, ⟨"bob"⟩⟩ "decline" [("reason", .absent)]
    (∃ dialogue message key later final,
      (calling.perform receipt).1 = .ok (.received dialogue message)
        ∧ Becomes after [refusal] key dialogue later final)
      ∧ (after.perform refusal).1.isOk = true
      ∧ (after.run [refusal]).Refuses proposalPayload ⟨"bob"⟩ := by
  intro receipt after refusal
  have hok : (calling.perform receipt).1.isOk = true := by decide +kernel
  obtain ⟨_, hreceived⟩ := exists_of_isOk hok
  obtain ⟨dialogue, message, rfl, -⟩ := perform_receive_eq_ok hreceived
  obtain ⟨key, -, -, -, hfurther⟩ := refuses_received Negotiation.specification
    ⟨"alice"⟩ {} _ hreceived
  obtain ⟨hrefuses, ⟨later, final, hbecomes⟩ | hdropped⟩ := hfurther [refusal]
  · exact ⟨⟨dialogue, message, key, later, final, hreceived, hbecomes⟩,
      by decide +kernel, (hrefuses later final hbecomes).2.2⟩
  · cases hdropped with
    | here _ _ hevicts =>
      rcases hevicts with hevict | ⟨hneeds, -⟩
      · simp [refusal] at hevict
      · exact hneeds.elim
    | step _ _ hrest => cases hrest

end Registry

end Colloquy
