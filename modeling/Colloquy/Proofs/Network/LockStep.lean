import Colloquy.Proofs.Network.Agreement
import Colloquy.Proofs.Registry.Twins

/-!
# Agreement in lock step

Two registries under one specification, where every message is taken by the
other party before the next one is sent.  Main statement: what one party can
send the other one accepts, and then both hold the same conversation.  The
specification need not make the roles take turns, and each party only has to
choose halves that are fresh in its own registry; what has to be excluded is
that ended dialogues make room.
-/

namespace Colloquy.Network

open Registry

/-- One party sends something, and the other one takes it. -/
def exchange (network : Network) (party : Party) (operation : Operation)
    (supply : HalfSupply) : Network :=
  let sent := network.perform party operation
  match operation.event ((network.registry party).perform operation).1 with
  | .sent _ message =>
    sent.perform party.other
      (.receiveMessage supply message (network.address party))
  | _ => sent

/-- What any number of exchanges leads to, in any number of conversations, while
there is room for one more on both sides. -/
inductive LockStep (specification : Specification) : Network → Prop where
  | start (address : Party → Address) (limits : Party → Limits) :
      LockStep specification (start specification address limits)
  | exchange {network : Network} (hlockStep : LockStep specification network)
      (hroom : ∀ party, ¬ (network.registry party).IsFull) (party : Party)
      {operation : Operation}
      (hsends : operation.SendsTo (network.address party.other))
      (supply : HalfSupply) :
      LockStep specification (network.exchange party operation supply)

/-- The registries of both parties are in step. -/
def InStep (network : Network) : Prop :=
  ∀ party, (network.registry party).InStepWith (network.registry party.other)

section LockSteps

variable {specification : Specification} {network : Network} {party : Party}
  {operation : Operation} {opponent : Address} {message : Message}

theorem inStep_iff (party : Party) :
    network.InStep ↔
      (network.registry party).InStepWith (network.registry party.other)
        ∧ (network.registry party.other).InStepWith
          (network.registry party) := by
  constructor
  · intro hinStep
    have hback := hinStep party.other
    rw [Party.other_other] at hback
    exact ⟨hinStep party, hback⟩
  · rintro ⟨hmine, htheirs⟩ one
    rcases party.eq_or_eq_other one with rfl | rfl
    · exact hmine
    · rw [Party.other_other]
      exact htheirs

theorem inStep_start (specification : Specification)
    (address : Party → Address) (limits : Party → Limits) :
    (start specification address limits).InStep := by
  intro party
  exact {
    specification_eq := rfl
    orderly := orderly_empty specification (address party) (limits party)
    paired := fun hheld => absurd hheld not_holds_empty }

theorem InStep.delivered (hinStep : network.InStep)
    (hroom : ∀ party, ¬ (network.registry party).IsFull)
    (hsends : operation.SendsTo (network.address party.other))
    (hsent : operation.event ((network.registry party).perform operation).1
      = .sent opponent message) (supply : HalfSupply) :
    ∃ key dialogue other another,
      Delivered (network.registry party)
        ((network.registry party).perform operation).2
        (network.registry party.other) message
        ((network.registry party.other).receiveMessage supply message
          (network.address party)) key dialogue other another := by
  obtain ⟨hmine, htheirs⟩ := (inStep_iff party).mp hinStep
  have heffect := perform_effect (network.registry party) operation
  rw [hsent] at heffect
  apply heffect.delivered hmine htheirs (hroom party) (hroom party.other)
  rcases perform_sends (network.registry party) hsends with
    ⟨cause, -, hsilent⟩ | ⟨given, hgiven⟩
  · rw [hsent] at hsilent
    cases hsilent
  · rw [hsent] at hgiven
    exact (Event.sent.inj hgiven).1

theorem registry_exchange_of_sent
    (hsent : operation.event ((network.registry party).perform operation).1
      = .sent opponent message) (supply : HalfSupply) :
    (network.exchange party operation supply).registry party
        = ((network.registry party).perform operation).2
      ∧ (network.exchange party operation supply).registry party.other
        = ((network.registry party.other).receiveMessage supply message
          (network.address party)).2 := by
  rw [exchange, hsent]
  constructor
  · have hidle := registry_perform_other (network.perform party operation)
      party.other (.receiveMessage supply message (network.address party))
    rw [Party.other_other] at hidle
    exact hidle.trans (registry_perform_self network party operation)
  · refine (registry_perform_self _ _ _).trans ?_
    rw [registry_perform_other]
    rfl

/-- Whether the message is sent or refused, the registries stay in step. -/
theorem InStep.exchange (hinStep : network.InStep)
    (hroom : ∀ party, ¬ (network.registry party).IsFull)
    (hsends : operation.SendsTo (network.address party.other))
    (supply : HalfSupply) :
    (network.exchange party operation supply).InStep := by
  obtain ⟨hmine, htheirs⟩ := (inStep_iff party).mp hinStep
  have horderly := hmine.orderly.perform hsends.isAdmissible
  have hspecification :=
    (perform_effect (network.registry party) operation).specification_eq
  apply (inStep_iff party).mpr
  rcases perform_sends (network.registry party) hsends with
    ⟨cause, herror, hsilent⟩ | ⟨message, hsent⟩
  · have hkept := dialogues_of_error (hroom party) herror
    have hsame := hmine.specification_eq.trans hspecification.symm
    rw [Network.exchange, hsilent]
    simp only [registry_perform_self, registry_perform_other]
    exact ⟨hmine.idle hsame horderly hkept rfl,
      htheirs.idle hsame.symm htheirs.orderly rfl hkept⟩
  · obtain ⟨key, dialogue, other, another, hdelivered⟩ :=
      hinStep.delivered hroom hsends hsent supply
    obtain ⟨hself, hother⟩ := registry_exchange_of_sent hsent supply
    let receipt : Operation :=
      .receiveMessage supply message (network.address party)
    have hadmissible : receipt.IsAdmissible := hdelivered.initiator_ne horderly
    have htaken := htheirs.orderly.perform hadmissible
    have hreceived :=
      (perform_effect (network.registry party.other) receipt).specification_eq
    have hsame :=
      hreceived.trans (hmine.specification_eq.trans hspecification.symm)
    rw [hself, hother]
    exact ⟨hmine.updates hsame horderly hdelivered.sent hdelivered.taken
        hdelivered.twins,
      htheirs.updates hsame.symm htaken hdelivered.taken hdelivered.sent
        hdelivered.twins.symm⟩

theorem inStep_of_lockStep (hlockStep : LockStep specification network) :
    network.InStep := by
  induction hlockStep with
  | start address limits => exact inStep_start specification address limits
  | exchange _ hroom party hsends supply ih =>
    exact ih.exchange hroom hsends supply

end LockSteps

/-- After any exchanges, a message that one party has sent is accepted by the
other one.  It is then the last one in the dialogues that the two parties hold
for the conversation.  These, and those of every other conversation, have the
same history, state and outcome; the responder's label is complete, and the
labels are mirrored once the responder has sent something. -/
theorem exchange_agrees {specification : Specification} {network : Network}
    (hlockStep : LockStep specification network)
    (hroom : ∀ party, ¬ (network.registry party).IsFull) {party : Party}
    {operation : Operation}
    (hsends : operation.SendsTo (network.address party.other))
    {opponent : Address} {message : Message}
    (hsent : operation.event ((network.registry party).perform operation).1
      = .sent opponent message) (supply : HalfSupply) :
    let sent := network.perform party operation
    let after := network.exchange party operation supply
    (∃ key dialogue other another,
      ((sent.registry party.other).perform
          (.receiveMessage supply message (network.address party))).1
        = .ok (.accepted another)
      ∧ (after.registry party).Holds key dialogue
      ∧ (after.registry party.other).Holds other another
      ∧ dialogue.history.getLast? = some (dialogue.role, message)
      ∧ Twins key dialogue other another) ∧
    ∀ one key dialogue, (after.registry one).Holds key dialogue →
      (dialogue.role = .responder → key.isComplete = true)
        ∧ ∃ other another, (after.registry one.other).Holds other another
          ∧ Twins key dialogue other another
          ∧ another.outcome? = dialogue.outcome? := by
  intro sent after
  have hinStep := inStep_of_lockStep hlockStep
  have hafter : after.InStep := hinStep.exchange hroom hsends supply
  constructor
  · obtain ⟨key, dialogue, other, another, hdelivered⟩ :=
      hinStep.delivered hroom hsends hsent supply
    obtain ⟨hself, hother⟩ := registry_exchange_of_sent hsent supply
    refine ⟨key, dialogue, other, another, ?_, ?_, ?_, hdelivered.last,
      hdelivered.twins⟩
    · rw [registry_perform_other]
      exact congrArg (Except.map Answer.accepted) hdelivered.accepted
    · rw [hself]
      exact hdelivered.sent.held
    · rw [hother]
      exact hdelivered.taken.held
  · intro one key dialogue hheld
    obtain ⟨other, another, hother, htwins⟩ := (hafter one).paired hheld
    refine ⟨(hafter one).orderly.sound.complete hheld, other, another, hother,
      htwins, ?_⟩
    rw [Dialogue.outcome?, htwins.state, Dialogue.outcome?]

/-- A reader has asked a librarian, who has the question. -/
def inquired : Network :=
  (start inquiry readerAddress fun _ => {}).exchange .first
    (.openWith (supplyOf .first) "ask" [] ⟨"librarian"⟩) (supplyOf .second)

theorem lockStep_inquired : LockStep inquiry inquired := by
  apply LockStep.exchange (.start readerAddress fun _ => {})
  · intro party
    cases party <;> decide +kernel
  · exact rfl

/-- The answer is accepted, and stands at the end of both dialogues. -/
theorem exchange_agrees_inquired :
    let reply : Operation :=
      .reply ⟨⟨"r", "l"⟩, ⟨"librarian"⟩, ⟨"reader"⟩⟩ "answer" []
    let settled := inquired.exchange .second reply (supplyOf .first)
    reply.event ((inquired.registry .second).perform reply).1
        = .sent ⟨"reader"⟩ answer
      ∧ ∃ key dialogue other another,
        (settled.registry .second).Holds key dialogue
        ∧ (settled.registry .first).Holds other another
        ∧ dialogue.history.getLast? = some (dialogue.role, answer)
        ∧ Twins key dialogue other another := by
  intro reply settled
  have hroom : ∀ party, ¬ (inquired.registry party).IsFull := by
    intro party
    cases party <;> decide +kernel
  have hsends : reply.SendsTo (inquired.address Party.second.other) := rfl
  have hsent : reply.event ((inquired.registry .second).perform reply).1
      = .sent ⟨"reader"⟩ answer := rfl
  obtain ⟨⟨key, dialogue, other, another, -, hheld, hother, hlast, htwins⟩, -⟩ :=
    exchange_agrees lockStep_inquired hroom hsends hsent (supplyOf .first)
  exact ⟨hsent, key, dialogue, other, another, hheld, hother, hlast, htwins⟩

end Colloquy.Network
