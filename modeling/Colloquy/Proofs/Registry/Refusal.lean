import Colloquy.Negotiation.Specification
import Colloquy.Proofs.Registry.Outcome

/-!
# Refused operations

Main statement: an operation on dialogues that are held either succeeds as a
whole or changes none of them, nor their labels and names; the refusal is
counted at most once.  Only an attempt to open a dialogue may have dropped ended
ones before it fails.  The completion of a reference changes the index before
the message is accepted, but then nothing can go wrong any more.
-/

namespace Colloquy.Registry

/-- An operation that asks for room for one more dialogue. -/
def Operation.NeedsRoom (registry : Registry) : Operation → Prop
  | .openWith _ _ _ opponent => opponent ≠ registry.address
  | .send _ _ _ opponent label => label = none ∧ opponent ≠ registry.address
  | .receive _ payload sender => ∃ message,
    Message.decode registry.specification registry.limits.payload payload
        = .ok message
      ∧ registry.Admits message sender
  | .receiveMessage _ message sender => registry.Admits message sender
  | _ => False

section Refusals

variable {registry : Registry} {operation : Operation} {cause : ProtocolError}

/-- Whatever fails changes no dialogue; the ended ones were dropped before exactly
if room was asked for and there was none. -/
theorem cleared_of_error
    (herror : (registry.perform operation).1 = .error cause) :
    (cause.IsObstruction →
      registry.Obstructs (operation.NeedsRoom registry) cause) ∧ ∃ base,
      Cleared registry (operation.NeedsRoom registry ∧ registry.IsFull) base
        ∧ Refused base (registry.perform operation).2 := by
  cases operation with
  | openWith supply performative fields opponent =>
    exact openWith_eq_error (Outcome.eq_error_of_mapResult herror)
  | send supply performative fields opponent label =>
    rcases send_cases (Outcome.eq_error_of_mapResult herror) with
      ⟨rfl, opening, hopen, hresult⟩ | ⟨named, rfl, ⟨-, hreply⟩ | hfail⟩
    · cases opening with
      | ok opening => cases hresult
      | error other =>
        cases hresult
        obtain ⟨hobstructs, base, hcleared, hrefused⟩ := openWith_eq_error hopen
        refine ⟨fun hnot => (hobstructs hnot).mono (And.intro rfl), base,
          hcleared.congr (and_congr_left fun _ => ?_), hrefused⟩
        exact (and_iff_right rfl).symm
    · obtain ⟨hordinary, hrefused⟩ := reply_eq_error hreply
      exact ⟨fun hnot => absurd hnot hordinary, registry,
        cleared_of_not (fun hneeds => nomatch hneeds.1.1), hrefused⟩
    · obtain ⟨hresult, hsame⟩ := Prod.mk.inj hfail
      cases hresult
      rw [perform, ← hsame]
      exact ⟨False.elim, registry,
        cleared_of_not (fun hneeds => nomatch hneeds.1.1), .uncounted⟩
  | reply label performative fields =>
    obtain ⟨hordinary, hrefused⟩ :=
      reply_eq_error (Outcome.eq_error_of_mapResult herror)
    exact ⟨fun hnot => absurd hnot hordinary, registry,
      cleared_of_not And.left, hrefused⟩
  | receive supply payload sender =>
    rcases receive_eq_error (Outcome.eq_error_of_mapResult herror) with
      ⟨⟨failure, hunread⟩, hordinary, hrefused⟩ |
      ⟨message, hdecode, hmessage⟩
    · refine ⟨fun hnot => absurd hnot hordinary, registry,
        cleared_of_not ?_, hrefused⟩
      rintro ⟨⟨message, hdecode, -⟩, -⟩
      rw [hunread] at hdecode
      cases hdecode
    · obtain ⟨hobstructs, base, hcleared, hrefused⟩ :=
        receiveMessage_eq_error hmessage
      refine ⟨fun hnot => (hobstructs hnot).mono
          fun hadmits => ⟨message, hdecode, hadmits⟩, base,
        hcleared.congr (and_congr_left fun _ => ?_), hrefused⟩
      constructor
      · exact fun hadmits => ⟨message, hdecode, hadmits⟩
      · rintro ⟨other, hother, hadmits⟩
        rw [hdecode] at hother
        cases hother
        exact hadmits
  | receiveMessage supply message sender =>
    exact receiveMessage_eq_error (Outcome.eq_error_of_mapResult herror)
  | endDialogue label state =>
    obtain ⟨hordinary, hrefused⟩ :=
      endDialogue_eq_error (Outcome.eq_error_of_mapResult herror)
    exact ⟨fun hnot => absurd hnot hordinary, registry,
      cleared_of_not And.left, hrefused⟩
  | evict => cases herror

theorem perform_eq_error
    (herror : (registry.perform operation).1 = .error cause) :
    (cause.IsCollision → registry.CanCollide) ∧ ∃ base,
      Vacated registry (operation.NeedsRoom registry ∧ registry.IsFull) base
        ∧ Refused base (registry.perform operation).2 := by
  obtain ⟨hobstructs, base, hcleared, hrefused⟩ := cleared_of_error herror
  refine ⟨fun hcollision => ?_, base, hcleared.vacated, hrefused⟩
  cases hobstructs hcollision.isObstruction with
  | full => exact hcollision.elim
  | collision theirs hcollide => exact hcollide

end Refusals

/-- If an operation that does not ask for room fails, all dialogues, their labels
and their names are as before, and at most one is counted, of refused messages
or of unreadable payloads.  The first answer of an opponent that the check lets
pass is accepted once the label is found free, after the dialogue has been moved
to that label. -/
theorem unchanged_of_error (registry : Registry) :
    (∀ operation cause, ¬ operation.NeedsRoom registry →
      (registry.perform operation).1 = .error cause →
        let after := (registry.perform operation).2
        after.dialogues = registry.dialogues
          ∧ after.completed = registry.completed
          ∧ (after.stats = registry.stats
            ∨ after.stats = registry.stats.recordRejected
            ∨ after.stats = registry.stats.recordDecodeFailure)) ∧
    ∀ key dialogue message,
      fit dialogue message.routing.reference = .completes →
      dialogue.check registry.specification message dialogue.role.counterpart
        = .ok () →
      let complete := dialogue.label.withReference message.routing.reference
      let moved := registry.rekey dialogue complete
      registry.dialogues.contains complete = false → ∃ next,
        (moved.accept (dialogue.relabel complete) message
            dialogue.role.counterpart).1 = .ok next
          ∧ (registry.continueWith key dialogue message).1 = .ok next := by
  constructor
  · intro operation cause hroom herror
    obtain ⟨-, base, hvacated, hrefused⟩ := perform_eq_error herror
    rw [hvacated.eq_of_not fun hneeds => hroom hneeds.1] at hrefused
    exact hrefused.unchanged
  · intro key dialogue message hfit hcheck complete moved hfree
    obtain ⟨next, happend, hcontinue⟩ :=
      continueWith_of_completes key hfit rfl hcheck hfree
    obtain ⟨other, hsame, haccept⟩ := accept_of_rekey complete hcheck
    have hnext : other = next := Except.ok.inj (hsame.symm.trans happend)
    refine ⟨next, ?_, ?_⟩
    · rw [haccept, hnext]
    · rw [hcontinue]

/-- Alice has called for proposals. -/
def calling : Registry :=
  let query := (Negotiation.Act.cfp ⟨"books", {}⟩).toFields
  (empty Negotiation.specification ⟨"alice"⟩ {}).run
    [.openWith (.preferring "a" Nat.one_pos) "cfp" query ⟨"bob"⟩]

/-- The first answer to the call, under a complete reference. -/
def answerCall (performative : String) (fields : List (String × Value)) :
    Message :=
  ⟨Negotiation.specification.id, ⟨⟨"a", "b"⟩, 2, 1⟩, performative, fields⟩

/-- A confirmation may not follow a call and is refused; a refusal to negotiate
may. -/
theorem unchanged_of_error_calling :
    let operation : Operation := .receiveMessage (.preferring "a" (by decide))
      (answerCall "match_accept" []) ⟨"bob"⟩
    let after := (calling.perform operation).2
    ¬ operation.NeedsRoom calling
      ∧ (calling.perform operation).1
        = .error (.dialogue (.illegalTransition (some "cfp") "match_accept"))
      ∧ calling.dialogues.size = 1 ∧ after.dialogues = calling.dialogues
      ∧ after.completed = calling.completed
      ∧ after.stats = calling.stats.recordRejected
      ∧ ∃ key dialogue next, calling.find? key = some (key, dialogue)
        ∧ (calling.continueWith key dialogue
            (answerCall "decline" [("reason", .absent)])).1 = .ok next := by
  intro operation after
  have hroom : ¬ operation.NeedsRoom calling := by
    intro hadmits
    have hunknown : calling.find? ⟨⟨"a", "b"⟩, ⟨"alice"⟩, ⟨"bob"⟩⟩ = none :=
      hadmits.unknown
    have hfound : (calling.find? ⟨⟨"a", "b"⟩, ⟨"alice"⟩, ⟨"bob"⟩⟩).isNone
        = false := by decide +kernel
    rw [hunknown] at hfound
    cases hfound
  have herror : (calling.perform operation).1
      = .error (.dialogue (.illegalTransition (some "cfp") "match_accept")) :=
    rfl
  obtain ⟨hdialogues, hcompleted, -⟩ :=
    (unchanged_of_error calling).1 operation _ hroom herror
  refine ⟨hroom, herror, by decide +kernel, hdialogues, hcompleted,
    by decide +kernel, ⟨.opened "a", ⟨"alice"⟩, ⟨"bob"⟩⟩, ?_⟩
  let call : Message := ⟨Negotiation.specification.id,
    .opening (.opened "a"), "cfp", (Negotiation.Act.cfp ⟨"books", {}⟩).toFields⟩
  let dialogue : Dialogue := ⟨⟨.opened "a", ⟨"alice"⟩, ⟨"bob"⟩⟩, .initiator,
    [call], [.initiator], .started, rfl⟩
  obtain ⟨next, -, haccepted⟩ := (unchanged_of_error calling).2
    dialogue.label dialogue (answerCall "decline" [("reason", .absent)])
    (by decide) (by decide +kernel) (by decide +kernel)
  exact ⟨dialogue, next, rfl, haccepted⟩

end Colloquy.Registry
