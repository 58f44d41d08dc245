import Colloquy.Proofs.Registry.Refusal
import Colloquy.Proofs.Registry.Succession

/-!
# The completion of references

The responder half of a reference is filled in once.  Main statement: in every
registry that can be reached, an initiator's label is complete exactly if the
opponent has answered, and every message in a dialogue carries the reference of
its label or the form that was opened.  A label changes with the first answer
alone, whose reference it takes over, and never again; and no two dialogues
come under one label.

Halves are not taken for granted as the identity of a dialogue here.  A dialogue
is followed from one operation to the next by its role, its opponent and what
was said in it.
-/

namespace Colloquy

/-- A reference as it is, or as it was before the responder answered. -/
def Reference.IsFormOf (theirs ours : Reference) : Prop :=
  theirs = ours ∨ theirs = ours.opening

theorem Reference.IsFormOf.initiator_eq {theirs ours : Reference}
    (hform : theirs.IsFormOf ours) : theirs.initiator = ours.initiator := by
  rcases hform with rfl | rfl <;> rfl

theorem Reference.opening_of_not_isComplete {reference : Reference}
    (hincomplete : reference.isComplete = false)
    (hinitiator : reference.initiator ≠ unassigned) :
    reference = reference.opening := by
  have hlabel : Label.incomplete ⟨reference, default, default⟩
      = ⟨reference, default, default⟩ :=
    Label.incomplete_of_not_isComplete hincomplete hinitiator
  exact (congrArg Label.reference hlabel).symm

namespace Dialogue

/-- The opponent has said something. -/
def HasHeard (dialogue : Dialogue) : Prop :=
  ∃ message, (dialogue.role.counterpart, message) ∈ dialogue.history

theorem hasHeard_append_iff {specification : Specification}
    {dialogue next : Dialogue} {message : Message} {sender : Role}
    (happend : dialogue.append specification message sender = .ok next) :
    next.HasHeard ↔ dialogue.HasHeard ∨ sender = dialogue.role.counterpart := by
  simp only [HasHeard, role_of_append happend, mem_history_of_append happend,
    Prod.mk.injEq, exists_or]
  apply or_congr_right
  constructor
  · rintro ⟨-, hsender, -⟩
    exact hsender.symm
  · rintro rfl
    exact ⟨message, rfl, rfl⟩

end Dialogue

namespace Registry

/-- How the label of a dialogue and what was said in it belong together. -/
structure Matches (key : Label) (dialogue : Dialogue) : Prop where
  answered : dialogue.role = .initiator →
    (key.isComplete = true ↔ dialogue.HasHeard)
  references : ∀ entry ∈ dialogue.history,
    entry.2.routing.reference.IsFormOf key.reference

/-- A dialogue and one held later that may be the same: it is held in the same
role with the same opponent, and begins with what was said before. -/
structure Develops (key : Label) (dialogue : Dialogue) (later : Label)
    (next : Dialogue) : Prop where
  role : next.role = dialogue.role
  opponent : later.opponent = key.opponent
  history : dialogue.history <+: next.history

/-- The opponent answers for the first time, and the label of the dialogue takes
over the reference of the answer. -/
structure Completes (event : Event) (key : Label) (dialogue : Dialogue)
    (later : Label) (next : Dialogue) (answer : Message) : Prop where
  role : dialogue.role = .initiator
  first : ¬ dialogue.HasHeard
  heard : event = .heard key.opponent answer
  history : next.history = dialogue.history ++ [(.responder, answer)]
  half_eq : key.reference.responder = unassigned
  label_eq : later = key.withReference answer.routing.reference
  initiator_eq :
    answer.routing.reference.initiator = key.reference.initiator
  responder_ne : answer.routing.reference.responder ≠ unassigned

section Matching

variable {before after registry : Registry} {event : Event}
  {key later : Label} {dialogue next : Dialogue}

/-! ## Labels and histories -/

/-- The label of an initiator is completed by what it hears. -/
theorem Origin.answered (horigin : Origin before event key next)
    (hindexed : before.Indexed)
    (hmatches : ∀ {key dialogue}, before.Holds key dialogue →
      Matches key dialogue)
    (hrole : next.role = .initiator) :
    key.isComplete = true ↔ next.HasHeard := by
  cases horigin with
  | kept hheld => exact (hmatches hheld).answered hrole
  | finished hheld hfinish =>
    obtain ⟨-, -, rfl⟩ := Dialogue.finish_eq_ok_iff.mp hfinish
    have hbefore := (hmatches hheld).answered hrole
    exact hbefore
  | opened hkey hrouting happend =>
    have hincomplete : key.isComplete = false := by
      rw [hkey, Label.isComplete, Reference.isComplete_opened]
    rw [hincomplete, Dialogue.hasHeard_append_iff happend]
    simp [Dialogue.HasHeard, Role.counterpart]
  | admitted hhalf hincomplete hkey happend hnew =>
    rw [Dialogue.role_of_append happend] at hrole
    cases hrole
  | spoke hheld hrouting happend =>
    rw [Dialogue.role_of_append happend] at hrole
    rw [Dialogue.hasHeard_append_iff happend,
      or_iff_left (Role.counterpart_ne _).symm]
    exact (hmatches hheld).answered hrole
  | heard hheld hhalf hfit happend =>
    have hcomplete := (fit_eq_same_iff.mp hfit).1
    rw [hindexed.label_eq hheld] at hcomplete
    exact iff_of_true hcomplete
      ((Dialogue.hasHeard_append_iff happend).mpr (Or.inr rfl))
  | completed hheld hfit hkey happend =>
    have hcomplete := (fit_eq_completes_iff.mp hfit).2.2.1
    rw [hkey]
    exact iff_of_true hcomplete
      ((Dialogue.hasHeard_append_iff happend).mpr (Or.inr rfl))

/-- What is said carries the reference of the label, or the form that was
opened. -/
theorem Origin.references (horigin : Origin before event key next)
    (hnamed : event.IsNamed) (hindexed : before.Indexed)
    (hmatches : ∀ {key dialogue}, before.Holds key dialogue →
      Matches key dialogue) :
    ∀ entry ∈ next.history,
      entry.2.routing.reference.IsFormOf key.reference := by
  cases horigin with
  | kept hheld => exact (hmatches hheld).references
  | finished hheld hfinish =>
    obtain ⟨-, -, rfl⟩ := Dialogue.finish_eq_ok_iff.mp hfinish
    have hbefore := (hmatches hheld).references
    exact hbefore
  | opened hkey hrouting happend =>
    refine Dialogue.forall_mem_of_append happend (List.forall_mem_nil _)
      (Or.inl ?_)
    rw [hrouting]
    rfl
  | admitted hhalf hincomplete hkey happend hnew =>
    refine Dialogue.forall_mem_of_append happend (List.forall_mem_nil _)
      (Or.inr ?_)
    rw [hkey]
    exact Reference.opening_of_not_isComplete hincomplete hnamed
  | spoke hheld hrouting happend =>
    refine Dialogue.forall_mem_of_append happend (hmatches hheld).references ?_
    rw [hrouting, ← hindexed.label_eq hheld]
    exact Or.inl rfl
  | heard hheld hhalf hfit happend =>
    refine Dialogue.forall_mem_of_append happend (hmatches hheld).references ?_
    obtain ⟨-, hsame | ⟨-, hopening, -⟩⟩ := fit_eq_same_iff.mp hfit
    · rw [hindexed.label_eq hheld] at hsame
      exact Or.inl hsame
    · rw [hindexed.label_eq hheld] at hopening
      exact Or.inr hopening
  | @completed earlier _ dialogue _ message hheld hfit hkey happend =>
    obtain ⟨hopen, -, -, hhalf⟩ := fit_eq_completes_iff.mp hfit
    rw [hindexed.label_eq hheld] at hopen hhalf
    have hreference : key.reference = message.routing.reference := by
      rw [hkey]
      rfl
    have hopening : earlier.reference = key.reference.opening := by
      rw [Reference.opening_of_not_isComplete hopen
        (hindexed.initiator_ne hheld), hreference]
      exact congrArg Reference.opened hhalf.symm
    refine Dialogue.forall_mem_of_append happend ?_ (Or.inl hreference.symm)
    intro entry hmem
    have hform := (hmatches hheld).references entry hmem
    rw [hopening] at hform
    exact Or.inr (hform.elim id id)

/-! ## Reachable registries -/

/-- What holds of every registry that can be reached. -/
structure Orderly (registry : Registry) : Prop where
  indexed : registry.Indexed
  sound : registry.Sound
  matched : ∀ {key dialogue}, registry.Holds key dialogue →
    Matches key dialogue

theorem orderly_empty (specification : Specification) (address : Address)
    (limits : Limits) : (empty specification address limits).Orderly where
  indexed := indexed_empty specification address limits
  sound := sound_empty specification address limits
  matched hheld := absurd hheld not_holds_empty

theorem Effect.orderly (heffect : Effect before event after)
    (hnamed : event.IsNamed) (horderly : before.Orderly) : after.Orderly where
  indexed := heffect.indexed hnamed horderly.indexed
  sound := heffect.sound hnamed horderly.indexed horderly.sound
  matched hheld :=
    have horigin := heffect.origin horderly.indexed hheld
    ⟨horigin.answered horderly.indexed horderly.matched,
      horigin.references hnamed horderly.indexed horderly.matched⟩

theorem Orderly.perform (horderly : registry.Orderly) {operation : Operation}
    (hadmissible : operation.IsAdmissible) :
    (registry.perform operation).2.Orderly :=
  (perform_effect registry operation).orderly
    (perform_isNamed registry hadmissible) horderly

theorem Orderly.run (horderly : registry.Orderly) (operations : List Operation)
    (hadmissible : ∀ operation ∈ operations, operation.IsAdmissible) :
    (registry.run operations).Orderly :=
  run_induction horderly fun _ operation hmem hkept =>
    hkept.perform (hadmissible operation hmem)

/-- A complete label would have to be that of the dialogue it completes. -/
theorem Indexed.contains_completed (hindexed : registry.Indexed)
    (hheld : registry.Holds key dialogue) {theirs : Reference}
    (hfit : fit dialogue theirs = .completes) :
    registry.dialogues.contains (dialogue.label.withReference theirs)
      = false := by
  obtain ⟨hopen, -, hcomplete, hhalf⟩ := fit_eq_completes_iff.mp hfit
  rw [hindexed.label_eq hheld] at hopen hhalf ⊢
  rw [← Bool.not_eq_true]
  intro hcontains
  obtain ⟨another, hother⟩ := contains_iff_exists_holds.mp hcontains
  have hkey := hindexed.unique hother hheld hhalf rfl
  have hclosed : key.isComplete = true := by
    rw [← hkey]
    exact hcomplete
  rw [hopen] at hclosed
  cases hclosed

theorem Indexed.not_canCollide (hindexed : registry.Indexed) :
    ¬ registry.CanCollide := by
  rintro ⟨label, key, dialogue, theirs, hfound, hfit, hcontains⟩
  obtain ⟨hheld, -⟩ := (find?_eq_some_iff hindexed).mp hfound
  rw [hindexed.contains_completed hheld hfit] at hcontains
  cases hcontains

/-! ## Following a dialogue -/

theorem Continues.develops (hcontinues : Continues key dialogue later next) :
    Develops key dialogue later next :=
  ⟨hcontinues.role, hcontinues.opponent_eq, hcontinues.history⟩

/-- The opener tells the initiator half. -/
theorem Matches.initiator_eq (hmatches : Matches key dialogue)
    {sender : Role} {opener : Message} {rest : History}
    (hopens : dialogue.history = (sender, opener) :: rest) :
    opener.routing.reference.initiator = key.reference.initiator := by
  apply (hmatches.references (sender, opener) ?_).initiator_eq
  rw [hopens]
  exact List.mem_cons_self

/-- Two dialogues with one opponent are the same if one goes on from the other:
they have the opener in common. -/
theorem Orderly.eq_of_prefix (horderly : registry.Orderly)
    (hheld : registry.Holds key dialogue) {prior : Dialogue}
    (hprior : registry.Holds later prior)
    (hopponent : later.opponent = key.opponent) {suffix : History}
    (hbegins : dialogue.history <+: prior.history ++ suffix) :
    later = key ∧ prior = dialogue := by
  obtain ⟨opener, rest, hopens⟩ := horderly.sound.opens hheld
  obtain ⟨other, more, hother⟩ := horderly.sound.opens hprior
  have hsame : opener = other := by
    rw [hopens, hother, List.cons_append, List.cons_prefix_cons] at hbegins
    exact congrArg Prod.snd hbegins.1
  have hinitiator : later.reference.initiator = key.reference.initiator := by
    rw [← (horderly.matched hheld).initiator_eq hopens,
      ← (horderly.matched hprior).initiator_eq hother, hsame]
  have hkey := horderly.indexed.unique hprior hheld hinitiator hopponent
  rw [hkey] at hprior
  exact ⟨hkey, hprior.eq hheld⟩

/-- An initiator that has only said the opener has an incomplete label. -/
theorem Orderly.isComplete_of_opener (horderly : registry.Orderly)
    (hheld : registry.Holds key dialogue) (hrole : dialogue.role = .initiator)
    {opener : Message} (hopens : dialogue.history = [(.initiator, opener)]) :
    key.isComplete = false := by
  rw [← Bool.not_eq_true, (horderly.matched hheld).answered hrole]
  rintro ⟨message, hmem⟩
  rw [hopens, hrole] at hmem
  simp [Role.counterpart] at hmem

/-- The label under which an initiator has only said the opener is the one that
was opened. -/
theorem Orderly.label_of_opener (horderly : registry.Orderly)
    (hheld : registry.Holds key dialogue) (hrole : dialogue.role = .initiator)
    {opener : Message} (hopens : dialogue.history = [(.initiator, opener)]) :
    key = ⟨.opened opener.routing.reference.initiator, registry.address,
      key.opponent⟩ := by
  have hopen := horderly.isComplete_of_opener hheld hrole hopens
  have hinitiator := (horderly.matched hheld).initiator_eq hopens
  calc
    key = key.incomplete :=
      (Label.incomplete_of_not_isComplete hopen
        (horderly.indexed.initiator_ne hheld)).symm
    _ = ⟨.opened opener.routing.reference.initiator, registry.address,
        key.opponent⟩ := by
      rw [hinitiator, ← horderly.indexed.self_eq hheld]
      rfl

/-- A dialogue that is opened or admitted begins nothing that was held, but it
may repeat an opener under the half of a dialogue that was dropped. -/
theorem Orderly.eq_opener (horderly : registry.Orderly)
    (hheld : registry.Holds key dialogue) {opener : Message}
    (hbegins : dialogue.history <+: [(.initiator, opener)]) :
    dialogue.history = [(.initiator, opener)]
      ∧ opener.routing.reference.initiator = key.reference.initiator := by
  obtain ⟨first, rest, hopens⟩ := horderly.sound.opens hheld
  rw [hopens, List.cons_prefix_cons, List.prefix_nil] at hbegins
  obtain ⟨hfirst, hrest⟩ := hbegins
  rw [hfirst, hrest] at hopens
  exact ⟨hopens, (horderly.matched hheld).initiator_eq hopens⟩

/-- From one operation to the next the label of a dialogue stays, or the
dialogue's reference is completed. -/
theorem Origin.label_eq_or_completes (horigin : Origin before event later next)
    (horderly : before.Orderly) (hheld : before.Holds key dialogue)
    (hdevelops : Develops key dialogue later next) :
    later = key
      ∨ ∃ answer, Completes event key dialogue later next answer := by
  obtain ⟨hrole, hopponent, hhistory⟩ := hdevelops
  cases horigin with
  | kept hprior =>
    have hgrown := hhistory.trans (List.prefix_append _ [])
    exact Or.inl (horderly.eq_of_prefix hheld hprior hopponent hgrown).1
  | finished hprior hfinish =>
    obtain ⟨-, -, rfl⟩ := Dialogue.finish_eq_ok_iff.mp hfinish
    have hgrown := hhistory.trans (List.prefix_append _ [])
    exact Or.inl (horderly.eq_of_prefix hheld hprior hopponent hgrown).1
  | @opened half _ _ message hkey hrouting happend =>
    rw [Dialogue.role_of_append happend] at hrole
    rw [Dialogue.history_of_append happend] at hhistory
    -- The half may be one that was free again after a dialogue was dropped.  The
    -- opener is then the same, and so is the label.
    obtain ⟨hopener, -⟩ := horderly.eq_opener hheld hhistory
    have hlabel := horderly.label_of_opener hheld hrole.symm hopener
    have hhalf : message.routing.reference.initiator = half := by
      rw [hrouting, hkey]
      rfl
    left
    rw [hkey, hlabel, hhalf, hopponent]
  | @admitted half _ _ message hhalf hincomplete hkey happend hnew =>
    rw [Dialogue.history_of_append happend] at hhistory
    obtain ⟨-, hinitiator⟩ := horderly.eq_opener hheld hhistory
    -- The opener would have found the dialogue that is held.
    refine absurd ?_ (hnew hheld)
    apply Label.incomplete_eq_iff.mpr
    refine ⟨?_, ?_, hopponent.symm⟩
    · rw [← hinitiator, hkey]
      rfl
    · rw [horderly.indexed.self_eq hheld, hkey]
  | spoke hprior hrouting happend =>
    rw [Dialogue.history_of_append happend] at hhistory
    exact Or.inl (horderly.eq_of_prefix hheld hprior hopponent hhistory).1
  | heard hprior hhalf hfit happend =>
    rw [Dialogue.history_of_append happend] at hhistory
    exact Or.inl (horderly.eq_of_prefix hheld hprior hopponent hhistory).1
  | @completed earlier _ prior _ message hprior hfit hkey happend =>
    rw [Dialogue.history_of_append happend] at hhistory
    have hearlier : earlier.opponent = key.opponent := by
      rw [← hopponent, hkey]
      rfl
    obtain ⟨rfl, rfl⟩ :=
      horderly.eq_of_prefix hheld hprior hearlier hhistory
    obtain ⟨hopen, hinitiator, hcomplete, hhalf⟩ :=
      fit_eq_completes_iff.mp hfit
    rw [horderly.indexed.label_eq hheld] at hopen hhalf
    exact Or.inr ⟨message, {
      role := hinitiator
      first := by
        rw [← (horderly.matched hheld).answered hinitiator, hopen]
        exact Bool.false_ne_true
      heard := by rw [hopponent]
      history := by
        rw [Dialogue.history_of_append happend, Dialogue.relabel, hinitiator]
        rfl
      half_eq := by
        rw [Reference.opening_of_not_isComplete hopen
          (horderly.indexed.initiator_ne hheld)]
        rfl
      label_eq := hkey
      initiator_eq := hhalf
      responder_ne := (Reference.isComplete_iff.mp hcomplete).2 }⟩

/-- What a dialogue has become after further operations, if none of them dropped
it. -/
inductive Becomes : Registry → List Operation → Label → Dialogue → Label →
    Dialogue → Prop where
  | here {registry : Registry} {key : Label} {dialogue : Dialogue}
      (hheld : registry.Holds key dialogue) :
      Becomes registry [] key dialogue key dialogue
  | step {registry : Registry} {operation : Operation} {rest : List Operation}
      {key later last : Label} {dialogue next final : Dialogue}
      (hheld : registry.Holds key dialogue)
      (hdevelops : Develops key dialogue later next)
      (hrest : Becomes (registry.perform operation).2 rest later next last
        final) :
      Becomes registry (operation :: rest) key dialogue last final

theorem Becomes.holds {operations : List Operation}
    (hbecomes : Becomes registry operations key dialogue later next) :
    registry.Holds key dialogue := by
  cases hbecomes with
  | here hheld => exact hheld
  | step hheld hdevelops hrest => exact hheld

theorem Completes.initiator {answer : Message}
    (hcompletes : Completes event key dialogue later next answer) :
    later.reference.initiator = key.reference.initiator := by
  rw [hcompletes.label_eq]
  exact hcompletes.initiator_eq

/-- However long a dialogue is followed, its label is completed at most once. -/
theorem Becomes.label_eq {operations : List Operation}
    (hbecomes : Becomes registry operations key dialogue later next)
    (horderly : registry.Orderly)
    (hadmissible : ∀ operation ∈ operations, operation.IsAdmissible) :
    later.reference.initiator = key.reference.initiator
      ∧ (key.reference.responder ≠ unassigned → later = key) := by
  induction hbecomes with
  | here hheld => exact ⟨rfl, fun _ => rfl⟩
  | @step registry operation _ _ _ _ _ _ _ hheld hdevelops hrest ih =>
    have hfirst := hadmissible _ List.mem_cons_self
    obtain ⟨hinitiator, hlabel⟩ := ih (horderly.perform hfirst) fun more hmem =>
      hadmissible more (List.mem_cons_of_mem _ hmem)
    have horigin := (perform_effect registry operation).origin horderly.indexed
      hrest.holds
    rcases horigin.label_eq_or_completes horderly hheld hdevelops with
      rfl | ⟨answer, hcompletes⟩
    · exact ⟨hinitiator, hlabel⟩
    · refine ⟨hinitiator.trans hcompletes.initiator, fun hassigned => ?_⟩
      exact absurd hcompletes.half_eq hassigned

end Matching

/-- After any operations: an initiator's label is complete exactly if it has
heard something, a responder's always, and what was said carries the reference
of the label or the form that was opened; no operation fails because two
dialogues would come under one label.  With one more operation every dialogue
goes on, unless it had ended, and its label stays, or it is an initiator's and
takes over the reference of the first answer.  Over any number of operations the
initiator half stays, and so does a responder half that was assigned. -/
theorem completed_once (specification : Specification) (address : Address)
    (limits : Limits) (operations : List Operation)
    (hadmissible : ∀ operation ∈ operations, operation.IsAdmissible) :
    let registry := (empty specification address limits).run operations
    (∀ key dialogue, registry.Holds key dialogue → Matches key dialogue
      ∧ (dialogue.role = .responder → key.isComplete = true)) ∧
    (∀ operation cause, (registry.perform operation).1 = .error cause →
      ¬ cause.IsCollision) ∧
    (∀ operation key dialogue, operation.IsAdmissible →
      registry.Holds key dialogue →
      let after := (registry.perform operation).2
      let event := operation.event (registry.perform operation).1
      ((∃ later next, after.Holds later next
          ∧ Develops key dialogue later next)
        ∨ dialogue.isEnded = true) ∧
      ∀ later next, after.Holds later next →
        Develops key dialogue later next →
          (later = key
            ∨ ∃ answer, Completes event key dialogue later next answer) ∧
          (dialogue.role = .initiator → ¬ dialogue.HasHeard → next.HasHeard →
            later ≠ key)) ∧
    ∀ further key dialogue last final,
      (∀ operation ∈ further, operation.IsAdmissible) →
      Becomes registry further key dialogue last final →
        last.reference.initiator = key.reference.initiator
          ∧ (key.reference.responder ≠ unassigned → last = key) := by
  intro registry
  have horderly : registry.Orderly :=
    (orderly_empty specification address limits).run operations hadmissible
  refine ⟨?held, ?collision, ?next, ?further⟩
  case held =>
    intro key dialogue hheld
    exact ⟨horderly.matched hheld, horderly.sound.complete hheld⟩
  case collision =>
    intro operation cause herror hcollides
    exact horderly.indexed.not_canCollide
      ((perform_eq_error herror).1 hcollides)
  case next =>
    intro operation key dialogue hnamed hheld after event
    have heffect : Effect registry event after :=
      perform_effect registry operation
    constructor
    · apply (heffect.continues horderly.indexed hheld).imp_left
      rintro ⟨later, next, hlater, hcontinues⟩
      exact ⟨later, next, hlater, hcontinues.develops⟩
    · intro later next hlater hdevelops
      have horigin := heffect.origin horderly.indexed hlater
      refine ⟨horigin.label_eq_or_completes horderly hheld hdevelops, ?_⟩
      intro hrole hunheard hheard hsame
      -- The label was incomplete before and is complete afterwards.
      have hlast := (horderly.perform hnamed).matched hlater
      have hcomplete :=
        (hlast.answered (hdevelops.role.trans hrole)).mpr hheard
      rw [hsame] at hcomplete
      exact hunheard
        (((horderly.matched hheld).answered hrole).mp hcomplete)
  case further =>
    intro further key dialogue last final hfurther hbecomes
    exact hbecomes.label_eq horderly hfurther

/-- The first answer completes the label under which a call was opened. -/
theorem completed_once_calling :
    let answer := answerCall "decline" [("reason", .absent)]
    let operation : Operation :=
      .receiveMessage (.preferring "a" (by decide)) answer ⟨"bob"⟩
    let key : Label := ⟨.opened "a", ⟨"alice"⟩, ⟨"bob"⟩⟩
    let later : Label := ⟨⟨"a", "b"⟩, ⟨"alice"⟩, ⟨"bob"⟩⟩
    ∃ dialogue next, calling.Holds key dialogue
      ∧ (calling.perform operation).2.Holds later next
      ∧ Matches key dialogue ∧ Develops key dialogue later next
      ∧ Completes (operation.event (calling.perform operation).1) key dialogue
        later next answer := by
  intro answer operation key later
  let query := (Negotiation.Act.cfp ⟨"books", {}⟩).toFields
  let call : Message :=
    ⟨Negotiation.specification.id, .opening (.opened "a"), "cfp", query⟩
  let dialogue : Dialogue :=
    ⟨key, .initiator, [call], [.initiator], .started, rfl⟩
  let next : Dialogue := ⟨later, .initiator, [call, answer],
    [.initiator, .responder],
    .ended (Negotiation.specification.outcome? "decline"), rfl⟩
  have hheld : calling.Holds key dialogue := rfl
  have hlater : (calling.perform operation).2.Holds later next := rfl
  have hdevelops : Develops key dialogue later next :=
    ⟨rfl, rfl, [(.responder, answer)], rfl⟩
  obtain ⟨hmatches, -, hnext, -⟩ := completed_once Negotiation.specification
    ⟨"alice"⟩ {} [.openWith (.preferring "a" (by decide)) "cfp" query ⟨"bob"⟩]
    (by simp [Operation.IsAdmissible])
  obtain ⟨-, hlabel⟩ :=
    hnext operation key dialogue (by decide : "a" ≠ unassigned) hheld
  rcases (hlabel later next hlater hdevelops).1 with hsame | ⟨first, hfirst⟩
  · exact absurd hsame (by decide)
  · have hanswer : first = answer := by
      have hhistory : [(Role.initiator, call), (Role.responder, answer)]
          = [(Role.initiator, call)] ++ [(Role.responder, first)] :=
        hfirst.history
      simpa using hhistory.symm
    rw [hanswer] at hfirst
    exact ⟨dialogue, next, hheld, hlater, (hmatches key dialogue hheld).1,
      hdevelops, hfirst⟩

end Registry

end Colloquy
