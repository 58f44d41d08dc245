import Colloquy.Proofs.Registry.Index

/-!
# How held dialogues develop

One operation seen from the dialogues: where a dialogue that is held afterwards
comes from, and what becomes of one that was held before.  A dialogue keeps its
role, its initiator half and what was said in it; only a label that is not
complete changes, and only ended dialogues are dropped.
-/

namespace Colloquy.Registry

/-- Where a dialogue that is held after an operation comes from. -/
inductive Origin (before : Registry) : Event → Label → Dialogue → Prop where
  | kept {event : Event} {key : Label} {dialogue : Dialogue}
      (hheld : before.Holds key dialogue) : Origin before event key dialogue
  | finished {key : Label} {dialogue next : Dialogue} {outcome : EndState}
      (hheld : before.Holds key dialogue)
      (hfinish : dialogue.finish before.specification outcome = .ok next) :
      Origin before .silent key next
  | opened {half : String} {key : Label} {next : Dialogue} {message : Message}
      (hkey : key = ⟨.opened half, before.address, key.opponent⟩)
      (hrouting :
        message.routing = (Dialogue.start key .initiator).nextRouting)
      (happend : (Dialogue.start key .initiator).append before.specification
        message .initiator = .ok next) :
      Origin before (.sent key.opponent message) key next
  | admitted {half : String} {key : Label} {next : Dialogue} {message : Message}
      (hhalf : half ≠ unassigned)
      (hincomplete : message.routing.reference.isComplete = false)
      (hkey : key = ⟨message.routing.reference.withResponder half,
        before.address, key.opponent⟩)
      (happend : (Dialogue.start key .responder).append before.specification
        message .initiator = .ok next)
      (hnew : ∀ {other another}, before.Holds other another →
        other.incomplete ≠ key.incomplete) :
      Origin before (.heard key.opponent message) key next
  | spoke {key : Label} {dialogue next : Dialogue} {message : Message}
      (hheld : before.Holds key dialogue)
      (hrouting : message.routing = dialogue.nextRouting)
      (happend : dialogue.append before.specification message dialogue.role
        = .ok next) :
      Origin before (.sent key.opponent message) key next
  | heard {key : Label} {dialogue next : Dialogue} {message : Message}
      (hheld : before.Holds key dialogue)
      (hhalf : message.routing.reference.initiator = key.reference.initiator)
      (hfit : fit dialogue message.routing.reference = .same)
      (happend : dialogue.append before.specification message
        dialogue.role.counterpart = .ok next) :
      Origin before (.heard key.opponent message) key next
  | completed {earlier key : Label} {dialogue next : Dialogue}
      {message : Message} (hheld : before.Holds earlier dialogue)
      (hfit : fit dialogue message.routing.reference = .completes)
      (hkey : key = earlier.withReference message.routing.reference)
      (happend : (dialogue.relabel key).append before.specification message
        dialogue.role.counterpart = .ok next) :
      Origin before (.heard key.opponent message) key next

/-- A dialogue under its label, and the same one later on. -/
structure Continues (key : Label) (dialogue : Dialogue) (later : Label)
    (next : Dialogue) : Prop where
  role : next.role = dialogue.role
  incomplete : later.incomplete = key.incomplete
  history : dialogue.history <+: next.history
  complete : key.isComplete = true → later = key

section Succession

variable {before after base : Registry} {event : Event} {key label : Label}
  {dialogue next : Dialogue}

theorem Continues.refl (key : Label) (dialogue : Dialogue) :
    Continues key dialogue key dialogue :=
  ⟨rfl, rfl, List.prefix_rfl, fun _ => rfl⟩

theorem Continues.mem {later : Label} {entry : Role × Message}
    (hcontinues : Continues key dialogue later next)
    (hmem : entry ∈ dialogue.history) : entry ∈ next.history :=
  hcontinues.history.subset hmem

theorem Continues.initiator_eq {later : Label}
    (hcontinues : Continues key dialogue later next) :
    later.reference.initiator = key.reference.initiator :=
  (Label.incomplete_eq_iff.mp hcontinues.incomplete).1

theorem Continues.opponent_eq {later : Label}
    (hcontinues : Continues key dialogue later next) :
    later.opponent = key.opponent :=
  (Label.incomplete_eq_iff.mp hcontinues.incomplete).2.2

/-! ## Where dialogues come from -/

theorem Effect.origin (heffect : Effect before event after)
    (hindexed : before.Indexed) (hheld : after.Holds key dialogue) :
    Origin before event key dialogue := by
  cases heffect with
  | counted stats => exact .kept hheld
  | cleared stats => exact .kept (holds_evictEnded_iff.mp hheld).1
  | opened stats hopponent hroom hfresh hhalf hlabel hbuild happend =>
    rcases holds_hold_iff.mp hheld with ⟨rfl, rfl⟩ | ⟨-, hother⟩
    · subst hlabel
      exact .opened rfl (Message.routing_of_build hbuild) happend
    · exact .kept (holds_of_makeRoom hroom hother)
  | admitted stats hsender hlabel hunknown hopener hincomplete hroom hfresh hhalf
      hcomplete happend =>
    rcases holds_hold_iff.mp hheld with ⟨rfl, rfl⟩ | ⟨-, hother⟩
    · have hnew := (find?_eq_none_iff hindexed).mp hunknown
      subst hlabel hcomplete
      exact .admitted hhalf hincomplete rfl happend (hnew _ _)
    · exact .kept (holds_of_makeRoom hroom hother)
  | spoke stats hfound hbuild happend =>
    obtain ⟨hbefore, hsame⟩ := (find?_eq_some_iff hindexed).mp hfound
    rw [← (Label.incomplete_eq_iff.mp hsame).2.2]
    rcases holds_hold_iff.mp hheld with ⟨rfl, rfl⟩ | ⟨-, hother⟩
    · exact .spoke hbefore (Message.routing_of_build hbuild) happend
    · exact .kept hother
  | @heard sender _ found _ _ _ stats hsender hlabel hfound hfit happend =>
    obtain ⟨hbefore, hsame⟩ := (find?_eq_some_iff hindexed).mp hfound
    rw [hlabel] at hsame
    obtain ⟨hhalf, -, hopponent⟩ := Label.incomplete_eq_iff.mp hsame
    have hsender : found.opponent = sender := hopponent
    rcases holds_hold_iff.mp hheld with ⟨rfl, rfl⟩ | ⟨-, hother⟩
    · exact hsender ▸ .heard hbefore hhalf.symm hfit happend
    · exact .kept hother
  | @completed sender _ found complete _ _ _ stats hsender hlabel hfound hfit
      hcomplete hfree happend =>
    obtain ⟨hbefore, hsame⟩ := (find?_eq_some_iff hindexed).mp hfound
    rw [hlabel] at hsame
    obtain ⟨-, -, hopponent⟩ := Label.incomplete_eq_iff.mp hsame
    rw [hindexed.label_eq hbefore] at hcomplete
    have hsender : complete.opponent = sender := by
      rw [hcomplete]
      exact hopponent
    rcases holds_hold_iff.mp hheld with ⟨rfl, rfl⟩ | ⟨hne, hother⟩
    · exact hsender ▸ .completed hbefore hfit hcomplete happend
    · rcases holds_rekey_iff.mp hother with ⟨heq, -⟩ | ⟨-, -, hkept⟩
      · exact absurd heq hne
      · exact .kept hkept
  | finished stats hfound hfinish =>
    obtain ⟨hbefore, -⟩ := (find?_eq_some_iff hindexed).mp hfound
    rcases holds_hold_iff.mp hheld with ⟨rfl, rfl⟩ | ⟨-, hother⟩
    · exact .finished hbefore hfinish
    · exact .kept hother

/-! ## What becomes of dialogues -/

theorem holds_makeRoom (hroom : before.makeRoom = (.ok (), base))
    (hheld : before.Holds key dialogue) :
    base.Holds key dialogue ∨ dialogue.isEnded = true := by
  rcases eq_of_makeRoom_ok hroom with rfl | rfl
  · exact Or.inl hheld
  · cases hended : dialogue.isEnded with
    | true => exact Or.inr rfl
    | false => exact Or.inl (holds_evictEnded_iff.mpr ⟨hheld, hended⟩)

theorem continues_of_append {message : Message} {sender : Role}
    {specification : Specification}
    (happend : dialogue.append specification message sender = .ok next) :
    Continues key dialogue key next := by
  exact ⟨Dialogue.role_of_append happend, rfl, Dialogue.prefix_of_append happend,
    fun _ => rfl⟩

/-- A dialogue goes on under the label that its reference completes. -/
theorem continues_completed {earlier : Label} {message : Message}
    (hindexed : before.Indexed) (hheld : before.Holds earlier dialogue)
    (hfit : fit dialogue message.routing.reference = .completes)
    (hkey : key = earlier.withReference message.routing.reference)
    (happend : (dialogue.relabel key).append before.specification message
      dialogue.role.counterpart = .ok next) :
    Continues earlier dialogue key next := by
  obtain ⟨hopen, -, -, hhalf⟩ := fit_eq_completes_iff.mp hfit
  rw [hindexed.label_eq hheld] at hopen hhalf
  have hcontinues : Continues key (dialogue.relabel key) key next :=
    continues_of_append happend
  obtain ⟨hrole, -, hhistory, -⟩ := hcontinues
  refine ⟨hrole, ?_, hhistory, ?_⟩
  · rw [hkey]
    exact Label.incomplete_eq_iff.mpr ⟨hhalf, rfl, rfl⟩
  · intro hclosed
    rw [hopen] at hclosed
    cases hclosed

/-- Replacing one dialogue by its continuation leaves every dialogue with a
continuation. -/
theorem continues_hold {other : Label} {another : Dialogue}
    (hbefore : before.Holds key dialogue)
    (hcontinues : Continues key dialogue key next)
    (hheld : before.Holds other another) :
    ∃ later final, (before.hold key next).Holds later final
      ∧ Continues other another later final := by
  by_cases hkey : other = key
  · subst hkey
    obtain rfl := hbefore.eq hheld
    exact ⟨other, next, holds_hold_iff.mpr (Or.inl ⟨rfl, rfl⟩), hcontinues⟩
  · exact ⟨other, another, holds_hold_iff.mpr (Or.inr ⟨hkey, hheld⟩),
      Continues.refl other another⟩

/-- A dialogue goes on, unless it had ended and was dropped. -/
theorem Effect.continues (heffect : Effect before event after)
    (hindexed : before.Indexed) (hheld : before.Holds key dialogue) :
    (∃ later next, after.Holds later next ∧ Continues key dialogue later next)
      ∨ dialogue.isEnded = true := by
  cases heffect with
  | counted stats => exact Or.inl ⟨key, dialogue, hheld, Continues.refl _ _⟩
  | cleared stats =>
    cases hended : dialogue.isEnded with
    | true => exact Or.inr rfl
    | false =>
      exact Or.inl ⟨key, dialogue, holds_evictEnded_iff.mpr ⟨hheld, hended⟩,
        Continues.refl _ _⟩
  | opened stats hopponent hroom hfresh hhalf hlabel hbuild happend =>
    rcases holds_makeRoom hroom hheld with hbase | hended
    · refine Or.inl ⟨key, dialogue, holds_hold_iff.mpr (Or.inr ⟨?_, hbase⟩),
        Continues.refl _ _⟩
      rintro rfl
      exact incomplete_ne_of_fresh hfresh (by rw [hlabel]; rfl) hbase rfl
    · exact Or.inr hended
  | admitted stats hsender hlabel hunknown hopener hincomplete hroom hfresh hhalf
      hcomplete happend =>
    rcases holds_makeRoom hroom hheld with hbase | hended
    · have hne := (find?_eq_none_iff hindexed).mp hunknown _ _ hheld
      refine Or.inl ⟨key, dialogue, holds_hold_iff.mpr (Or.inr ⟨?_, hbase⟩),
        Continues.refl _ _⟩
      rintro rfl
      exact hne (by rw [hcomplete]; rfl)
    · exact Or.inr hended
  | spoke stats hfound hbuild happend =>
    obtain ⟨hbefore, -⟩ := (find?_eq_some_iff hindexed).mp hfound
    exact Or.inl (continues_hold hbefore (continues_of_append happend) hheld)
  | heard stats hsender hlabel hfound hfit happend =>
    obtain ⟨hbefore, -⟩ := (find?_eq_some_iff hindexed).mp hfound
    exact Or.inl (continues_hold hbefore (continues_of_append happend) hheld)
  | @completed _ _ found complete _ final _ stats hsender hlabel hfound hfit
      hcomplete hfree happend =>
    obtain ⟨hbefore, -⟩ := (find?_eq_some_iff hindexed).mp hfound
    have hlabelled := hindexed.label_eq hbefore
    rw [hlabelled] at hcomplete
    by_cases hkey : key = found
    · subst hkey
      obtain rfl := hbefore.eq hheld
      exact Or.inl ⟨complete, final, holds_hold_iff.mpr (Or.inl ⟨rfl, rfl⟩),
        continues_completed hindexed hheld hfit hcomplete happend⟩
    · have hne : key ≠ complete := by
        rintro rfl
        have hheldToo := contains_iff_exists_holds.mpr ⟨dialogue, hheld⟩
        rw [hfree] at hheldToo
        cases hheldToo
      exact Or.inl ⟨key, dialogue, holds_hold_iff.mpr (Or.inr ⟨hne,
        holds_rekey_iff.mpr (Or.inr ⟨hne, hlabelled ▸ hkey, hheld⟩)⟩),
        Continues.refl _ _⟩
  | finished stats hfound hfinish =>
    obtain ⟨hbefore, -⟩ := (find?_eq_some_iff hindexed).mp hfound
    obtain ⟨-, -, rfl⟩ := Dialogue.finish_eq_ok_iff.mp hfinish
    exact Or.inl (continues_hold hbefore
      ⟨rfl, rfl, List.prefix_rfl, fun _ => rfl⟩ hheld)

/-! ## What every held dialogue satisfies -/

/-- The histories are legal paths that the initiator opened, and a responder's
label is complete. -/
structure Sound (registry : Registry) : Prop where
  consistent : ∀ {key dialogue}, registry.Holds key dialogue →
    dialogue.Consistent registry.specification
  opens : ∀ {key dialogue}, registry.Holds key dialogue →
    ∃ message rest, dialogue.history = (.initiator, message) :: rest
  complete : ∀ {key dialogue}, registry.Holds key dialogue →
    dialogue.role = .responder → key.isComplete = true

theorem sound_empty (specification : Specification) (address : Address)
    (limits : Limits) : (empty specification address limits).Sound where
  consistent hheld := absurd hheld not_holds_empty
  opens hheld := absurd hheld not_holds_empty
  complete hheld := absurd hheld not_holds_empty

theorem Origin.consistent (horigin : Origin before event key next)
    (hsound : before.Sound) : next.Consistent before.specification := by
  cases horigin with
  | kept hheld => exact hsound.consistent hheld
  | finished hheld hfinish => exact (hsound.consistent hheld).finish hfinish
  | opened hkey hrouting happend =>
    exact (Dialogue.consistent_start _ _ _).append happend
  | admitted hhalf hincomplete hkey happend =>
    exact (Dialogue.consistent_start _ _ _).append happend
  | spoke hheld hrouting happend =>
    exact (hsound.consistent hheld).append happend
  | heard hheld hhalf hfit happend =>
    exact (hsound.consistent hheld).append happend
  | completed hheld hfit hkey happend =>
    exact ((hsound.consistent hheld).relabel _).append happend

theorem Origin.opens (horigin : Origin before event key next)
    (hsound : before.Sound) :
    ∃ message rest, next.history = (.initiator, message) :: rest := by
  have hgrown : ∀ {earlier : Label} {prior : Dialogue} {suffix : History},
      before.Holds earlier prior → next.history = prior.history ++ suffix →
        ∃ message rest, next.history = (.initiator, message) :: rest := by
    intro earlier prior suffix hheld hhistory
    obtain ⟨message, rest, hopens⟩ := hsound.opens hheld
    rw [hopens] at hhistory
    exact ⟨message, rest ++ suffix, hhistory⟩
  cases horigin with
  | kept hheld => exact hsound.opens hheld
  | finished hheld hfinish =>
    obtain ⟨-, -, rfl⟩ := Dialogue.finish_eq_ok_iff.mp hfinish
    have hopens := hsound.opens hheld
    exact hopens
  | opened hkey hrouting happend =>
    exact ⟨_, [], Dialogue.history_of_append happend⟩
  | admitted hhalf hincomplete hkey happend =>
    exact ⟨_, [], Dialogue.history_of_append happend⟩
  | spoke hheld hrouting happend =>
    exact hgrown hheld (Dialogue.history_of_append happend)
  | heard hheld hhalf hfit happend =>
    exact hgrown hheld (Dialogue.history_of_append happend)
  | completed hheld hfit hkey happend =>
    have hhistory := Dialogue.history_of_append happend
    exact hgrown hheld hhistory

theorem Origin.complete (horigin : Origin before event key next)
    (hnamed : event.IsNamed) (hsound : before.Sound)
    (hrole : next.role = .responder) : key.isComplete = true := by
  cases horigin with
  | kept hheld => exact hsound.complete hheld hrole
  | finished hheld hfinish =>
    obtain ⟨-, -, rfl⟩ := Dialogue.finish_eq_ok_iff.mp hfinish
    exact hsound.complete hheld hrole
  | opened hkey hrouting happend =>
    rw [Dialogue.role_of_append happend] at hrole
    cases hrole
  | admitted hhalf hincomplete hkey happend =>
    rw [hkey]
    exact Reference.isComplete_iff.mpr ⟨hnamed, hhalf⟩
  | spoke hheld hrouting happend =>
    rw [Dialogue.role_of_append happend] at hrole
    exact hsound.complete hheld hrole
  | heard hheld hhalf hfit happend =>
    rw [Dialogue.role_of_append happend] at hrole
    exact hsound.complete hheld hrole
  | completed hheld hfit hkey happend =>
    rw [hkey]
    exact (fit_eq_completes_iff.mp hfit).2.2.1

theorem Effect.sound (heffect : Effect before event after)
    (hnamed : event.IsNamed) (hindexed : before.Indexed)
    (hsound : before.Sound) : after.Sound where
  consistent hheld :=
    heffect.specification_eq ▸ (heffect.origin hindexed hheld).consistent hsound
  opens hheld := (heffect.origin hindexed hheld).opens hsound
  complete hheld hrole :=
    (heffect.origin hindexed hheld).complete hnamed hsound hrole

/-! ## What is said and heard -/

/-- What was sent stands at the end of a dialogue with the addressee, under the
reference of that dialogue. -/
theorem Effect.outgoing {opponent : Address} {message : Message}
    (heffect : Effect before (.sent opponent message) after)
    (hindexed : before.Indexed) :
    ∃ key dialogue, after.Holds key dialogue ∧ key.opponent = opponent
      ∧ message.routing.reference = key.reference
      ∧ (dialogue.role, message) ∈ dialogue.history := by
  cases heffect with
  | opened stats hopponent hroom hfresh hhalf hlabel hbuild happend =>
    refine ⟨_, _, holds_hold_iff.mpr (Or.inl ⟨rfl, rfl⟩), by rw [hlabel], ?_, ?_⟩
    · rw [Message.routing_of_build hbuild]
      rfl
    · rw [Dialogue.role_of_append happend]
      exact (Dialogue.mem_history_of_append happend).mpr (Or.inr rfl)
  | spoke stats hfound hbuild happend =>
    obtain ⟨hheld, hsame⟩ := (find?_eq_some_iff hindexed).mp hfound
    refine ⟨_, _, holds_hold_iff.mpr (Or.inl ⟨rfl, rfl⟩),
      (Label.incomplete_eq_iff.mp hsame).2.2, ?_, ?_⟩
    · rw [Message.routing_of_build hbuild, ← hindexed.label_eq hheld]
      rfl
    · rw [Dialogue.role_of_append happend]
      exact (Dialogue.mem_history_of_append happend).mpr (Or.inr rfl)

/-- What stands in a dialogue as the opponent's was there before or has just
been heard.  If the dialogue is new, it is a responder's and the reference was
not complete; an initiator hears under a complete reference only. -/
theorem Origin.incoming (horigin : Origin before event key dialogue)
    (hindexed : before.Indexed) {message : Message}
    (hmem : (dialogue.role.counterpart, message) ∈ dialogue.history) :
    (∃ earlier prior, before.Holds earlier prior
      ∧ Continues earlier prior key dialogue
      ∧ (prior.role.counterpart, message) ∈ prior.history)
    ∨ event = .heard key.opponent message
      ∧ message.routing.reference.initiator = key.reference.initiator
      ∧ (dialogue.role = .responder
          ∧ message.routing.reference.isComplete = false
        ∨ ∃ earlier prior, before.Holds earlier prior
          ∧ Continues earlier prior key dialogue
          ∧ (prior.role = .initiator →
            message.routing.reference.isComplete = true)) := by
  cases horigin with
  | kept hheld => exact Or.inl ⟨_, _, hheld, Continues.refl _ _, hmem⟩
  | finished hheld hfinish =>
    obtain ⟨-, -, rfl⟩ := Dialogue.finish_eq_ok_iff.mp hfinish
    exact Or.inl ⟨_, _, hheld, ⟨rfl, rfl, List.prefix_rfl, fun _ => rfl⟩, hmem⟩
  | opened hkey hrouting happend =>
    rw [Dialogue.role_of_append happend] at hmem
    rcases (Dialogue.mem_history_of_append happend).mp hmem with hold | hlast
    · cases hold
    · cases congrArg Prod.fst hlast
  | admitted hhalf hincomplete hkey happend =>
    rw [Dialogue.role_of_append happend] at hmem
    rcases (Dialogue.mem_history_of_append happend).mp hmem with hold | hlast
    · cases hold
    · obtain rfl := congrArg Prod.snd hlast
      exact Or.inr ⟨rfl, by rw [hkey]; rfl,
        Or.inl ⟨Dialogue.role_of_append happend, hincomplete⟩⟩
  | spoke hheld hrouting happend =>
    refine Or.inl ⟨_, _, hheld, continues_of_append happend, ?_⟩
    rw [Dialogue.role_of_append happend] at hmem
    rcases (Dialogue.mem_history_of_append happend).mp hmem with hold | hlast
    · exact hold
    · exact absurd (congrArg Prod.fst hlast) (Role.counterpart_ne _)
  | heard hheld hhalf hfit happend =>
    rw [Dialogue.role_of_append happend] at hmem
    rcases (Dialogue.mem_history_of_append happend).mp hmem with hold | hlast
    · exact Or.inl ⟨_, _, hheld, continues_of_append happend, hold⟩
    · obtain rfl := congrArg Prod.snd hlast
      refine Or.inr ⟨rfl, hhalf,
        Or.inr ⟨_, _, hheld, continues_of_append happend, fun hrole => ?_⟩⟩
      obtain ⟨hcomplete, hours | ⟨hresponder, -⟩⟩ := fit_eq_same_iff.mp hfit
      · rw [hours]
        exact hcomplete
      · rw [hrole] at hresponder
        cases hresponder
  | completed hheld hfit hkey happend =>
    have hcontinues := continues_completed hindexed hheld hfit hkey happend
    rw [Dialogue.role_of_append happend] at hmem
    rcases (Dialogue.mem_history_of_append happend).mp hmem with hold | hlast
    · exact Or.inl ⟨_, _, hheld, hcontinues, hold⟩
    · obtain rfl := congrArg Prod.snd hlast
      have hcomplete := (fit_eq_completes_iff.mp hfit).2.2.1
      exact Or.inr ⟨rfl, by rw [hkey]; rfl,
        Or.inr ⟨_, _, hheld, hcontinues, fun _ => hcomplete⟩⟩

/-- An initiator's label is complete once a message under it was heard. -/
theorem Origin.completion (horigin : Origin before event key dialogue)
    (hindexed : before.Indexed) (hrole : dialogue.role = .initiator)
    (hcomplete : key.isComplete = true) :
    (∃ prior, before.Holds key prior ∧ prior.role = .initiator)
    ∨ ∃ message earlier prior, event = .heard key.opponent message
      ∧ message.routing.reference = key.reference
      ∧ before.Holds earlier prior ∧ Continues earlier prior key dialogue := by
  cases horigin with
  | kept hheld => exact Or.inl ⟨_, hheld, hrole⟩
  | finished hheld hfinish =>
    obtain ⟨-, -, rfl⟩ := Dialogue.finish_eq_ok_iff.mp hfinish
    exact Or.inl ⟨_, hheld, hrole⟩
  | opened hkey hrouting happend =>
    rw [hkey, Label.isComplete, Reference.isComplete_opened] at hcomplete
    cases hcomplete
  | admitted hhalf hincomplete hkey happend =>
    rw [Dialogue.role_of_append happend] at hrole
    cases hrole
  | spoke hheld hrouting happend =>
    rw [Dialogue.role_of_append happend] at hrole
    exact Or.inl ⟨_, hheld, hrole⟩
  | heard hheld hhalf hfit happend =>
    rw [Dialogue.role_of_append happend] at hrole
    exact Or.inl ⟨_, hheld, hrole⟩
  | completed hheld hfit hkey happend =>
    exact Or.inr ⟨_, _, _, rfl, by rw [hkey]; rfl, hheld,
      continues_completed hindexed hheld hfit hkey happend⟩

end Succession

end Colloquy.Registry
