import Colloquy.Proofs.Registry.Resolution
import Colloquy.Proofs.Registry.Statistics

/-!
# Capacity

A registry never holds more dialogues than it may.  Dialogues are added on two
paths, each of which makes room first; a dialogue whose reference is completed
moves and takes no room.  Main statement: room is refused exactly if the registry
is full of dialogues that have not ended, which nothing ever removes; evicting
removes the others, and leaves every name of those that stay as good as before.
-/

namespace Colloquy.Registry

/-- There are no more dialogues than there may be. -/
def IsWithinLimit (registry : Registry) : Prop :=
  registry.dialogues.size ≤ registry.limits.dialogues

/-! ## How many dialogues there are -/

section Size

variable {registry before after base : Registry} {event : Event}
  {key : Label} {dialogue next : Dialogue} {rest : List Dialogue}

theorem size_eq_length_values (registry : Registry) :
    registry.dialogues.size = registry.dialogues.values.length :=
  (List.length_map _).symm

/-- A dialogue that takes the place of another one takes no room. -/
theorem size_of_replaced
    (hbefore : before.dialogues.values.Perm (dialogue :: rest))
    (hafter : after.dialogues.values.Perm (next :: rest)) :
    after.dialogues.size = before.dialogues.size := by
  rw [size_eq_length_values, size_eq_length_values, hbefore.length_eq,
    hafter.length_eq, List.length_cons, List.length_cons]

theorem size_of_added
    (hafter : after.dialogues.values.Perm (dialogue :: before.dialogues.values)) :
    after.dialogues.size = before.dialogues.size + 1 := by
  rw [size_eq_length_values, size_eq_length_values, hafter.length_eq,
    List.length_cons]

theorem size_evictEnded (registry : Registry) :
    registry.evictEnded.dialogues.size
        + registry.dialogues.values.countP Dialogue.isEnded
      = registry.dialogues.size := by
  rw [size_eq_length_values, size_eq_length_values, values_evictEnded,
    ← List.countP_eq_length_filter, Nat.add_comm]
  simp [List.length_eq_countP_add_countP Dialogue.isEnded]

theorem size_lt_of_makeRoom (hroom : before.makeRoom = (.ok (), base)) :
    base.dialogues.size < base.limits.dialogues := by
  simp only [makeRoom] at hroom
  split at hroom
  · rename_i hspace
    cases hroom
    exact hspace
  · split at hroom
    · rename_i hspace
      cases hroom
      exact hspace
    · cases hroom

theorem IsWithinLimit.hold (hwithin : registry.IsWithinLimit)
    (hheld : registry.Holds key dialogue) (next : Dialogue) :
    (registry.hold key next).IsWithinLimit := by
  obtain ⟨rest, hbefore, hafter⟩ := values_perm_of_hold hheld next
  rw [IsWithinLimit, size_of_replaced hbefore hafter]
  exact hwithin

/-- Room is made for the dialogue that is added. -/
theorem isWithinLimit_of_added (hroom : before.makeRoom = (.ok (), base))
    (hnew : ∀ another, ¬ base.Holds key another) :
    (base.hold key dialogue).IsWithinLimit := by
  rw [IsWithinLimit, size_of_added (values_perm_of_added hnew holds_hold_iff)]
  exact size_lt_of_makeRoom hroom

theorem Effect.isWithinLimit (heffect : Effect before event after)
    (hkeyed : before.Keyed) (hwithin : before.IsWithinLimit) :
    after.IsWithinLimit := by
  cases heffect with
  | counted stats => exact hwithin
  | cleared stats =>
    have hless : before.evictEnded.dialogues.size ≤ before.dialogues.size :=
      Nat.le.intro (size_evictEnded before)
    exact Nat.le_trans hless hwithin
  | @opened base half _ _ _ label _ _ stats hopponent hroom hfresh hhalf
      hlabel hbuild happend =>
    have hnew : ∀ another, ¬ base.Holds label another := by
      apply not_holds_of_unused
      rw [hlabel]
      exact Or.inl hfresh
    exact isWithinLimit_of_added hroom hnew
  | @admitted base half _ _ complete _ _ stats hsender hlabel hunknown hopener
      hincomplete hroom hfresh hhalf hcomplete happend =>
    have hnew : ∀ another, ¬ base.Holds complete another := by
      apply not_holds_of_unused
      rw [hcomplete]
      exact Or.inr hfresh
    exact isWithinLimit_of_added hroom hnew
  | spoke stats hfound hbuild happend =>
    obtain ⟨-, hheld⟩ := find?_eq_some_iff_resolve?.mp hfound
    exact hwithin.hold hheld _
  | heard stats hsender hlabel hfound hfit happend =>
    obtain ⟨-, hheld⟩ := find?_eq_some_iff_resolve?.mp hfound
    exact hwithin.hold hheld _
  | completed stats hsender hlabel hfound hfit hcomplete hfree happend =>
    obtain ⟨hheld, -⟩ := hkeyed.holds_of_find? hfound
    obtain ⟨rest, hbefore, hafter⟩ := values_perm_of_replaced hheld
      (Or.inr (not_holds_of_not_contains hfree))
      (holds_completed_iff (hkeyed.label_eq hheld))
    exact Nat.le_trans (Nat.le_of_eq (size_of_replaced hbefore hafter)) hwithin
  | finished stats hfound hfinish =>
    obtain ⟨-, hheld⟩ := find?_eq_some_iff_resolve?.mp hfound
    exact hwithin.hold hheld _

theorem IsWithinLimit.run (hwithin : registry.IsWithinLimit)
    (hkeyed : registry.Keyed) (operations : List Operation) :
    (registry.run operations).IsWithinLimit :=
  (run_induction (motive := fun later => later.Keyed ∧ later.IsWithinLimit)
    ⟨hkeyed, hwithin⟩ fun later operation _ hkept =>
      have heffect := perform_effect later operation
      ⟨heffect.keyed hkept.1, heffect.isWithinLimit hkept.1 hkept.2⟩).2

end Size

/-! ## Room that is refused -/

section Refusal

variable {registry before after : Registry} {operation : Operation}
  {key : Label} {dialogue : Dialogue}

theorem countP_isEnded_eq_zero_iff :
    registry.dialogues.values.countP Dialogue.isEnded = 0 ↔
      ∀ key dialogue, registry.Holds key dialogue →
        dialogue.isEnded = false := by
  simp only [List.countP_eq_zero, OrderedMap.mem_values_iff, Holds,
    Bool.not_eq_true, forall_exists_index]
  exact forall_comm

/-- Dropping the ended dialogues makes no room if there is none of them. -/
theorem IsWithinLimit.isFull_evictEnded_iff (hwithin : registry.IsWithinLimit) :
    registry.evictEnded.IsFull ↔
      registry.dialogues.size = registry.limits.dialogues
        ∧ ∀ key dialogue, registry.Holds key dialogue →
          dialogue.isEnded = false := by
  have hsize := size_evictEnded registry
  rw [IsWithinLimit] at hwithin
  rw [← countP_isEnded_eq_zero_iff]
  change registry.limits.dialogues ≤ registry.evictEnded.dialogues.size ↔ _
  omega

theorem openWith_of_isFull (hfull : registry.evictEnded.IsFull)
    (supply : HalfSupply) (performative : String)
    (fields : List (String × Value)) {opponent : Address}
    (hopponent : opponent ≠ registry.address) :
    registry.openWith supply performative fields opponent
      = registry.evictEnded.fail (.registryFull registry.limits.dialogues) := by
  simp only [openWith, if_neg hopponent, makeRoom_of_isFull hfull]

theorem receiveMessage_of_isFull (hfull : registry.evictEnded.IsFull)
    (supply : HalfSupply) {message : Message} {sender : Address}
    (hadmits : registry.Admits message sender) :
    registry.receiveMessage supply message sender
      = registry.evictEnded.fail (.registryFull registry.limits.dialogues) := by
  rw [receiveMessage_of_admits supply hadmits]
  simp only [acceptOpening, Label.isComplete, hadmits.incomplete,
    makeRoom_of_isFull hfull, Bool.false_eq_true, if_false]

theorem perform_of_isFull (hfull : registry.evictEnded.IsFull)
    (hneeds : operation.NeedsRoom registry) :
    (registry.perform operation).1
      = .error (.dialogue (.registryFull registry.limits.dialogues)) := by
  cases operation with
  | openWith supply performative fields opponent =>
    rw [perform, openWith_of_isFull hfull supply performative fields hneeds]
    rfl
  | send supply performative fields opponent label =>
    obtain ⟨rfl, hopponent⟩ := hneeds
    rw [perform, send,
      openWith_of_isFull hfull supply performative fields hopponent]
    rfl
  | receive supply payload sender =>
    obtain ⟨message, hdecode, hadmits⟩ := hneeds
    rw [perform, receive, hdecode]
    simp only [receiveMessage_of_isFull hfull supply hadmits]
    rfl
  | receiveMessage supply message sender =>
    rw [perform, receiveMessage_of_isFull hfull supply hneeds]
    rfl
  | _ => exact hneeds.elim

/-- Room is refused to whatever asks for it, and to nothing else. -/
theorem perform_eq_registryFull_iff {limit : Nat} :
    (registry.perform operation).1 = .error (.dialogue (.registryFull limit)) ↔
      operation.NeedsRoom registry ∧ limit = registry.limits.dialogues
        ∧ registry.evictEnded.IsFull := by
  constructor
  · intro herror
    obtain ⟨hobstructs, -⟩ := cleared_of_error herror
    cases hobstructs trivial with
    | full hneeds hfull => exact ⟨hneeds, rfl, hfull⟩
  · rintro ⟨hneeds, rfl, hfull⟩
    exact perform_of_isFull hfull hneeds

end Refusal

/-! ## Dialogues that stay -/

section Survival

variable {registry before after : Registry} {key label : Label}
  {dialogue : Dialogue}

/-- A dialogue that has not ended is held afterwards as well, with whatever was
said in it. -/
theorem Touches.exists_holds {concerns : Label → Prop} {evicts : Prop}
    {taken put : Option (Label × Dialogue)}
    (htouches : Touches before after concerns evicts taken put)
    (hheld : before.Holds key dialogue) (hactive : dialogue.isEnded = false) :
    ∃ later next, after.Holds later next ∧ later.incomplete = key.incomplete
      ∧ next.role = dialogue.role ∧ dialogue.history <+: next.history := by
  by_cases htaken : taken = some (key, dialogue)
  · obtain ⟨-, later, next, hput, hgrows⟩ := htouches.grows htaken
    refine ⟨later, next, (htouches.concerns hput).1, hgrows.incomplete,
      hgrows.role, ?_⟩
    rcases hgrows.history with hsame | ⟨entry, hmore⟩
    · exact hsame ▸ List.prefix_rfl
    · rw [hmore]
      exact List.prefix_append _ _
  · rcases htouches.kept hheld htaken with hkept | ⟨hended, -⟩
    · exact ⟨key, dialogue, hkept, rfl, rfl, List.prefix_rfl⟩
    · rw [hactive] at hended
      cases hended

/-- What a label stands for is not held after an eviction if it was not before. -/
theorem Traceable.not_contains_current (htraceable : registry.Traceable)
    (habsent : ¬ registry.dialogues.contains (registry.current label) = true) :
    ¬ registry.evictEnded.dialogues.contains
      (registry.evictEnded.current label) = true := by
  have hunnamed : registry.completed.get? label = none := by
    refine Option.eq_none_iff_forall_ne_some.mpr fun target hname => habsent ?_
    rw [current, hname, Option.getD_some]
    exact contains_iff_exists_holds.mpr (htraceable.target hname).1
  rw [current, hunnamed, Option.getD_none, contains_iff_exists_holds] at habsent
  rw [current, completed_evictEnded_of_eq_none hunnamed, Option.getD_none,
    contains_iff_exists_holds]
  rintro ⟨dialogue, hkept⟩
  exact habsent ⟨dialogue, (holds_evictEnded_iff.mp hkept).1⟩

theorem Traceable.find?_evictEnded (htraceable : registry.Traceable)
    (hfound : registry.find? label = some (key, dialogue))
    (hactive : dialogue.isEnded = false) :
    registry.evictEnded.find? label = some (key, dialogue) := by
  have hheld := (find?_eq_some_iff_resolve?.mp hfound).2
  have hkept := holds_evictEnded_iff.mpr ⟨hheld, hactive⟩
  have hcontains := contains_iff_exists_holds.mpr ⟨dialogue, hkept⟩
  apply find?_of_find? hfound hkept
  · intro name hname
    rw [← hname] at hcontains
    exact (current_evictEnded hcontains).trans hname
  · intro _ habsent
    exact htraceable.not_contains_current habsent

end Survival

/-- After any operations, with any arguments, no more dialogues are held than the
limit says.  Whatever is asked next, a dialogue that has not ended is not lost;
and room is refused exactly to what asks for it while as many dialogues as there
may be are held and none of them has ended.  Evicting drops those that have
ended, and says how many there were; then no name is left for them, and every
label that stood for another one stands for it still. -/
theorem capacity_run (specification : Specification) (address : Address)
    (limits : Limits) (operations : List Operation) :
    let registry := (empty specification address limits).run operations
    let evicted := registry.evictEnded
    registry.dialogues.size ≤ limits.dialogues ∧
    (∀ operation key dialogue, registry.Holds key dialogue →
      dialogue.isEnded = false → ∃ later next,
        (registry.perform operation).2.Holds later next
          ∧ later.incomplete = key.incomplete ∧ next.role = dialogue.role
          ∧ dialogue.history <+: next.history) ∧
    (∀ operation limit, (registry.perform operation).1
        = .error (.dialogue (.registryFull limit)) ↔
      operation.NeedsRoom registry ∧ limit = limits.dialogues
        ∧ registry.dialogues.size = limits.dialogues
        ∧ ∀ key dialogue, registry.Holds key dialogue →
          dialogue.isEnded = false) ∧
    registry.perform .evict = (.ok (.evicted
      (registry.dialogues.values.countP Dialogue.isEnded)), evicted) ∧
    (∀ key dialogue, evicted.Holds key dialogue ↔
      registry.Holds key dialogue ∧ dialogue.isEnded = false) ∧
    (∀ name key, evicted.completed.get? name = some key ↔
      registry.completed.get? name = some key
        ∧ ∃ dialogue, evicted.Holds key dialogue) ∧
    ∀ label key dialogue, registry.find? label = some (key, dialogue) →
      dialogue.isEnded = false →
        evicted.find? label = some (key, dialogue) := by
  intro registry evicted
  have hlimits : registry.limits = limits := limits_run _ operations
  have hwithin : registry.IsWithinLimit :=
    IsWithinLimit.run (Nat.zero_le _) (keyed_empty specification address limits)
      operations
  have htraceable : registry.Traceable :=
    (traceable_empty specification address limits).run operations
  refine ⟨hlimits ▸ hwithin, ?_, ?_, ?_, fun _ _ => holds_evictEnded_iff,
    fun _ _ => completed_evictEnded_eq_some_iff,
    fun _ _ _ => htraceable.find?_evictEnded⟩
  · intro operation key dialogue hheld hactive
    obtain ⟨taken, put, htouches⟩ :=
      perform_touches htraceable.keyed operation
    exact htouches.exists_holds hheld hactive
  · intro operation limit
    rw [perform_eq_registryFull_iff, hwithin.isFull_evictEnded_iff, hlimits]
  · have hsize := size_evictEnded registry
    have hcount : registry.evict.1
        = registry.dialogues.values.countP Dialogue.isEnded := by
      change registry.dialogues.size - registry.evictEnded.dialogues.size = _
      omega
    rw [perform, hcount]
    rfl

/-- Where one dialogue is all there may be, the next call has to wait for its end,
and does it no harm. -/
theorem capacity_run_single :
    let query := (Negotiation.Act.cfp ⟨"books", {}⟩).toFields
    let call : Operation :=
      .openWith (.preferring "a" Nat.one_pos) "cfp" query ⟨"bob"⟩
    let single := (empty Negotiation.specification ⟨"alice"⟩
      { dialogues := 1 }).run [call]
    single.dialogues.size ≤ 1
      ∧ (single.perform call).1 = .error (.dialogue (.registryFull 1))
      ∧ ∃ later next, (single.perform call).2.Holds later next
        ∧ later.incomplete = ⟨.opened "a", ⟨"alice"⟩, ⟨"bob"⟩⟩ := by
  intro query call single
  let key : Label := ⟨.opened "a", ⟨"alice"⟩, ⟨"bob"⟩⟩
  obtain ⟨hsize, hkept, hfull, -⟩ :=
    capacity_run Negotiation.specification ⟨"alice"⟩ { dialogues := 1 } [call]
  have hactive : ∀ key dialogue, single.Holds key dialogue →
      dialogue.isEnded = false :=
    countP_isEnded_eq_zero_iff.mp (by decide +kernel)
  obtain ⟨dialogue, hheld⟩ : ∃ dialogue, single.Holds key dialogue :=
    contains_iff_exists_holds.mp (by decide +kernel)
  have herror : (single.perform call).1
      = .error (.dialogue (.registryFull 1)) :=
    (hfull call 1).mpr ⟨by decide, rfl, by decide +kernel, hactive⟩
  obtain ⟨later, next, hlater, hsame, -⟩ :=
    hkept call key dialogue hheld (hactive key dialogue hheld)
  exact ⟨hsize, herror, later, next, hlater, hsame⟩

end Colloquy.Registry
