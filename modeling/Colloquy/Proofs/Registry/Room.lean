import Colloquy.Proofs.Registry.Resolution

/-!
# Room for dialogues

A registry that is full drops its ended dialogues before it opens another one,
and it does so before the opener is built or checked.  Main statement: an opening
that fails leaves the dialogues and their names as they were, unless the registry
was full and held an ended dialogue; then the ended ones are gone although
nothing was opened.
-/

namespace Colloquy.Registry

/-- An operation asks for room, and only ended dialogues can make it. -/
def Operation.Clears (registry : Registry) (operation : Operation) : Prop :=
  operation.NeedsRoom registry ∧ registry.IsFull
    ∧ ∃ key dialogue, registry.Holds key dialogue ∧ dialogue.isEnded = true

section Room

variable {registry after base : Registry}

theorem dialogues_evictEnded_eq_iff :
    registry.evictEnded.dialogues = registry.dialogues ↔
      ∀ {key dialogue}, registry.Holds key dialogue →
        dialogue.isEnded = false := by
  constructor
  · intro heq key dialogue hheld
    rw [Holds, ← heq] at hheld
    exact (holds_evictEnded_iff.mp hheld).2
  · intro hactive
    apply OrderedMap.ext_entries
    apply List.filter_eq_self.mpr
    intro entry hmem
    have hentry := hactive (OrderedMap.get?_eq_some_iff.mpr hmem)
    simp [hentry]

/-- A name is dropped only together with the dialogue that it stands for. -/
theorem Traceable.completed_evictEnded (htraceable : registry.Traceable)
    (hkept : registry.evictEnded.dialogues = registry.dialogues) :
    registry.evictEnded.completed = registry.completed := by
  apply OrderedMap.ext_entries
  apply List.filter_eq_self.mpr
  intro entry hmem
  have hname := OrderedMap.get?_eq_some_iff.mpr hmem
  obtain ⟨hheld, -⟩ := htraceable.target hname
  rw [← contains_iff_exists_holds, ← hkept] at hheld
  exact hheld

/-- What a failure leaves behind is as it was, unless ended dialogues had to be
dropped. -/
theorem Cleared.unchanged_iff (htraceable : registry.Traceable)
    {needed : Prop} (hcleared : Cleared registry needed base)
    (hdialogues : after.dialogues = base.dialogues)
    (hcompleted : after.completed = base.completed) :
    after.dialogues = registry.dialogues
        ∧ after.completed = registry.completed ↔
      ¬ (needed ∧ ∃ key dialogue,
        registry.Holds key dialogue ∧ dialogue.isEnded = true) := by
  rw [hdialogues, hcompleted]
  by_cases hneeded : needed
  · rw [hcleared.eq_evictEnded hneeded]
    constructor
    · rintro ⟨hkept, -⟩ ⟨-, key, dialogue, hheld, hended⟩
      rw [dialogues_evictEnded_eq_iff.mp hkept hheld] at hended
      cases hended
    · intro hnone
      have hkept : registry.evictEnded.dialogues = registry.dialogues := by
        refine dialogues_evictEnded_eq_iff.mpr fun {key dialogue} hheld => ?_
        rw [← Bool.not_eq_true]
        exact fun hended => hnone ⟨hneeded, key, dialogue, hheld, hended⟩
      exact ⟨hkept, htraceable.completed_evictEnded hkept⟩
  · rw [hcleared.eq_self hneeded]
    exact iff_of_true ⟨rfl, rfl⟩ fun hclears => hneeded hclears.1

end Room

/-- After any operations, if one more operation fails, the dialogues and their
names are as they were unless it asked for room in a full registry that held an
ended dialogue.  In that case the ended dialogues and their names are dropped,
and nothing else; a dialogue that has not ended is never touched. -/
theorem unchanged_iff_of_error (specification : Specification)
    (address : Address) (limits : Limits) (operations : List Operation)
    (operation : Operation) {cause : ProtocolError}
    (herror : (((empty specification address limits).run operations).perform
      operation).1 = .error cause) :
    let registry := (empty specification address limits).run operations
    let after := (registry.perform operation).2
    (after.dialogues = registry.dialogues
        ∧ after.completed = registry.completed ↔
      ¬ operation.Clears registry) ∧
    (operation.Clears registry →
      after.dialogues = registry.evictEnded.dialogues
        ∧ after.completed = registry.evictEnded.completed) ∧
    ∀ key dialogue, registry.Holds key dialogue → dialogue.isEnded = false →
      after.Holds key dialogue := by
  intro registry after
  have htraceable : registry.Traceable :=
    (traceable_empty specification address limits).run operations
  obtain ⟨-, base, hcleared, hrefused⟩ := cleared_of_error herror
  obtain ⟨hdialogues, hcompleted, -⟩ := hrefused.unchanged
  refine ⟨?_, fun hclears => ?_, fun key dialogue hheld hactive => ?_⟩
  · exact (hcleared.unchanged_iff htraceable hdialogues hcompleted).trans
      (not_congr and_assoc)
  · obtain ⟨hneeds, hfull, -⟩ := hclears
    rw [hdialogues, hcompleted, hcleared.eq_evictEnded ⟨hneeds, hfull⟩]
    exact ⟨rfl, rfl⟩
  · rw [Holds, hdialogues]
    rcases hcleared.vacated.kept hheld with hkept | ⟨hended, -⟩
    · exact hkept
    · rw [hactive] at hended
      cases hended

/-- A call that does not say what it is for is refused, and the call before it
is still there. -/
theorem unchanged_iff_of_error_calling :
    let operation : Operation :=
      .openWith (.preferring "a" (by decide)) "cfp" [] ⟨"bob"⟩
    let after := (calling.perform operation).2
    (calling.perform operation).1 = .error (.field (.missing "cfp" "query"))
      ∧ calling.dialogues.size = 1 ∧ ¬ operation.Clears calling
      ∧ after.dialogues = calling.dialogues
      ∧ after.completed = calling.completed := by
  intro operation after
  have herror : (calling.perform operation).1
      = .error (.field (.missing "cfp" "query")) := rfl
  have hroom : ¬ operation.Clears calling := by
    rintro ⟨-, hfull, -⟩
    exact absurd hfull (by decide +kernel)
  have hunchanged := (unchanged_iff_of_error Negotiation.specification ⟨"alice"⟩ {}
    _ operation herror).1.mpr hroom
  exact ⟨herror, by decide +kernel, hroom, hunchanged⟩

/-- Alice may hold one dialogue, and has ended it. -/
def exhausted : Registry :=
  let query := (Negotiation.Act.cfp ⟨"books", {}⟩).toFields
  let limits : Limits := { dialogues := 1 }
  (empty Negotiation.specification ⟨"alice"⟩ limits).run
    [.openWith (.preferring "a" Nat.one_pos) "cfp" query ⟨"bob"⟩,
      .endDialogue ⟨.opened "a", ⟨"alice"⟩, ⟨"bob"⟩⟩ ⟨"failed"⟩]

/-- The same call fails there as well, and what Alice has ended is gone. -/
theorem not_unchanged_of_error_exhausted :
    let operation : Operation :=
      .openWith (.preferring "a" (by decide)) "cfp" [] ⟨"bob"⟩
    let after := (exhausted.perform operation).2
    (exhausted.perform operation).1 = .error (.field (.missing "cfp" "query"))
      ∧ exhausted.dialogues.size = 1 ∧ after.dialogues.size = 0
      ∧ after.dialogues ≠ exhausted.dialogues := by
  intro operation after
  have hbefore : exhausted.dialogues.size = 1 := by decide +kernel
  have hafter : after.dialogues.size = 0 := by decide +kernel
  refine ⟨rfl, hbefore, hafter, fun heq => ?_⟩
  rw [heq, hbefore] at hafter
  cases hafter

end Colloquy.Registry
