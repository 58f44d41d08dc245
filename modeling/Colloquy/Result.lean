/-!
# Results of checks

Results can be compared, and a chain of steps that may fail is taken apart one
step after the other, also where each step remembers what it has seen.
-/

namespace Colloquy

variable {α β ε δ : Type}

instance decidableEqExcept [DecidableEq ε] [DecidableEq α] :
    DecidableEq (Except ε α)
  | .error cause, .error other =>
    decidable_of_iff (cause = other) (by simp)
  | .ok value, .ok other => decidable_of_iff (value = other) (by simp)
  | .error _, .ok _ => isFalse nofun
  | .ok _, .error _ => isFalse nofun

theorem bind_eq_ok_iff {result : Except ε α} {next : α → Except ε β} {b : β} :
    result >>= next = .ok b ↔ ∃ a, result = .ok a ∧ next a = .ok b := by
  cases result <;> simp [bind, Except.bind]

theorem mapError_eq_ok_iff {result : Except ε α} {f : ε → δ} {a : α} :
    result.mapError f = .ok a ↔ result = .ok a := by
  cases result with
  | error cause => exact ⟨nofun, nofun⟩
  | ok value =>
    constructor
    · intro heq
      exact congrArg Except.ok (Except.ok.inj heq)
    · intro heq
      exact congrArg Except.ok (Except.ok.inj heq)

theorem isOk_iff {verdict : Except ε Unit} :
    verdict.isOk = true ↔ verdict = .ok () := by
  cases verdict <;> simp [Except.isOk, Except.toBool]

theorem exists_of_isOk {result : Except ε α} (hok : result.isOk = true) :
    ∃ value, result = .ok value := by
  cases result with
  | error cause => cases hok
  | ok value => exact ⟨value, rfl⟩

/-- Two checks, one after the other. -/
theorem andThen_eq_ok_iff {verdict : Except ε Unit} {next : Except ε β} {b : β} :
    (do
      verdict
      next) = .ok b ↔ verdict = .ok () ∧ next = .ok b := by
  rw [bind_eq_ok_iff]
  constructor
  · rintro ⟨⟨⟩, hverdict, hnext⟩
    exact ⟨hverdict, hnext⟩
  · rintro ⟨hverdict, hnext⟩
    exact ⟨(), hverdict, hnext⟩

/-- A check of every item succeeds if it succeeds on each of them. -/
theorem forM_eq_ok_iff {items : List α} {check : α → Except ε Unit} :
    items.forM check = .ok () ↔ ∀ item ∈ items, check item = .ok () := by
  induction items with
  | nil => simp [List.forM, pure, Except.pure]
  | cons item rest ih =>
    rw [List.forM, List.forall_mem_cons, ← ih]
    exact andThen_eq_ok_iff

/-- An item that was not seen before is new if none of the later ones is it. -/
theorem distinct_cons_iff {seen rest : List α} {item : α}
    (hnew : item ∉ seen) :
    (∀ other ∈ rest, other ∉ item :: seen) ∧ rest.Nodup ↔
      (∀ other ∈ item :: rest, other ∉ seen) ∧ (item :: rest).Nodup := by
  rw [List.nodup_cons, List.forall_mem_cons]
  constructor
  · rintro ⟨hrest, hdistinct⟩
    refine ⟨⟨hnew, fun other hmem hseen => ?_⟩, fun hmem => ?_, hdistinct⟩
    · exact hrest other hmem (List.mem_cons_of_mem _ hseen)
    · exact hrest item hmem List.mem_cons_self
  · rintro ⟨⟨-, hrest⟩, hitem, hdistinct⟩
    refine ⟨fun other hmem hseen => ?_, hdistinct⟩
    rcases List.mem_cons.mp hseen with rfl | hbefore
    · exact hitem hmem
    · exact hrest other hmem hbefore

end Colloquy
