import Colloquy.Proofs.Dialogue.Run
import Colloquy.Proofs.Specification.Load
import Colloquy.Registry.Stats
import Mathlib.Algebra.Ring.Nat

/-!
# Accounts of dialogues

When the counters of a registry agree with some dialogues, and how they have to
move so that they still do when one of these is replaced or a new one is added.
Counters wrap around, so they agree modulo `2 ^ 64`.
-/

namespace Colloquy

/-- A dialogue in which the local agent has a role has ended with an outcome. -/
def Dialogue.hasEnded (role : Role) (outcome : EndState) (dialogue : Dialogue) :
    Bool :=
  decide (dialogue.role = role ∧ dialogue.state = .ended (some outcome))

theorem Dialogue.outcome?_eq_some_iff {dialogue : Dialogue} {outcome : EndState} :
    dialogue.outcome? = some outcome ↔ dialogue.state = .ended (some outcome) := by
  rw [outcome?]
  cases dialogue.state <;> simp

theorem Dialogue.hasEnded_of_not_isEnded {dialogue : Dialogue}
    (hactive : dialogue.isEnded = false) (role : Role) (outcome : EndState) :
    dialogue.hasEnded role outcome = false := by
  rw [hasEnded, decide_eq_false_iff_not]
  rintro ⟨-, hstate⟩
  rw [isEnded, hstate] at hactive
  cases hactive

/-- A dialogue as an accepted message or an early end leaves it. -/
inductive Dialogue.IsAdvanced (specification : Specification)
    (next : Dialogue) : Prop where
  | append {dialogue : Dialogue} {message : Message} {sender : Role}
      (happend : dialogue.append specification message sender = .ok next)
  | finish {dialogue : Dialogue} {outcome : EndState}
      (hfinish : dialogue.finish specification outcome = .ok next)

/-- Dialogues end with declared end states if last performatives lead to
them. -/
theorem Dialogue.IsAdvanced.mem_endStates {specification : Specification}
    {next : Dialogue} (hadvanced : next.IsAdvanced specification)
    (hdeclared : ∀ {performative outcome},
      specification.outcome? performative = some outcome →
        outcome ∈ specification.endStates) {outcome : EndState}
    (hstate : next.state = .ended (some outcome)) :
    outcome ∈ specification.endStates := by
  cases hadvanced with
  | append happend =>
    obtain ⟨-, rfl⟩ := append_eq_ok_iff.mp happend
    simp only [stateAfter] at hstate
    split at hstate
    · exact hdeclared (State.ended.inj hstate)
    · split at hstate <;> cases hstate
  | finish hfinish =>
    obtain ⟨-, hknown, rfl⟩ := finish_eq_ok_iff.mp hfinish
    cases hstate
    exact Specification.hasEndState_iff.mp hknown

/-- How many messages some dialogues hold together. -/
def messageCount (dialogues : List Dialogue) : Nat :=
  (dialogues.map fun dialogue => dialogue.history.length).sum

theorem messageCount_cons (dialogue : Dialogue) (rest : List Dialogue) :
    messageCount (dialogue :: rest)
      = dialogue.history.length + messageCount rest :=
  rfl

theorem messageCount_of_perm {dialogues others : List Dialogue}
    (hperm : dialogues.Perm others) :
    messageCount dialogues = messageCount others :=
  (hperm.map _).sum_nat

namespace Stats

/-- The end states of the dialogues in which the local agent has a role. -/
def tally (stats : Stats) : Role → Tally
  | .initiator => stats.selfInitiated
  | .responder => stats.otherInitiated

section Recording

variable (stats : Stats) (dialogue : Dialogue) (role : Role) (name : String)

theorem opened_recordOutcome :
    (stats.recordOutcome dialogue).opened = stats.opened := by
  rw [recordOutcome]
  split
  · rfl
  · split <;> rfl

theorem accepted_recordOutcome :
    (stats.recordOutcome dialogue).accepted = stats.accepted := by
  rw [recordOutcome]
  split
  · rfl
  · split <;> rfl

/-- The counter of an end state moves if the dialogue ended with it. -/
theorem get?_tally_recordOutcome :
    ((stats.recordOutcome dialogue).tally role).get? name =
      ((stats.tally role).get? name).map fun count =>
        if dialogue.hasEnded role ⟨name⟩ then count + 1 else count := by
  cases houtcome : dialogue.outcome? with
  | none =>
    have hnot : dialogue.hasEnded role ⟨name⟩ = false := by
      rw [Dialogue.hasEnded, decide_eq_false_iff_not]
      rintro ⟨-, hstate⟩
      rw [← Dialogue.outcome?_eq_some_iff, houtcome] at hstate
      cases hstate
    simp [recordOutcome, houtcome, hnot]
  | some outcome =>
    have hiff : dialogue.hasEnded role ⟨name⟩ = true ↔
        dialogue.role = role ∧ name = outcome.name := by
      rw [Dialogue.hasEnded, decide_eq_true_iff,
        ← Dialogue.outcome?_eq_some_iff, houtcome]
      exact and_congr_right fun _ =>
        ⟨fun heq => by cases heq; rfl, fun heq => by cases outcome; cases heq; rfl⟩
    cases hrole : dialogue.role <;> cases role <;>
      simp [recordOutcome, houtcome, Dialogue.isSelfInitiated, hrole, tally,
        Tally.get?_record_eq_map, hiff]

end Recording

/-! ## Accounts of some dialogues -/

/-- The counters agree with a list of dialogues, up to the wrapping of counters,
and there is one for every outcome of these. -/
structure Accounts (stats : Stats) (states : List EndState)
    (dialogues : List Dialogue) : Prop where
  opened : stats.opened = .ofNat dialogues.length
  accepted : stats.accepted = .ofNat (messageCount dialogues)
  tally : ∀ role name, (stats.tally role).get? name =
    if ⟨name⟩ ∈ states then
      some (.ofNat (dialogues.countP (Dialogue.hasEnded role ⟨name⟩)))
    else none
  declared : ∀ {dialogue outcome}, dialogue ∈ dialogues →
    dialogue.state = .ended (some outcome) → outcome ∈ states

section Accounts

variable {stats after : Stats} {states : List EndState}
  {dialogues others rest : List Dialogue} {dialogue next : Dialogue}

theorem Accounts.perm (haccounts : stats.Accounts states dialogues)
    (hperm : dialogues.Perm others) : stats.Accounts states others where
  opened := by rw [← hperm.length_eq, haccounts.opened]
  accepted := by rw [← messageCount_of_perm hperm, haccounts.accepted]
  tally role name := by rw [← hperm.countP_eq, haccounts.tally]
  declared hmem := haccounts.declared (hperm.mem_iff.mpr hmem)

theorem accounts_nil (states : List EndState) :
    (ofEndStates states).Accounts states [] where
  opened := rfl
  accepted := rfl
  tally role name := by
    have hmem : name ∈ states.map EndState.name ↔ ⟨name⟩ ∈ states := by
      rw [List.mem_map]
      constructor
      · rintro ⟨state, hstate, rfl⟩
        exact hstate
      · exact fun hstate => ⟨_, hstate, rfl⟩
    cases role <;> simp [ofEndStates, Stats.tally, Tally.get?_ofNames, hmem]
  declared hmem := nomatch hmem

/-- Refused messages and unreadable payloads are counted apart. -/
theorem Accounts.congr (haccounts : stats.Accounts states dialogues)
    (hopened : after.opened = stats.opened)
    (haccepted : after.accepted = stats.accepted)
    (htally : ∀ role, after.tally role = stats.tally role) :
    after.Accounts states dialogues where
  opened := hopened.trans haccounts.opened
  accepted := haccepted.trans haccounts.accepted
  tally role name := by rw [htally, haccounts.tally]
  declared := haccounts.declared

/-- A dialogue that had not ended may be replaced, if its outcome is counted. -/
theorem Accounts.recordOutcome
    (haccounts : stats.Accounts states (dialogue :: rest))
    (hactive : dialogue.isEnded = false)
    (hsaid : next.history.length = dialogue.history.length)
    (hnext : ∀ {outcome}, next.state = .ended (some outcome) →
      outcome ∈ states) :
    (stats.recordOutcome next).Accounts states (next :: rest) where
  opened := by
    rw [opened_recordOutcome, haccounts.opened]
    rfl
  accepted := by
    have hsame : messageCount (dialogue :: rest) = messageCount (next :: rest) := by
      simp [messageCount, hsaid]
    rw [accepted_recordOutcome, haccounts.accepted, hsame]
  tally role name := by
    rw [get?_tally_recordOutcome, haccounts.tally, List.countP_cons,
      List.countP_cons, Dialogue.hasEnded_of_not_isEnded hactive]
    by_cases hstate : ⟨name⟩ ∈ states <;>
      by_cases hended : next.hasEnded role ⟨name⟩ = true <;>
        simp [hstate, hended, UInt64.ofNat_add]
  declared hmem houtcome := by
    rcases List.mem_cons.mp hmem with rfl | hrest
    · exact hnext houtcome
    · exact haccounts.declared (List.mem_cons_of_mem _ hrest) houtcome

/-- One more message is counted as one more was said. -/
theorem Accounts.recordAccepted
    (haccounts : stats.Accounts states (dialogue :: rest))
    (hactive : dialogue.isEnded = false)
    (hsaid : next.history.length = dialogue.history.length + 1)
    (hnext : ∀ {outcome}, next.state = .ended (some outcome) →
      outcome ∈ states) :
    (stats.recordAccepted.recordOutcome next).Accounts states (next :: rest) := by
  -- The message is counted first, and then the end that it may have brought.
  let answered : Dialogue := { dialogue with
    messages := next.messages
    senders := next.senders
    aligned := next.aligned }
  have hhistory : answered.history = next.history := rfl
  have hmore : messageCount (answered :: rest)
      = messageCount (dialogue :: rest) + 1 := by
    rw [messageCount_cons, messageCount_cons, hhistory, hsaid]
    omega
  have hanswered : stats.recordAccepted.Accounts states (answered :: rest) := by
    constructor
    case opened => exact haccounts.opened
    case accepted =>
      rw [hmore, UInt64.ofNat_add, ← haccounts.accepted]
      rfl
    case tally =>
      intro role name
      have hsame : stats.recordAccepted.tally role = stats.tally role := by
        cases role <;> rfl
      rw [hsame, haccounts.tally]
      rfl
    case declared =>
      intro other outcome hmem houtcome
      rcases List.mem_cons.mp hmem with rfl | hrest
      · exact haccounts.declared List.mem_cons_self houtcome
      · exact haccounts.declared (List.mem_cons_of_mem _ hrest) houtcome
  have hlength := congrArg List.length hhistory.symm
  exact hanswered.recordOutcome hactive hlength hnext

theorem recordOpened_recordOutcome (stats : Stats) (dialogue : Dialogue) :
    (stats.recordAccepted.recordOutcome dialogue).recordOpened
      = stats.recordOpened.recordAccepted.recordOutcome dialogue := by
  simp only [Stats.recordOutcome]
  split
  · rfl
  · split <;> rfl

/-- A new dialogue is counted with the message that opened it. -/
theorem Accounts.recordOpened (haccounts : stats.Accounts states rest)
    (hsaid : next.history.length = 1)
    (hnext : ∀ {outcome}, next.state = .ended (some outcome) →
      outcome ∈ states) :
    (stats.recordAccepted.recordOutcome next).recordOpened.Accounts states
      (next :: rest) := by
  let silent : Dialogue := Dialogue.start next.label next.role
  have hactive : silent.isEnded = false := rfl
  have hsilent : stats.recordOpened.Accounts states (silent :: rest) := by
    constructor
    case opened =>
      rw [List.length_cons, UInt64.ofNat_add, ← haccounts.opened]
      rfl
    case accepted =>
      have hsame : messageCount (silent :: rest) = messageCount rest := by
        simp [messageCount, silent]
      rw [hsame]
      exact haccounts.accepted
    case tally =>
      intro role name
      have hsame : stats.recordOpened.tally role = stats.tally role := by
        cases role <;> rfl
      rw [hsame, haccounts.tally, List.countP_cons,
        Dialogue.hasEnded_of_not_isEnded hactive]
      rfl
    case declared =>
      intro other outcome hmem houtcome
      rcases List.mem_cons.mp hmem with rfl | hrest
      · cases houtcome
      · exact haccounts.declared hrest houtcome
  rw [recordOpened_recordOutcome]
  exact hsilent.recordAccepted hactive hsaid hnext

end Accounts

end Stats

end Colloquy
