import Colloquy.Proofs.Dialogue.Path

/-!
# Runs of a dialogue

What a dialogue is after any sequence of calls, refused ones included: its
history is a legal path, and its state is the one that the history leads to,
unless it was ended early.  Main statement: appending accepts the legal paths
and nothing else, and a message is refused for the first of four reasons that
applies.
-/

namespace Colloquy.Dialogue

open History

/-! ## Calls -/

/-- What can be asked of a dialogue that changes it. -/
inductive Call where
  | append (message : Message) (sender : Role)
  | finish (outcome : EndState)

def attempt (specification : Specification) (dialogue : Dialogue) :
    Call → Except DialogueError Dialogue
  | .append message sender => dialogue.append specification message sender
  | .finish outcome => dialogue.finish specification outcome

/-- The verdict on a call, and the dialogue afterwards. -/
def call (specification : Specification) (dialogue : Dialogue) (asked : Call) :
    Except DialogueError Unit × Dialogue :=
  match dialogue.attempt specification asked with
  | .ok next => (.ok (), next)
  | .error cause => (.error cause, dialogue)

/-- The dialogue after some calls, whatever the verdicts on them. -/
def run (specification : Specification) (dialogue : Dialogue)
    (calls : List Call) : Dialogue :=
  calls.foldl (fun dialogue asked => (dialogue.call specification asked).2)
    dialogue

/-- Append messages with their senders, up to the first one that is refused. -/
def appendAll (specification : Specification) (dialogue : Dialogue) :
    History → Except DialogueError Dialogue
  | [] => .ok dialogue
  | (sender, message) :: rest =>
    match dialogue.append specification message sender with
    | .ok next => next.appendAll specification rest
    | .error cause => .error cause

/-! ## Checking -/

section Check

variable {specification : Specification} {dialogue : Dialogue}
  {message : Message} {sender : Role}

theorem last?_eq (dialogue : Dialogue) :
    dialogue.last? = dialogue.history.getLast?.map Prod.snd := by
  rw [last?, ← map_snd_history, List.getLast?_map]

/-- On a path the next position follows from the number of messages. -/
theorem nextPosition_of_isPath
    (hpath : IsPath specification dialogue.history) :
    dialogue.nextPosition =
      (dialogue.history.length + 1, dialogue.history.length) := by
  rw [nextPosition, last?_eq]
  cases hlast : dialogue.history.getLast? with
  | none =>
    rw [List.getLast?_eq_none_iff.mp hlast]
    rfl
  | some last =>
    obtain ⟨before, hhistory⟩ := List.getLast?_eq_some_iff.mp hlast
    rw [hhistory] at hpath
    have hposition := hpath.position (List.getElem?_concat_length)
    rw [hhistory, Option.map_some, List.length_append, List.length_singleton]
    simp only [hposition.1]

theorem isNext_iff (hpath : IsPath specification dialogue.history) :
    (message.routing.messageId.toNat, message.routing.target.toNat)
        = dialogue.nextPosition ↔ IsNext dialogue.history message := by
  rw [nextPosition_of_isPath hpath, Prod.mk.injEq, IsNext]

theorem follows_iff {performative : String} :
    follows specification dialogue.last? performative = true ↔
      CanFollow specification dialogue.history performative := by
  rw [CanFollow, last?_eq]
  cases dialogue.history.getLast? with
  | none => exact Specification.isInitiating_iff
  | some last => exact Specification.isReply_iff

theorem check_of_isEnded (hended : dialogue.isEnded = true) :
    dialogue.check specification message sender =
      .error (.terminated dialogue.label) := by
  rw [check, if_pos hended]

theorem check_of_not_isNext (hpath : IsPath specification dialogue.history)
    (hopen : dialogue.isEnded = false)
    (hnext : ¬ IsNext dialogue.history message) :
    dialogue.check specification message sender =
      .error (.outOfOrder (dialogue.history.length + 1)
        dialogue.history.length message.routing.messageId
        message.routing.target) := by
  have hposition := mt (isNext_iff hpath).mp hnext
  simp only [check, hopen, Bool.false_eq_true, if_false]
  rw [if_pos hposition, nextPosition_of_isPath hpath]

theorem check_of_not_canFollow (hpath : IsPath specification dialogue.history)
    (hopen : dialogue.isEnded = false) (hnext : IsNext dialogue.history message)
    (hfollow :
      ¬ CanFollow specification dialogue.history message.performative) :
    dialogue.check specification message sender =
      .error (.illegalTransition (dialogue.last?.map Message.performative)
        message.performative) := by
  have hposition := (isNext_iff hpath).mpr hnext
  have hrefused := mt follows_iff.mp hfollow
  simp only [check, hopen, hposition, hrefused, Bool.false_eq_true, if_false,
    ne_eq, not_true_eq_false, Bool.not_false, if_true]

theorem check_of_not_canSpeak (hpath : IsPath specification dialogue.history)
    (hopen : dialogue.isEnded = false) (hnext : IsNext dialogue.history message)
    (hfollow : CanFollow specification dialogue.history message.performative)
    (hspeak : ¬ CanSpeak specification sender message.performative) :
    dialogue.check specification message sender =
      .error (.roleViolation (specification.roleName sender)
        message.performative) := by
  have hposition := (isNext_iff hpath).mpr hnext
  have hlegal := follows_iff.mpr hfollow
  have hsilent := mt Specification.maySend_iff.mp hspeak
  simp only [check, hopen, hposition, hlegal, hsilent, Bool.false_eq_true,
    if_false, ne_eq, not_true_eq_false, Bool.not_true, Bool.not_false, if_true]

theorem check_of_all (hpath : IsPath specification dialogue.history)
    (hopen : dialogue.isEnded = false) (hnext : IsNext dialogue.history message)
    (hfollow : CanFollow specification dialogue.history message.performative)
    (hspeak : CanSpeak specification sender message.performative) :
    dialogue.check specification message sender = .ok () := by
  have hposition := (isNext_iff hpath).mpr hnext
  have hlegal := follows_iff.mpr hfollow
  have hallowed := Specification.maySend_iff.mpr hspeak
  simp only [check, hopen, hposition, hlegal, hallowed, Bool.false_eq_true,
    if_false, ne_eq, not_true_eq_false, Bool.not_true]

/-- A message is accepted if it goes on along a path in a dialogue that has not
ended. -/
theorem check_eq_ok_iff (hpath : IsPath specification dialogue.history) :
    dialogue.check specification message sender = .ok () ↔
      dialogue.isEnded = false
        ∧ IsPath specification (dialogue.history ++ [(sender, message)]) := by
  rw [isPath_concat_iff]
  constructor
  · intro hok
    have hopen : dialogue.isEnded = false := by
      cases hended : dialogue.isEnded with
      | false => rfl
      | true =>
        rw [check_of_isEnded hended] at hok
        cases hok
    have hnext : IsNext dialogue.history message := by
      refine Classical.byContradiction fun hnot => ?_
      rw [check_of_not_isNext hpath hopen hnot] at hok
      cases hok
    have hfollow :
        CanFollow specification dialogue.history message.performative := by
      refine Classical.byContradiction fun hnot => ?_
      rw [check_of_not_canFollow hpath hopen hnext hnot] at hok
      cases hok
    refine ⟨hopen, hpath, hnext, hfollow, ?_⟩
    refine Classical.byContradiction fun hnot => ?_
    rw [check_of_not_canSpeak hpath hopen hnext hfollow hnot] at hok
    cases hok
  · rintro ⟨hopen, -, hnext, hfollow, hspeak⟩
    exact check_of_all hpath hopen hnext hfollow hspeak

theorem append_eq_ok_iff {next : Dialogue} :
    dialogue.append specification message sender = .ok next ↔
      dialogue.check specification message sender = .ok ()
        ∧ next = dialogue.extend message sender
          (dialogue.stateAfter specification message.performative) := by
  rw [append, andThen_eq_ok_iff, Except.ok.injEq, eq_comm (a := next)]

theorem check_of_append {next : Dialogue}
    (happend : dialogue.append specification message sender = .ok next) :
    dialogue.check specification message sender = .ok () :=
  (append_eq_ok_iff.mp happend).1

theorem label_of_append {next : Dialogue}
    (happend : dialogue.append specification message sender = .ok next) :
    next.label = dialogue.label := by
  obtain ⟨-, rfl⟩ := append_eq_ok_iff.mp happend
  rfl

theorem role_of_append {next : Dialogue}
    (happend : dialogue.append specification message sender = .ok next) :
    next.role = dialogue.role := by
  obtain ⟨-, rfl⟩ := append_eq_ok_iff.mp happend
  rfl

theorem history_of_append {next : Dialogue}
    (happend : dialogue.append specification message sender = .ok next) :
    next.history = dialogue.history ++ [(sender, message)] := by
  obtain ⟨-, rfl⟩ := append_eq_ok_iff.mp happend
  exact dialogue.history_extend message sender _

theorem prefix_of_append {next : Dialogue}
    (happend : dialogue.append specification message sender = .ok next) :
    dialogue.history <+: next.history := by
  rw [history_of_append happend]
  exact List.prefix_append _ _

theorem getLast?_of_append {next : Dialogue}
    (happend : dialogue.append specification message sender = .ok next) :
    next.history.getLast? = some (sender, message) := by
  rw [history_of_append happend, List.getLast?_concat]

/-- What stands in a dialogue stood there before, or has just been accepted. -/
theorem mem_history_of_append {next : Dialogue} {entry : Role × Message}
    (happend : dialogue.append specification message sender = .ok next) :
    entry ∈ next.history ↔
      entry ∈ dialogue.history ∨ entry = (sender, message) := by
  rw [history_of_append happend, List.mem_append, List.mem_singleton]

theorem forall_mem_of_append {next : Dialogue} {property : Role × Message → Prop}
    (happend : dialogue.append specification message sender = .ok next)
    (hbefore : ∀ entry ∈ dialogue.history, property entry)
    (hlast : property (sender, message)) :
    ∀ entry ∈ next.history, property entry := by
  rw [history_of_append happend, List.forall_mem_append,
    List.forall_mem_singleton]
  exact ⟨hbefore, hlast⟩

theorem append_eq_error_iff {cause : DialogueError} :
    dialogue.append specification message sender = .error cause ↔
      dialogue.check specification message sender = .error cause := by
  rw [append]
  cases dialogue.check specification message sender <;>
    simp [bind, Except.bind]

theorem isValidReply_iff :
    dialogue.isValidReply specification message sender = true ↔
      dialogue.check specification message sender = .ok () := by
  rw [isValidReply, isOk_iff]

/-- What a dialogue accepts follows from what was said and the state; its label
and the local role play no part. -/
theorem check_eq_ok_iff_of_eq {another : Dialogue}
    (hhistory : another.history = dialogue.history)
    (hstate : another.state = dialogue.state) :
    another.check specification message sender = .ok () ↔
      dialogue.check specification message sender = .ok () := by
  have hsame : another.isEnded = dialogue.isEnded := by
    rw [isEnded, hstate, isEnded]
  have hlast : another.last? = dialogue.last? := by
    rw [last?_eq, hhistory, last?_eq]
  by_cases hended : dialogue.isEnded = true
  · rw [check_of_isEnded hended, check_of_isEnded (hsame.trans hended)]
    constructor <;> intro hok <;> cases hok
  · rw [check, check, hsame, if_neg hended, if_neg hended, nextPosition,
      nextPosition, hlast]

theorem check_relabel_eq_ok_iff (label : Label) :
    (dialogue.relabel label).check specification message sender = .ok () ↔
      dialogue.check specification message sender = .ok () :=
  check_eq_ok_iff_of_eq rfl rfl

end Check

/-! ## States -/

/-- The state that a history leads to, unless the dialogue is ended early. -/
def stateOf (specification : Specification) (history : History) : State :=
  match history.getLast? with
  | none => .started
  | some last =>
    if specification.isTerminal last.2.performative then
      .ended (specification.outcome? last.2.performative)
    else if history.length = 1 then .started
    else .inProgress

/-- The history is a path, and the state is the one it leads to or a declared
end state. -/
structure Consistent (specification : Specification) (dialogue : Dialogue) :
    Prop where
  path : IsPath specification dialogue.history
  state : dialogue.state = stateOf specification dialogue.history
    ∨ ¬ IsConcluded specification dialogue.history
      ∧ ∃ early, specification.hasEndState early = true
        ∧ dialogue.state = .ended (some early)

section States

variable {specification : Specification} {dialogue next : Dialogue}
  {message : Message} {sender : Role}

theorem stateAfter_eq (specification : Specification) (dialogue : Dialogue)
    (message : Message) (sender : Role) :
    dialogue.stateAfter specification message.performative =
      stateOf specification (dialogue.history ++ [(sender, message)]) := by
  rw [stateAfter, stateOf, List.getLast?_concat]
  simp only [List.length_append, List.length_singleton, Nat.add_eq_right,
    length_history, List.length_eq_zero_iff, List.isEmpty_iff]

/-- A message that is accepted leaves the state that the history leads to. -/
theorem state_of_append
    (happend : dialogue.append specification message sender = .ok next) :
    next.state = stateOf specification next.history := by
  rw [history_of_append happend, ← stateAfter_eq]
  obtain ⟨-, rfl⟩ := append_eq_ok_iff.mp happend
  rfl

/-- A dialogue that was never ended early has ended if its last performative
has no replies. -/
theorem isEnded_iff_isConcluded
    (hstate : dialogue.state = stateOf specification dialogue.history) :
    dialogue.isEnded = true ↔ IsConcluded specification dialogue.history := by
  rw [isEnded, hstate, stateOf, IsConcluded]
  cases dialogue.history.getLast? with
  | none => simp
  | some last =>
    simp only [Option.some.injEq, exists_eq_left',
      ← Specification.isTerminal_iff]
    by_cases hterminal :
        specification.isTerminal last.2.performative = true
    · simp [hterminal]
    · by_cases hone : dialogue.history.length = 1 <;>
        simp [hterminal, hone]

/-- A dialogue that was never ended early has the outcome of its last
performative. -/
theorem outcome?_of_getLast? {last : Role × Message}
    (hstate : dialogue.state = stateOf specification dialogue.history)
    (hlast : dialogue.history.getLast? = some last)
    (hterminal : specification.replies? last.2.performative = some []) :
    dialogue.outcome? = specification.outcome? last.2.performative := by
  have hfinal := Specification.isTerminal_iff.mpr hterminal
  rw [outcome?, hstate, stateOf, hlast]
  simp only [hfinal, if_true]

theorem Consistent.state_of_isConcluded
    (hdialogue : dialogue.Consistent specification)
    (hconcluded : IsConcluded specification dialogue.history) :
    dialogue.state = stateOf specification dialogue.history := by
  rcases hdialogue.state with hstate | ⟨hnot, -⟩
  · exact hstate
  · exact absurd hconcluded hnot

/-- A message ended the dialogue, and not a declared end state. -/
def IsEndedByMessage (specification : Specification) (dialogue : Dialogue) :
    Prop :=
  dialogue.isEnded = true ∧ IsConcluded specification dialogue.history

/-- Dialogues that messages ended with the same history are in the same
state. -/
theorem Consistent.state_eq {other : Dialogue}
    (hdialogue : dialogue.Consistent specification)
    (hother : other.Consistent specification)
    (hhistory : dialogue.history = other.history)
    (hconcluded : IsConcluded specification dialogue.history) :
    dialogue.state = other.state := by
  rw [hdialogue.state_of_isConcluded hconcluded, hhistory,
    hother.state_of_isConcluded (hhistory ▸ hconcluded)]

theorem consistent_start (specification : Specification) (label : Label)
    (role : Role) : (start label role).Consistent specification :=
  ⟨isPath_nil, Or.inl rfl⟩

theorem Consistent.append (hdialogue : dialogue.Consistent specification)
    (happend : dialogue.append specification message sender = .ok next) :
    next.Consistent specification := by
  have hcheck := check_of_append happend
  have hpath := ((check_eq_ok_iff hdialogue.path).mp hcheck).2
  rw [← history_of_append happend] at hpath
  exact ⟨hpath, Or.inl (state_of_append happend)⟩

theorem finish_eq_ok_iff {outcome : EndState} :
    dialogue.finish specification outcome = .ok next ↔
      dialogue.isEnded = false ∧ specification.hasEndState outcome = true
        ∧ next = { dialogue with state := .ended (some outcome) } := by
  rw [finish]
  cases dialogue.isEnded <;> cases specification.hasEndState outcome <;>
    simp [eq_comm]

theorem Consistent.finish {outcome : EndState}
    (hdialogue : dialogue.Consistent specification)
    (hfinish : dialogue.finish specification outcome = .ok next) :
    next.Consistent specification := by
  obtain ⟨hopen, hdeclared, rfl⟩ := finish_eq_ok_iff.mp hfinish
  refine ⟨hdialogue.path, Or.inr ⟨fun hconcluded => ?_, outcome, hdeclared, rfl⟩⟩
  have hended := (isEnded_iff_isConcluded
    (hdialogue.state_of_isConcluded hconcluded)).mpr hconcluded
  rw [hopen] at hended
  cases hended

theorem Consistent.relabel (hdialogue : dialogue.Consistent specification)
    (label : Label) : (dialogue.relabel label).Consistent specification :=
  ⟨hdialogue.path, hdialogue.state⟩

theorem Consistent.call (hdialogue : dialogue.Consistent specification)
    (asked : Call) :
    (dialogue.call specification asked).2.Consistent specification := by
  rw [Dialogue.call]
  split
  · rename_i next hnext
    cases asked with
    | append message sender => exact hdialogue.append hnext
    | finish outcome => exact hdialogue.finish hnext
  · exact hdialogue

theorem Consistent.run (hdialogue : dialogue.Consistent specification)
    (calls : List Call) :
    (dialogue.run specification calls).Consistent specification := by
  induction calls generalizing dialogue with
  | nil => exact hdialogue
  | cons asked rest ih => exact ih (hdialogue.call asked)

end States

/-! ## Appending one after the other -/

/-- From a dialogue that was never ended early, appending succeeds to the end
exactly if the whole history is a path. -/
theorem exists_appendAll_iff {specification : Specification}
    {dialogue : Dialogue} (hpath : IsPath specification dialogue.history)
    (hstate : dialogue.state = stateOf specification dialogue.history)
    (rest : History) :
    (∃ final, dialogue.appendAll specification rest = .ok final) ↔
      IsPath specification (dialogue.history ++ rest) := by
  induction rest generalizing dialogue with
  | nil => simpa [appendAll] using hpath
  | cons entry rest ih =>
    obtain ⟨sender, message⟩ := entry
    rw [List.append_cons]
    cases happend : dialogue.append specification message sender with
    | ok next =>
      have hcheck := check_of_append happend
      have hlonger := ((check_eq_ok_iff hpath).mp hcheck).2
      rw [← history_of_append happend] at hlonger ⊢
      simp only [appendAll, happend]
      exact ih hlonger (state_of_append happend)
    | error cause =>
      simp only [appendAll, happend, reduceCtorEq, exists_false, false_iff]
      intro hwhole
      have hnext := hwhole.of_append
      have hopen : dialogue.isEnded = false := by
        refine Bool.eq_false_iff.mpr fun hended => ?_
        have hconcluded := (isEnded_iff_isConcluded hstate).mp hended
        exact not_canFollow_of_isConcluded hconcluded message.performative
          hnext.canFollow_of_concat
      rw [append_eq_error_iff,
        (check_eq_ok_iff hpath).mpr ⟨hopen, hnext⟩] at happend
      cases happend

/-- What was appended stands after what was there before, and the state is the
one it leads to. -/
theorem appendAll_eq_ok {specification : Specification}
    {dialogue final : Dialogue} {rest : History}
    (hstate : dialogue.state = stateOf specification dialogue.history)
    (happend : dialogue.appendAll specification rest = .ok final) :
    final.history = dialogue.history ++ rest
      ∧ final.state = stateOf specification final.history := by
  induction rest generalizing dialogue with
  | nil =>
    cases happend
    exact ⟨(List.append_nil _).symm, hstate⟩
  | cons entry rest ih =>
    obtain ⟨sender, message⟩ := entry
    rw [appendAll] at happend
    split at happend
    · rename_i next hnext
      rw [List.append_cons, ← history_of_append hnext]
      exact ih (state_of_append hnext) happend
    · cases happend

/-- A new dialogue accepts exactly the legal paths, message by message.
Whatever calls a dialogue has been through, a message is accepted by all three
ways of asking or by none, a refused one changes nothing, and the reason is the
first of four that applies. -/
theorem appendAll_accepts_paths (specification : Specification) (label : Label)
    (role : Role) :
    (∀ history,
      (∃ final, (start label role).appendAll specification history = .ok final)
        ↔ IsPath specification history) ∧
    ∀ calls message sender,
      let dialogue := (start label role).run specification calls
      let history := dialogue.history
      let verdict := dialogue.check specification message sender
      (dialogue.isValidReply specification message sender = true
        ↔ verdict = .ok ()) ∧
      ((∃ next, dialogue.append specification message sender = .ok next)
        ↔ verdict = .ok ()) ∧
      (verdict = .ok () ↔ dialogue.isEnded = false
        ∧ IsPath specification (history ++ [(sender, message)])) ∧
      (∀ cause, dialogue.append specification message sender = .error cause →
        verdict = .error cause
          ∧ dialogue.call specification (.append message sender)
            = (.error cause, dialogue)) ∧
      (dialogue.isEnded = true → verdict = .error (.terminated dialogue.label)) ∧
      (dialogue.isEnded = false →
        (¬ IsNext history message →
          verdict = .error (.outOfOrder (history.length + 1) history.length
            message.routing.messageId message.routing.target)) ∧
        (IsNext history message →
          (¬ CanFollow specification history message.performative →
            verdict = .error (.illegalTransition
              (history.getLast?.map fun last => last.2.performative)
              message.performative)) ∧
          (CanFollow specification history message.performative →
            ¬ CanSpeak specification sender message.performative →
            verdict = .error (.roleViolation (specification.roleName sender)
              message.performative)))) := by
  refine ⟨fun history => ?_, fun calls message sender => ?_⟩
  · exact exists_appendAll_iff isPath_nil rfl history
  · have hpath :=
      ((consistent_start specification label role).run calls).path
    refine ⟨isValidReply_iff, ?_, check_eq_ok_iff hpath, ?_, check_of_isEnded,
      fun hopen => ⟨check_of_not_isNext hpath hopen, fun hnext =>
        ⟨fun hfollow => ?_, check_of_not_canSpeak hpath hopen hnext⟩⟩⟩
    · constructor
      · rintro ⟨next, happend⟩
        exact check_of_append happend
      · intro hcheck
        exact ⟨_, append_eq_ok_iff.mpr ⟨hcheck, rfl⟩⟩
    · intro cause happend
      refine ⟨append_eq_error_iff.mp happend, ?_⟩
      rw [call, attempt, happend]
    · rw [check_of_not_canFollow hpath hopen hnext hfollow, last?_eq,
        Option.map_map]
      rfl

end Colloquy.Dialogue
