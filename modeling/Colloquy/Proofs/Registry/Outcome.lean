import Colloquy.Proofs.Dialogue.Run
import Colloquy.Proofs.Registry.Operation

/-!
# Outcomes of registry operations

For every operation of a registry, what it takes to succeed and what then
becomes of the registry, and what a failure leaves behind.  A failure changes
no dialogue; the registry may have made room before, and it may count what it
refused or could not read.
-/

namespace Colloquy

/-- A second dialogue would be held under the label of another one. -/
def ProtocolError.IsCollision : ProtocolError → Prop
  | .dialogue (.referenceCollision _) => True
  | _ => False

/-- It is not the message that is refused: there is no room for one more
dialogue, or its label is held already. -/
def ProtocolError.IsObstruction : ProtocolError → Prop
  | .dialogue (.registryFull _) => True
  | .dialogue (.referenceCollision _) => True
  | _ => False

theorem ProtocolError.IsCollision.isObstruction {cause : ProtocolError}
    (hcollision : cause.IsCollision) : cause.IsObstruction := by
  rw [IsCollision.eq_def] at hcollision
  split at hcollision
  · trivial
  · exact hcollision.elim

theorem Dialogue.not_isObstruction_of_check {specification : Specification}
    {dialogue : Dialogue} {message : Message} {sender : Role}
    {cause : DialogueError}
    (hcheck : dialogue.check specification message sender = .error cause) :
    ¬ (ProtocolError.dialogue cause).IsObstruction := by
  simp only [check] at hcheck
  split at hcheck
  · cases hcheck
    exact id
  · split at hcheck
    · cases hcheck
      exact id
    · split at hcheck
      · cases hcheck
        exact id
      · split at hcheck <;> cases hcheck
        exact id

namespace Registry

/-! ## What failures leave behind -/

/-- At most one is counted, of what was refused or of what could not be read. -/
inductive Refused (registry : Registry) : Registry → Prop where
  | uncounted : Refused registry registry
  | rejected :
      Refused registry { registry with stats := registry.stats.recordRejected }
  | unread :
      Refused registry
        { registry with stats := registry.stats.recordDecodeFailure }

/-- A registry as it was, or without its ended dialogues where they may have
been dropped. -/
inductive Vacated (registry : Registry) (allowed : Prop) : Registry → Prop where
  | same : Vacated registry allowed registry
  | cleared (hallowed : allowed) : Vacated registry allowed registry.evictEnded

/-- A registry without its ended dialogues if a condition holds, and as it was
otherwise. -/
structure Cleared (registry : Registry) (condition : Prop) (base : Registry) :
    Prop where
  eq_evictEnded : condition → base = registry.evictEnded
  eq_self : ¬ condition → base = registry

/-- No dialogue can be added without dropping one. -/
def IsFull (registry : Registry) : Prop :=
  registry.limits.dialogues ≤ registry.dialogues.size

instance (registry : Registry) : Decidable registry.IsFull :=
  inferInstanceAs (Decidable (_ ≤ _))

/-- Some reference would complete that of a dialogue and give it a label that
is held already. -/
def CanCollide (registry : Registry) : Prop :=
  ∃ label key dialogue theirs, registry.find? label = some (key, dialogue)
    ∧ fit dialogue theirs = .completes
    ∧ registry.dialogues.contains (dialogue.label.withReference theirs) = true

/-- Why a registry stands in the way of what it is asked: room is asked for that
not even the ended dialogues could make, or labels can collide. -/
inductive Obstructs (registry : Registry) (asked : Prop) :
    ProtocolError → Prop where
  | full (hasked : asked) (hfull : registry.evictEnded.IsFull) :
      Obstructs registry asked
        (.dialogue (.registryFull registry.limits.dialogues))
  | collision (theirs : Reference) (hcollide : registry.CanCollide) :
      Obstructs registry asked (.dialogue (.referenceCollision theirs))

section Outcomes

variable {registry after base : Registry} {cause : ProtocolError}

theorem Obstructs.mono {asked more : Prop} (hmore : asked → more)
    (hobstructs : registry.Obstructs asked cause) :
    registry.Obstructs more cause := by
  cases hobstructs with
  | full hasked hfull => exact .full (hmore hasked) hfull
  | collision theirs hcollide => exact .collision theirs hcollide

theorem Refused.exists_stats (hrefused : Refused registry after) :
    ∃ stats, after = { registry with stats } := by
  cases hrefused with
  | uncounted => exact ⟨registry.stats, rfl⟩
  | rejected => exact ⟨_, rfl⟩
  | unread => exact ⟨_, rfl⟩

theorem Refused.unchanged (hrefused : Refused registry after) :
    after.dialogues = registry.dialogues
      ∧ after.completed = registry.completed
      ∧ (after.stats = registry.stats
        ∨ after.stats = registry.stats.recordRejected
        ∨ after.stats = registry.stats.recordDecodeFailure) := by
  cases hrefused with
  | uncounted => exact ⟨rfl, rfl, Or.inl rfl⟩
  | rejected => exact ⟨rfl, rfl, Or.inr (Or.inl rfl)⟩
  | unread => exact ⟨rfl, rfl, Or.inr (Or.inr rfl)⟩

theorem Vacated.mono {allowed more : Prop} (hmore : allowed → more)
    (hvacated : Vacated registry allowed base) :
    Vacated registry more base := by
  cases hvacated with
  | same => exact .same
  | cleared hallowed => exact .cleared (hmore hallowed)

theorem Vacated.eq_of_not {allowed : Prop} (hnot : ¬ allowed)
    (hvacated : Vacated registry allowed base) : base = registry := by
  cases hvacated with
  | same => rfl
  | cleared hallowed => exact absurd hallowed hnot

theorem cleared_of_not {condition : Prop} (hnot : ¬ condition) :
    Cleared registry condition registry :=
  ⟨fun hcondition => absurd hcondition hnot, fun _ => rfl⟩

theorem Cleared.congr {condition other : Prop} (hiff : condition ↔ other)
    (hcleared : Cleared registry condition base) :
    Cleared registry other base :=
  ⟨fun hother => hcleared.eq_evictEnded (hiff.mpr hother),
    fun hnot => hcleared.eq_self (mt hiff.mp hnot)⟩

theorem Cleared.vacated {condition : Prop}
    (hcleared : Cleared registry condition base) :
    Vacated registry condition base := by
  by_cases hcondition : condition
  · rw [hcleared.eq_evictEnded hcondition]
    exact .cleared hcondition
  · rw [hcleared.eq_self hcondition]
    exact .same

/-! ## Making room -/

/-- Ended dialogues are dropped exactly if there is no room. -/
theorem cleared_of_makeRoom {verdict : Except DialogueError Unit}
    (hroom : registry.makeRoom = (verdict, base)) :
    Cleared registry registry.IsFull base := by
  simp only [makeRoom] at hroom
  split at hroom
  · rename_i hspace
    cases hroom
    exact cleared_of_not (Nat.not_le.mpr hspace)
  · rename_i hfull
    rw [Nat.not_lt] at hfull
    split at hroom <;> cases hroom <;>
      exact ⟨fun _ => rfl, fun hnot => absurd hfull hnot⟩

theorem vacated_of_makeRoom {verdict : Except DialogueError Unit}
    (hroom : registry.makeRoom = (verdict, base)) :
    Vacated registry registry.IsFull base :=
  (cleared_of_makeRoom hroom).vacated

theorem makeRoom_of_not_isFull (hroom : ¬ registry.IsFull) :
    registry.makeRoom = (.ok (), registry) := by
  rw [IsFull, Nat.not_le] at hroom
  rw [makeRoom, if_pos hroom]

/-- There is room in the registry as it is, or without its ended dialogues. -/
theorem eq_of_makeRoom_ok (hroom : registry.makeRoom = (.ok (), base)) :
    base = registry ∨ base = registry.evictEnded := by
  cases vacated_of_makeRoom hroom with
  | same => exact Or.inl rfl
  | cleared hfull => exact Or.inr rfl

theorem obstructs_of_makeRoom {refusal : DialogueError}
    (hroom : registry.makeRoom = (.error refusal, base)) {asked : Prop}
    (hasked : asked) : registry.Obstructs asked (.dialogue refusal) := by
  simp only [makeRoom] at hroom
  split at hroom
  · cases hroom
  · split at hroom
    · cases hroom
    · rename_i hfull
      cases hroom
      exact .full hasked (Nat.not_lt.mp hfull)

theorem makeRoom_of_isFull (hfull : registry.evictEnded.IsFull) :
    registry.makeRoom = (.error (.registryFull registry.limits.dialogues),
      registry.evictEnded) := by
  have hless : registry.evictEnded.dialogues.size ≤ registry.dialogues.size :=
    List.length_filter_le _ _
  have hbefore : ¬ registry.dialogues.size < registry.limits.dialogues :=
    Nat.not_lt.mpr (Nat.le_trans hfull hless)
  have hafter : ¬ registry.evictEnded.dialogues.size < registry.limits.dialogues :=
    Nat.not_lt.mpr hfull
  simp only [makeRoom, if_neg hbefore, if_neg hafter]

theorem specification_of_makeRoom_ok
    (hroom : registry.makeRoom = (.ok (), base)) :
    base.specification = registry.specification := by
  rcases eq_of_makeRoom_ok hroom with rfl | rfl <;> rfl

theorem address_of_makeRoom_ok (hroom : registry.makeRoom = (.ok (), base)) :
    base.address = registry.address := by
  rcases eq_of_makeRoom_ok hroom with rfl | rfl <;> rfl

theorem limits_of_makeRoom_ok (hroom : registry.makeRoom = (.ok (), base)) :
    base.limits = registry.limits := by
  rcases eq_of_makeRoom_ok hroom with rfl | rfl <;> rfl

/-! ## Accepting messages -/

theorem accept_of_append_ok {dialogue next : Dialogue} {message : Message}
    {sender : Role}
    (happend : dialogue.append registry.specification message sender
      = .ok next) :
    registry.accept dialogue message sender = (.ok next, { registry with
      stats := registry.stats.recordAccepted.recordOutcome next }) := by
  rw [accept, happend]

theorem accept_eq_ok {dialogue next : Dialogue} {message : Message}
    {sender : Role}
    (haccept : registry.accept dialogue message sender = (.ok next, after)) :
    dialogue.append registry.specification message sender = .ok next
      ∧ after = { registry with
        stats := registry.stats.recordAccepted.recordOutcome next } := by
  rw [accept] at haccept
  split at haccept
  · cases haccept
  · rename_i happend
    cases haccept
    exact ⟨happend, rfl⟩

theorem accept_eq_error {dialogue : Dialogue} {message : Message}
    {sender : Role}
    (haccept : registry.accept dialogue message sender
      = (.error cause, after)) :
    ¬ cause.IsObstruction ∧ Refused registry after := by
  rw [accept] at haccept
  split at haccept
  · rename_i happend
    cases haccept
    have hcheck := Dialogue.append_eq_error_iff.mp happend
    exact ⟨Dialogue.not_isObstruction_of_check hcheck, .rejected⟩
  · cases haccept

/-! ## Sending -/

theorem openWith_eq_ok {supply : HalfSupply} {performative : String}
    {fields : List (String × Value)} {opponent : Address} {label : Label}
    {message : Message}
    (hopen : registry.openWith supply performative fields opponent
      = (.ok (label, message), after)) :
    opponent ≠ registry.address ∧ ∃ base dialogue,
      registry.makeRoom = (.ok (), base)
        ∧ label = ⟨.opened (supply.next base.usedHalves), registry.address,
          opponent⟩
        ∧ Message.build registry.specification performative fields
          (Dialogue.start label .initiator).nextRouting = .ok message
        ∧ (Dialogue.start label .initiator).append registry.specification
          message .initiator = .ok dialogue
        ∧ after = { base.hold label dialogue with stats :=
          (base.stats.recordAccepted.recordOutcome dialogue).recordOpened } := by
  rw [openWith] at hopen
  split at hopen
  · cases hopen
  · rename_i hopponent
    refine ⟨hopponent, ?_⟩
    split at hopen
    · cases hopen
    · rename_i base hroom
      have hspecification := specification_of_makeRoom_ok hroom
      have haddress := address_of_makeRoom_ok hroom
      simp only [hspecification, haddress] at hopen
      split at hopen
      · cases hopen
      · rename_i built hbuild
        split at hopen
        · cases hopen
        · rename_i dialogue accepted haccept
          obtain ⟨happend, rfl⟩ := accept_eq_ok haccept
          cases hopen
          rw [hspecification] at happend
          exact ⟨base, dialogue, hroom, rfl, hbuild, happend, rfl⟩

theorem openWith_eq_error {supply : HalfSupply} {performative : String}
    {fields : List (String × Value)} {opponent : Address}
    (hopen : registry.openWith supply performative fields opponent
      = (.error cause, after)) :
    (cause.IsObstruction →
      registry.Obstructs (opponent ≠ registry.address) cause) ∧ ∃ base,
      Cleared registry (opponent ≠ registry.address ∧ registry.IsFull) base
        ∧ Refused base after := by
  simp only [openWith] at hopen
  split at hopen
  · rename_i hself
    cases hopen
    exact ⟨False.elim, registry, cleared_of_not fun hneeds => hneeds.1 hself,
      .uncounted⟩
  · rename_i hopponent
    have hcleared : ∀ {verdict base}, registry.makeRoom = (verdict, base) →
        Cleared registry (opponent ≠ registry.address ∧ registry.IsFull) base :=
      fun hroom => (cleared_of_makeRoom hroom).congr
        (and_iff_right hopponent).symm
    split at hopen
    · rename_i base hroom
      cases hopen
      exact ⟨fun _ => obstructs_of_makeRoom hroom hopponent, _, hcleared hroom,
        .uncounted⟩
    · rename_i base hroom
      split at hopen
      · cases hopen
        exact ⟨False.elim, _, hcleared hroom, .uncounted⟩
      · split at hopen
        · rename_i haccept
          cases hopen
          obtain ⟨hordinary, hrefused⟩ := accept_eq_error haccept
          exact ⟨fun hnot => absurd hnot hordinary, base, hcleared hroom,
            hrefused⟩
        · cases hopen

theorem reply_eq_ok {label : Label} {performative : String}
    {fields : List (String × Value)} {message : Message}
    (hreply : registry.reply label performative fields
      = (.ok message, after)) :
    ∃ key dialogue next, registry.find? label = some (key, dialogue)
      ∧ Message.build registry.specification performative fields
        dialogue.nextRouting = .ok message
      ∧ dialogue.append registry.specification message dialogue.role = .ok next
      ∧ after = { registry.hold key next with
        stats := registry.stats.recordAccepted.recordOutcome next } := by
  rw [reply] at hreply
  split at hreply
  · cases hreply
  · rename_i key dialogue hfound
    split at hreply
    · cases hreply
    · rename_i built hbuild
      split at hreply
      · cases hreply
      · rename_i next accepted haccept
        obtain ⟨happend, rfl⟩ := accept_eq_ok haccept
        cases hreply
        exact ⟨key, dialogue, next, hfound, hbuild, happend, rfl⟩

theorem reply_eq_error {label : Label} {performative : String}
    {fields : List (String × Value)}
    (hreply : registry.reply label performative fields
      = (.error cause, after)) :
    ¬ cause.IsObstruction ∧ Refused registry after := by
  rw [reply] at hreply
  split at hreply
  · cases hreply
    exact ⟨id, .uncounted⟩
  · split at hreply
    · cases hreply
      exact ⟨id, .uncounted⟩
    · split at hreply
      · rename_i haccept
        cases hreply
        exact accept_eq_error haccept
      · cases hreply

/-- Sending is opening or replying, or the label is not the opponent's. -/
theorem send_cases {supply : HalfSupply} {performative : String}
    {fields : List (String × Value)} {opponent : Address}
    {label : Option Label} {result : Except ProtocolError Message}
    (hsend : registry.send supply performative fields opponent label
      = (result, after)) :
    (label = none ∧ ∃ opening,
        registry.openWith supply performative fields opponent = (opening, after)
          ∧ result = opening.map Prod.snd)
      ∨ ∃ named, label = some named ∧ (named.opponent = opponent
          ∧ registry.reply named performative fields = (result, after)
        ∨ registry.fail (.unknown named) = (result, after)) := by
  rw [send.eq_def] at hsend
  split at hsend
  · left
    split at hsend
    · rename_i hopen
      cases hsend
      exact ⟨rfl, _, hopen, rfl⟩
    · rename_i hopen
      cases hsend
      exact ⟨rfl, _, hopen, rfl⟩
  · rename_i named
    right
    split at hsend
    · exact ⟨named, rfl, Or.inr hsend⟩
    · rename_i hopponent
      rw [Decidable.not_not] at hopponent
      exact ⟨named, rfl, Or.inl ⟨hopponent, hsend⟩⟩

/-! ## Receiving -/

theorem acceptOpening_of_append_ok {supply : HalfSupply}
    {label complete : Label} {message : Message} {next : Dialogue}
    (hincomplete : label.isComplete = false) (hroom : ¬ registry.IsFull)
    (hcomplete : complete = label.withReference
      (label.reference.withResponder (supply.next registry.usedHalves)))
    (happend : (Dialogue.start complete .responder).append
      registry.specification message .initiator = .ok next) :
    ∃ stats, registry.acceptOpening supply label message = (.ok next,
      { (registry.hold complete next).addName label complete with stats }) := by
  refine ⟨(registry.stats.recordAccepted.recordOutcome next).recordOpened, ?_⟩
  subst hcomplete
  simp only [acceptOpening, hincomplete, makeRoom_of_not_isFull hroom,
    accept_of_append_ok happend, Bool.false_eq_true, if_false]
  rfl

theorem acceptOpening_eq_ok {supply : HalfSupply} {label : Label}
    {message : Message} {dialogue : Dialogue}
    (haccept : registry.acceptOpening supply label message
      = (.ok dialogue, after)) :
    label.isComplete = false ∧ ∃ base complete,
      registry.makeRoom = (.ok (), base)
        ∧ complete = label.withReference
          (label.reference.withResponder (supply.next base.usedHalves))
        ∧ (Dialogue.start complete .responder).append registry.specification
          message .initiator = .ok dialogue
        ∧ after = { (base.hold complete dialogue).addName label complete with
          stats :=
            (base.stats.recordAccepted.recordOutcome dialogue).recordOpened } := by
  simp only [acceptOpening] at haccept
  split at haccept
  · cases haccept
  · rename_i hincomplete
    rw [Bool.not_eq_true] at hincomplete
    refine ⟨hincomplete, ?_⟩
    split at haccept
    · cases haccept
    · rename_i base hroom
      split at haccept
      · cases haccept
      · rename_i next accepted haccepted
        obtain ⟨happend, rfl⟩ := accept_eq_ok haccepted
        cases haccept
        rw [specification_of_makeRoom_ok hroom] at happend
        exact ⟨base, _, hroom, rfl, happend, rfl⟩

theorem acceptOpening_eq_error {supply : HalfSupply} {label : Label}
    {message : Message}
    (haccept : registry.acceptOpening supply label message
      = (.error cause, after)) :
    (cause.IsObstruction →
      registry.Obstructs (label.isComplete = false) cause) ∧ ∃ base,
      Cleared registry (label.isComplete = false ∧ registry.IsFull) base
        ∧ Refused base after := by
  simp only [acceptOpening] at haccept
  split at haccept
  · rename_i hcomplete
    cases haccept
    exact ⟨False.elim, registry, cleared_of_not (by simp [hcomplete]),
      .uncounted⟩
  · rename_i hincomplete
    rw [Bool.not_eq_true] at hincomplete
    have hcleared : ∀ {verdict base}, registry.makeRoom = (verdict, base) →
        Cleared registry (label.isComplete = false ∧ registry.IsFull) base :=
      fun hroom => (cleared_of_makeRoom hroom).congr
        (and_iff_right hincomplete).symm
    split at haccept
    · rename_i base hroom
      cases haccept
      exact ⟨fun _ => obstructs_of_makeRoom hroom hincomplete, _,
        hcleared hroom, .uncounted⟩
    · rename_i base hroom
      split at haccept
      · rename_i hrefused
        cases haccept
        obtain ⟨hordinary, hrefused⟩ := accept_eq_error hrefused
        exact ⟨fun hnot => absurd hnot hordinary, base, hcleared hroom,
          hrefused⟩
      · cases haccept

theorem continueWith_of_same {key : Label} {dialogue next : Dialogue}
    {message : Message}
    (hfit : fit dialogue message.routing.reference = .same)
    (happend : dialogue.append registry.specification message
      dialogue.role.counterpart = .ok next) :
    registry.continueWith key dialogue message = (.ok next,
      { registry.hold key next with
        stats := registry.stats.recordAccepted.recordOutcome next }) := by
  simp only [continueWith, hfit, accept_of_append_ok happend]
  rfl

/-- Once a dialogue has been moved to the label that its completed reference
gives it, the message is accepted: what the check says depends on neither. -/
theorem accept_of_rekey (complete : Label) {dialogue : Dialogue}
    {message : Message} {sender : Role}
    (hcheck : dialogue.check registry.specification message sender = .ok ()) :
    ∃ next, (dialogue.relabel complete).append registry.specification message
        sender = .ok next
      ∧ (registry.rekey dialogue complete).accept (dialogue.relabel complete)
          message sender
        = (.ok next, { registry.rekey dialogue complete with
          stats := registry.stats.recordAccepted.recordOutcome next }) := by
  have hrelabeled :=
    (Dialogue.check_relabel_eq_ok_iff complete).mpr hcheck
  have happend := Dialogue.append_eq_ok_iff.mpr ⟨hrelabeled, rfl⟩
  exact ⟨_, happend, accept_of_append_ok happend⟩

theorem continueWith_of_completes (key : Label) {complete : Label}
    {dialogue : Dialogue} {message : Message}
    (hfit : fit dialogue message.routing.reference = .completes)
    (hcomplete :
      complete = dialogue.label.withReference message.routing.reference)
    (hcheck : dialogue.check registry.specification message
      dialogue.role.counterpart = .ok ())
    (hfree : registry.dialogues.contains complete = false) :
    ∃ next, (dialogue.relabel complete).append registry.specification message
        dialogue.role.counterpart = .ok next
      ∧ registry.continueWith key dialogue message = (.ok next,
        { (registry.rekey dialogue complete).hold complete next with
          stats := registry.stats.recordAccepted.recordOutcome next }) := by
  obtain ⟨next, happend, haccept⟩ := accept_of_rekey complete hcheck
  refine ⟨next, happend, ?_⟩
  subst hcomplete
  simp only [continueWith, hfit, hcheck, hfree, haccept, Bool.false_eq_true,
    if_false]
  rfl

theorem continueWith_eq_ok {key : Label} {dialogue next : Dialogue}
    {message : Message}
    (hcontinue : registry.continueWith key dialogue message
      = (.ok next, after)) :
    (fit dialogue message.routing.reference = .same
        ∧ dialogue.append registry.specification message
          dialogue.role.counterpart = .ok next
        ∧ after = { registry.hold key next with
          stats := registry.stats.recordAccepted.recordOutcome next })
      ∨ ∃ complete, fit dialogue message.routing.reference = .completes
        ∧ complete = dialogue.label.withReference message.routing.reference
        ∧ registry.dialogues.contains complete = false
        ∧ (dialogue.relabel complete).append registry.specification message
          dialogue.role.counterpart = .ok next
        ∧ after = { (registry.rekey dialogue complete).hold complete next with
          stats := registry.stats.recordAccepted.recordOutcome next } := by
  simp only [continueWith] at hcontinue
  split at hcontinue
  · cases hcontinue
  · rename_i hfit
    split at hcontinue
    · cases hcontinue
    · rename_i haccept
      obtain ⟨happend, rfl⟩ := accept_eq_ok haccept
      cases hcontinue
      exact Or.inl ⟨hfit, happend, rfl⟩
  · rename_i hfit
    split at hcontinue
    · cases hcontinue
    · split at hcontinue
      · cases hcontinue
      · rename_i hfree
        rw [Bool.not_eq_true] at hfree
        split at hcontinue
        · cases hcontinue
        · rename_i haccept
          obtain ⟨happend, rfl⟩ := accept_eq_ok haccept
          cases hcontinue
          exact Or.inr ⟨_, hfit, rfl, hfree, happend, rfl⟩

theorem continueWith_eq_error {key : Label} {dialogue : Dialogue}
    {message : Message}
    (hcontinue : registry.continueWith key dialogue message
      = (.error cause, after)) :
    (cause.IsObstruction →
      cause = .dialogue (.referenceCollision message.routing.reference)
        ∧ fit dialogue message.routing.reference = .completes
        ∧ registry.dialogues.contains
          (dialogue.label.withReference message.routing.reference) = true)
      ∧ Refused registry after := by
  simp only [continueWith] at hcontinue
  split at hcontinue
  · cases hcontinue
    exact ⟨False.elim, .uncounted⟩
  · split at hcontinue
    · rename_i haccept
      cases hcontinue
      obtain ⟨hordinary, hrefused⟩ := accept_eq_error haccept
      exact ⟨fun hnot => absurd hnot hordinary, hrefused⟩
    · cases hcontinue
  · rename_i hfit
    split at hcontinue
    · rename_i hcheck
      cases hcontinue
      have hordinary := Dialogue.not_isObstruction_of_check hcheck
      exact ⟨fun hnot => absurd hnot hordinary, .rejected⟩
    · rename_i hcheck
      split at hcontinue
      · rename_i hheld
        cases hcontinue
        exact ⟨fun _ => ⟨rfl, hfit, hheld⟩, .uncounted⟩
      · -- The check has passed already, under the old label.
        obtain ⟨next, -, haccept⟩ := accept_of_rekey
          (dialogue.label.withReference message.routing.reference) hcheck
        simp only [haccept] at hcontinue
        cases hcontinue

/-- A message is taken for the opener of a dialogue that is not held yet. -/
structure Admits (registry : Registry) (message : Message) (sender : Address) :
    Prop where
  protocol_eq : message.protocol = registry.specification.id
  sender_ne : sender ≠ registry.address
  unknown : registry.find? ⟨message.routing.reference, registry.address, sender⟩
    = none
  opener : message.isOpener = true
  incomplete : message.routing.reference.isComplete = false

theorem receiveMessage_of_find? (supply : HalfSupply) {message : Message}
    {sender : Address} {key : Label} {dialogue : Dialogue}
    (hprotocol : message.protocol = registry.specification.id)
    (hsender : sender ≠ registry.address)
    (hfound : registry.find?
      ⟨message.routing.reference, registry.address, sender⟩
        = some (key, dialogue)) :
    registry.receiveMessage supply message sender
      = registry.continueWith key dialogue message := by
  simp only [receiveMessage, hprotocol, hsender, hfound, ne_eq, not_true_eq_false,
    if_false]

theorem receiveMessage_of_admits (supply : HalfSupply) {message : Message}
    {sender : Address} (hadmits : registry.Admits message sender) :
    registry.receiveMessage supply message sender
      = registry.acceptOpening supply
        ⟨message.routing.reference, registry.address, sender⟩ message := by
  simp only [receiveMessage, hadmits.protocol_eq, hadmits.sender_ne,
    hadmits.unknown, hadmits.opener, ne_eq, not_true_eq_false, if_false, if_true]

theorem receiveMessage_eq_ok {supply : HalfSupply} {message : Message}
    {sender : Address} {next : Dialogue}
    (hreceive : registry.receiveMessage supply message sender
      = (.ok next, after)) :
    message.protocol = registry.specification.id
      ∧ sender ≠ registry.address ∧ ∃ label,
        label = ⟨message.routing.reference, registry.address, sender⟩
          ∧ ((∃ key dialogue, registry.find? label = some (key, dialogue)
              ∧ registry.continueWith key dialogue message = (.ok next, after))
            ∨ registry.find? label = none ∧ message.isOpener = true
              ∧ registry.acceptOpening supply label message
                = (.ok next, after)) := by
  simp only [receiveMessage] at hreceive
  split at hreceive
  · cases hreceive
  · rename_i hprotocol
    rw [Decidable.not_not] at hprotocol
    split at hreceive
    · cases hreceive
    · rename_i hsender
      refine ⟨hprotocol, hsender, _, rfl, ?_⟩
      split at hreceive
      · rename_i key dialogue hfound
        exact Or.inl ⟨key, dialogue, hfound, hreceive⟩
      · rename_i hunknown
        split at hreceive
        · rename_i hopener
          exact Or.inr ⟨hunknown, hopener, hreceive⟩
        · cases hreceive

theorem receiveMessage_eq_error {supply : HalfSupply} {message : Message}
    {sender : Address}
    (hreceive : registry.receiveMessage supply message sender
      = (.error cause, after)) :
    (cause.IsObstruction →
      registry.Obstructs (registry.Admits message sender) cause) ∧ ∃ base,
      Cleared registry (registry.Admits message sender ∧ registry.IsFull) base
        ∧ Refused base after := by
  have hcleared : ¬ registry.Admits message sender →
      Cleared registry (registry.Admits message sender ∧ registry.IsFull)
        registry := fun hnot => cleared_of_not fun hneeds => hnot hneeds.1
  simp only [receiveMessage] at hreceive
  split at hreceive
  · rename_i hprotocol
    cases hreceive
    exact ⟨False.elim, registry,
      hcleared fun hadmits => hprotocol hadmits.protocol_eq, .uncounted⟩
  · rename_i hprotocol
    rw [Decidable.not_not] at hprotocol
    split at hreceive
    · rename_i hself
      cases hreceive
      exact ⟨False.elim, registry,
        hcleared fun hadmits => hadmits.sender_ne hself, .uncounted⟩
    · rename_i hsender
      split at hreceive
      · rename_i key dialogue hfound
        obtain ⟨hcollision, hrefused⟩ := continueWith_eq_error hreceive
        refine ⟨fun hobstructs => ?_, registry, hcleared fun hadmits => ?_,
          hrefused⟩
        · obtain ⟨rfl, hfit, hheld⟩ := hcollision hobstructs
          exact .collision _ ⟨_, key, dialogue, _, hfound, hfit, hheld⟩
        · rw [hadmits.unknown] at hfound
          cases hfound
      · rename_i hunknown
        split at hreceive
        · rename_i hopener
          obtain ⟨hobstructs, base, hroom, hrefused⟩ :=
            acceptOpening_eq_error hreceive
          have hadmits : message.routing.reference.isComplete = false →
              registry.Admits message sender :=
            .mk hprotocol hsender hunknown hopener
          exact ⟨fun hnot => (hobstructs hnot).mono hadmits, base,
            hroom.congr (and_congr_left fun _ => ⟨hadmits, Admits.incomplete⟩),
            hrefused⟩
        · rename_i hopener
          cases hreceive
          exact ⟨False.elim, registry,
            hcleared fun hadmits => hopener hadmits.opener, .rejected⟩

theorem receive_eq_ok {supply : HalfSupply} {payload : Bytes}
    {sender : Address} {dialogue : Dialogue} {message : Message}
    (hreceive : registry.receive supply payload sender
      = (.ok (dialogue, message), after)) :
    Message.decode registry.specification registry.limits.payload payload
        = .ok message
      ∧ registry.receiveMessage supply message sender
        = (.ok dialogue, after) := by
  rw [receive] at hreceive
  split at hreceive
  · cases hreceive
  · rename_i hdecode
    split at hreceive
    · rename_i haccept
      cases hreceive
      exact ⟨hdecode, haccept⟩
    · cases hreceive

theorem perform_receive_eq_ok {supply : HalfSupply} {payload : Bytes}
    {sender : Address} {answer : Answer}
    (hok : (registry.perform (.receive supply payload sender)).1 = .ok answer) :
    ∃ dialogue message, answer = .received dialogue message
      ∧ Message.decode registry.specification registry.limits.payload payload
        = .ok message
      ∧ registry.receiveMessage supply message sender
        = (.ok dialogue,
          (registry.perform (.receive supply payload sender)).2) := by
  obtain ⟨⟨dialogue, message⟩, hreceive⟩ := Outcome.exists_of_mapResult hok
  rw [perform, hreceive] at hok
  cases hok
  exact ⟨dialogue, message, rfl, receive_eq_ok hreceive⟩

theorem receive_eq_error {supply : HalfSupply} {payload : Bytes}
    {sender : Address}
    (hreceive : registry.receive supply payload sender
      = (.error cause, after)) :
    ((∃ failure, Message.decode registry.specification
          registry.limits.payload payload = .error failure)
        ∧ ¬ cause.IsObstruction ∧ Refused registry after)
      ∨ ∃ message, Message.decode registry.specification registry.limits.payload
          payload = .ok message
        ∧ registry.receiveMessage supply message sender
          = (.error cause, after) := by
  rw [receive] at hreceive
  split at hreceive
  · rename_i failure hdecode
    cases hreceive
    exact Or.inl ⟨⟨failure, hdecode⟩, id, .unread⟩
  · rename_i message hdecode
    split at hreceive
    · cases hreceive
    · rename_i hrefused
      cases hreceive
      exact Or.inr ⟨message, hdecode, hrefused⟩

/-! ## Ending -/

theorem endDialogue_eq_ok {label : Label} {state : EndState}
    (hend : registry.endDialogue label state = (.ok (), after)) :
    ∃ key dialogue next, registry.find? label = some (key, dialogue)
      ∧ dialogue.finish registry.specification state = .ok next
      ∧ after = { registry.hold key next with
        stats := registry.stats.recordOutcome next } := by
  rw [endDialogue] at hend
  split at hend
  · cases hend
  · rename_i key dialogue hfound
    split at hend
    · cases hend
    · rename_i next hfinish
      cases hend
      exact ⟨key, dialogue, next, hfound, hfinish, rfl⟩

theorem endDialogue_eq_error {label : Label} {state : EndState}
    (hend : registry.endDialogue label state = (.error cause, after)) :
    ¬ cause.IsObstruction ∧ Refused registry after := by
  rw [endDialogue] at hend
  split at hend
  · cases hend
    exact ⟨id, .uncounted⟩
  · rename_i key dialogue hfound
    split at hend
    · rename_i refusal hfinish
      cases hend
      refine ⟨?_, .uncounted⟩
      rw [Dialogue.finish] at hfinish
      split at hfinish
      · cases hfinish
        exact id
      · split at hfinish <;> cases hfinish
        exact id
    · cases hend

end Outcomes

end Registry

end Colloquy
