import Colloquy.Proofs.Registry.Resolution

/-!
# Operations on different dialogues

Operations that reach different dialogues do not disturb each other.  What an
operation makes of the dialogue it reaches does not depend on what else is held,
so that it is the same before and after the other one; and each changes only its
own dialogue, the name of that dialogue, and counters that do not mind the order.

Main statement: performed in either order, both operations answer the same and
lead to the same registry, up to the order in which the dialogues are listed.
-/

namespace Colloquy

/-! ## What is counted -/

/-- What an operation may count that reaches one dialogue. -/
inductive Recording where
  | nothing
  | rejected
  /-- A message was accepted, and may have ended the dialogue. -/
  | accepted (next : Dialogue)
  | finished (next : Dialogue)

namespace Stats

def record (stats : Stats) : Recording → Stats
  | .nothing => stats
  | .rejected => stats.recordRejected
  | .accepted next => stats.recordAccepted.recordOutcome next
  | .finished next => stats.recordOutcome next

section Record

variable (stats : Stats) (dialogue another : Dialogue)

theorem recordOutcome_recordRejected :
    stats.recordRejected.recordOutcome dialogue
      = (stats.recordOutcome dialogue).recordRejected := by
  rw [recordOutcome, recordOutcome]
  split
  · rfl
  · split <;> rfl

theorem recordOutcome_recordAccepted :
    stats.recordAccepted.recordOutcome dialogue
      = (stats.recordOutcome dialogue).recordAccepted := by
  rw [recordOutcome, recordOutcome]
  split
  · rfl
  · split <;> rfl

theorem recordAccepted_recordRejected :
    stats.recordRejected.recordAccepted = stats.recordAccepted.recordRejected :=
  rfl

theorem recordOutcome_comm :
    (stats.recordOutcome dialogue).recordOutcome another
      = (stats.recordOutcome another).recordOutcome dialogue := by
  cases hmine : dialogue.outcome? with
  | none => simp only [recordOutcome, hmine]
  | some state =>
    cases htheirs : another.outcome? with
    | none => simp only [recordOutcome, htheirs]
    | some other =>
      cases hself : dialogue.isSelfInitiated <;>
        cases hopened : another.isSelfInitiated <;>
          simp [recordOutcome, hmine, htheirs, hself, hopened,
            Tally.record_comm _ state.name other.name]

/-- Of two recordings either may come first. -/
theorem record_comm (first second : Recording) :
    (stats.record first).record second = (stats.record second).record first := by
  cases first <;> cases second <;>
    simp only [record, recordOutcome_recordRejected,
      recordOutcome_recordAccepted, recordAccepted_recordRejected,
      recordOutcome_comm]

end Record

end Stats

namespace Registry

/-! ## What an operation changes -/

/-- The label by which an operation names a dialogue that is held already. -/
def Operation.label? (registry : Registry) : Operation → Option Label
  | .openWith _ _ _ _ => none
  | .send _ _ _ _ label => label
  | .reply label _ _ => some label
  | .receive _ payload sender =>
    match Message.decode registry.specification registry.limits.payload
        payload with
    | .ok message =>
      some ⟨message.routing.reference, registry.address, sender⟩
    | .error _ => none
  | .receiveMessage _ message sender =>
    some ⟨message.routing.reference, registry.address, sender⟩
  | .endDialogue label _ => some label
  | .evict => none

/-- The label in an operation leads to a dialogue. -/
def Operation.Reaches (registry : Registry) (operation : Operation)
    (key : Label) (dialogue : Dialogue) : Prop :=
  ∃ label, operation.label? registry = some label
    ∧ registry.find? label = some (key, dialogue)

theorem Operation.exists_reaches {registry : Registry} {operation : Operation}
    {label key : Label} (hlabel : operation.label? registry = some label)
    (hresolve : registry.resolve? label = some key)
    (hheld : registry.dialogues.contains key = true) :
    ∃ dialogue, operation.Reaches registry key dialogue := by
  obtain ⟨dialogue, hdialogue⟩ := contains_iff_exists_holds.mp hheld
  exact ⟨dialogue, label, hlabel,
    find?_eq_some_iff_resolve?.mpr ⟨hresolve, hdialogue⟩⟩

/-- A dialogue may give way to one under the same label, or under the label that
its completed reference gives it. -/
def Succeeds (key : Label) (next : Dialogue) : Prop :=
  next.label = key
    ∨ key.isComplete = false ∧ next.label.isComplete = true
      ∧ next.label.incomplete = key.incomplete

theorem Succeeds.incomplete_eq {key : Label} {next : Dialogue}
    (hsucceeds : Succeeds key next) :
    next.label.incomplete = key.incomplete := by
  cases hsucceeds with
  | inl hsame => rw [hsame]
  | inr hcompleted => exact hcompleted.2.2

/-- Only a dialogue with an initiator half moves. -/
theorem Succeeds.isNamed {key : Label} {next : Dialogue}
    (hsucceeds : Succeeds key next) (hmoved : next.label ≠ key) :
    key.isComplete = false ∧ key.IsNamed := by
  cases hsucceeds with
  | inl hsame => exact absurd hsame hmoved
  | inr hcompleted =>
    obtain ⟨hopen, hcomplete, hsame⟩ := hcompleted
    exact ⟨hopen,
      (Label.isNamed_of_isComplete hcomplete).of_incomplete_eq hsame.symm⟩

/-- The dialogue under a label gave way to another one. -/
structure Revised (before : Registry) (key : Label) (next : Dialogue)
    (recording : Recording) (after : Registry) : Prop where
  specification_eq : after.specification = before.specification
  address_eq : after.address = before.address
  limits_eq : after.limits = before.limits
  stats_eq : after.stats = before.stats.record recording
  dialogues : ∀ other, after.dialogues.get? other =
    if other = next.label then some next
    else if other = key then none else before.dialogues.get? other
  completed : ∀ name, after.completed.get? name =
    if name = key ∧ next.label ≠ key then some next.label
    else before.completed.get? name

/-- A registry that agrees with another one on everything but the dialogues, and
holds a certain dialogue under a certain label. -/
structure Hosts (base : Registry) (key : Label) (dialogue : Dialogue)
    (registry : Registry) : Prop where
  traceable : registry.Traceable
  specification_eq : registry.specification = base.specification
  address_eq : registry.address = base.address
  limits_eq : registry.limits = base.limits
  held : registry.Holds key dialogue

/-- What is done to a dialogue does not depend on the registry that holds it. -/
def IsLocal {α : Type} (base : Registry) (key : Label) (dialogue : Dialogue)
    (label : Label) (action : Registry → Outcome α) : Prop :=
  ∃ result next recording, Succeeds key next ∧
    ∀ registry, Hosts base key dialogue registry →
      registry.find? label = some (key, dialogue) → ∃ after,
        action registry = (result, after)
          ∧ Revised registry key next recording after

section Revised

variable {before after registry base : Registry} {key label : Label}
  {dialogue next : Dialogue}

theorem revised_of_same (hheld : registry.Holds key dialogue)
    (hlabel : dialogue.label = key) (recording : Recording) :
    Revised registry key dialogue recording
      { registry with stats := registry.stats.record recording } where
  specification_eq := rfl
  address_eq := rfl
  limits_eq := rfl
  stats_eq := rfl
  dialogues other := by
    by_cases hother : other = key
    · rw [if_pos (hother.trans hlabel.symm), hother]
      exact hheld
    · rw [if_neg (hlabel ▸ hother), if_neg hother]
  completed name := by rw [if_neg (fun hmoved => hmoved.2 hlabel)]

theorem revised_of_hold (hlabel : next.label = key) (recording : Recording) :
    Revised registry key next recording
      { registry.hold key next with
        stats := registry.stats.record recording } where
  specification_eq := rfl
  address_eq := rfl
  limits_eq := rfl
  stats_eq := rfl
  dialogues other := by
    rw [hold, OrderedMap.get?_set, hlabel]
    by_cases hother : other = key <;> simp [hother]
  completed name := by
    rw [if_neg (fun hmoved => hmoved.2 hlabel)]
    rfl

theorem revised_of_rekey {complete : Label} (hkey : dialogue.label = key)
    (hlabel : next.label = complete) (hmoved : complete ≠ key)
    (recording : Recording) :
    Revised registry key next recording
      { (registry.rekey dialogue complete).hold complete next with
        stats := registry.stats.record recording } where
  specification_eq := rfl
  address_eq := rfl
  limits_eq := rfl
  stats_eq := rfl
  dialogues other := by
    rw [hold, rekey, addName, OrderedMap.get?_set, OrderedMap.get?_set,
      OrderedMap.get?_erase, hkey, hlabel]
    by_cases hother : other = complete <;> simp [hother]
  completed name := by
    rw [hold, rekey, addName, OrderedMap.get?_set, hkey, hlabel]
    simp [hmoved]

/-- A dialogue that moves takes a label under which none was held. -/
theorem Traceable.not_holds_of_succeeds (htraceable : registry.Traceable)
    (hheld : registry.Holds key dialogue) (hsucceeds : Succeeds key next)
    (hmoved : next.label ≠ key) (another : Dialogue) :
    ¬ registry.Holds next.label another := by
  intro hother
  have hnamed := (hsucceeds.isNamed hmoved).2
  exact hmoved (htraceable.eq_of_incomplete_eq hheld hother hnamed
    hsucceeds.incomplete_eq)

/-- The label of a dialogue that moves was not an earlier name. -/
theorem Traceable.current_of_succeeds (htraceable : registry.Traceable)
    (hheld : registry.Holds key dialogue) (hsucceeds : Succeeds key next)
    (hmoved : next.label ≠ key) :
    key.incomplete = key ∧ registry.current key = key := by
  obtain ⟨hopen, hnamed⟩ := hsucceeds.isNamed hmoved
  have hkey : key.incomplete = key :=
    Label.incomplete_of_not_isComplete hopen hnamed
  have hcurrent := htraceable.current_eq hheld hnamed
  rw [hkey] at hcurrent
  exact ⟨hkey, hcurrent⟩

/-! ## What stays -/

section Others

variable {other : Label} {another : Dialogue} {recording : Recording}

theorem Revised.holds_of_ne (hrevised : Revised before key next recording after)
    (htraceable : before.Traceable) (hheld : before.Holds key dialogue)
    (hsucceeds : Succeeds key next) (hother : before.Holds other another)
    (hne : other ≠ key) : after.Holds other another := by
  have hnext : other ≠ next.label := by
    intro heq
    by_cases hmoved : next.label = key
    · exact hne (heq.trans hmoved)
    · apply htraceable.not_holds_of_succeeds hheld hsucceeds hmoved another
      rw [← heq]
      exact hother
  rw [Holds, hrevised.dialogues, if_neg hnext, if_neg hne]
  exact hother

/-- What stood for another label than that of the dialogue stands for it still. -/
theorem Revised.current_of_ne (hrevised : Revised before key next recording after)
    (htraceable : before.Traceable) (hheld : before.Holds key dialogue)
    (hsucceeds : Succeeds key next) (hne : before.current label ≠ key) :
    after.current label = before.current label := by
  have hname : ¬ (label = key ∧ next.label ≠ key) := by
    intro hmoved
    apply hne
    rw [hmoved.1]
    exact (htraceable.current_of_succeeds hheld hsucceeds hmoved.2).2
  rw [current, hrevised.completed, if_neg hname, current]

/-- A label that led to nothing itself leads to nothing still, unless it names the
conversation of the dialogue that changed. -/
theorem Revised.not_contains (hrevised : Revised before key next recording after)
    (hsucceeds : Succeeds key next)
    (habsent : ¬ before.dialogues.contains label = true)
    (hapart : label.incomplete ≠ key.incomplete) :
    ¬ after.dialogues.contains label = true := by
  have hnext : label ≠ next.label := by
    intro heq
    apply hapart
    rw [heq]
    exact hsucceeds.incomplete_eq
  have hkey : label ≠ key := fun heq => hapart (congrArg Label.incomplete heq)
  rw [OrderedMap.contains, hrevised.dialogues, if_neg hnext, if_neg hkey]
  exact habsent

/-- A label that led to another dialogue leads to it still. -/
theorem Revised.find?_of_ne (hrevised : Revised before key next recording after)
    (htraceable : before.Traceable) (hheld : before.Holds key dialogue)
    (hsucceeds : Succeeds key next)
    (hfound : before.find? label = some (other, another)) (hne : other ≠ key) :
    after.find? label = some (other, another) := by
  have hother := (find?_eq_some_iff_resolve?.mp hfound).2
  apply find?_of_find? hfound
    (hrevised.holds_of_ne htraceable hheld hsucceeds hother hne)
  · intro name hname
    rw [← hname] at hne ⊢
    exact hrevised.current_of_ne htraceable hheld hsucceeds hne
  · intro hearlier habsent
    have hdirect : before.current label ≠ key := by
      intro heq
      rw [heq] at habsent
      exact habsent (contains_iff_exists_holds.mpr ⟨dialogue, hheld⟩)
    rw [hrevised.current_of_ne htraceable hheld hsucceeds hdirect]
    by_cases hmoved : next.label = key
    · rw [OrderedMap.contains, hrevised.dialogues, hmoved, if_neg hdirect,
        if_neg hdirect]
      exact habsent
    · -- A dialogue that moves takes a label of its own conversation.
      apply hrevised.not_contains hsucceeds habsent
      intro hsame
      obtain ⟨hkey, hcurrent⟩ :=
        htraceable.current_of_succeeds hheld hsucceeds hmoved
      apply hne
      rw [← hearlier, ← incomplete_current htraceable.keyed label, hsame, hkey,
        hcurrent]

end Others

/-! ## Operations are local -/

section Local

variable {α β : Type} {action : Registry → Outcome α}

theorem Hosts.label_eq (hhosts : Hosts base key dialogue registry) :
    dialogue.label = key :=
  hhosts.traceable.keyed.label_eq hhosts.held

/-- An operation that fails everywhere in the same way, and counts the same. -/
theorem isLocal_of_error (hlabel : dialogue.label = key)
    (cause : ProtocolError) (recording : Recording)
    (haction : ∀ registry, Hosts base key dialogue registry →
      registry.find? label = some (key, dialogue) →
        action registry = (.error cause,
          { registry with stats := registry.stats.record recording })) :
    IsLocal base key dialogue label action := by
  refine ⟨.error cause, dialogue, recording, Or.inl hlabel, ?_⟩
  intro registry hhosts hfound
  exact ⟨_, haction registry hhosts hfound,
    revised_of_same hhosts.held hlabel recording⟩

/-- An operation that succeeds everywhere with the same dialogue under the same
label. -/
theorem isLocal_of_hold {value : α} (hlabel : next.label = key)
    (recording : Recording)
    (haction : ∀ registry, Hosts base key dialogue registry →
      registry.find? label = some (key, dialogue) →
        action registry = (.ok value, { registry.hold key next with
          stats := registry.stats.record recording })) :
    IsLocal base key dialogue label action := by
  refine ⟨.ok value, next, recording, Or.inl hlabel, ?_⟩
  intro registry hhosts hfound
  exact ⟨_, haction registry hhosts hfound, revised_of_hold hlabel recording⟩

theorem IsLocal.mapResult (hlocal : IsLocal base key dialogue label action)
    (f : α → β) :
    IsLocal base key dialogue label fun registry =>
      (action registry).mapResult f := by
  obtain ⟨result, next, recording, hsucceeds, haction⟩ := hlocal
  refine ⟨result.map f, next, recording, hsucceeds, ?_⟩
  intro registry hhosts hfound
  obtain ⟨after, hresult, hrevised⟩ := haction registry hhosts hfound
  exact ⟨after, congrArg (Outcome.mapResult f) hresult, hrevised⟩

theorem IsLocal.congr {other : Registry → Outcome α}
    (hlocal : IsLocal base key dialogue label action)
    (hsame : ∀ registry, Hosts base key dialogue registry →
      registry.find? label = some (key, dialogue) →
        other registry = action registry) :
    IsLocal base key dialogue label other := by
  obtain ⟨result, next, recording, hsucceeds, haction⟩ := hlocal
  refine ⟨result, next, recording, hsucceeds, ?_⟩
  intro registry hhosts hfound
  rw [hsame registry hhosts hfound]
  exact haction registry hhosts hfound

theorem reply_isLocal (hhosts : Hosts base key dialogue registry)
    (performative : String) (fields : List (String × Value)) :
    IsLocal base key dialogue label fun registry =>
      registry.reply label performative fields := by
  have hlabel := hhosts.label_eq
  cases hbuild : Message.build base.specification performative fields
      dialogue.nextRouting with
  | error cause =>
    apply isLocal_of_error hlabel _ .nothing
    intro other hother hfound
    rw [← hother.specification_eq] at hbuild
    simp only [reply, hfound, hbuild]
    rfl
  | ok message =>
    cases happend : dialogue.append base.specification message
        dialogue.role with
    | error cause =>
      apply isLocal_of_error hlabel _ .rejected
      intro other hother hfound
      rw [← hother.specification_eq] at hbuild happend
      simp only [reply, hfound, hbuild, accept, happend]
      rfl
    | ok next =>
      apply isLocal_of_hold ((Dialogue.label_of_append happend).trans hlabel)
        (.accepted next)
      intro other hother hfound
      rw [← hother.specification_eq] at hbuild happend
      simp only [reply, hfound, hbuild, accept, happend]
      rfl

theorem endDialogue_isLocal (hhosts : Hosts base key dialogue registry)
    (state : EndState) :
    IsLocal base key dialogue label fun registry =>
      registry.endDialogue label state := by
  have hlabel := hhosts.label_eq
  cases hfinish : dialogue.finish base.specification state with
  | error cause =>
    apply isLocal_of_error hlabel _ .nothing
    intro other hother hfound
    rw [← hother.specification_eq] at hfinish
    simp only [endDialogue, hfound, hfinish]
    rfl
  | ok next =>
    have hnext : next.label = key := by
      obtain ⟨-, -, rfl⟩ := Dialogue.finish_eq_ok_iff.mp hfinish
      exact hlabel
    apply isLocal_of_hold hnext (.finished next)
    intro other hother hfound
    rw [← hother.specification_eq] at hfinish
    simp only [endDialogue, hfound, hfinish]
    rfl

/-- The first answer moves a dialogue to a label that is free wherever the
dialogue is held. -/
theorem continueWith_isLocal_of_completes {message : Message}
    (hhosts : Hosts base key dialogue registry)
    (hfit : fit dialogue message.routing.reference = .completes)
    (hcheck : dialogue.check base.specification message
      dialogue.role.counterpart = .ok ()) :
    IsLocal base key dialogue label fun registry =>
      registry.continueWith key dialogue message := by
  have hlabel := hhosts.label_eq
  obtain ⟨hopen, -, htheirs, hhalf⟩ := fit_eq_completes_iff.mp hfit
  rw [hlabel] at hopen hhalf
  let complete := dialogue.label.withReference message.routing.reference
  have hcomplete : complete.isComplete = true := htheirs
  have hsame : complete.incomplete = key.incomplete := by
    rw [← hlabel] at hhalf ⊢
    exact Label.incomplete_eq_iff.mpr ⟨hhalf, rfl, rfl⟩
  have hmoved : complete ≠ key := by
    intro heq
    rw [heq, hopen] at hcomplete
    cases hcomplete
  obtain ⟨next, happend⟩ : ∃ next, (dialogue.relabel complete).append
      base.specification message dialogue.role.counterpart = .ok next :=
    ⟨_, Dialogue.append_eq_ok_iff.mpr
      ⟨(Dialogue.check_relabel_eq_ok_iff complete).mpr hcheck, rfl⟩⟩
  have hnext : next.label = complete := Dialogue.label_of_append happend
  have hsucceeds : Succeeds key next := by
    rw [Succeeds, hnext]
    exact Or.inr ⟨hopen, hcomplete, hsame⟩
  refine ⟨.ok next, next, .accepted next, hsucceeds, ?_⟩
  intro other hother hfound
  have hfree : other.dialogues.contains complete = false :=
    hother.traceable.not_contains_of_completes hother.held hfit
  rw [← hother.specification_eq] at hcheck happend
  obtain ⟨later, hlater, hcontinue⟩ :=
    continueWith_of_completes key hfit rfl hcheck hfree
  have hsameNext : later = next :=
    Except.ok.inj (hlater.symm.trans happend)
  rw [hsameNext] at hcontinue
  exact ⟨_, hcontinue, revised_of_rekey hlabel hnext hmoved (.accepted next)⟩

theorem continueWith_isLocal (hhosts : Hosts base key dialogue registry)
    (message : Message) :
    IsLocal base key dialogue label fun registry =>
      registry.continueWith key dialogue message := by
  have hlabel := hhosts.label_eq
  cases hfit : fit dialogue message.routing.reference with
  | mismatch =>
    apply isLocal_of_error hlabel _ .nothing
    intro other hother hfound
    simp only [continueWith, hfit]
    rfl
  | same =>
    cases happend : dialogue.append base.specification message
        dialogue.role.counterpart with
    | error cause =>
      apply isLocal_of_error hlabel _ .rejected
      intro other hother hfound
      rw [← hother.specification_eq] at happend
      simp only [continueWith, hfit, accept, happend]
      rfl
    | ok next =>
      apply isLocal_of_hold ((Dialogue.label_of_append happend).trans hlabel)
        (.accepted next)
      intro other hother hfound
      rw [← hother.specification_eq] at happend
      simp only [continueWith, hfit, accept, happend]
      rfl
  | completes =>
    cases hcheck : dialogue.check base.specification message
        dialogue.role.counterpart with
    | error cause =>
      apply isLocal_of_error hlabel _ .rejected
      intro other hother hfound
      rw [← hother.specification_eq] at hcheck
      simp only [continueWith, hfit, hcheck]
      rfl
    | ok =>
      exact continueWith_isLocal_of_completes hhosts hfit hcheck

theorem receiveMessage_isLocal (hhosts : Hosts base key dialogue registry)
    (supply : HalfSupply) (message : Message) (sender : Address) :
    IsLocal base key dialogue
      ⟨message.routing.reference, base.address, sender⟩ fun registry =>
        registry.receiveMessage supply message sender := by
  have hlabel := hhosts.label_eq
  by_cases hprotocol : message.protocol = base.specification.id
  · by_cases hsender : sender = base.address
    · apply isLocal_of_error hlabel _ .nothing
      intro other hother hfound
      rw [← hother.specification_eq] at hprotocol
      rw [← hother.address_eq] at hsender
      rw [receiveMessage, if_neg (not_not_intro hprotocol), if_pos hsender]
      rfl
    · apply (continueWith_isLocal hhosts message).congr
      intro other hother hfound
      rw [← hother.specification_eq] at hprotocol
      rw [← hother.address_eq] at hsender hfound
      exact receiveMessage_of_find? supply hprotocol hsender hfound
  · let mismatch : DecodeError :=
      .protocolMismatch base.specification.id message.protocol.text
    apply isLocal_of_error hlabel (.decode mismatch) .nothing
    intro other hother hfound
    have hid := congrArg Specification.id hother.specification_eq
    rw [← hid] at hprotocol
    rw [receiveMessage, if_pos hprotocol, hid]
    rfl

theorem receive_isLocal (hhosts : Hosts base key dialogue registry)
    (supply : HalfSupply) {payload : Bytes} {message : Message}
    (sender : Address)
    (hdecode : Message.decode base.specification base.limits.payload payload
      = .ok message) :
    IsLocal base key dialogue
      ⟨message.routing.reference, base.address, sender⟩ fun registry =>
        registry.receive supply payload sender := by
  apply ((receiveMessage_isLocal hhosts supply message sender).mapResult
    fun dialogue => (dialogue, message)).congr
  intro other hother hfound
  simp only [receive, hother.specification_eq, hother.limits_eq, hdecode]
  split
  · rename_i hreceive
    rw [hreceive]
    rfl
  · rename_i hreceive
    rw [hreceive]
    rfl

theorem send_isLocal (hhosts : Hosts base key dialogue registry)
    (supply : HalfSupply) (performative : String)
    (fields : List (String × Value)) (opponent : Address) :
    IsLocal base key dialogue label fun registry =>
      registry.send supply performative fields opponent (some label) := by
  by_cases hopponent : label.opponent = opponent
  · apply (reply_isLocal hhosts performative fields).congr
    intro other hother hfound
    simp only [send, hopponent, ne_eq, not_true_eq_false, if_false]
  · apply isLocal_of_error hhosts.label_eq _ .nothing
    intro other hother hfound
    simp only [send, ne_eq, hopponent, not_false_eq_true, if_true]
    rfl

/-- An operation does the same to the dialogue it reaches in every registry. -/
theorem perform_isLocal (hhosts : Hosts base key dialogue registry)
    {operation : Operation} (hlabel : operation.label? base = some label) :
    IsLocal base key dialogue label fun registry =>
      registry.perform operation := by
  cases operation with
  | openWith supply performative fields opponent => cases hlabel
  | evict => cases hlabel
  | send supply performative fields opponent named =>
    cases hlabel
    exact (send_isLocal hhosts supply performative fields opponent).mapResult _
  | reply named performative fields =>
    cases hlabel
    exact (reply_isLocal hhosts performative fields).mapResult _
  | receive supply payload sender =>
    simp only [Operation.label?] at hlabel
    split at hlabel
    · rename_i message hdecode
      cases hlabel
      exact (receive_isLocal hhosts supply sender hdecode).mapResult _
    · cases hlabel
  | receiveMessage supply message sender =>
    cases hlabel
    exact (receiveMessage_isLocal hhosts supply message sender).mapResult _
  | endDialogue named state =>
    cases hlabel
    exact (endDialogue_isLocal hhosts state).mapResult _

end Local

end Revised

/-! ## Two operations -/

/-- Two registries differ at most in the order in which they list dialogues and
earlier names. -/
structure Agrees (left right : Registry) : Prop where
  specification_eq : left.specification = right.specification
  address_eq : left.address = right.address
  limits_eq : left.limits = right.limits
  stats_eq : left.stats = right.stats
  dialogues : ∀ key, left.dialogues.get? key = right.dialogues.get? key
  completed : ∀ name, left.completed.get? name = right.completed.get? name

section Pair

variable {registry : Registry} {key other : Label}
  {dialogue another next later : Dialogue}

theorem Traceable.label_ne_of_succeeds (htraceable : registry.Traceable)
    (hheld : registry.Holds key dialogue) (hsucceeds : Succeeds key next)
    (hother : registry.Holds other another) (hne : other ≠ key) :
    next.label ≠ other := by
  intro heq
  by_cases hmoved : next.label = key
  · exact hne (heq.symm.trans hmoved)
  · apply htraceable.not_holds_of_succeeds hheld hsucceeds hmoved another
    rw [heq]
    exact hother

/-- Two dialogues never come under one label. -/
theorem Traceable.labels_ne_of_succeeds (htraceable : registry.Traceable)
    (hheld : registry.Holds key dialogue) (hsucceeds : Succeeds key next)
    (hother : registry.Holds other another) (hfollows : Succeeds other later)
    (hne : other ≠ key) : next.label ≠ later.label := by
  intro heq
  by_cases hmoved : next.label = key
  · exact htraceable.label_ne_of_succeeds hother hfollows hheld hne.symm
      (heq.symm.trans hmoved)
  · -- The dialogue that moved is the only one of its conversation.
    have hconversation : other.incomplete = key.incomplete :=
      calc
        other.incomplete = later.label.incomplete := hfollows.incomplete_eq.symm
        _ = next.label.incomplete := by rw [heq]
        _ = key.incomplete := hsucceeds.incomplete_eq
    have hnamed := (hsucceeds.isNamed hmoved).2
    apply hne
    exact htraceable.eq_of_incomplete_eq hheld hother hnamed hconversation

/-- Two changes lead to the same dialogues, names and counters in either order, if
they do not meet under any label. -/
theorem agrees_of_revised {once twice side back : Registry}
    {first second : Recording}
    (hfirst : Revised registry key next first once)
    (hsecond : Revised once other later second twice)
    (hother : Revised registry other later second side)
    (hback : Revised side key next first back)
    (hkeys : other ≠ key) (hmine : next.label ≠ other)
    (htheirs : later.label ≠ key) (hlabels : next.label ≠ later.label) :
    Agrees twice back where
  specification_eq := by
    rw [hsecond.specification_eq, hfirst.specification_eq,
      hback.specification_eq, hother.specification_eq]
  address_eq := by
    rw [hsecond.address_eq, hfirst.address_eq, hback.address_eq,
      hother.address_eq]
  limits_eq := by
    rw [hsecond.limits_eq, hfirst.limits_eq, hback.limits_eq, hother.limits_eq]
  stats_eq := by
    rw [hsecond.stats_eq, hfirst.stats_eq, hback.stats_eq, hother.stats_eq]
    exact Stats.record_comm _ first second
  dialogues label := by
    rw [hsecond.dialogues, hfirst.dialogues, hback.dialogues, hother.dialogues]
    by_cases hnext : label = next.label
    · rw [if_pos hnext, if_pos hnext, if_neg (hnext ▸ hlabels),
        if_neg (hnext ▸ hmine)]
    · by_cases hkey : label = key
      · rw [if_neg hnext, if_pos hkey, if_neg hnext, if_pos hkey,
          if_neg (hkey ▸ htheirs.symm), if_neg (hkey ▸ hkeys.symm)]
      · rw [if_neg hnext, if_neg hkey, if_neg hnext, if_neg hkey]
  completed name := by
    rw [hsecond.completed, hfirst.completed, hback.completed, hother.completed]
    by_cases hkey : name = key
    · have hapart : ¬ (name = other ∧ later.label ≠ other) :=
        fun hmoved => hkeys (hmoved.1.symm.trans hkey)
      rw [if_neg hapart, if_neg hapart]
    · have hapart : ¬ (name = key ∧ next.label ≠ key) :=
        fun hmoved => hkey hmoved.1
      rw [if_neg hapart, if_neg hapart]

/-- A change of one dialogue leaves the other one where it can be reached. -/
theorem Revised.hosts {once : Registry} {recording : Recording}
    (hrevised : Revised registry key next recording once)
    (htraceable : registry.Traceable) (honce : once.Traceable)
    (hheld : registry.Holds key dialogue) (hsucceeds : Succeeds key next)
    (hother : registry.Holds other another) (hne : other ≠ key) :
    Hosts registry other another once where
  traceable := honce
  specification_eq := hrevised.specification_eq
  address_eq := hrevised.address_eq
  limits_eq := hrevised.limits_eq
  held := hrevised.holds_of_ne htraceable hheld hsucceeds hother hne

theorem Traceable.hosts (htraceable : registry.Traceable)
    (hheld : registry.Holds key dialogue) :
    Hosts registry key dialogue registry :=
  ⟨htraceable, rfl, rfl, rfl, hheld⟩

theorem Traceable.perform_comm (htraceable : registry.Traceable)
    {first second : Operation} (hfirst : first.Reaches registry key dialogue)
    (hsecond : second.Reaches registry other another) (hne : other ≠ key) :
    ((registry.perform first).2.perform second).1 = (registry.perform second).1
      ∧ ((registry.perform second).2.perform first).1
        = (registry.perform first).1
      ∧ Agrees ((registry.perform first).2.perform second).2
        ((registry.perform second).2.perform first).2 := by
  obtain ⟨label, hlabel, hfound⟩ := hfirst
  obtain ⟨name, hname, hsought⟩ := hsecond
  have hheld := (find?_eq_some_iff_resolve?.mp hfound).2
  have hother := (find?_eq_some_iff_resolve?.mp hsought).2
  have hmine := htraceable.hosts hheld
  have htheirs := htraceable.hosts hother
  obtain ⟨answer, next, _, hnext, hlocal⟩ := perform_isLocal hmine hlabel
  obtain ⟨reply, later, _, hlater, hside⟩ := perform_isLocal htheirs hname
  -- Either operation alone, and then the other one after it.
  obtain ⟨once, honce, hfirst⟩ := hlocal registry hmine hfound
  obtain ⟨side, hsideways, hsecond⟩ := hside registry htheirs hsought
  change registry.perform first = (answer, once) at honce
  change registry.perform second = (reply, side) at hsideways
  have honceTraceable : once.Traceable := by
    have hafter := htraceable.perform first
    rw [honce] at hafter
    exact hafter
  have hsideTraceable : side.Traceable := by
    have hafter := htraceable.perform second
    rw [hsideways] at hafter
    exact hafter
  obtain ⟨twice, htwice, hthen⟩ := hside once
    (hfirst.hosts htraceable honceTraceable hheld hnext hother hne)
    (hfirst.find?_of_ne htraceable hheld hnext hsought hne)
  obtain ⟨back, hback, hbackwards⟩ := hlocal side
    (hsecond.hosts htraceable hsideTraceable hother hlater hheld hne.symm)
    (hsecond.find?_of_ne htraceable hother hlater hfound hne.symm)
  change once.perform second = (reply, twice) at htwice
  change side.perform first = (answer, back) at hback
  rw [honce, hsideways, htwice, hback]
  refine ⟨rfl, rfl, agrees_of_revised hfirst hthen hsecond hbackwards hne ?_ ?_
    ?_⟩
  · exact htraceable.label_ne_of_succeeds hheld hnext hother hne
  · exact htraceable.label_ne_of_succeeds hother hlater hheld hne.symm
  · exact htraceable.labels_ne_of_succeeds hheld hnext hother hlater hne

end Pair

/-- After any operations, with any arguments, let two more name different
dialogues that are held.  Each of them answers as it would without the other one
before it, and in either order the same dialogues are held under the same labels
and names, with the same counters. -/
theorem reaches_comm (specification : Specification) (address : Address)
    (limits : Limits) (operations : List Operation) {first second : Operation}
    {key other : Label} {dialogue another : Dialogue}
    (hfirst : first.Reaches ((empty specification address limits).run operations)
      key dialogue)
    (hsecond : second.Reaches
      ((empty specification address limits).run operations) other another)
    (hne : key ≠ other) :
    let registry := (empty specification address limits).run operations
    let once := registry.perform first
    let side := registry.perform second
    (once.2.perform second).1 = side.1
      ∧ (side.2.perform first).1 = once.1
      ∧ Agrees (once.2.perform second).2 (side.2.perform first).2 :=
  ((traceable_empty specification address limits).run operations).perform_comm
    hfirst hsecond hne.symm

/-- Alice has called Bob and Carol for proposals. -/
def callingTwiceOperations : List Operation :=
  let supply := HalfSupply.preferring "a" Nat.one_pos
  let query := (Negotiation.Act.cfp ⟨"books", {}⟩).toFields
  [.openWith supply "cfp" query ⟨"bob"⟩, .openWith supply "cfp" query ⟨"carol"⟩]

/-- Bob's answer completes the reference of his dialogue; that Alice no longer
wants to deal with Carol may be said before or after. -/
theorem reaches_comm_callingTwice :
    let registry := (empty Negotiation.specification ⟨"alice"⟩ {}).run
      callingTwiceOperations
    let answer : Operation := .receive (.preferring "a" Nat.one_pos)
      (answerCall "decline" [("reason", .absent)]).encode ⟨"bob"⟩
    let withdraw : Operation := .reply ⟨.opened "aa", ⟨"alice"⟩, ⟨"carol"⟩⟩
      "decline" [("reason", .absent)]
    let once := registry.perform answer
    let side := registry.perform withdraw
    once.1.isOk = true ∧ side.1.isOk = true
      ∧ (once.2.perform withdraw).1 = side.1
      ∧ (side.2.perform answer).1 = once.1
      ∧ Agrees (once.2.perform withdraw).2 (side.2.perform answer).2 := by
  intro registry answer withdraw once side
  have hanswer : ∃ dialogue, answer.Reaches registry
      ⟨.opened "a", ⟨"alice"⟩, ⟨"bob"⟩⟩ dialogue := by
    have hlabel : answer.label? registry
        = some ⟨⟨"a", "b"⟩, ⟨"alice"⟩, ⟨"bob"⟩⟩ := by decide +kernel
    apply Operation.exists_reaches hlabel <;> decide +kernel
  have hwithdraw : ∃ dialogue, withdraw.Reaches registry
      ⟨.opened "aa", ⟨"alice"⟩, ⟨"carol"⟩⟩ dialogue := by
    apply Operation.exists_reaches rfl <;> decide +kernel
  obtain ⟨dialogue, hbob⟩ := hanswer
  obtain ⟨another, hcarol⟩ := hwithdraw
  exact ⟨by decide +kernel, by decide +kernel,
    reaches_comm Negotiation.specification ⟨"alice"⟩ {} callingTwiceOperations
      hbob hcarol (by decide)⟩

end Registry

end Colloquy
