import Colloquy.Proofs.Registry.Replay

/-!
# Hearing the opponent

What becomes of a dialogue that an opponent has opened.  Messages may be handed
over under any reference, also one that leaves the initiator half open; such an
opener is admitted like any other, and the half that is chosen for it does not
make its reference complete.

Main statement: the label of a dialogue that was admitted is complete exactly if
the opener names an initiator half.  Then the opponent is heard for as long as
the dialogue is held, whatever is asked of the registry in between; otherwise
everything that is said under the reference of the label is refused for its
reference.
-/

namespace Colloquy.Registry

/-- Moves of the local agent in dialogues that are held. -/
def Operation.IsReply : Operation → Prop
  | .reply _ _ _ => True
  | .send _ _ _ _ (some _) => True
  | _ => False

/-- What the opponent says under the reference of a label is taken as the next
message of the dialogue held there if it passes its check, whatever half is in
supply. -/
def Hears (registry : Registry) (key : Label) : Prop :=
  ∀ dialogue supply message, registry.Holds key dialogue →
    message.protocol = registry.specification.id →
    message.routing.reference = key.reference →
    dialogue.check registry.specification message dialogue.role.counterpart
      = .ok () →
    ∃ next after,
      registry.receiveMessage supply message key.opponent = (.ok next, after)
        ∧ after.Holds key next
        ∧ next.history
          = dialogue.history ++ [(dialogue.role.counterpart, message)]

/-- Whatever the opponent says under the reference of a label is refused because
of this reference, and nothing changes. -/
def Ignores (registry : Registry) (key : Label) : Prop :=
  ∀ supply message, message.protocol = registry.specification.id →
    message.routing.reference = key.reference →
    ∃ ours, registry.receiveMessage supply message key.opponent
      = registry.fail (.referenceMismatch ours key.reference)

/-- A dialogue as an opener from another agent opens it: the local agent responds,
under a label of the conversation that the opener names. -/
structure IsAdmitted (label : Label) (opener : Message) (dialogue : Dialogue) :
    Prop where
  role : dialogue.role = .responder
  history : dialogue.history = [(.initiator, opener)]
  incomplete : dialogue.label.incomplete = label.incomplete
  isComplete_iff : dialogue.label.isComplete = true ↔ label.IsNamed

section Hearing

variable {registry : Registry} {key : Label} {dialogue : Dialogue}

/-! ## One message -/

theorem fit_of_reference_eq (hcomplete : dialogue.label.isComplete = true)
    {theirs : Reference} (htheirs : theirs = dialogue.label.reference) :
    fit dialogue theirs = .same :=
  fit_eq_same_iff.mpr ⟨hcomplete, Or.inl htheirs⟩

/-- Between references that are not complete there is nothing to complete. -/
theorem fit_of_not_isComplete (hours : dialogue.label.isComplete = false)
    {theirs : Reference} (htheirs : theirs.isComplete = false) :
    fit dialogue theirs = .mismatch := by
  cases hfit : fit dialogue theirs with
  | mismatch => rfl
  | same =>
    obtain ⟨hcomplete, -⟩ := fit_eq_same_iff.mp hfit
    rw [hours] at hcomplete
    cases hcomplete
  | completes =>
    obtain ⟨-, -, hcomplete, -⟩ := fit_eq_completes_iff.mp hfit
    rw [htheirs] at hcomplete
    cases hcomplete

/-- Whatever name a label has been given, a label that is held leads to some
dialogue. -/
theorem Traceable.exists_find? (htraceable : registry.Traceable)
    (hheld : registry.Holds key dialogue) :
    ∃ other another, registry.find? key = some (other, another) := by
  have hcurrent :
      registry.dialogues.contains (registry.current key) = true := by
    rw [contains_iff_exists_holds]
    cases hname : registry.completed.get? key with
    | none =>
      rw [current, hname, Option.getD_none]
      exact ⟨dialogue, hheld⟩
    | some target =>
      rw [current, hname, Option.getD_some]
      exact (htraceable.target hname).1
  obtain ⟨another, hother⟩ := contains_iff_exists_holds.mp hcurrent
  refine ⟨registry.current key, another, find?_eq_some_iff_resolve?.mpr
    ⟨resolve?_eq_some_iff.mpr ⟨hcurrent, Or.inl rfl⟩, hother⟩⟩

theorem Traceable.hears (htraceable : registry.Traceable)
    (hopponent : key.opponent ≠ registry.address)
    (hcomplete : key.isComplete = true) : registry.Hears key := by
  intro dialogue supply message hheld hprotocol hreference hcheck
  have hlabel := htraceable.keyed.label_eq hheld
  have hfound : registry.find?
      ⟨message.routing.reference, registry.address, key.opponent⟩
        = some (key, dialogue) := by
    rw [hreference, ← htraceable.self_eq hheld]
    exact (htraceable.find?_eq_some_iff
      (Label.isNamed_of_isComplete hcomplete)).mpr ⟨hheld, rfl⟩
  have hfit : fit dialogue message.routing.reference = .same := by
    rw [← hlabel] at hcomplete hreference
    exact fit_of_reference_eq hcomplete hreference
  have happend := Dialogue.append_eq_ok_iff.mpr ⟨hcheck, rfl⟩
  exact ⟨_, _,
    (receiveMessage_of_find? supply hprotocol hopponent hfound).trans
      (continueWith_of_same hfit happend),
    holds_hold_iff.mpr (Or.inl ⟨rfl, rfl⟩), Dialogue.history_of_append happend⟩

/-- A reference without an initiator half leads only to dialogues without one. -/
theorem Traceable.ignores (htraceable : registry.Traceable)
    (hheld : registry.Holds key dialogue)
    (hopponent : key.opponent ≠ registry.address) (hunnamed : ¬ key.IsNamed) :
    registry.Ignores key := by
  intro supply message hprotocol hreference
  obtain ⟨other, another, hfound⟩ := htraceable.exists_find? hheld
  obtain ⟨hother, hsame⟩ := htraceable.keyed.holds_of_find? hfound
  have hincomplete : ∀ {label : Label}, ¬ label.IsNamed →
      label.isComplete = false := by
    intro label hlabel
    exact Bool.eq_false_iff.mpr (mt Label.isNamed_of_isComplete hlabel)
  have hours : another.label.isComplete = false := by
    rw [htraceable.keyed.label_eq hother]
    exact hincomplete (mt (·.of_incomplete_eq hsame.symm) hunnamed)
  have hfit : fit another message.routing.reference = .mismatch := by
    rw [hreference]
    exact fit_of_not_isComplete hours (hincomplete hunnamed)
  have hmessage : registry.find?
      ⟨message.routing.reference, registry.address, key.opponent⟩
        = some (other, another) := by
    rw [hreference, ← htraceable.self_eq hheld]
    exact hfound
  refine ⟨another.label.reference, ?_⟩
  rw [receiveMessage_of_find? supply hprotocol hopponent hmessage, ← hreference]
  simp only [continueWith, hfit]

/-! ## Local replies -/

/-- A reply leaves every dialogue under its label, and takes nothing back. -/
theorem reply_develops {label : Label} {performative : String}
    {fields : List (String × Value)} {result : Except ProtocolError Message}
    {after : Registry} (hheld : registry.Holds key dialogue)
    (hreply : registry.reply label performative fields = (result, after)) :
    ∃ next, after.Holds key next ∧ Develops key dialogue key next := by
  cases result with
  | error cause =>
    obtain ⟨hdialogues, -⟩ := (reply_eq_error hreply).2.unchanged
    exact ⟨dialogue, by rwa [Holds, hdialogues], .refl key dialogue⟩
  | ok message =>
    obtain ⟨other, another, next, hfound, -, happend, rfl⟩ := reply_eq_ok hreply
    have hother := (find?_eq_some_iff_resolve?.mp hfound).2
    by_cases hkey : key = other
    · subst hkey
      cases hother.eq hheld
      exact ⟨next, holds_hold_iff.mpr (Or.inl ⟨rfl, rfl⟩),
        (grows_of_append key happend).develops⟩
    · exact ⟨dialogue, holds_hold_iff.mpr (Or.inr ⟨hkey, hheld⟩),
        .refl key dialogue⟩

theorem send_develops {supply : HalfSupply} {performative : String}
    {fields : List (String × Value)} {opponent : Address} {label : Label}
    {result : Except ProtocolError Message} {after : Registry}
    (hheld : registry.Holds key dialogue)
    (hsend : registry.send supply performative fields opponent (some label)
      = (result, after)) :
    ∃ next, after.Holds key next ∧ Develops key dialogue key next := by
  rcases send_cases hsend with ⟨hnone, -⟩ | ⟨named, -, ⟨-, hreply⟩ | hfail⟩
  · cases hnone
  · exact reply_develops hheld hreply
  · cases hfail
    exact ⟨dialogue, hheld, .refl key dialogue⟩

theorem perform_develops {operation : Operation}
    (hreply : operation.IsReply) (hheld : registry.Holds key dialogue) :
    ∃ next, (registry.perform operation).2.Holds key next
      ∧ Develops key dialogue key next := by
  cases operation with
  | reply label performative fields => exact reply_develops hheld rfl
  | send supply performative fields opponent label =>
    cases label with
    | none => exact hreply.elim
    | some label => exact send_develops hheld (Prod.eta _).symm
  | _ => exact hreply.elim

theorem run_develops {replies : List Operation}
    (hreplies : ∀ operation ∈ replies, operation.IsReply)
    (hheld : registry.Holds key dialogue) :
    ∃ current, (registry.run replies).Holds key current
      ∧ Develops key dialogue key current := by
  refine run_induction (motive := fun later => ∃ current,
    later.Holds key current ∧ Develops key dialogue key current)
    ⟨dialogue, hheld, .refl key dialogue⟩ ?_
  rintro later operation hmem ⟨current, hcurrent, hdevelops⟩
  obtain ⟨next, hnext, hfurther⟩ :=
    perform_develops (hreplies operation hmem) hcurrent
  exact ⟨next, hnext, hdevelops.trans hfurther⟩

/-! ## Openers -/

theorem isAdmitted_of_receiveMessage {after : Registry} {supply : HalfSupply}
    {opener : Message} {sender : Address} {label : Label}
    (hlabel : label = ⟨opener.routing.reference, registry.address, sender⟩)
    (hunknown : registry.find? label = none)
    (hadmitted : registry.receiveMessage supply opener sender
      = (.ok dialogue, after)) :
    sender ≠ registry.address ∧ after.Holds dialogue.label dialogue
      ∧ IsAdmitted label opener dialogue := by
  obtain ⟨-, hsender, _, rfl, ⟨key, prior, hfound, -⟩ | ⟨-, -, haccept⟩⟩ :=
    receiveMessage_eq_ok hadmitted
  · rw [← hlabel, hunknown] at hfound
    cases hfound
  obtain ⟨-, base, complete, -, hcomplete, happend, rfl⟩ :=
    acceptOpening_eq_ok haccept
  rw [← hlabel] at hcomplete
  have hkey : dialogue.label = complete := Dialogue.label_of_append happend
  refine ⟨hsender, ?_, Dialogue.role_of_append happend,
    Dialogue.history_of_append happend, ?_, ?_⟩
  · rw [hkey]
    exact holds_hold_iff.mpr (Or.inl ⟨rfl, rfl⟩)
  · rw [hkey, hcomplete]
    rfl
  · rw [hkey, hcomplete]
    constructor
    · exact Label.isNamed_of_isComplete
    · intro hnamed
      exact Reference.isComplete_iff.mpr ⟨hnamed, supply.next_ne_unassigned _⟩

end Hearing

/-- After any operations, with any arguments, let a message be accepted that
belongs to no dialogue that is held.  It opens one, whose label is complete exactly
if the message names an initiator half.  The dialogue stays under this label over
any number of local replies.  As long as it is held, whatever else was asked in
between, its opponent is heard if the label is complete, and is ignored if it is
not. -/
theorem admitted_hears (specification : Specification) (address : Address)
    (limits : Limits) (operations : List Operation) {supply : HalfSupply}
    {opener : Message} {sender : Address} {dialogue : Dialogue}
    {after : Registry}
    (hunknown : ((empty specification address limits).run operations).find?
      ⟨opener.routing.reference, address, sender⟩ = none)
    (hadmitted : ((empty specification address limits).run
      operations).receiveMessage supply opener sender = (.ok dialogue, after)) :
    let key := dialogue.label
    after.Holds key dialogue
      ∧ IsAdmitted ⟨opener.routing.reference, address, sender⟩ opener dialogue ∧
    (∀ replies, (∀ operation ∈ replies, operation.IsReply) →
      ∃ current, (after.run replies).Holds key current
        ∧ Develops key dialogue key current) ∧
    ∀ further,
      (key.isComplete = true → (after.run further).Hears key) ∧
      (key.isComplete = false → ∀ current,
        (after.run further).Holds key current →
          (after.run further).Ignores key) := by
  intro key
  let opening : Operation := .receiveMessage supply opener sender
  have hperform : (((empty specification address limits).run
      operations).perform opening).2 = after := by
    simp only [opening, perform, hadmitted]
    rfl
  have hafter : after.Traceable := by
    rw [← hperform]
    exact ((traceable_empty specification address limits).run operations).perform _
  have hbefore : ((empty specification address limits).run operations).address
    = address := address_run _ operations
  obtain ⟨hsender, hheld, hdialogue⟩ :=
    isAdmitted_of_receiveMessage (by rw [hbefore]) hunknown hadmitted
  refine ⟨hheld, hdialogue, fun replies hreplies => run_develops hreplies hheld,
    fun further => ?_⟩
  have hopponent : key.opponent ≠ (after.run further).address := by
    have hsame := (Label.incomplete_eq_iff.mp hdialogue.incomplete).2.2
    rw [address_run, ← hperform, (perform_effect _ opening).address_eq, hsame]
    exact hsender
  have hlater := hafter.run further
  refine ⟨hlater.hears hopponent, fun hincomplete current hcurrent => ?_⟩
  apply hlater.ignores hcurrent hopponent
  -- The other half was chosen, so the one that is open is the initiator's.
  intro hnamed
  have hcomplete := hdialogue.isComplete_iff.mpr
    (hnamed.of_incomplete_eq hdialogue.incomplete.symm)
  rw [hincomplete] at hcomplete
  cases hcomplete

/-- Bob calls for proposals under some reference. -/
def callUnder (reference : Reference) : Message :=
  ⟨Negotiation.specification.id, .opening reference, "cfp",
    (Negotiation.Act.cfp ⟨"books", {}⟩).toFields⟩

/-- What Alice makes of such a call. -/
def calledUnder (reference : Reference) : Outcome Dialogue :=
  (empty Negotiation.specification ⟨"alice"⟩ {}).receiveMessage
    (.preferring "a" Nat.one_pos) (callUnder reference) ⟨"bob"⟩

/-- Alice answers Bob's call with a proposal, and goes on hearing him. -/
theorem admitted_hears_called :
    let key : Label := ⟨⟨"b", "a"⟩, ⟨"alice"⟩, ⟨"bob"⟩⟩
    let proposal : Operation := .reply key "propose"
      (Negotiation.Act.propose ⟨0x3ff0000000000000⟩ [] (.text "cash")).toFields
    let called := calledUnder (.opened "b")
    let answered := called.2.run [proposal]
    (empty Negotiation.specification ⟨"alice"⟩ {}).find?
        ⟨.opened "b", ⟨"alice"⟩, ⟨"bob"⟩⟩ = none
      ∧ called.1.map Dialogue.label = .ok key
      ∧ (called.2.perform proposal).1.isOk = true
      ∧ (∃ current, answered.Holds key current) ∧ answered.Hears key := by
  intro key proposal called answered
  have hunknown : (empty Negotiation.specification ⟨"alice"⟩ {}).find?
      ⟨(callUnder (.opened "b")).routing.reference, ⟨"alice"⟩, ⟨"bob"⟩⟩
        = none := by decide +kernel
  have hlabel : called.1.map Dialogue.label = .ok key := by decide +kernel
  have hok : called.1.isOk = true := by decide +kernel
  obtain ⟨dialogue, hadmitted⟩ := exists_of_isOk hok
  have hkey : dialogue.label = key := by
    rw [hadmitted] at hlabel
    exact Except.ok.inj hlabel
  obtain ⟨-, -, hreplies, hfurther⟩ := admitted_hears Negotiation.specification
    ⟨"alice"⟩ {} [] hunknown (Prod.ext hadmitted rfl)
  rw [hkey] at hreplies hfurther
  obtain ⟨current, hcurrent, -⟩ := hreplies [proposal] (by simp [proposal,
    Operation.IsReply])
  exact ⟨hunknown, hlabel, by decide +kernel, ⟨current, hcurrent⟩,
    (hfurther [proposal]).1 (by decide)⟩

/-- Bob calls without a half of his own.  Alice takes up the call and chooses her
half, and what Bob says next under the reference of her label, which her dialogue
would take, she refuses. -/
theorem not_hears_nameless :
    let called := calledUnder (.opened unassigned)
    ∃ dialogue retreat,
      Message.build Negotiation.specification "cfp"
          (Negotiation.Act.cfp ⟨"books", {}⟩).toFields
          (.opening (.opened unassigned))
        = .ok (callUnder (.opened unassigned))
      ∧ (empty Negotiation.specification ⟨"alice"⟩ {}).find?
          ⟨.opened unassigned, ⟨"alice"⟩, ⟨"bob"⟩⟩ = none
      ∧ called.1 = .ok dialogue
      ∧ dialogue.label.isComplete = false
      ∧ Message.build Negotiation.specification "decline"
          [("reason", .absent)] ⟨dialogue.label.reference, 2, 1⟩ = .ok retreat
      ∧ dialogue.check Negotiation.specification retreat .initiator = .ok ()
      ∧ (called.2.receiveMessage (.preferring "b" Nat.one_pos) retreat
          ⟨"bob"⟩).1
        = .error (.dialogue (.referenceMismatch dialogue.label.reference
          dialogue.label.reference)) := by
  intro called
  refine ⟨_, _, rfl, by decide +kernel, rfl, by decide +kernel, rfl, rfl, rfl⟩

end Colloquy.Registry
