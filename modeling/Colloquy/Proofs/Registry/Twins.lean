import Colloquy.Proofs.Registry.Completion

/-!
# Registries in step

Two registries whose dialogues come in pairs, each pair being the two sides of
one conversation.  What the one sends the other one accepts, although sender and
recipient find their dialogues in different ways: the sender may know less of
the reference than the recipient does, or the recipient less than the sender.
The labels of a pair are mirrored once the responder has sent something.
-/

namespace Colloquy

namespace Dialogue

theorem lastSentBy?_eq_none_iff {dialogue : Dialogue} {role : Role} :
    dialogue.lastSentBy? role = none ↔
      ∀ message, (role, message) ∉ dialogue.history := by
  simp only [lastSentBy?, List.getLast?_eq_none_iff, List.map_eq_nil_iff,
    List.filter_eq_nil_iff, decide_eq_true_eq, Prod.forall]
  constructor
  · intro hnone message hmem
    exact hnone role message hmem rfl
  · rintro hnone sender message hmem rfl
    exact hnone message hmem

end Dialogue

namespace Registry

/-- An operation that sends something to an agent, if it succeeds. -/
def Operation.SendsTo (address : Address) : Operation → Prop
  | .openWith _ _ _ opponent => opponent = address
  | .send _ _ _ opponent _ => opponent = address
  | .reply label _ _ => label.opponent = address
  | _ => False

/-- Two dialogues that are the two sides of one conversation. -/
structure Twins (key : Label) (dialogue : Dialogue) (other : Label)
    (another : Dialogue) : Prop where
  incomplete : other.incomplete = key.mirror.incomplete
  role : another.role = dialogue.role.counterpart
  history : another.history = dialogue.history
  state : another.state = dialogue.state
  /-- The labels are mirrored as soon as the responder has sent something. -/
  mirror : (∃ message, (Role.responder, message) ∈ dialogue.history) →
    other = key.mirror

/-- Every dialogue of one registry has a twin in the other one, which is under the
same specification. -/
structure InStepWith (mine theirs : Registry) : Prop where
  specification_eq : theirs.specification = mine.specification
  orderly : mine.Orderly
  paired : ∀ {key dialogue}, mine.Holds key dialogue →
    ∃ other another, theirs.Holds other another
      ∧ Twins key dialogue other another

/-- One dialogue was added or changed, and the dialogues of all other
conversations are as before. -/
structure Updates (before after : Registry) (key : Label)
    (dialogue : Dialogue) : Prop where
  held : after.Holds key dialogue
  others : ∀ {other another}, other.incomplete ≠ key.incomplete →
    (after.Holds other another ↔ before.Holds other another)

section Pairs

variable {mine theirs after before : Registry} {key other complete : Label}
  {dialogue another next final : Dialogue} {message : Message}

/-! ## Twins -/

theorem Twins.symm (htwins : Twins key dialogue other another) :
    Twins other another key dialogue where
  incomplete := (congrArg Label.mirror htwins.incomplete).symm
  role := by
    rw [htwins.role, Role.counterpart_counterpart]
  history := htwins.history.symm
  state := htwins.state.symm
  mirror := by
    rw [htwins.history]
    intro hspoke
    exact (congrArg Label.mirror (htwins.mirror hspoke)).symm

theorem Twins.initiator_eq (htwins : Twins key dialogue other another) :
    other.reference.initiator = key.reference.initiator :=
  (Label.incomplete_eq_iff.mp htwins.incomplete).1

/-- Under the reference of its twin a label is the mirror. -/
theorem Twins.withReference_eq (htwins : Twins key dialogue other another) :
    other.withReference key.reference = key.mirror := by
  obtain ⟨-, hself, hopponent⟩ := Label.incomplete_eq_iff.mp htwins.incomplete
  exact Label.ext rfl hself hopponent

theorem Twins.check {specification : Specification}
    (htwins : Twins key dialogue other another)
    (hcheck : dialogue.check specification message dialogue.role = .ok ()) :
    another.check specification message another.role.counterpart = .ok () := by
  rw [htwins.role, Role.counterpart_counterpart]
  exact (Dialogue.check_eq_ok_iff_of_eq htwins.history htwins.state).mpr hcheck

/-- Twins stay twins when both take the same message. -/
theorem Twins.append {specification : Specification}
    (htwins : Twins key dialogue other another)
    (hmirror : dialogue.role = .responder → other = key.mirror)
    (happend : dialogue.append specification message dialogue.role = .ok next)
    (hfinal : another.append specification message another.role.counterpart
      = .ok final) : Twins key next other final := by
  have hhistory : final.history = next.history := by
    rw [Dialogue.history_of_append hfinal, Dialogue.history_of_append happend,
      htwins.history, htwins.role, Role.counterpart_counterpart]
  refine ⟨htwins.incomplete, ?role, hhistory, ?state, ?mirror⟩
  case role =>
    rw [Dialogue.role_of_append hfinal, Dialogue.role_of_append happend,
      htwins.role]
  case state =>
    rw [Dialogue.state_of_append hfinal, Dialogue.state_of_append happend,
      hhistory]
  case mirror =>
    rintro ⟨spoken, hmem⟩
    rcases (Dialogue.mem_history_of_append happend).mp hmem with hold | hlast
    · exact htwins.mirror ⟨spoken, hold⟩
    · exact hmirror (congrArg Prod.fst hlast).symm

theorem Twins.relabel (htwins : Twins key dialogue other another)
    (hcomplete : complete = key.mirror) :
    Twins key dialogue complete (another.relabel complete) where
  incomplete := congrArg Label.incomplete hcomplete
  role := htwins.role
  history := htwins.history
  state := htwins.state
  mirror _ := hcomplete

/-- The reference under which one twin speaks fits the other one.  A responder
speaks under a complete reference, which the initiator has already or completes
its own with; an initiator speaks under the reference it opened until it has
heard the responder, which has sent nothing before. -/
theorem Twins.fit_cases (htwins : Twins key dialogue other another)
    (hmine : mine.Orderly) (hheld : mine.Holds key dialogue)
    (htheirs : theirs.Orderly) (hother : theirs.Holds other another) :
    fit another key.reference = .same
        ∧ (dialogue.role = .responder → other = key.mirror)
      ∨ fit another key.reference = .completes := by
  have hlabel := htheirs.indexed.label_eq hother
  have hanother := htwins.role
  cases hrole : dialogue.role with
  | responder =>
    rw [hrole, Role.counterpart] at hanother
    have hcomplete := hmine.sound.complete hheld hrole
    cases hopen : other.isComplete with
    | true =>
      -- The initiator has heard the responder before, under this reference.
      obtain ⟨spoken, hmem⟩ :=
        ((htheirs.matched hother).answered hanother).mp hopen
      rw [hanother, htwins.history] at hmem
      have hmirror := htwins.mirror ⟨spoken, hmem⟩
      refine Or.inl ⟨fit_eq_same_iff.mpr ?_, fun _ => hmirror⟩
      rw [hlabel, hmirror]
      exact ⟨hcomplete, Or.inl rfl⟩
    | false =>
      right
      rw [fit_eq_completes_iff, hlabel]
      exact ⟨hopen, hanother, hcomplete, htwins.initiator_eq.symm⟩
  | initiator =>
    rw [hrole, Role.counterpart] at hanother
    refine Or.inl ⟨fit_eq_same_iff.mpr ?_, Role.noConfusion⟩
    rw [hlabel]
    refine ⟨htheirs.sound.complete hother hanother, ?_⟩
    have hanswered := (hmine.matched hheld).answered hrole
    cases hopen : key.isComplete with
    | true =>
      obtain ⟨spoken, hmem⟩ := hanswered.mp hopen
      rw [hrole] at hmem
      rw [htwins.mirror ⟨spoken, hmem⟩]
      exact Or.inl rfl
    | false =>
      -- The responder knows both halves, but has not used its own yet.
      refine Or.inr ⟨hanother, ?_, ?_⟩
      · rw [Reference.opening_of_not_isComplete hopen
          (hmine.indexed.initiator_ne hheld)]
        exact congrArg Reference.opened htwins.initiator_eq.symm
      · apply Dialogue.lastSentBy?_eq_none_iff.mpr
        intro spoken hmem
        rw [hanother, htwins.history] at hmem
        have hheard : dialogue.HasHeard := ⟨spoken, by rw [hrole]; exact hmem⟩
        rw [hanswered.mpr hheard] at hopen
        cases hopen

/-! ## One message -/

theorem updates_of_holds_iff
    (hholds : ∀ {other another}, after.Holds other another ↔
      other = key ∧ another = dialogue
        ∨ other ≠ key ∧ before.Holds other another) :
    Updates before after key dialogue where
  held := hholds.mpr (Or.inl ⟨rfl, rfl⟩)
  others := by
    intro other another hother
    have hne : other ≠ key := fun heq => hother (congrArg Label.incomplete heq)
    rw [hholds]
    simp [hne]

/-- A dialogue that moves to a label of the same conversation is updated. -/
theorem updates_rekey
    (hsame : complete.incomplete = dialogue.label.incomplete) (stats : Stats) :
    Updates before { (before.rekey dialogue complete).hold complete next with
      stats } complete next where
  held := holds_hold_iff.mpr (Or.inl ⟨rfl, rfl⟩)
  others := by
    intro other another hother
    have hcomplete : other ≠ complete :=
      fun heq => hother (congrArg Label.incomplete heq)
    have hkey : other ≠ dialogue.label := by
      rintro rfl
      exact hother hsame.symm
    have hmoved : (before.rekey dialogue complete).Holds other another ↔
        before.Holds other another := by
      rw [holds_rekey_iff]
      simp [hcomplete, hkey]
    refine holds_hold_iff.trans ?_
    rw [hmoved]
    simp [hcomplete]

/-- Twins that are updated together leave the registries in step. -/
theorem InStepWith.updates {mineAfter theirsAfter : Registry}
    (hmine : mine.InStepWith theirs)
    (hspecification : theirsAfter.specification = mineAfter.specification)
    (horderly : mineAfter.Orderly)
    (hsent : Updates mine mineAfter key dialogue)
    (htaken : Updates theirs theirsAfter other another)
    (htwins : Twins key dialogue other another) :
    mineAfter.InStepWith theirsAfter where
  specification_eq := hspecification
  orderly := horderly
  paired := by
    intro label held hheld
    by_cases hsame : label.incomplete = key.incomplete
    · have hlabel :=
        eq_of_incomplete_eq horderly.indexed hheld hsent.held hsame
      subst hlabel
      obtain rfl := hheld.eq hsent.held
      exact ⟨other, another, htaken.held, htwins⟩
    · obtain ⟨counter, kept, hcounter, hkept⟩ :=
        hmine.paired ((hsent.others hsame).mp hheld)
      refine ⟨counter, kept, (htaken.others ?_).mpr hcounter, hkept⟩
      rw [hkept.incomplete, htwins.incomplete]
      intro hmirror
      exact hsame (congrArg Label.mirror hmirror)

theorem InStepWith.idle {mineAfter theirsAfter : Registry}
    (hmine : mine.InStepWith theirs)
    (hspecification : theirsAfter.specification = mineAfter.specification)
    (horderly : mineAfter.Orderly)
    (hkept : mineAfter.dialogues = mine.dialogues)
    (hkeptTheirs : theirsAfter.dialogues = theirs.dialogues) :
    mineAfter.InStepWith theirsAfter where
  specification_eq := hspecification
  orderly := horderly
  paired := by
    intro key dialogue hheld
    rw [Holds, hkept] at hheld
    obtain ⟨other, another, hother, htwins⟩ := hmine.paired hheld
    refine ⟨other, another, ?_, htwins⟩
    rw [Holds, hkeptTheirs]
    exact hother

/-- A message stands at the end of the dialogue in which it was sent, was
accepted, and stands at the end of the twin. -/
structure Delivered (mine after theirs : Registry) (message : Message)
    (result : Outcome Dialogue) (key : Label) (dialogue : Dialogue)
    (other : Label) (another : Dialogue) : Prop where
  sent : Updates mine after key dialogue
  accepted : result.1 = .ok another
  taken : Updates theirs result.2 other another
  twins : Twins key dialogue other another
  last : dialogue.history.getLast? = some (dialogue.role, message)

/-- What is said in a dialogue is accepted in its twin. -/
theorem Twins.delivered (htwins : Twins key dialogue other another)
    (hmine : mine.InStepWith theirs) (hheld : mine.Holds key dialogue)
    (htheirs : theirs.Orderly) (hother : theirs.Holds other another)
    (hprotocol : message.protocol = mine.specification.id)
    (hreference : message.routing.reference = key.reference)
    (happend : dialogue.append mine.specification message dialogue.role
      = .ok next) (stats : Stats) (supply : HalfSupply) :
    ∃ later final, Delivered mine { mine.hold key next with stats } theirs
      message (theirs.receiveMessage supply message mine.address) key next
      later final := by
  have hindexed := hmine.orderly.indexed
  have hopponent : key.opponent = theirs.address :=
    (Label.incomplete_eq_iff.mp htwins.incomplete).2.1.symm.trans
      (htheirs.indexed.self_eq hother)
  have hlookup : ⟨message.routing.reference, theirs.address, mine.address⟩
      = key.mirror := by
    rw [hreference, ← hopponent, ← hindexed.self_eq hheld]
    rfl
  have hsender : mine.address ≠ theirs.address := by
    rw [← hopponent]
    exact (hindexed.opponent_ne hheld).symm
  have hfound : theirs.find?
      ⟨message.routing.reference, theirs.address, mine.address⟩
        = some (other, another) := by
    rw [hlookup]
    exact (find?_eq_some_iff htheirs.indexed).mpr ⟨hother, htwins.incomplete⟩
  rw [← hmine.specification_eq] at hprotocol happend
  rw [receiveMessage_of_find? supply hprotocol hsender hfound]
  have hcheck := htwins.check (Dialogue.check_of_append happend)
  have hlast := Dialogue.getLast?_of_append happend
  rw [← Dialogue.role_of_append happend] at hlast
  have hfits := htwins.fit_cases hmine.orderly hheld htheirs hother
  rw [← hreference] at hfits
  rcases hfits with ⟨hfit, hmirror⟩ | hfit
  · have hfinal := Dialogue.append_eq_ok_iff.mpr ⟨hcheck, rfl⟩
    rw [continueWith_of_same hfit hfinal]
    exact ⟨other, _, updates_of_holds_iff holds_hold_iff, rfl,
      updates_of_holds_iff holds_hold_iff,
      htwins.append hmirror happend hfinal, hlast⟩
  · have hlabel := htheirs.indexed.label_eq hother
    have hcomplete : another.label.withReference message.routing.reference
        = key.mirror := by
      rw [hlabel, hreference, htwins.withReference_eq]
    have hfree := htheirs.indexed.contains_completed hother hfit
    obtain ⟨final, hfinal, hcontinue⟩ :=
      continueWith_of_completes other hfit rfl hcheck hfree
    rw [hcontinue]
    have hsame : (another.label.withReference
        message.routing.reference).incomplete = another.label.incomplete := by
      rw [hcomplete, hlabel, htwins.incomplete]
    exact ⟨_, final, updates_of_holds_iff holds_hold_iff, rfl,
      updates_rekey hsame _,
      (htwins.relabel hcomplete).append (fun _ => hcomplete) happend hfinal,
      hlast⟩

/-- Dialogues in which nothing has been said are twins. -/
theorem twins_start (hincomplete : other.incomplete = key.mirror.incomplete) :
    Twins key (.start key .initiator) other (.start other .responder) where
  incomplete := hincomplete
  role := rfl
  history := rfl
  state := rfl
  mirror := fun ⟨_, hmem⟩ => absurd hmem List.not_mem_nil

/-- An opener is admitted: the half is fresh for the sender, and the recipient
knows no other conversations than the sender does. -/
theorem InStepWith.delivered_opener (htheirs : theirs.InStepWith mine)
    (hroom : ¬ theirs.IsFull) (hopponent : theirs.address ≠ mine.address)
    {half : String} (hfresh : half ∉ mine.usedHalves)
    (hkey : key = ⟨.opened half, mine.address, theirs.address⟩)
    (hprotocol : message.protocol = mine.specification.id)
    (hrouting : message.routing = (Dialogue.start key .initiator).nextRouting)
    (happend : (Dialogue.start key .initiator).append mine.specification message
      .initiator = .ok next) (stats : Stats) (supply : HalfSupply) :
    ∃ later final, Delivered mine { mine.hold key next with stats } theirs
      message (theirs.receiveMessage supply message mine.address) key next
      later final := by
  have hlookup : ⟨message.routing.reference, theirs.address, mine.address⟩
      = key.mirror := by
    rw [hrouting, hkey]
    rfl
  have hhalf : key.reference.initiator = half := by
    rw [hkey]
    rfl
  have hincomplete : key.mirror.isComplete = false := by
    rw [hkey]
    exact Reference.isComplete_opened half
  have hreference : message.routing.reference.isComplete = false := by
    rw [hrouting]
    exact hincomplete
  have hunknown : theirs.find?
      ⟨message.routing.reference, theirs.address, mine.address⟩ = none := by
    rw [hlookup, find?_eq_none_iff htheirs.orderly.indexed]
    intro other another hother hsame
    -- Its twin would use the half that is fresh for the sender.
    obtain ⟨counter, kept, hcounter, htwins⟩ := htheirs.paired hother
    apply incomplete_ne_of_fresh hfresh hhalf hcounter
    calc
      counter.incomplete = other.mirror.incomplete := htwins.incomplete
      _ = key.incomplete := congrArg Label.mirror hsame
  rw [htheirs.specification_eq] at hprotocol happend
  have hadmits : theirs.Admits message mine.address := by
    refine ⟨hprotocol, hopponent.symm, hunknown, ?_, hreference⟩
    rw [Message.isOpener, hrouting]
    rfl
  rw [receiveMessage_of_admits supply hadmits, hlookup]
  let complete := key.mirror.withReference
    (key.mirror.reference.withResponder (supply.next theirs.usedHalves))
  have htwins : Twins key (.start key .initiator) complete
      (.start complete .responder) := twins_start rfl
  have hcheck := htwins.check (Dialogue.check_of_append happend)
  have hfinal := Dialogue.append_eq_ok_iff.mpr ⟨hcheck, rfl⟩
  have hlast := Dialogue.getLast?_of_append happend
  have hrole : next.role = .initiator := Dialogue.role_of_append happend
  rw [← hrole] at hlast
  obtain ⟨stats, haccept⟩ :=
    acceptOpening_of_append_ok hincomplete hroom rfl hfinal
  rw [haccept]
  exact ⟨complete, _, updates_of_holds_iff holds_hold_iff, rfl,
    updates_of_holds_iff holds_hold_iff, htwins.append nofun happend hfinal,
    hlast⟩

/-- What one party sends the other one accepts. -/
theorem Effect.delivered {opponent : Address}
    (heffect : Effect mine (.sent opponent message) after)
    (hmine : mine.InStepWith theirs) (htheirs : theirs.InStepWith mine)
    (hroom : ¬ mine.IsFull) (hroomTheirs : ¬ theirs.IsFull)
    (hopponent : opponent = theirs.address) (supply : HalfSupply) :
    ∃ key dialogue other another, Delivered mine after theirs message
      (theirs.receiveMessage supply message mine.address) key dialogue other
      another := by
  cases heffect with
  | @opened base half _ _ _ label _ dialogue stats hother hmade hfresh hhalf
      hlabel hbuild happend =>
    rw [makeRoom_of_not_isFull hroom] at hmade
    cases hmade
    rw [hopponent] at hother hlabel
    exact ⟨label, dialogue, htheirs.delivered_opener hroomTheirs hother hfresh
      hlabel (Message.protocol_of_build hbuild)
      (Message.routing_of_build hbuild) happend stats supply⟩
  | @spoke label key dialogue next _ _ _ stats hfound hbuild happend =>
    obtain ⟨hheld, hsame⟩ :=
      (find?_eq_some_iff hmine.orderly.indexed).mp hfound
    obtain ⟨other, another, hother, htwins⟩ := hmine.paired hheld
    have hreference : message.routing.reference = key.reference := by
      rw [Message.routing_of_build hbuild,
        ← hmine.orderly.indexed.label_eq hheld]
      rfl
    exact ⟨key, next, htwins.delivered hmine hheld htheirs.orderly hother
      (Message.protocol_of_build hbuild) hreference happend stats supply⟩

/-- What is delivered names the initiator's half. -/
theorem Delivered.initiator_ne {result : Outcome Dialogue}
    (hdelivered : Delivered mine after theirs message result key dialogue other
      another) (horderly : after.Orderly) :
    message.routing.reference.initiator ≠ unassigned := by
  have hheld := hdelivered.sent.held
  have hmem := List.mem_of_getLast? hdelivered.last
  have hform := (horderly.matched hheld).references _ hmem
  rw [hform.initiator_eq]
  exact horderly.indexed.initiator_ne hheld

/-! ## What a send does -/

theorem Operation.SendsTo.isAdmissible {operation : Operation}
    {address : Address} (hsends : operation.SendsTo address) :
    operation.IsAdmissible := by
  cases operation with
  | receiveMessage => exact hsends.elim
  | _ => trivial

/-- A send fails, or its message goes to the agent it was meant for. -/
theorem perform_sends (registry : Registry) {operation : Operation}
    {address : Address} (hsends : operation.SendsTo address) :
    let result := (registry.perform operation).1
    (∃ cause, result = .error cause ∧ operation.event result = .silent)
      ∨ ∃ message, operation.event result = .sent address message := by
  cases operation with
  | openWith supply performative fields opponent =>
    cases hsends
    rw [perform]
    rcases registry.openWith supply performative fields address
      with ⟨cause | ⟨label, message⟩, after⟩
    · exact Or.inl ⟨cause, rfl, rfl⟩
    · exact Or.inr ⟨message, rfl⟩
  | send supply performative fields opponent label =>
    cases hsends
    rw [perform]
    rcases registry.send supply performative fields address label
      with ⟨cause | message, after⟩
    · exact Or.inl ⟨cause, rfl, rfl⟩
    · exact Or.inr ⟨message, rfl⟩
  | reply label performative fields =>
    cases hsends
    rw [perform]
    rcases registry.reply label performative fields
      with ⟨cause | message, after⟩
    · exact Or.inl ⟨cause, rfl, rfl⟩
    · exact Or.inr ⟨message, rfl⟩
  | _ => exact hsends.elim

/-- Where there is room, a failure leaves the dialogues alone. -/
theorem dialogues_of_error (hroom : ¬ mine.IsFull) {operation : Operation}
    {cause : ProtocolError} (herror : (mine.perform operation).1 = .error cause) :
    (mine.perform operation).2.dialogues = mine.dialogues := by
  obtain ⟨-, base, hvacated, hrefused⟩ := perform_eq_error herror
  rw [hvacated.eq_of_not fun hneeds => hroom hneeds.2] at hrefused
  exact hrefused.unchanged.1

end Pairs

end Registry

end Colloquy
