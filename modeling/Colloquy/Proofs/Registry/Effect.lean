import Colloquy.Proofs.Registry.Outcome

/-!
# Effects of registry operations

Whatever is asked with whatever arguments, a registry does one of eight things
to its dialogues, each under its own conditions.  Every invariant of a registry
is checked against these eight and never against the operations themselves.
-/

namespace Colloquy.Registry

/-- What happened to the dialogues of a registry, and what was exchanged. -/
inductive Effect (before : Registry) : Event → Registry → Prop where
  /-- At most something is counted. -/
  | counted (stats : Stats) : Effect before .silent { before with stats }
  /-- The ended dialogues are dropped. -/
  | cleared (stats : Stats) :
      Effect before .silent { before.evictEnded with stats }
  /-- A dialogue is opened under a fresh half. -/
  | opened {base : Registry} {half performative : String}
      {fields : List (String × Value)} {opponent : Address} {label : Label}
      {message : Message} {dialogue : Dialogue} (stats : Stats)
      (hopponent : opponent ≠ before.address)
      (hroom : before.makeRoom = (.ok (), base))
      (hfresh : half ∉ base.usedHalves) (hhalf : half ≠ unassigned)
      (hlabel : label = ⟨.opened half, before.address, opponent⟩)
      (hbuild : Message.build before.specification performative fields
        (Dialogue.start label .initiator).nextRouting = .ok message)
      (happend : (Dialogue.start label .initiator).append
        before.specification message .initiator = .ok dialogue) :
      Effect before (.sent opponent message)
        { base.hold label dialogue with stats }
  /-- An opener is admitted, under a reference completed by a fresh half. -/
  | admitted {base : Registry} {half : String} {sender : Address}
      {label complete : Label} {message : Message} {dialogue : Dialogue}
      (stats : Stats) (hsender : sender ≠ before.address)
      (hlabel : label = ⟨message.routing.reference, before.address, sender⟩)
      (hunknown : before.find? label = none)
      (hopener : message.isOpener = true)
      (hincomplete : label.isComplete = false)
      (hroom : before.makeRoom = (.ok (), base))
      (hfresh : half ∉ base.usedHalves) (hhalf : half ≠ unassigned)
      (hcomplete :
        complete = label.withReference (label.reference.withResponder half))
      (happend : (Dialogue.start complete .responder).append
        before.specification message .initiator = .ok dialogue) :
      Effect before (.heard sender message)
        { (base.hold complete dialogue).addName label complete with stats }
  /-- The next local move is made in a dialogue. -/
  | spoke {label key : Label} {dialogue next : Dialogue}
      {performative : String} {fields : List (String × Value)}
      {message : Message} (stats : Stats)
      (hfound : before.find? label = some (key, dialogue))
      (hbuild : Message.build before.specification performative fields
        dialogue.nextRouting = .ok message)
      (happend : dialogue.append before.specification message dialogue.role
        = .ok next) :
      Effect before (.sent label.opponent message)
        { before.hold key next with stats }
  /-- The opponent's next move arrives under the reference of a dialogue. -/
  | heard {sender : Address} {label key : Label} {dialogue next : Dialogue}
      {message : Message} (stats : Stats) (hsender : sender ≠ before.address)
      (hlabel : label = ⟨message.routing.reference, before.address, sender⟩)
      (hfound : before.find? label = some (key, dialogue))
      (hfit : fit dialogue message.routing.reference = .same)
      (happend : dialogue.append before.specification message
        dialogue.role.counterpart = .ok next) :
      Effect before (.heard sender message) { before.hold key next with stats }
  /-- The opponent's first move arrives and completes the reference. -/
  | completed {sender : Address} {label key complete : Label}
      {dialogue next : Dialogue} {message : Message} (stats : Stats)
      (hsender : sender ≠ before.address)
      (hlabel : label = ⟨message.routing.reference, before.address, sender⟩)
      (hfound : before.find? label = some (key, dialogue))
      (hfit : fit dialogue message.routing.reference = .completes)
      (hcomplete :
        complete = dialogue.label.withReference message.routing.reference)
      (hfree : before.dialogues.contains complete = false)
      (happend : (dialogue.relabel complete).append before.specification
        message dialogue.role.counterpart = .ok next) :
      Effect before (.heard sender message)
        { (before.rekey dialogue complete).hold complete next with stats }
  /-- A dialogue is ended early. -/
  | finished {label key : Label} {dialogue next : Dialogue}
      {outcome : EndState} (stats : Stats)
      (hfound : before.find? label = some (key, dialogue))
      (hfinish : dialogue.finish before.specification outcome = .ok next) :
      Effect before .silent { before.hold key next with stats }

/-! ## What the operations do -/

section Operations

variable {registry after base : Registry}

theorem effect_of_refused (hrefused : Refused registry after) :
    Effect registry .silent after := by
  obtain ⟨stats, rfl⟩ := hrefused.exists_stats
  exact .counted stats

/-- A failure at most counts, and at most drops the ended dialogues. -/
theorem effect_of_vacated {allowed : Prop}
    (hvacated : Vacated registry allowed base) (hrefused : Refused base after) :
    Effect registry .silent after := by
  obtain ⟨stats, rfl⟩ := hrefused.exists_stats
  cases hvacated with
  | same => exact .counted stats
  | cleared hallowed => exact .cleared stats

theorem openWith_effect {supply : HalfSupply} {performative : String}
    {fields : List (String × Value)} {opponent : Address}
    {result : Except ProtocolError (Label × Message)}
    (hopen : registry.openWith supply performative fields opponent
      = (result, after)) :
    ((∃ cause, result = .error cause) ∧ Effect registry .silent after)
      ∨ ∃ label message, result = .ok (label, message)
        ∧ Effect registry (.sent opponent message) after := by
  rcases result with cause | ⟨label, message⟩
  · left
    obtain ⟨-, base, hcleared, hrefused⟩ := openWith_eq_error hopen
    exact ⟨⟨cause, rfl⟩, effect_of_vacated hcleared.vacated hrefused⟩
  · right
    obtain ⟨hopponent, base, dialogue, hroom, hlabel, hbuild, happend, rfl⟩ :=
      openWith_eq_ok hopen
    exact ⟨label, message, rfl, .opened _ hopponent hroom
      (supply.next_not_mem _) (supply.next_ne_unassigned _) hlabel hbuild
      happend⟩

theorem reply_effect {label : Label} {performative : String}
    {fields : List (String × Value)} {result : Except ProtocolError Message}
    (hreply : registry.reply label performative fields = (result, after)) :
    ((∃ cause, result = .error cause) ∧ Effect registry .silent after)
      ∨ ∃ message, result = .ok message
        ∧ Effect registry (.sent label.opponent message) after := by
  rcases result with cause | message
  · left
    exact ⟨⟨cause, rfl⟩, effect_of_refused (reply_eq_error hreply).2⟩
  · right
    obtain ⟨key, dialogue, next, hfound, hbuild, happend, rfl⟩ :=
      reply_eq_ok hreply
    exact ⟨message, rfl, .spoke _ hfound hbuild happend⟩

theorem send_effect {supply : HalfSupply} {performative : String}
    {fields : List (String × Value)} {opponent : Address}
    {label : Option Label} {result : Except ProtocolError Message}
    (hsend : registry.send supply performative fields opponent label
      = (result, after)) :
    ((∃ cause, result = .error cause) ∧ Effect registry .silent after)
      ∨ ∃ message, result = .ok message
        ∧ Effect registry (.sent opponent message) after := by
  rcases send_cases hsend with
    ⟨-, opening, hopen, rfl⟩ | ⟨named, -, ⟨rfl, hreply⟩ | hfail⟩
  · rcases openWith_effect hopen with
      ⟨⟨cause, rfl⟩, heffect⟩ | ⟨label, message, rfl, heffect⟩
    · exact Or.inl ⟨⟨cause, rfl⟩, heffect⟩
    · exact Or.inr ⟨message, rfl, heffect⟩
  · exact reply_effect hreply
  · cases hfail
    exact Or.inl ⟨⟨_, rfl⟩, .counted registry.stats⟩

theorem receiveMessage_effect {supply : HalfSupply} {message : Message}
    {sender : Address} {result : Except ProtocolError Dialogue}
    (hreceive : registry.receiveMessage supply message sender
      = (result, after)) :
    ((∃ cause, result = .error cause) ∧ Effect registry .silent after)
      ∨ ∃ dialogue, result = .ok dialogue
        ∧ Effect registry (.heard sender message) after := by
  rcases result with cause | dialogue
  · left
    obtain ⟨-, base, hcleared, hrefused⟩ := receiveMessage_eq_error hreceive
    exact ⟨⟨cause, rfl⟩, effect_of_vacated hcleared.vacated hrefused⟩
  · right
    refine ⟨dialogue, rfl, ?_⟩
    obtain ⟨-, hsender, label, hlabel, ⟨key, prior, hfound, hcontinue⟩
      | ⟨hunknown, hopener, haccept⟩⟩ := receiveMessage_eq_ok hreceive
    · obtain ⟨hfit, happend, rfl⟩
        | ⟨complete, hfit, hcomplete, hfree, happend, rfl⟩ :=
        continueWith_eq_ok hcontinue
      · exact .heard _ hsender hlabel hfound hfit happend
      · exact .completed _ hsender hlabel hfound hfit hcomplete hfree happend
    · obtain ⟨hincomplete, base, complete, hroom, hcomplete, happend, rfl⟩ :=
        acceptOpening_eq_ok haccept
      exact .admitted _ hsender hlabel hunknown hopener hincomplete hroom
        (supply.next_not_mem _) (supply.next_ne_unassigned _) hcomplete happend

theorem receive_effect {supply : HalfSupply} {payload : Bytes}
    {sender : Address} {result : Except ProtocolError (Dialogue × Message)}
    (hreceive : registry.receive supply payload sender = (result, after)) :
    ((∃ cause, result = .error cause) ∧ Effect registry .silent after)
      ∨ ∃ dialogue message, result = .ok (dialogue, message)
        ∧ Message.decode registry.specification registry.limits.payload payload
          = .ok message
        ∧ Effect registry (.heard sender message) after := by
  rcases result with cause | ⟨dialogue, message⟩
  · left
    refine ⟨⟨cause, rfl⟩, ?_⟩
    rcases receive_eq_error hreceive with
      ⟨-, -, hrefused⟩ | ⟨message, -, hmessage⟩
    · exact effect_of_refused hrefused
    · obtain ⟨-, base, hcleared, hrefused⟩ := receiveMessage_eq_error hmessage
      exact effect_of_vacated hcleared.vacated hrefused
  · right
    obtain ⟨hdecode, hmessage⟩ := receive_eq_ok hreceive
    rcases receiveMessage_effect hmessage with
      ⟨⟨_, herror⟩, -⟩ | ⟨_, -, heffect⟩
    · cases herror
    · exact ⟨dialogue, message, rfl, hdecode, heffect⟩

theorem endDialogue_effect {label : Label} {state : EndState}
    {result : Except ProtocolError Unit}
    (hend : registry.endDialogue label state = (result, after)) :
    Effect registry .silent after := by
  rcases result with cause | ⟨⟩
  · exact effect_of_refused (endDialogue_eq_error hend).2
  · obtain ⟨key, dialogue, next, hfound, hfinish, rfl⟩ :=
      endDialogue_eq_ok hend
    exact .finished _ hfound hfinish

end Operations

/-- Whatever is asked of a registry, one of the eight effects is what
happens. -/
theorem perform_effect (registry : Registry) (operation : Operation) :
    Effect registry (operation.event (registry.perform operation).1)
      (registry.perform operation).2 := by
  cases operation with
  | openWith supply performative fields opponent =>
    rw [perform]
    rcases hopen : registry.openWith supply performative fields opponent
      with ⟨result, after⟩
    rcases openWith_effect hopen with
      ⟨⟨cause, rfl⟩, heffect⟩ | ⟨label, message, rfl, heffect⟩
    · exact heffect
    · exact heffect
  | send supply performative fields opponent label =>
    rw [perform]
    rcases hsend : registry.send supply performative fields opponent label
      with ⟨result, after⟩
    rcases send_effect hsend with
      ⟨⟨cause, rfl⟩, heffect⟩ | ⟨message, rfl, heffect⟩
    · exact heffect
    · exact heffect
  | reply label performative fields =>
    rw [perform]
    rcases hreply : registry.reply label performative fields
      with ⟨result, after⟩
    rcases reply_effect hreply with
      ⟨⟨cause, rfl⟩, heffect⟩ | ⟨message, rfl, heffect⟩
    · exact heffect
    · exact heffect
  | receive supply payload sender =>
    rw [perform]
    rcases hreceive : registry.receive supply payload sender
      with ⟨result, after⟩
    rcases receive_effect hreceive with
      ⟨⟨cause, rfl⟩, heffect⟩ | ⟨dialogue, message, rfl, -, heffect⟩
    · exact heffect
    · exact heffect
  | receiveMessage supply message sender =>
    rw [perform]
    rcases hreceive : registry.receiveMessage supply message sender
      with ⟨result, after⟩
    rcases receiveMessage_effect hreceive with
      ⟨⟨cause, rfl⟩, heffect⟩ | ⟨dialogue, rfl, heffect⟩
    · exact heffect
    · exact heffect
  | endDialogue label state =>
    rw [perform]
    rcases hend : registry.endDialogue label state with ⟨result, after⟩
    have heffect := endDialogue_effect hend
    cases result with
    | error cause => exact heffect
    | ok done => exact heffect
  | evict => exact .cleared registry.stats

theorem Effect.address_eq {before after : Registry} {event : Event}
    (heffect : Effect before event after) :
    after.address = before.address := by
  cases heffect with
  | opened stats hopponent hroom =>
    have hbase := address_of_makeRoom_ok hroom
    exact hbase
  | admitted stats hsender hlabel hunknown hopener hincomplete hroom =>
    have hbase := address_of_makeRoom_ok hroom
    exact hbase
  | _ => rfl

theorem Effect.specification_eq {before after : Registry} {event : Event}
    (heffect : Effect before event after) :
    after.specification = before.specification := by
  cases heffect with
  | opened stats hopponent hroom =>
    have hbase := specification_of_makeRoom_ok hroom
    exact hbase
  | admitted stats hsender hlabel hunknown hopener hincomplete hroom =>
    have hbase := specification_of_makeRoom_ok hroom
    exact hbase
  | _ => rfl

theorem Effect.limits_eq {before after : Registry} {event : Event}
    (heffect : Effect before event after) : after.limits = before.limits := by
  cases heffect with
  | opened stats hopponent hroom =>
    have hbase := limits_of_makeRoom_ok hroom
    exact hbase
  | admitted stats hsender hlabel hunknown hopener hincomplete hroom =>
    have hbase := limits_of_makeRoom_ok hroom
    exact hbase
  | _ => rfl

/-! ## Reference halves of what is heard -/

/-- What was heard names the initiator's half. -/
def Event.IsNamed : Event → Prop
  | .heard _ message => message.routing.reference.initiator ≠ unassigned
  | _ => True

/-- A payload that leaves the initiator's half open is not read. -/
theorem initiator_ne_of_decode {specification : Specification} {limit : Nat}
    {payload : Bytes} {message : Message}
    (hdecode : Message.decode specification limit payload = .ok message) :
    message.routing.reference.initiator ≠ unassigned := by
  obtain ⟨-, envelope, -, hread⟩ := Message.decode_eq_ok_iff.mp hdecode
  obtain ⟨-, hinitiator, -, schema, body, fields, -, -, -, rfl⟩ :=
    Message.ofEnvelope_eq_ok_iff.mp hread
  exact hinitiator

theorem perform_isNamed (registry : Registry) {operation : Operation}
    (hadmissible : operation.IsAdmissible) :
    (operation.event (registry.perform operation).1).IsNamed := by
  cases operation with
  | openWith supply performative fields opponent =>
    rw [perform]
    rcases registry.openWith supply performative fields opponent
      with ⟨_ | _, _⟩ <;> exact trivial
  | send supply performative fields opponent label =>
    rw [perform]
    rcases registry.send supply performative fields opponent label
      with ⟨_ | _, _⟩ <;> exact trivial
  | reply label performative fields =>
    rw [perform]
    rcases registry.reply label performative fields
      with ⟨_ | _, _⟩ <;> exact trivial
  | receive supply payload sender =>
    rw [perform]
    rcases hreceive : registry.receive supply payload sender
      with ⟨result, after⟩
    rcases receive_effect hreceive with
      ⟨⟨cause, rfl⟩, -⟩ | ⟨dialogue, message, rfl, hdecode, -⟩
    · exact trivial
    · exact initiator_ne_of_decode hdecode
  | receiveMessage supply message sender =>
    rw [perform]
    rcases registry.receiveMessage supply message sender with ⟨_ | _, _⟩
    · exact trivial
    · exact hadmissible
  | endDialogue label state =>
    rw [perform]
    rcases registry.endDialogue label state with ⟨_ | _, _⟩ <;> exact trivial
  | evict => exact trivial

end Colloquy.Registry
