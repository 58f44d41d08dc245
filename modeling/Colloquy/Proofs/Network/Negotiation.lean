import Colloquy.Proofs.Negotiation.Records
import Colloquy.Proofs.Network.Testimony
import Colloquy.Proofs.Registry.Frame

/-!
# Outcomes of a negotiation

A buyer and a seller negotiate, any number of times at once, while their
messages are lost, duplicated and reordered.  Nobody ends a dialogue by hand,
and nothing is evicted.  Main statement: when both sides of a negotiation have
ended they have recorded the same outcome, unless the buyer has withdrawn its
acceptance before it heard that the seller confirms it.
-/

namespace Colloquy

namespace Registry

/-- Everything but ending a dialogue by hand and dropping ended ones. -/
def Operation.Exchanges : Operation → Prop
  | .endDialogue _ _ => False
  | .evict => False
  | _ => True

/-- Sending, in a new dialogue or in one that is held. -/
def Operation.Speaks : Operation → Prop
  | .openWith _ _ _ _ => True
  | .send _ _ _ _ _ => True
  | .reply _ _ _ => True
  | _ => False

/-- No dialogue was ended by hand: the states follow from what was said. -/
def Unforced (registry : Registry) : Prop :=
  ∀ key dialogue, registry.Holds key dialogue →
    dialogue.state
      = Dialogue.stateOf registry.specification dialogue.history

section Unforced

variable {registry before : Registry} {event : Event} {key : Label}
  {dialogue next : Dialogue} {operation : Operation}

theorem Operation.Speaks.exchanges (hspeaks : operation.Speaks) :
    operation.Exchanges := by
  cases operation with
  | endDialogue => exact hspeaks
  | evict => exact hspeaks
  | _ => exact trivial

theorem Operation.Speaks.isLocal (hspeaks : operation.Speaks) :
    operation.IsLocal := by
  cases operation with
  | endDialogue => exact trivial
  | receive => exact hspeaks
  | receiveMessage => exact hspeaks
  | evict => exact hspeaks
  | _ => exact trivial

theorem event_ne_silent (hexchanges : operation.Exchanges) {answer : Answer}
    (hok : (registry.perform operation).1 = .ok answer) :
    operation.event (registry.perform operation).1 ≠ .silent := by
  cases operation with
  | openWith =>
    obtain ⟨opened, hopen⟩ := Outcome.exists_of_mapResult hok
    rw [perform, hopen]
    exact Event.noConfusion
  | send =>
    obtain ⟨message, hsend⟩ := Outcome.exists_of_mapResult hok
    rw [perform, hsend]
    exact Event.noConfusion
  | reply =>
    obtain ⟨message, hreply⟩ := Outcome.exists_of_mapResult hok
    rw [perform, hreply]
    exact Event.noConfusion
  | receive =>
    obtain ⟨received, hreceive⟩ := Outcome.exists_of_mapResult hok
    rw [perform, hreceive]
    exact Event.noConfusion
  | receiveMessage =>
    obtain ⟨dialogue, hreceive⟩ := Outcome.exists_of_mapResult hok
    rw [perform, hreceive]
    exact Event.noConfusion
  | endDialogue => exact hexchanges.elim
  | evict => exact hexchanges.elim

theorem Origin.state_eq (horigin : Origin before event key next)
    (hevent : event ≠ .silent) (hunforced : before.Unforced) :
    next.state = Dialogue.stateOf before.specification next.history := by
  cases horigin with
  | kept hheld => exact hunforced _ _ hheld
  | finished => exact absurd rfl hevent
  | opened hkey hrouting happend => exact Dialogue.state_of_append happend
  | admitted hhalf hincomplete hkey happend =>
    exact Dialogue.state_of_append happend
  | spoke hheld hrouting happend => exact Dialogue.state_of_append happend
  | heard hheld hhalf hfit happend => exact Dialogue.state_of_append happend
  | completed hheld hfit hkey happend => exact Dialogue.state_of_append happend

theorem Unforced.perform (hunforced : registry.Unforced)
    (hindexed : registry.Indexed) (hexchanges : operation.Exchanges) :
    (registry.perform operation).2.Unforced := by
  intro key dialogue hheld
  have heffect := perform_effect registry operation
  rw [heffect.specification_eq]
  cases hresult : (registry.perform operation).1 with
  | ok answer =>
    exact (heffect.origin hindexed hheld).state_eq
      (event_ne_silent hexchanges hresult) hunforced
  | error cause =>
    obtain ⟨-, base, hcleared, hrefused⟩ := cleared_of_error hresult
    rw [Holds, hrefused.unchanged.1] at hheld
    exact hunforced _ _ (hcleared.vacated.old hheld)

end Unforced

end Registry

namespace Network

open Registry

/-- A party sends something, or takes a letter that is addressed to it, as a
message or as a payload that holds it. -/
inductive Communicates (before : Network) : Network → Prop where
  | speak (party : Party) {operation : Operation}
      (hspeaks : operation.Speaks) :
      Communicates before (before.perform party operation)
  | deliver (party : Party) (supply : HalfSupply) {letter : Letter}
      (hposted : letter ∈ before.letters)
      (haddressed : letter.recipient = before.address party) :
      Communicates before (before.perform party
        (.receiveMessage supply letter.message letter.sender))
  | arrive (party : Party) (supply : HalfSupply) {letter : Letter}
      {payload : Bytes} (hposted : letter ∈ before.letters)
      (haddressed : letter.recipient = before.address party)
      (hdecode : Message.decode (before.registry party).specification
        (before.registry party).limits.payload payload = .ok letter.message) :
      Communicates before (before.perform party
        (.receive supply payload letter.sender))

/-- What any schedule of such steps leads to, as long as nothing is evicted. -/
inductive Communicated (specification : Specification) : Network → Prop where
  | start (address : Party → Address) (limits : Party → Limits) :
      Communicated specification (start specification address limits)
  | step {before after : Network}
      (hcommunicated : Communicated specification before)
      (hstep : Communicates before after) (hkeeps : Keeps before after) :
      Communicated specification after

section Communication

variable {specification : Specification} {network before after : Network}
  {party : Party} {key other : Label} {dialogue another : Dialogue}

/-- Only the message that the payload holds is heard. -/
theorem decode_of_event_receive {registry : Registry} {supply : HalfSupply}
    {payload : Bytes} {author sender : Address} {message : Message}
    (hheard : (Operation.receive supply payload author).event
        (registry.perform (.receive supply payload author)).1
      = .heard sender message) :
    sender = author ∧ Message.decode registry.specification
      registry.limits.payload payload = .ok message := by
  cases hresult : (registry.perform (.receive supply payload author)).1 with
  | error cause =>
    rw [hresult] at hheard
    cases hheard
  | ok answer =>
    obtain ⟨dialogue, read, rfl, hdecode, -⟩ := perform_receive_eq_ok hresult
    rw [hresult] at hheard
    cases hheard
    exact ⟨rfl, hdecode⟩

theorem exists_perform (hstep : Communicates before after) :
    ∃ party operation, after = before.perform party operation
      ∧ operation.Exchanges
      ∧ Turn before after party
        (operation.event ((before.registry party).perform operation).1) := by
  cases hstep with
  | speak party hspeaks =>
    refine ⟨party, _, rfl, hspeaks.exchanges, turn_perform fun hheard => ?_⟩
    exact absurd hheard (not_heard_of_isLocal hspeaks.isLocal _ _ _)
  | @deliver party supply letter hposted haddressed =>
    refine ⟨party, _, rfl, trivial, turn_perform fun {sender message} hheard => ?_⟩
    obtain ⟨rfl, rfl⟩ := eq_of_event_receiveMessage hheard
    rw [← haddressed]
    exact hposted
  | @arrive party supply letter payload hposted haddressed hdecode =>
    refine ⟨party, _, rfl, trivial, turn_perform fun {sender message} hheard => ?_⟩
    obtain ⟨rfl, hread⟩ := decode_of_event_receive hheard
    rw [hdecode] at hread
    cases hread
    rw [← haddressed]
    exact hposted

/-- After any communication everybody knows what they have said to each other,
and the states of all dialogues follow from it. -/
theorem attested_of_communicated
    (hcommunicated : Communicated specification network) :
    Attested specification network
      ∧ ∀ party, (network.registry party).Unforced := by
  induction hcommunicated with
  | start address limits =>
    exact ⟨attested_start specification address limits,
      fun _ _ _ hheld => absurd hheld not_holds_empty⟩
  | @step before after hcommunicated hstep hkeeps ih =>
    obtain ⟨hattested, hunforced⟩ := ih
    obtain ⟨party, operation, rfl, hexchanges, hturn⟩ := exists_perform hstep
    refine ⟨hattested.turn hturn hkeeps, fun one => ?_⟩
    rcases party.eq_or_eq_other one with rfl | rfl
    · rw [registry_perform_self]
      exact (hunforced one).perform (hattested.indexed one) hexchanges
    · rw [registry_perform_other]
      exact hunforced party.other

end Communication

/-- Whatever the schedule, if a buyer's dialogue and the seller's dialogue that
faces it have both ended, they have the same outcome, unless the buyer declined
after its own acceptance and the seller confirmed that; then the negotiation has
failed for the buyer and succeeded for the seller. -/
theorem negotiations_agree {network : Network}
    (hcommunicated : Communicated Negotiation.specification network)
    {party : Party} {key other : Label} {buyer seller : Dialogue}
    (hheld : (network.registry party).Holds key buyer)
    (hbuyer : buyer.role = .initiator)
    (hopponent : key.opponent = network.address party.other)
    (hfaces : Faces network party key other seller)
    (hseller : seller.role = .responder)
    (hmine : buyer.isEnded = true) (htheirs : seller.isEnded = true) :
    (¬ Negotiation.Crosses buyer.history seller.history →
      ∃ outcome, buyer.outcome? = some outcome
        ∧ seller.outcome? = some outcome) ∧
    (Negotiation.Crosses buyer.history seller.history →
      buyer.outcome? = some ⟨"failed"⟩
        ∧ seller.outcome? = some ⟨"successful"⟩) := by
  obtain ⟨hattested, hunforced⟩ := attested_of_communicated hcommunicated
  have hrecords :=
    hattested.areRecords hheld hbuyer hopponent hfaces hseller
  have hbought := hunforced party key buyer hheld
  have hsold := hunforced party.other other seller hfaces.held
  rw [hattested.specification_eq] at hbought hsold
  have hconcluded := (Dialogue.isEnded_iff_isConcluded hbought).mp hmine
  have hconcludedToo := (Dialogue.isEnded_iff_isConcluded hsold).mp htheirs
  constructor
  · intro hnot
    obtain ⟨mine, theirs, hlast, hfinal, hsame⟩ :=
      (Negotiation.same_or_crosses hrecords hconcluded hconcludedToo).resolve_right
        hnot
    obtain ⟨_, hlastToo, hterminal⟩ := hconcluded
    rw [hlast, Option.some.injEq] at hlastToo
    subst hlastToo
    have hterminalToo := hterminal
    rw [hsame] at hterminalToo
    obtain ⟨outcome, houtcome⟩ := Negotiation.exists_outcome? hterminal
    refine ⟨outcome, ?_, ?_⟩
    · rw [Dialogue.outcome?_of_getLast? hbought hlast hterminal, houtcome]
    · rw [Dialogue.outcome?_of_getLast? hsold hfinal hterminalToo, ← hsame,
        houtcome]
  · rintro ⟨before, acceptance, withdrawal, confirmation, hleft, hright, -,
      hdecline, hconfirm⟩
    have hlast : buyer.history.getLast? = some (.initiator, withdrawal) := by
      rw [hleft]
      simp
    have hfinal : seller.history.getLast? = some (.responder, confirmation) := by
      rw [hright]
      simp
    rw [Dialogue.outcome?_of_getLast? hbought hlast
        (Negotiation.replies?_of_decline hdecline),
      Dialogue.outcome?_of_getLast? hsold hfinal
        (Negotiation.replies?_of_confirm hconfirm), hdecline, hconfirm]
    exact ⟨rfl, rfl⟩

/-! ## Crossing refusals -/

def traderAddress : Party → Address
  | .first => ⟨"buyer"⟩
  | .second => ⟨"seller"⟩

def traderSupply : Party → HalfSupply
  | .first => .preferring "b" (by decide)
  | .second => .preferring "s" (by decide)

/-- The label of either side once the seller has answered. -/
def tradeLabel (party : Party) : Label :=
  ⟨⟨"b", "s"⟩, traderAddress party, traderAddress party.other⟩

/-- A message of a conversation, as the party whose turn it is sends it. -/
def tradeMessage (id : UInt64) (responder : String) (act : Negotiation.Act) :
    Message :=
  ⟨Negotiation.specification.id, ⟨⟨"b", responder⟩, id, id - 1⟩,
    act.performative, act.toFields⟩

def callAct : Negotiation.Act := .cfp ⟨"books", {}⟩

def proposalAct : Negotiation.Act :=
  .propose ⟨0x3ff0000000000000⟩ [] (.text "cash")

def refusalAct : Negotiation.Act := .decline none

def called : Network :=
  (start Negotiation.specification traderAddress fun _ => {}).perform .first
    (.openWith (traderSupply .first) "cfp" callAct.toFields ⟨"seller"⟩)

def noticed : Network :=
  called.perform .second (.receiveMessage (traderSupply .second)
    (tradeMessage 1 "" callAct) ⟨"buyer"⟩)

def proposed : Network :=
  noticed.perform .second
    (.reply (tradeLabel .second) "propose" proposalAct.toFields)

theorem communicated_proposed :
    Communicated Negotiation.specification proposed := by
  have hposted : called.letters
      = [⟨⟨"buyer"⟩, ⟨"seller"⟩, tradeMessage 1 "" callAct⟩] := rfl
  have hcall : (⟨⟨"buyer"⟩, ⟨"seller"⟩, tradeMessage 1 "" callAct⟩ : Letter)
      ∈ called.letters := by
    rw [hposted]
    exact List.mem_cons_self
  have hstart : Communicated Negotiation.specification
      (start Negotiation.specification traderAddress fun _ => {}) := .start _ _
  have hcalled : Communicated Negotiation.specification called :=
    .step hstart (.speak .first trivial) (keeps_perform (by decide +kernel))
  have hnoticed : Communicated Negotiation.specification noticed :=
    .step hcalled (.deliver .second _ hcall rfl)
      (keeps_perform (by decide +kernel))
  exact .step hnoticed (.speak .second trivial)
    (keeps_perform (by decide +kernel))

/-- The buyer declines before the proposal has arrived. -/
def abandoned : Network :=
  proposed.perform .first (.reply ⟨.opened "b", ⟨"buyer"⟩, ⟨"seller"⟩⟩ "decline"
    refusalAct.toFields)

/-- So does the seller, after it has proposed. -/
def retracted : Network :=
  abandoned.perform .second
    (.reply (tradeLabel .second) "decline" refusalAct.toFields)

/-- The two histories are different, and the outcomes are the same. -/
theorem negotiations_agree_retracted :
    Communicated Negotiation.specification retracted ∧
      ∃ key buyer seller, (retracted.registry .first).Holds key buyer
        ∧ Faces retracted .first key (tradeLabel .second) seller
        ∧ buyer.role = .initiator ∧ seller.role = .responder
        ∧ buyer.isEnded = true ∧ seller.isEnded = true
        ∧ buyer.history.length = 2 ∧ seller.history.length = 3
        ∧ ∃ outcome, buyer.outcome? = some outcome
          ∧ seller.outcome? = some outcome := by
  have habandoned : Communicated Negotiation.specification abandoned :=
    .step communicated_proposed (.speak .first trivial)
      (keeps_perform (by decide +kernel))
  have hcommunicated : Communicated Negotiation.specification retracted :=
    .step habandoned (.speak .second trivial)
      (keeps_perform (by decide +kernel))
  let key : Label := ⟨.opened "b", ⟨"buyer"⟩, ⟨"seller"⟩⟩
  let buyer : Dialogue :=
    { label := key, role := .initiator
      messages := [tradeMessage 1 "" callAct, tradeMessage 2 "" refusalAct]
      senders := [.initiator, .initiator]
      state := .ended (some ⟨"failed"⟩), aligned := rfl }
  let seller : Dialogue :=
    { label := tradeLabel .second, role := .responder
      messages := [tradeMessage 1 "" callAct, tradeMessage 2 "s" proposalAct,
        tradeMessage 3 "s" refusalAct]
      senders := [.initiator, .responder, .responder]
      state := .ended (some ⟨"failed"⟩), aligned := rfl }
  have hheld : (retracted.registry .first).Holds key buyer := rfl
  have hfaces : Faces retracted .first key (tradeLabel .second) seller :=
    ⟨rfl, rfl, rfl⟩
  have hnot : ¬ Negotiation.Crosses buyer.history seller.history := by
    rintro ⟨before, acceptance, withdrawal, confirmation, hleft, -, haccept, -⟩
    have hlast := congrArg (fun history => history.dropLast.getLast?) hleft
    simp [buyer, Dialogue.history] at hlast
    rw [← hlast] at haccept
    exact absurd haccept (by decide)
  exact ⟨hcommunicated, key, buyer, seller, hheld, hfaces, rfl, rfl, rfl, rfl,
    rfl, rfl, (negotiations_agree hcommunicated hheld rfl rfl hfaces rfl rfl
      rfl).1 hnot⟩

def agreed : Network :=
  proposed.perform .first (.receiveMessage (traderSupply .first)
    (tradeMessage 2 "s" proposalAct) ⟨"seller"⟩)

def accepted : Network :=
  agreed.perform .first (.reply (tradeLabel .first) "accept" [])

def relied : Network :=
  accepted.perform .second (.receiveMessage (traderSupply .second)
    (tradeMessage 3 "s" .accept) ⟨"buyer"⟩)

/-- The buyer changes its mind after the seller has heard of the acceptance. -/
def withdrawn : Network :=
  relied.perform .first
    (.reply (tradeLabel .first) "decline" refusalAct.toFields)

/-- The seller confirms before it hears of that. -/
def crossed : Network :=
  withdrawn.perform .second (.reply (tradeLabel .second) "match_accept" [])

theorem communicated_crossed :
    Communicated Negotiation.specification crossed := by
  have hanswered : proposed.letters = called.letters
      ++ [⟨⟨"seller"⟩, ⟨"buyer"⟩, tradeMessage 2 "s" proposalAct⟩] := rfl
  have hsettled : accepted.letters = proposed.letters
      ++ [⟨⟨"buyer"⟩, ⟨"seller"⟩, tradeMessage 3 "s" .accept⟩] := rfl
  have hproposed : (⟨⟨"seller"⟩, ⟨"buyer"⟩, tradeMessage 2 "s" proposalAct⟩ :
      Letter) ∈ proposed.letters := by
    rw [hanswered]
    exact List.mem_append_right _ List.mem_cons_self
  have haccepted : (⟨⟨"buyer"⟩, ⟨"seller"⟩, tradeMessage 3 "s" .accept⟩ :
      Letter) ∈ accepted.letters := by
    rw [hsettled]
    exact List.mem_append_right _ List.mem_cons_self
  have hagreed : Communicated Negotiation.specification agreed :=
    .step communicated_proposed (.deliver .first _ hproposed rfl)
      (keeps_perform (by decide +kernel))
  have haccept : Communicated Negotiation.specification accepted :=
    .step hagreed (.speak .first trivial) (keeps_perform (by decide +kernel))
  have hrelied : Communicated Negotiation.specification relied :=
    .step haccept (.deliver .second _ haccepted rfl)
      (keeps_perform (by decide +kernel))
  have hwithdrawn : Communicated Negotiation.specification withdrawn :=
    .step hrelied (.speak .first trivial) (keeps_perform (by decide +kernel))
  exact .step hwithdrawn (.speak .second trivial)
    (keeps_perform (by decide +kernel))

/-- Both sides have ended, the buyer's with a failure and the seller's with a
success. -/
theorem outcomes_differ_crossed :
    Communicated Negotiation.specification crossed ∧
      ∃ buyer seller, (crossed.registry .first).Holds (tradeLabel .first) buyer
        ∧ Faces crossed .first (tradeLabel .first) (tradeLabel .second) seller
        ∧ buyer.role = .initiator ∧ seller.role = .responder
        ∧ buyer.isEnded = true ∧ seller.isEnded = true
        ∧ buyer.outcome? = some ⟨"failed"⟩
        ∧ seller.outcome? = some ⟨"successful"⟩
        ∧ buyer.outcome? ≠ seller.outcome? := by
  let common : List Message :=
    [tradeMessage 1 "" callAct, tradeMessage 2 "s" proposalAct,
      tradeMessage 3 "s" .accept]
  let buyer : Dialogue :=
    { label := tradeLabel .first, role := .initiator
      messages := common ++ [tradeMessage 4 "s" refusalAct]
      senders := [.initiator, .responder, .initiator, .initiator]
      state := .ended (some ⟨"failed"⟩), aligned := rfl }
  let seller : Dialogue :=
    { label := tradeLabel .second, role := .responder
      messages := common ++ [tradeMessage 4 "s" .matchAccept]
      senders := [.initiator, .responder, .initiator, .responder]
      state := .ended (some ⟨"successful"⟩), aligned := rfl }
  exact ⟨communicated_crossed, buyer, seller, rfl, ⟨rfl, rfl, rfl⟩, rfl, rfl,
    rfl, rfl, rfl, rfl, by decide⟩

end Network

end Colloquy
