import Colloquy.Negotiation.Specification
import Colloquy.Proofs.Dialogue.Run

/-!
# What follows from a history

A dialogue keeps its messages, their senders beside them, and a state.  All that
can be looked up in it follows from the history: ids count the messages, so they
serve as indices of both lists, and the next id is one more than their number.
The state follows from the history too, unless a call ended the dialogue early.
-/

namespace Colloquy.Dialogue

open History

/-- Among the messages of a role this one has the highest id. -/
def IsHighest (history : History) (role : Role) (message : Message) : Prop :=
  (role, message) ∈ history ∧ ∀ other, (role, other) ∈ history →
    other.routing.messageId ≤ message.routing.messageId

/-- One of the calls ends the dialogue before its last performative does. -/
def EndsEarly (specification : Specification) (dialogue : Dialogue)
    (calls : List Call) (outcome : EndState) : Prop :=
  ∃ before after, calls = before ++ .finish outcome :: after
    ∧ ((dialogue.run specification before).call specification
      (.finish outcome)).1 = .ok ()

variable {specification : Specification} {dialogue : Dialogue}

/-! ## Looking up an id -/

section LookUp

variable {id : UInt64} {entry : Role × Message} {k : Nat}

theorem index?_eq_some_iff : index? id = some k ↔ id.toNat = k + 1 := by
  have hone : startingMessageId.toNat = 1 := rfl
  rw [index?]
  by_cases hlow : id < startingMessageId
  · have hzero := UInt64.lt_iff_toNat_lt.mp hlow
    rw [if_pos hlow]
    constructor
    · exact fun hnone => by cases hnone
    · intro hid
      omega
  · have hle := UInt64.not_lt.mp hlow
    have hpositive := UInt64.le_iff_toNat_le.mp hle
    rw [if_neg hlow, UInt64.toNat_sub_of_le _ _ hle, hone, Option.some.injEq]
    omega

/-- What is found under an id has that id, and stands where the id says. -/
theorem message?_eq_some_iff {message : Message} :
    dialogue.message? id = some message ↔
      ∃ k, id.toNat = k + 1 ∧ dialogue.messages[k]? = some message
        ∧ message.routing.messageId = id := by
  simp only [message?, Option.bind_eq_bind, Option.bind_eq_some_iff,
    index?_eq_some_iff]
  constructor
  · rintro ⟨k, hid, found, hfound, hreturned⟩
    split at hreturned
    · rename_i hsame
      cases hreturned
      exact ⟨k, hid, hfound, hsame⟩
    · cases hreturned
  · rintro ⟨k, hid, hfound, hsame⟩
    exact ⟨k, hid, message, hfound, if_pos hsame⟩

theorem sender?_eq_some_iff {sender : Role} :
    dialogue.sender? id = some sender ↔
      ∃ k, id.toNat = k + 1 ∧ dialogue.senders[k]? = some sender := by
  simp only [sender?, Option.bind_eq_bind, Option.bind_eq_some_iff,
    index?_eq_some_iff]

/-- An entry of a history is a sender and a message at one place of the two
lists. -/
theorem getElem?_history_eq_some_iff :
    dialogue.history[k]? = some entry ↔
      dialogue.senders[k]? = some entry.1
        ∧ dialogue.messages[k]? = some entry.2 :=
  List.getElem?_zip_eq_some

theorem lookUp_of_mem (hpath : IsPath specification dialogue.history)
    (hlow : 1 ≤ id.toNat) (hhigh : id.toNat ≤ dialogue.history.length) :
    ∃ entry, dialogue.history[id.toNat - 1]? = some entry
      ∧ dialogue.message? id = some entry.2
      ∧ dialogue.sender? id = some entry.1 := by
  have hplace : id.toNat = id.toNat - 1 + 1 := (Nat.sub_add_cancel hlow).symm
  have hlt : id.toNat - 1 < dialogue.history.length := by omega
  have hentry := List.getElem?_eq_getElem hlt
  obtain ⟨hsender, hmessage⟩ := getElem?_history_eq_some_iff.mp hentry
  have hid : dialogue.history[id.toNat - 1].2.routing.messageId = id := by
    apply UInt64.toNat_inj.mp
    rw [(hpath.position hentry).1, ← hplace]
  exact ⟨_, hentry, message?_eq_some_iff.mpr ⟨_, hplace, hmessage, hid⟩,
    sender?_eq_some_iff.mpr ⟨_, hplace, hsender⟩⟩

theorem lookUp_of_not_mem
    (hout : id.toNat = 0 ∨ dialogue.history.length < id.toNat) :
    dialogue.message? id = none ∧ dialogue.sender? id = none := by
  rw [length_history] at hout
  constructor
  · refine Option.eq_none_iff_forall_ne_some.mpr fun message hmessage => ?_
    obtain ⟨k, hid, hfound, -⟩ := message?_eq_some_iff.mp hmessage
    have hlt := (List.getElem?_eq_some_iff.mp hfound).1
    omega
  · refine Option.eq_none_iff_forall_ne_some.mpr fun sender hsender => ?_
    obtain ⟨k, hid, hfound⟩ := sender?_eq_some_iff.mp hsender
    have hlt := (List.getElem?_eq_some_iff.mp hfound).1
    rw [dialogue.aligned] at hlt
    omega

end LookUp

/-! ## The last message of each role -/

/-- The last item of a list that is sorted by a number is the one with the
highest number. -/
theorem getLast?_eq_some_iff_highest {α : Type} {number : α → Nat}
    {items : List α} {item : α}
    (hsorted : items.Pairwise fun a b => number a < number b) :
    items.getLast? = some item ↔
      item ∈ items ∧ ∀ other ∈ items, number other ≤ number item := by
  constructor
  · intro hlast
    obtain ⟨before, rfl⟩ := List.getLast?_eq_some_iff.mp hlast
    refine ⟨by simp, fun other hmem => ?_⟩
    rcases List.mem_append.mp hmem with hbefore | hself
    · exact Nat.le_of_lt
        ((List.pairwise_append.mp hsorted).2.2 other hbefore item (by simp))
    · exact Nat.le_of_eq (congrArg number (List.mem_singleton.mp hself))
  · rintro ⟨hmem, hhighest⟩
    cases hlast : items.getLast? with
    | none =>
      rw [List.getLast?_eq_none_iff.mp hlast] at hmem
      cases hmem
    | some last =>
      obtain ⟨before, rfl⟩ := List.getLast?_eq_some_iff.mp hlast
      rcases List.mem_append.mp hmem with hbefore | hself
      · have hlt := (List.pairwise_append.mp hsorted).2.2 item hbefore last
          (by simp)
        exact absurd (hhighest last (by simp)) (Nat.not_le.mpr hlt)
      · rw [List.mem_singleton.mp hself]

/-- The ids go up along a path. -/
theorem pairwise_of_isPath {history : History}
    (hpath : IsPath specification history) :
    history.Pairwise fun a b =>
      a.2.routing.messageId.toNat < b.2.routing.messageId.toNat := by
  refine List.pairwise_iff_getElem.mpr fun i j hi hj hlt => ?_
  have hfirst := (hpath.position (List.getElem?_eq_getElem hi)).1
  have hsecond := (hpath.position (List.getElem?_eq_getElem hj)).1
  omega

/-- The id of the last message is the number of messages, and it is an id. -/
theorem length_lt_of_isPath {history : History}
    (hpath : IsPath specification history) : history.length < UInt64.size := by
  cases hlast : history.getLast? with
  | none =>
    rw [List.getLast?_eq_none_iff.mp hlast]
    decide
  | some last =>
    obtain ⟨before, rfl⟩ := List.getLast?_eq_some_iff.mp hlast
    have hid := (hpath.position List.getElem?_concat_length).1
    have hlt := last.2.routing.messageId.toNat_lt_size
    rw [List.length_append, List.length_singleton]
    omega

theorem lastSentBy?_eq_some_iff {role : Role} {message : Message}
    (hpath : IsPath specification dialogue.history) :
    dialogue.lastSentBy? role = some message ↔
      IsHighest dialogue.history role message := by
  have hsorted : ((dialogue.history.filter fun entry => entry.1 = role).map
      Prod.snd).Pairwise fun a b =>
        a.routing.messageId.toNat < b.routing.messageId.toNat :=
    List.pairwise_map.mpr ((pairwise_of_isPath hpath).sublist List.filter_sublist)
  rw [lastSentBy?, getLast?_eq_some_iff_highest hsorted, IsHighest]
  simp [UInt64.le_iff_toNat_le]

/-- The last message is the last one of its sender. -/
theorem last?_eq_lastSentBy? (dialogue : Dialogue) :
    dialogue.last? = dialogue.lastSentBy? .initiator
      ∨ dialogue.last? = dialogue.lastSentBy? .responder := by
  simp only [last?_eq, lastSentBy?, List.getLast?_map]
  cases hlast : dialogue.history.getLast? with
  | none =>
    rw [List.getLast?_eq_none_iff.mp hlast]
    exact .inl rfl
  | some last =>
    obtain ⟨before, hhistory⟩ := List.getLast?_eq_some_iff.mp hlast
    obtain ⟨sender, message⟩ := last
    rw [hhistory, List.filter_append, List.filter_append]
    cases sender
    · exact .inl (by simp)
    · exact .inr (by simp)

theorem last?_eq_outgoing_or_incoming (dialogue : Dialogue) :
    dialogue.last? = dialogue.lastOutgoing?
      ∨ dialogue.last? = dialogue.lastIncoming? := by
  rw [lastOutgoing?, lastIncoming?]
  cases dialogue.role
  · exact dialogue.last?_eq_lastSentBy?
  · exact dialogue.last?_eq_lastSentBy?.symm

/-! ## The state -/

section State

variable {asked : Call} {calls : List Call} {outcome : EndState}

theorem run_cons (asked : Call) (rest : List Call) :
    dialogue.run specification (asked :: rest)
      = (dialogue.call specification asked).2.run specification rest := rfl

theorem run_append (before after : List Call) :
    dialogue.run specification (before ++ after)
      = (dialogue.run specification before).run specification after :=
  List.foldl_append

theorem label_call (asked : Call) :
    (dialogue.call specification asked).2.label = dialogue.label
      ∧ (dialogue.call specification asked).2.role = dialogue.role := by
  rw [call]
  split
  · rename_i next hnext
    cases asked with
    | append message sender =>
      exact ⟨label_of_append hnext, role_of_append hnext⟩
    | finish outcome =>
      obtain ⟨-, -, rfl⟩ := finish_eq_ok_iff.mp hnext
      exact ⟨rfl, rfl⟩
  · exact ⟨rfl, rfl⟩

theorem label_run (calls : List Call) :
    (dialogue.run specification calls).label = dialogue.label
      ∧ (dialogue.run specification calls).role = dialogue.role := by
  induction calls generalizing dialogue with
  | nil => exact ⟨rfl, rfl⟩
  | cons asked rest ih =>
    have hfirst : (dialogue.call specification asked).2.label = dialogue.label
        ∧ (dialogue.call specification asked).2.role = dialogue.role :=
      label_call asked
    rw [run_cons, ← hfirst.1, ← hfirst.2]
    exact ih

theorem call_of_isEnded (hended : dialogue.isEnded = true) (asked : Call) :
    dialogue.call specification asked
      = (.error (.terminated dialogue.label), dialogue) := by
  cases asked with
  | append message sender =>
    have happend : dialogue.append specification message sender
        = .error (.terminated dialogue.label) :=
      append_eq_error_iff.mpr (check_of_isEnded hended)
    rw [call, attempt, happend]
  | finish outcome => rw [call, attempt, finish, if_pos hended]

theorem run_of_isEnded (hended : dialogue.isEnded = true) (calls : List Call) :
    dialogue.run specification calls = dialogue := by
  induction calls with
  | nil => rfl
  | cons asked rest ih => rwa [run_cons, call_of_isEnded hended]

theorem call_eq_ok_iff {next : Dialogue} :
    dialogue.call specification asked = (.ok (), next) ↔
      dialogue.attempt specification asked = .ok next := by
  rw [call]
  cases dialogue.attempt specification asked <;> simp

theorem attempt_of_call_ok
    (hok : (dialogue.call specification asked).1 = .ok ()) :
    dialogue.attempt specification asked
      = .ok (dialogue.call specification asked).2 :=
  call_eq_ok_iff.mp (Prod.ext hok rfl)

/-- What ended early stays as it is. -/
theorem EndsEarly.state (hearly : EndsEarly specification dialogue calls outcome) :
    specification.hasEndState outcome = true
      ∧ (dialogue.run specification calls).state = .ended (some outcome) := by
  obtain ⟨before, after, rfl, hok⟩ := hearly
  obtain ⟨-, hdeclared, hnext⟩ := finish_eq_ok_iff.mp (attempt_of_call_ok hok)
  refine ⟨hdeclared, ?_⟩
  rw [run_append, run_cons, hnext, run_of_isEnded rfl]

/-- One call that does not end the dialogue early leaves the state that the
history leads to. -/
theorem state_call (hstate : dialogue.state = stateOf specification dialogue.history)
    (hnot : ∀ outcome, asked = .finish outcome →
      (dialogue.call specification asked).1 ≠ .ok ()) :
    (dialogue.call specification asked).2.state
      = stateOf specification (dialogue.call specification asked).2.history := by
  cases hattempt : dialogue.attempt specification asked with
  | error cause => simpa [call, hattempt] using hstate
  | ok next =>
    have hcall := call_eq_ok_iff.mpr hattempt
    rw [hcall]
    cases asked with
    | append message sender =>
      exact state_of_append hattempt
    | finish outcome => exact absurd (by rw [hcall]) (hnot outcome rfl)

theorem state_run (hstate : dialogue.state = stateOf specification dialogue.history)
    (hnot : ∀ outcome, ¬EndsEarly specification dialogue calls outcome) :
    (dialogue.run specification calls).state
      = stateOf specification (dialogue.run specification calls).history := by
  induction calls generalizing dialogue with
  | nil => exact hstate
  | cons asked rest ih =>
    have hfirst : ∀ outcome, asked = .finish outcome →
        (dialogue.call specification asked).1 ≠ .ok () := by
      rintro outcome rfl hok
      exact hnot outcome ⟨[], rest, rfl, hok⟩
    refine ih (state_call hstate hfirst) ?_
    -- Whatever ends the dialogue later on ends it in the whole list of calls.
    rintro outcome ⟨before, after, rfl, hok⟩
    exact hnot outcome ⟨asked :: before, after, rfl, hok⟩

theorem stateOf_of_not_isConcluded {history : History}
    (hopen : ¬IsConcluded specification history) :
    (history.length ≤ 1 → stateOf specification history = .started)
      ∧ (2 ≤ history.length → stateOf specification history = .inProgress) := by
  rw [stateOf]
  cases hlast : history.getLast? with
  | none => simp [List.getLast?_eq_none_iff.mp hlast]
  | some last =>
    have hmore : ¬specification.isTerminal last.2.performative = true :=
      fun hterminal =>
        hopen ⟨last, hlast, Specification.isTerminal_iff.mp hterminal⟩
    obtain ⟨before, rfl⟩ := List.getLast?_eq_some_iff.mp hlast
    dsimp only
    rw [if_neg hmore, List.length_append, List.length_singleton]
    constructor
    · intro hshort
      rw [if_pos (by omega)]
    · intro hlong
      rw [if_neg (by omega)]

/-- Only the last message may have a performative without replies. -/
theorem not_isTerminal_of_isPath {history : History} {entry : Role × Message}
    {k : Nat} (hpath : IsPath specification history)
    (hentry : history[k]? = some entry) (hlater : k + 1 < history.length) :
    specification.isTerminal entry.2.performative = false := by
  refine Bool.eq_false_iff.mpr fun hterminal => ?_
  obtain ⟨replies, hreplies, hmem⟩ :=
    hpath.replies hentry (List.getElem?_eq_getElem hlater)
  rw [Specification.isTerminal_iff.mp hterminal] at hreplies
  cases hreplies
  cases hmem

end State

/-! ## All of it -/

/-- What a new dialogue is after some calls, in terms of the history it has then:
what can be looked up in it, where it goes on, and its state. -/
structure FollowsHistory (specification : Specification) (label : Label)
    (role : Role) (calls : List Call) (dialogue : Dialogue) : Prop where
  label_eq : dialogue.label = label
  role_eq : dialogue.role = role
  length_messages : dialogue.messages.length = dialogue.history.length
  length_senders : dialogue.senders.length = dialogue.history.length
  length_lt : dialogue.history.length < UInt64.size
  messageId : ∀ k entry, dialogue.history[k]? = some entry →
    entry.2.routing.messageId.toNat = k + 1
  lookUp : ∀ id : UInt64, 1 ≤ id.toNat → id.toNat ≤ dialogue.history.length →
    ∃ entry, dialogue.history[id.toNat - 1]? = some entry
      ∧ dialogue.message? id = some entry.2
      ∧ dialogue.sender? id = some entry.1
  unknown : ∀ id : UInt64,
    id.toNat = 0 ∨ dialogue.history.length < id.toNat →
      dialogue.message? id = none ∧ dialogue.sender? id = none
  nextPosition : dialogue.nextPosition
    = (dialogue.history.length + 1, dialogue.history.length)
  /-- A history as long as the highest id is left out; no list that fits in memory
  is that long. -/
  nextRouting : dialogue.history.length + 1 < UInt64.size →
    dialogue.nextRouting.reference = label.reference
      ∧ dialogue.nextRouting.messageId.toNat = dialogue.history.length + 1
      ∧ dialogue.nextRouting.target.toNat = dialogue.history.length
  lastOutgoing : ∀ message, dialogue.lastOutgoing? = some message ↔
    IsHighest dialogue.history role message
  lastIncoming : ∀ message, dialogue.lastIncoming? = some message ↔
    IsHighest dialogue.history role.counterpart message
  last : dialogue.last? = dialogue.lastOutgoing?
    ∨ dialogue.last? = dialogue.lastIncoming?
  unfinished : ∀ k entry, dialogue.history[k]? = some entry →
    k + 1 < dialogue.history.length →
      specification.isTerminal entry.2.performative = false
  concluded : ∀ entry, dialogue.history.getLast? = some entry →
    specification.isTerminal entry.2.performative = true →
      dialogue.state = .ended (specification.outcome? entry.2.performative)
  early : ∀ outcome,
    EndsEarly specification (start label role) calls outcome →
      specification.hasEndState outcome = true
        ∧ dialogue.state = .ended (some outcome)
  ongoing : (∀ entry, dialogue.history.getLast? = some entry →
      specification.isTerminal entry.2.performative = false) →
    (∀ outcome, ¬EndsEarly specification (start label role) calls outcome) →
      (dialogue.history.length ≤ 1 → dialogue.state = .started)
        ∧ (2 ≤ dialogue.history.length → dialogue.state = .inProgress)
  ended : dialogue.isEnded = true → ∀ asked,
    dialogue.call specification asked = (.error (.terminated label), dialogue)

/-- Whatever is asked of a new dialogue, and however much of it is refused, what
can be looked up in it afterwards and its state follow from its history, and once
it has ended it does not change any more. -/
theorem run_followsHistory (specification : Specification) (label : Label)
    (role : Role) (calls : List Call) :
    FollowsHistory specification label role calls
      ((start label role).run specification calls) := by
  have hkept : ((start label role).run specification calls).label = label
      ∧ ((start label role).run specification calls).role = role :=
    label_run calls
  obtain ⟨hlabel, hrole⟩ := hkept
  have hconsistent := (consistent_start specification label role).run calls
  have hpath := hconsistent.path
  have hnext := nextPosition_of_isPath hpath
  exact {
    label_eq := hlabel
    role_eq := hrole
    length_messages := (length_history _).symm
    length_senders := (aligned _).trans (length_history _).symm
    length_lt := length_lt_of_isPath hpath
    messageId := fun k entry hentry => (hpath.position hentry).1
    lookUp := fun id => lookUp_of_mem hpath
    unknown := fun id => lookUp_of_not_mem
    nextPosition := hnext
    nextRouting := by
      intro hfits
      rw [nextRouting, hnext, hlabel]
      exact ⟨rfl, Nat.mod_eq_of_lt hfits, Nat.mod_eq_of_lt (Nat.lt_of_succ_lt hfits)⟩
    lastOutgoing := fun message => by
      rw [lastOutgoing?, hrole]
      exact lastSentBy?_eq_some_iff hpath
    lastIncoming := fun message => by
      rw [lastIncoming?, hrole]
      exact lastSentBy?_eq_some_iff hpath
    last := last?_eq_outgoing_or_incoming _
    unfinished := fun k entry => not_isTerminal_of_isPath hpath
    concluded := by
      intro entry hlast hterminal
      have hconcluded : IsConcluded specification _ :=
        ⟨entry, hlast, Specification.isTerminal_iff.mp hterminal⟩
      rw [hconsistent.state_of_isConcluded hconcluded, stateOf, hlast]
      exact if_pos hterminal
    early := fun outcome hearly => hearly.state
    ongoing := by
      intro hopen hnot
      have hstate : ((start label role).run specification calls).state
          = stateOf specification
            ((start label role).run specification calls).history :=
        state_run rfl hnot
      rw [hstate]
      refine stateOf_of_not_isConcluded ?_
      rintro ⟨entry, hlast, hreplies⟩
      have hterminal := Specification.isTerminal_iff.mpr hreplies
      rw [hopen entry hlast] at hterminal
      cases hterminal
    ended := by
      intro hended asked
      rw [call_of_isEnded hended, hlabel] }

/-- A call for proposals. -/
def inquiry : Message :=
  ⟨Negotiation.specification.id, .opening ⟨"1", unassigned⟩, "cfp",
    [("query", Negotiation.Query.toValue ⟨"apples", ∅⟩)]⟩

/-- The call is made twice, and given up twice, with different outcomes. -/
def givenUp : List Call :=
  [.append inquiry .initiator, .append inquiry .initiator, .finish ⟨"failed"⟩,
    .finish ⟨"successful"⟩]

theorem run_followsHistory_givenUp :
    let label : Label := ⟨.opened "1", ⟨"buyer"⟩, ⟨"seller"⟩⟩
    let dialogue := (start label .initiator).run Negotiation.specification givenUp
    dialogue.history = [(.initiator, inquiry)]
      ∧ (∃ entry, dialogue.history[0]? = some entry
        ∧ dialogue.message? 1 = some entry.2
        ∧ dialogue.sender? 1 = some entry.1)
      ∧ dialogue.nextRouting.messageId.toNat = 2
      ∧ dialogue.state = .ended (some ⟨"failed"⟩)
      ∧ ∀ asked, dialogue.call Negotiation.specification asked
        = (.error (.terminated label), dialogue) := by
  intro label dialogue
  have hhistory : dialogue.history = [(.initiator, inquiry)] := rfl
  have hlength : dialogue.history.length = 1 := rfl
  have hearly : EndsEarly Negotiation.specification (start label .initiator)
      givenUp ⟨"failed"⟩ :=
    ⟨[.append inquiry .initiator, .append inquiry .initiator],
      [.finish ⟨"successful"⟩], rfl, rfl⟩
  have hfollows := run_followsHistory Negotiation.specification label .initiator
    givenUp
  obtain ⟨-, hstate⟩ := hfollows.early ⟨"failed"⟩ hearly
  exact ⟨hhistory, hfollows.lookUp 1 (by decide) (by decide),
    (hfollows.nextRouting (by decide)).2.1, hstate, hfollows.ended rfl⟩

end Colloquy.Dialogue
