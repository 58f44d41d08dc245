import Colloquy.Proofs.Registry.Succession

/-!
# Two agents and the messages between them

Two registries at different addresses under one specification.  Either party
may open, send, reply and end at any time, and any message that was ever sent
may be delivered to its addressee at any time, any number of times or never.
What an agent sends to third parties is in the post as well, but goes nowhere.
-/

namespace Colloquy

inductive Party where
  | first
  | second
  deriving DecidableEq, Repr

namespace Party

def other : Party → Party
  | first => second
  | second => first

@[simp]
theorem other_other (party : Party) : party.other.other = party := by
  cases party <;> rfl

theorem other_ne (party : Party) : party.other ≠ party := by
  cases party <;> simp [other]

theorem eq_or_eq_other (party one : Party) :
    one = party ∨ one = party.other := by
  cases party <;> cases one <;> simp [other]

end Party

/-- A message on its way. -/
structure Letter where
  sender : Address
  recipient : Address
  message : Message

structure Network where
  registry : Party → Registry
  /-- Every message that was sent so far, delivered or not. -/
  letters : List Letter

namespace Registry

/-- What an agent puts into the post. -/
def Event.letters (address : Address) : Event → List Letter
  | .sent opponent message => [⟨address, opponent, message⟩]
  | _ => []

/-- What an agent does of its own accord. -/
def Operation.IsLocal : Operation → Prop
  | .openWith _ _ _ _ => True
  | .send _ _ _ _ _ => True
  | .reply _ _ _ => True
  | .endDialogue _ _ => True
  | _ => False

end Registry

namespace Network

open Registry

def address (network : Network) (party : Party) : Address :=
  (network.registry party).address

/-- Two agents that have not done anything yet. -/
def start (specification : Specification) (address : Party → Address)
    (limits : Party → Limits) : Network where
  registry party := .empty specification (address party) (limits party)
  letters := []

/-- One party performs an operation, and posts what it sends. -/
def perform (network : Network) (party : Party) (operation : Operation) :
    Network :=
  let outcome := (network.registry party).perform operation
  { registry := fun one =>
      if one = party then outcome.2 else network.registry one
    letters := network.letters
      ++ (operation.event outcome.1).letters (network.address party) }

/-- A party acts, or takes a letter that is addressed to it. -/
inductive Step (before : Network) : Network → Prop where
  | act (party : Party) {operation : Operation} (hlocal : operation.IsLocal) :
      Step before (before.perform party operation)
  | deliver (party : Party) (supply : HalfSupply) {letter : Letter}
      (hposted : letter ∈ before.letters)
      (haddressed : letter.recipient = before.address party) :
      Step before (before.perform party
        (.receiveMessage supply letter.message letter.sender))

/-- Nothing is evicted, and the halves that one party has chosen are not chosen
by the other one; that a party does not choose a half twice is up to its
registry. -/
structure Undisturbed (before after : Network) : Prop where
  kept : ∀ party key dialogue,
    (before.registry party).Holds key dialogue → dialogue.isEnded = true →
    (after.registry party).Holds key dialogue
  ownHalf_ne : ∀ party key dialogue another other,
    (after.registry party).Holds key dialogue →
    (after.registry party.other).Holds other another →
    dialogue.ownHalf ≠ another.ownHalf

/-- What any schedule of undisturbed steps leads to. -/
inductive Reachable (specification : Specification) : Network → Prop where
  | start {address : Party → Address} (limits : Party → Limits)
      (haddress : address .first ≠ address .second) :
      Reachable specification (start specification address limits)
  | step {before after : Network}
      (hreachable : Reachable specification before) (hstep : Step before after)
      (hundisturbed : Undisturbed before after) :
      Reachable specification after

/-! ## Turns -/

/-- What a step comes down to: one party does one of the eight things that a
registry does, and hears only what was posted to it. -/
structure Turn (before after : Network) (party : Party) (event : Event) :
    Prop where
  effect : Effect (before.registry party) event (after.registry party)
  idle : after.registry party.other = before.registry party.other
  letters : after.letters = before.letters
    ++ event.letters (before.address party)
  posted : ∀ {sender message}, event = .heard sender message →
    ⟨sender, before.address party, message⟩ ∈ before.letters

section Turns

variable {before after network : Network} {party : Party}

@[simp]
theorem registry_perform_self (network : Network) (party : Party)
    (operation : Operation) :
    (network.perform party operation).registry party =
      ((network.registry party).perform operation).2 := by
  simp [perform]

@[simp]
theorem registry_perform_other (network : Network) (party : Party)
    (operation : Operation) :
    (network.perform party operation).registry party.other =
      network.registry party.other := by
  simp [perform, party.other_ne]

theorem not_heard_of_isLocal {operation : Operation}
    (hlocal : operation.IsLocal) (result : Except ProtocolError Answer)
    (sender : Address) (message : Message) :
    operation.event result ≠ .heard sender message := by
  intro hheard
  cases operation with
  | receive => exact hlocal
  | receiveMessage => exact hlocal
  | evict => exact hlocal
  | _ =>
    rcases result with cause | answer
    · cases hheard
    · cases answer <;> cases hheard

/-- Only the message that was handed over is heard. -/
theorem eq_of_event_receiveMessage {supply : HalfSupply} {given : Message}
    {author : Address} {result : Except ProtocolError Answer} {sender : Address}
    {message : Message}
    (hheard : (Operation.receiveMessage supply given author).event result
      = .heard sender message) : sender = author ∧ message = given := by
  rcases result with cause | answer
  · cases hheard
  · cases answer <;> cases hheard
    exact ⟨rfl, rfl⟩

theorem turn_perform {operation : Operation}
    (hposted : ∀ {sender message},
      operation.event ((network.registry party).perform operation).1
        = .heard sender message →
      ⟨sender, network.address party, message⟩ ∈ network.letters) :
    Turn network (network.perform party operation) party
      (operation.event ((network.registry party).perform operation).1) where
  effect := by
    rw [registry_perform_self]
    exact perform_effect (network.registry party) operation
  idle := registry_perform_other network party operation
  letters := rfl
  posted := hposted

theorem exists_turn (hstep : Step before after) :
    ∃ party event, Turn before after party event := by
  cases hstep with
  | act party hlocal =>
    refine ⟨party, _, turn_perform fun hheard => ?_⟩
    exact absurd hheard (not_heard_of_isLocal hlocal _ _ _)
  | @deliver party supply letter hposted haddressed =>
    refine ⟨party, _, turn_perform fun {sender message} hheard => ?_⟩
    obtain ⟨rfl, rfl⟩ := eq_of_event_receiveMessage hheard
    rw [← haddressed]
    exact hposted

end Turns

end Network

end Colloquy
