import Colloquy.Registry

/-!
# Registry operations

Everything that can be asked of a registry, as one type, so that a run is a
list, and what an operation exchanged with other agents.
-/

namespace Colloquy.Registry

inductive Operation where
  | openWith (supply : HalfSupply) (performative : String)
      (fields : List (String × Value)) (opponent : Address)
  | send (supply : HalfSupply) (performative : String)
      (fields : List (String × Value)) (opponent : Address)
      (label : Option Label)
  | reply (label : Label) (performative : String)
      (fields : List (String × Value))
  | receive (supply : HalfSupply) (payload : Bytes) (sender : Address)
  | receiveMessage (supply : HalfSupply) (message : Message) (sender : Address)
  | endDialogue (label : Label) (state : EndState)
  | evict

inductive Answer where
  | opened (label : Label) (message : Message)
  | sent (message : Message)
  | received (dialogue : Dialogue) (message : Message)
  | accepted (dialogue : Dialogue)
  | finished
  | evicted (count : Nat)

def Outcome.mapResult {α β : Type} (f : α → β) (outcome : Outcome α) :
    Outcome β :=
  (outcome.1.map f, outcome.2)

theorem Outcome.exists_of_mapResult {α β : Type} {f : α → β}
    {outcome : Outcome α} {answer : β}
    (hok : (outcome.mapResult f).1 = .ok answer) :
    ∃ a, outcome = (.ok a, (outcome.mapResult f).2) := by
  rcases outcome with ⟨_ | a, after⟩
  · cases hok
  · exact ⟨a, rfl⟩

theorem Outcome.eq_error_of_mapResult {α β : Type} {f : α → β}
    {outcome : Outcome α} {cause : ProtocolError}
    (herror : (outcome.mapResult f).1 = .error cause) :
    outcome = (.error cause, (outcome.mapResult f).2) := by
  rcases outcome with ⟨_ | _, after⟩
  · cases herror
    rfl
  · cases herror

def perform (registry : Registry) : Operation → Outcome Answer
  | .openWith supply performative fields opponent =>
    (registry.openWith supply performative fields opponent).mapResult
      fun (label, message) => .opened label message
  | .send supply performative fields opponent label =>
    (registry.send supply performative fields opponent label).mapResult .sent
  | .reply label performative fields =>
    (registry.reply label performative fields).mapResult .sent
  | .receive supply payload sender =>
    (registry.receive supply payload sender).mapResult
      fun (dialogue, message) => .received dialogue message
  | .receiveMessage supply message sender =>
    (registry.receiveMessage supply message sender).mapResult .accepted
  | .endDialogue label state =>
    (registry.endDialogue label state).mapResult fun () => .finished
  | .evict => (.ok (.evicted registry.evict.1), registry.evict.2)

/-- The registry after some operations, whatever they answered. -/
def run (registry : Registry) (operations : List Operation) : Registry :=
  operations.foldl (fun registry operation => (registry.perform operation).2)
    registry

/-- What each operation of a run keeps, the run keeps. -/
theorem run_induction {motive : Registry → Prop} {registry : Registry}
    {operations : List Operation} (hstart : motive registry)
    (hperform : ∀ registry, ∀ operation ∈ operations, motive registry →
      motive (registry.perform operation).2) :
    motive (registry.run operations) := by
  induction operations generalizing registry with
  | nil => exact hstart
  | cons operation rest ih =>
    apply ih (hperform registry operation List.mem_cons_self hstart)
    intro later other hmem
    exact hperform later other (List.mem_cons_of_mem _ hmem)

/-- Messages that were not read from a payload must name the initiator's
half; a payload that does not is refused when it is read. -/
def Operation.IsAdmissible : Operation → Prop
  | .receiveMessage _ message _ =>
    message.routing.reference.initiator ≠ unassigned
  | _ => True

/-! ## Events -/

/-- What an operation exchanged with other agents. -/
inductive Event where
  | silent
  | sent (opponent : Address) (message : Message)
  | heard (sender : Address) (message : Message)

/-- A message counts as exchanged if the operation accepted it. -/
def Operation.event : Operation → Except ProtocolError Answer → Event
  | .openWith _ _ _ opponent, .ok (.opened _ message) => .sent opponent message
  | .send _ _ _ opponent _, .ok (.sent message) => .sent opponent message
  | .reply label _ _, .ok (.sent message) => .sent label.opponent message
  | .receive _ _ sender, .ok (.received _ message) => .heard sender message
  | .receiveMessage _ message sender, .ok (.accepted _) =>
    .heard sender message
  | _, _ => .silent

end Colloquy.Registry
