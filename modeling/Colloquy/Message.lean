import Colloquy.DecodeError
import Colloquy.FieldType.Validate
import Colloquy.Reference
import Colloquy.Specification
import Colloquy.Text.Sorted

/-!
# Messages

A message is a speech act with its place in a dialogue.  `Message.build` is the
way to make one: it fills in what may be left out, and what it returns fits the
schema of its performative, with the fields in declaration order.
-/

namespace Colloquy

/-- Which dialogue a message belongs to, and which place it has there. -/
structure Routing where
  reference : Reference
  messageId : UInt64
  target : UInt64
  deriving DecidableEq, Repr, Inhabited

/-- The place of the first message of a dialogue. -/
def Routing.opening (reference : Reference) : Routing :=
  ⟨reference, startingMessageId, startingTarget⟩

structure Message where
  protocol : ProtocolId
  routing : Routing
  performative : String
  /-- Every declared field, in declaration order. -/
  fields : List (String × Value)
  deriving Repr, Inhabited

namespace Message

/-- Whether a message claims to open a dialogue. -/
def isOpener (message : Message) : Bool :=
  message.routing.target = startingTarget

def field? (message : Message) (name : String) : Option Value :=
  OrderedMap.lookup name message.fields

/-! ## Building -/

/-- What a field holds when a value was given for it, or none.  A bare value of
an optional field counts as present. -/
def completeField (performative name : String) (type : FieldType)
    (given : Option Value) : Except FieldError Value :=
  match given with
  | some (.optional inner) => .ok (.optional inner)
  | some value => .ok (if type.isOptional then .present value else value)
  | none =>
    if type.isOptional then .ok .absent
    else .error (.missing performative name)

/-- The first given name in increasing order that is not declared. -/
def undeclared? (schema : Schema) (given : List (String × Value)) :
    Option String :=
  (Text.sort (given.map Prod.fst)).find? fun name => !schema.contains name

/-- A field with a value of its type. -/
def buildField (performative : String) (given : List (String × Value))
    (name : String) (type : FieldType) : Except FieldError Value := do
  let value ←
    completeField performative name type (OrderedMap.lookup name given.reverse)
  (type.validate value).mapError (.type name)
  .ok value

/-- The message of the given fields; of several values for one name the last
one counts. -/
def build (specification : Specification) (performative : String)
    (given : List (String × Value)) (routing : Routing) :
    Except FieldError Message := do
  match specification.schema? performative with
  | none => .error (.unknownPerformative performative)
  | some schema =>
    match undeclared? schema given with
    | some name => .error (.undeclared performative name)
    | none => do
      let fields ← schema.traverse (buildField performative given)
      .ok {
        protocol := specification.id
        routing, performative
        fields := fields.entries }

theorem build_eq_ok_iff {specification : Specification} {performative : String}
    {given : List (String × Value)} {routing : Routing} {message : Message} :
    build specification performative given routing = .ok message ↔
      ∃ schema fields, specification.schema? performative = some schema
        ∧ undeclared? schema given = none
        ∧ schema.traverse (buildField performative given) = .ok fields
        ∧ message = ⟨specification.id, routing, performative,
          fields.entries⟩ := by
  simp only [build, bind, Except.bind]
  cases hschema : specification.schema? performative with
  | none => simp
  | some schema =>
    cases hundeclared : undeclared? schema given with
    | some name => simp [hundeclared]
    | none =>
      cases hfields : schema.traverse (buildField performative given) <;>
        simp [hundeclared, hfields, eq_comm]

theorem routing_of_build {specification : Specification} {performative : String}
    {given : List (String × Value)} {routing : Routing} {message : Message}
    (hbuild : build specification performative given routing = .ok message) :
    message.routing = routing := by
  obtain ⟨schema, fields, -, -, -, rfl⟩ := build_eq_ok_iff.mp hbuild
  rfl

theorem protocol_of_build {specification : Specification} {performative : String}
    {given : List (String × Value)} {routing : Routing} {message : Message}
    (hbuild : build specification performative given routing = .ok message) :
    message.protocol = specification.id := by
  obtain ⟨schema, fields, -, -, -, rfl⟩ := build_eq_ok_iff.mp hbuild
  rfl

end Message

end Colloquy
