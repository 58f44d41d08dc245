import Colloquy.Message.Field
import Colloquy.Quantities

/-!
# Negotiation acts

The speech acts of the two-party negotiation as a closed family: a buyer calls
for proposals, a seller proposes, the buyer accepts or declines and the seller
confirms.  `toFields` gives the fields of an act and `ofMessage` the act of a
message.
-/

namespace Colloquy.Negotiation

/-- What the buyer is looking for. -/
structure Query where
  subject : String
  constraints : Quantities
  deriving DecidableEq, Repr

/-- Free text, or structured terms. -/
inductive Conditions where
  | text (content : String)
  | terms (quantities : Quantities)
  deriving DecidableEq, Repr

inductive Act where
  | cfp (query : Query)
  | propose (price : Binary64) (items : List String) (conditions : Conditions)
  | accept
  | decline (reason : Option String)
  | matchAccept
  deriving DecidableEq, Repr

/-! ## Types -/

def quantitiesType : FieldType := .dict (.scalar .str) (.scalar .int)

def queryType : FieldType :=
  .struct "Query" [("subject", .scalar .str), ("constraints", quantitiesType)]

def conditionsType : FieldType := .union [.scalar .str, quantitiesType]

/-! ## Values -/

namespace Query

def toValue (query : Query) : Value :=
  .struct [("subject", .str query.subject),
    ("constraints", query.constraints.toValue)]

def ofValue? (value : Value) : Option Query := do
  let subject ← (← value.field? "subject").asStr?
  let constraints ← Quantities.ofValue? (← value.field? "constraints")
  some { subject, constraints }

end Query

namespace Conditions

def toValue : Conditions → Value
  | text content => .str content
  | terms quantities => quantities.toValue

def ofValue? : Value → Option Conditions
  | .str content => some (text content)
  | value => (Quantities.ofValue? value).map terms

end Conditions

/-! ## Acts and messages -/

namespace Act

def performative : Act → String
  | cfp _ => "cfp"
  | propose .. => "propose"
  | accept => "accept"
  | decline _ => "decline"
  | matchAccept => "match_accept"

/-- The fields of the message that performs an act. -/
def toFields : Act → List (String × Value)
  | cfp query => [("query", query.toValue)]
  | propose price items conditions =>
    [("price", .float price), ("items", .list (items.map .str)),
      ("conditions", conditions.toValue)]
  | accept => []
  | decline reason => [("reason", .optional (reason.map .str))]
  | matchAccept => []

/-- The act that a message performs. -/
def ofMessage (message : Message) : Except FieldError Act :=
  match message.performative with
  | "cfp" => do
    .ok (cfp (← message.readField "query" queryType Query.ofValue?))
  | "propose" => do
    let conditions ←
      message.readField "conditions" conditionsType Conditions.ofValue?
    let price ← message.floatField "price"
    let items ← message.textsField "items"
    .ok (propose price items conditions)
  | "accept" => .ok accept
  | "decline" => do
    .ok (decline (← message.optionalTextField "reason"))
  | "match_accept" => .ok matchAccept
  | performative => .error (.unknownPerformative performative)

/-- What a call for proposals is about. -/
def subject? : Act → Option String
  | cfp query => some query.subject
  | _ => none

end Act

end Colloquy.Negotiation
