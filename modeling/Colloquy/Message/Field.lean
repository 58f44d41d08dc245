import Colloquy.Message

/-!
# Fields of a message by shape

Reading a field of a message as a float, a list of texts or an optional text,
with the errors of a message that has no such field.
-/

namespace Colloquy.Message

/-- The value of a field that has to be there. -/
def requireField (message : Message) (name : String) :
    Except FieldError Value :=
  match message.field? name with
  | some value => .ok value
  | none => .error (.missing message.performative name)

/-- A field of the expected type, as far as `read` can tell. -/
def readField {α : Type} (message : Message) (name : String)
    (expected : FieldType) (read : Value → Option α) : Except FieldError α := do
  let value ← message.requireField name
  match read value with
  | some content => .ok content
  | none => .error (.type name (.mismatch expected value.kind))

def floatField (message : Message) (name : String) :
    Except FieldError Binary64 :=
  message.readField name (.scalar .float) Value.asFloat?

/-- The texts of a list of nothing else. -/
def readTexts? (value : Value) : Option (List String) := do
  (← value.asList?).mapM Value.asStr?

def textsField (message : Message) (name : String) :
    Except FieldError (List String) :=
  message.readField name (.list (.scalar .str)) readTexts?

/-- The text of an optional, if it is present. -/
def readOptionalText? : Value → Option (Option String)
  | .optional none => some none
  | .optional (some (.str text)) => some (some text)
  | _ => none

def optionalTextField (message : Message) (name : String) :
    Except FieldError (Option String) :=
  message.readField name (.optional (.scalar .str)) readOptionalText?

end Colloquy.Message
