/-!
# Field types

What a field of a speech act may hold.  The types form a closed family:
scalars, optional values, unions, sets, lists, dictionaries and named records.
Their equality is decidable, they are written in one notation, and `check`
tells the well-formed ones from the rest.
-/

namespace Colloquy

inductive Scalar where
  | bytes
  | str
  | int
  | float
  | bool
  deriving DecidableEq, Repr

namespace Scalar

def name : Scalar → String
  | bytes => "bytes"
  | str => "str"
  | int => "int"
  | float => "float"
  | bool => "bool"

/-- Scalars that may be set elements and dictionary keys. -/
def isHashable : Scalar → Bool
  | float => false
  | _ => true

end Scalar

inductive FieldType where
  | scalar (kind : Scalar)
  | optional (inner : FieldType)
  /-- Members are tried in this order when a value is read. -/
  | union (members : List FieldType)
  | set (element : FieldType)
  | list (element : FieldType)
  | dict (key value : FieldType)
  /-- A record with its fields in declaration order. -/
  | struct (name : String) (fields : List (String × FieldType))
  deriving Repr

namespace FieldType

instance : Inhabited FieldType := ⟨scalar .bool⟩

/-! ## Equality -/

mutual

/-- Equality test; `same_iff` shows that it decides equality. -/
def same : FieldType → FieldType → Bool
  | scalar a, scalar b => a == b
  | optional a, optional b => same a b
  | union as, union bs => sameMembers as bs
  | set a, set b => same a b
  | list a, list b => same a b
  | dict a c, dict b d => same a b && same c d
  | struct n as, struct m bs => n == m && sameFields as bs
  | _, _ => false

def sameMembers : List FieldType → List FieldType → Bool
  | [], [] => true
  | a :: as, b :: bs => same a b && sameMembers as bs
  | _, _ => false

def sameFields :
    List (String × FieldType) → List (String × FieldType) → Bool
  | [], [] => true
  | (n, a) :: as, (m, b) :: bs => n == m && same a b && sameFields as bs
  | _, _ => false

end

mutual

theorem same_iff : ∀ a b : FieldType, same a b = true ↔ a = b
  | scalar a, b => by cases b <;> simp [same]
  | optional a, b => by cases b <;> simp [same, same_iff a]
  | union as, b => by cases b <;> simp [same, sameMembers_iff as]
  | set a, b => by cases b <;> simp [same, same_iff a]
  | list a, b => by cases b <;> simp [same, same_iff a]
  | dict a c, b => by cases b <;> simp [same, same_iff a, same_iff c]
  | struct n as, b => by cases b <;> simp [same, sameFields_iff as]

theorem sameMembers_iff :
    ∀ as bs : List FieldType, sameMembers as bs = true ↔ as = bs
  | [], bs => by cases bs <;> simp [sameMembers]
  | a :: as, bs => by
    cases bs <;> simp [sameMembers, same_iff a, sameMembers_iff as]

theorem sameFields_iff :
    ∀ as bs : List (String × FieldType), sameFields as bs = true ↔ as = bs
  | [], bs => by cases bs <;> simp [sameFields]
  | (n, a) :: as, bs => by
    cases bs with
    | nil => simp [sameFields]
    | cons b bs =>
      obtain ⟨m, b⟩ := b
      simp [sameFields, same_iff a, sameFields_iff as]

end

instance : DecidableEq FieldType := fun a b =>
  decidable_of_iff (same a b = true) (same_iff a b)

/-! ## Notation -/

mutual

/-- The notation of a type: `pt:` before built-in names, `ct:` before records. -/
def render : FieldType → String
  | scalar kind => "pt:" ++ kind.name
  | optional inner => "pt:optional[" ++ render inner ++ "]"
  | union members => "pt:union[" ++ renderMembers members ++ "]"
  | set element => "pt:set[" ++ render element ++ "]"
  | list element => "pt:list[" ++ render element ++ "]"
  | dict key value => "pt:dict[" ++ render key ++ ", " ++ render value ++ "]"
  | struct name _ => "ct:" ++ name

/-- Members are set apart by a comma and a space. -/
def renderMembers : List FieldType → String
  | [] => ""
  | [member] => render member
  | member :: next :: rest =>
    render member ++ ", " ++ renderMembers (next :: rest)

end

def isOptional : FieldType → Bool
  | optional _ => true
  | _ => false

/-! ## Well-formedness -/

/-- Where only hashable scalars may stand. -/
inductive KeyPlace where
  | setElement
  | dictKey
  deriving DecidableEq, Repr

def KeyPlace.name : KeyPlace → String
  | setElement => "set element"
  | dictKey => "dict key"

/-- Why a type is not well-formed. -/
inductive Defect where
  | unhashable (place : KeyPlace) (found : FieldType)
  | emptyUnion
  | repeatedMember (member : FieldType)
  | unnamedStruct
  | repeatedField (owner field : String)
  deriving DecidableEq, Repr

def Defect.message : Defect → String
  | unhashable place found =>
    place.name ++ " must be one of pt:bytes, pt:str, pt:int, pt:bool, found "
      ++ found.render
  | emptyUnion => "union has no members"
  | repeatedMember member =>
    "union member " ++ member.render ++ " declared twice"
  | unnamedStruct => "struct has no name"
  | repeatedField owner field =>
    "struct " ++ owner ++ " declares `" ++ field ++ "` twice"

/-- Set elements and dictionary keys are hashable scalars. -/
def checkKey (place : KeyPlace) : FieldType → Except Defect Unit
  | scalar kind =>
    if kind.isHashable then .ok () else .error (.unhashable place (scalar kind))
  | other => .error (.unhashable place other)

mutual

/-- The first defect of a type in reading order, if there is one. -/
def check : FieldType → Except Defect Unit
  | scalar _ => .ok ()
  | optional inner => check inner
  | list element => check element
  | set element => checkKey .setElement element
  | dict key value => do
    checkKey .dictKey key
    check value
  | union [] => .error .emptyUnion
  | union (member :: rest) => do
    check member
    checkMembers [member] rest
  | struct name fields =>
    if name = "" then .error .unnamedStruct else checkFields name [] fields

/-- The members after those in `seen`. -/
def checkMembers (seen : List FieldType) :
    List FieldType → Except Defect Unit
  | [] => .ok ()
  | member :: rest =>
    if member ∈ seen then .error (.repeatedMember member)
    else do
      check member
      checkMembers (member :: seen) rest

/-- The fields of the record `owner` after those named in `seen`. -/
def checkFields (owner : String) (seen : List String) :
    List (String × FieldType) → Except Defect Unit
  | [] => .ok ()
  | (name, type) :: rest =>
    if name ∈ seen then .error (.repeatedField owner name)
    else do
      check type
      checkFields owner (name :: seen) rest

end

end FieldType

end Colloquy
