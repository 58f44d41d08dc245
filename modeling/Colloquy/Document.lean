import Colloquy.OrderedMap

/-!
# Documents

The tree that a JSON or YAML text stands for, as far as the text could be read:
what broke off is marked, so that whoever uses a document in reading order
meets its faults in the order in which they stand in the text.

The second half reads documents as texts, lists, mappings and records.
-/

namespace Colloquy

inductive Document where
  | null
  | bool (truth : Bool)
  /-- A number, as it was written. -/
  | number (literal : String)
  /-- A text of which every character is certain. -/
  | text (content : String)
  /-- A text that cannot be used, because half of a character is missing. -/
  | unpaired
  /-- A scalar without quotes, which stands for whatever its reader wants. -/
  | plain (content : String)
  /-- A sequence, and whether its end was found. -/
  | sequence (items : List Document) (ended : Bool)
  /-- A mapping with its entries in order, and whether its end was found. -/
  | mapping (entries : List (Document × Document)) (ended : Bool)
  /-- The text broke off before anything could be read. -/
  | broken
  deriving Repr, Inhabited

namespace Document

/-- Why a document is not of the wanted shape. -/
inductive Fault where
  | malformed
  | duplicateKey (key : String)
  | missingField (name : String)
  | unknownField (name : String)
  | duplicateField (name : String)
  deriving DecidableEq, Repr

/-- The explanation that follows the name of what could not be read. -/
def Fault.detail : Fault → String
  | malformed => ""
  | duplicateKey key => ": duplicate key `" ++ key ++ "`"
  | missingField name => ": missing field `" ++ name ++ "`"
  | unknownField name => ": unknown field `" ++ name ++ "`"
  | duplicateField name => ": duplicate field `" ++ name ++ "`"

/-! ## Writing -/

/-- A complete sequence. -/
def ofList (items : List Document) : Document := sequence items true

/-- A complete mapping. -/
def ofEntries (entries : List (String × Document)) : Document :=
  mapping (entries.map fun entry => (text entry.1, entry.2)) true

def ofNat (number : Nat) : Document := Document.number (toString number)

/-- A mapping of the images of the values of an ordered map. -/
def ofOrderedMap {ν : Type} (value : ν → Document) (map : OrderedMap String ν) :
    Document :=
  ofEntries (map.mapValues value).entries

/-! ## Reading -/

def isNull : Document → Bool
  | null => true
  | plain content => content ∈ ["", "~", "null", "Null", "NULL"]
  | _ => false

def asText : Document → Except Fault String
  | text content => .ok content
  | plain content => .ok content
  | _ => .error .malformed

/-- A null document is no value. -/
def asOption {α : Type} (value : Document → Except Fault α)
    (document : Document) : Except Fault (Option α) :=
  if document.isNull then .ok none else (value document).map some

/-- The end of a sequence or mapping, if it was found. -/
def requireEnd (ended : Bool) : Except Fault Unit :=
  if ended then .ok () else .error .malformed

/-- A sequence, or an empty scalar, as a list. -/
def asList {α : Type} (item : Document → Except Fault α) :
    Document → Except Fault (List α)
  | sequence items ended => do
    let values ← items.mapM item
    requireEnd ended
    .ok values
  | plain "" => .ok []
  | _ => .error .malformed

section Mapping

variable {ν : Type} (value : Document → Except Fault ν)

/-- Entries in reading order; a key that was there already is noticed after
its value. -/
def readEntries (seen : OrderedMap String ν) :
    List (Document × Document) → Except Fault (OrderedMap String ν)
  | [] => .ok seen
  | (key, document) :: rest => do
    let key ← asText key
    let content ← value document
    if seen.contains key then .error (.duplicateKey key)
    else readEntries (seen.insertNew key content) rest

/-- A mapping without repeated keys, or nothing, as an ordered map. -/
def asOrderedMap (document : Document) : Except Fault (OrderedMap String ν) :=
  if document.isNull then .ok ∅
  else
    match document with
    | mapping entries ended => do
      let map ← readEntries value ∅ entries
      requireEnd ended
      .ok map
    | _ => .error .malformed

end Mapping

/-! ## Records -/

/-- The documents under some of the keys of a mapping; other keys do not
matter, but each of these occurs at most once. -/
def readFields (names : List String) (seen : OrderedMap String Document) :
    List (Document × Document) → Except Fault (OrderedMap String Document)
  | [] => .ok seen
  | (key, document) :: rest => do
    let key ← asText key
    if key ∉ names then readFields names seen rest
    else if seen.contains key then .error (.duplicateField key)
    else readFields names (seen.insertNew key document) rest

/-- The documents of the named fields of a record: a mapping from names, or
the sequence of exactly these fields. -/
def asRecord (names : List String) :
    Document → Except Fault (OrderedMap String Document)
  | sequence items ended => do
    requireEnd ended
    if items.length = names.length then .ok (.ofList (names.zip items))
    else .error .malformed
  | mapping entries ended => do
    let fields ← readFields names ∅ entries
    requireEnd ended
    .ok fields
  | _ => .error .malformed

/-- A field of a record that has to be there. -/
def require (fields : OrderedMap String Document) (name : String) :
    Except Fault Document :=
  match fields.get? name with
  | some document => .ok document
  | none => .error (.missingField name)

/-- A text field of a record. -/
def requireText (fields : OrderedMap String Document) (name : String) :
    Except Fault String := do
  asText (← require fields name)

/-- A number without sign, point or exponent, below 2⁶⁴. -/
def asUInt64 : Document → Except Fault UInt64
  | number literal =>
    match (if literal.all Char.isDigit then literal.toNat? else none) with
    | some value =>
      if value < UInt64.size then .ok value.toUInt64 else .error .malformed
    | none => .error .malformed
  | _ => .error .malformed

def requireUInt64 (fields : OrderedMap String Document) (name : String) :
    Except Fault UInt64 := do
  asUInt64 (← require fields name)

end Document

end Colloquy
