import Colloquy.Binary64
import Colloquy.Key
import Colloquy.OrderedMap

/-!
# Field values

Values of the fields of a speech act.  A set lists its keys in increasing order;
a dictionary keeps the order in which its keys were added and repeats none.
-/

namespace Colloquy

inductive Value where
  | bytes (content : Bytes)
  | str (text : String)
  | int (number : Int64)
  | float (number : Binary64)
  | bool (truth : Bool)
  | optional (inner : Option Value)
  | set (keys : List Key)
  | list (items : List Value)
  | dict (entries : List (Key × Value))
  /-- Field values in the declaration order of the record. -/
  | struct (fields : List (String × Value))
  deriving Repr

/-- The shapes of values, as error texts name them. -/
inductive Value.Kind where
  | bytes
  | str
  | int
  | float
  | bool
  | optional
  | set
  | list
  | dict
  | struct
  deriving DecidableEq, Repr

def Value.Kind.name : Value.Kind → String
  | bytes => "bytes"
  | str => "str"
  | int => "int"
  | float => "float"
  | bool => "bool"
  | optional => "optional"
  | set => "set"
  | list => "list"
  | dict => "dict"
  | struct => "struct"

/-! ## Keys -/

namespace Key

def toValue : Key → Value
  | bytes content => .bytes content
  | str text => .str text
  | int number => .int number
  | bool truth => .bool truth

def kind : Key → Value.Kind
  | bytes _ => .bytes
  | str _ => .str
  | int _ => .int
  | bool _ => .bool

end Key

/-! ## Views of a value -/

namespace Value

instance : Inhabited Value := ⟨bool false⟩

def kind : Value → Kind
  | bytes _ => .bytes
  | str _ => .str
  | int _ => .int
  | float _ => .float
  | bool _ => .bool
  | optional _ => .optional
  | set _ => .set
  | list _ => .list
  | dict _ => .dict
  | struct _ => .struct

/-- An absent optional. -/
def absent : Value := optional none

/-- A present optional. -/
def present (inner : Value) : Value := optional (some inner)

/-- The set of the given keys. -/
def setOf (keys : List Key) : Value := set (Key.sort keys)

/-- The dictionary of the given entries: a repeated key stays in its first
place and takes its last value. -/
def dictOf (entries : List (Key × Value)) : Value :=
  dict (entries.foldl (fun map entry => OrderedMap.assign entry.1 entry.2 map) [])

/-- A value as a set element or dictionary key. -/
def toKey? : Value → Option Key
  | bytes content => some (.bytes content)
  | str text => some (.str text)
  | int number => some (.int number)
  | bool truth => some (.bool truth)
  | _ => none

@[simp]
theorem toKey?_toValue (key : Key) : key.toValue.toKey? = some key := by
  cases key <;> rfl

theorem eq_toValue_of_toKey? {value : Value} {key : Key}
    (hkey : value.toKey? = some key) : value = key.toValue := by
  cases value <;> simp_all [toKey?, Key.toValue] <;> subst hkey <;> rfl

@[simp]
theorem kind_toValue (key : Key) : key.toValue.kind = key.kind := by
  cases key <;> rfl

def asBytes? : Value → Option Bytes
  | bytes content => some content
  | _ => none

def asStr? : Value → Option String
  | str text => some text
  | _ => none

def asInt? : Value → Option Int64
  | int number => some number
  | _ => none

def asFloat? : Value → Option Binary64
  | float number => some number
  | _ => none

def asBool? : Value → Option Bool
  | bool truth => some truth
  | _ => none

def asOptional? : Value → Option (Option Value)
  | optional inner => some inner
  | _ => none

def asSet? : Value → Option (List Key)
  | set keys => some keys
  | _ => none

def asList? : Value → Option (List Value)
  | list items => some items
  | _ => none

def asDict? : Value → Option (List (Key × Value))
  | dict entries => some entries
  | _ => none

/-- The value of a field of a record. -/
def field? (name : String) : Value → Option Value
  | struct fields => OrderedMap.lookup name fields
  | _ => none

/-! ## Equality of values -/

mutual

/-- Numeric and extensional equality: floats compare as numbers, dictionaries
without regard to order, all else part by part. -/
def equal : Value → Value → Bool
  | bytes a, bytes b => a == b
  | str a, str b => a == b
  | int a, int b => a == b
  | float a, float b => a.equal b
  | bool a, bool b => a == b
  | optional a, optional b => equalOption a b
  | set a, set b => a == b
  | list a, list b => equalItems a b
  | dict a, dict b => a.length == b.length && equalEntries a b
  | struct a, struct b => equalFields a b
  | _, _ => false

def equalOption : Option Value → Option Value → Bool
  | none, none => true
  | some a, some b => equal a b
  | _, _ => false

def equalItems : List Value → List Value → Bool
  | [], [] => true
  | a :: as, b :: bs => equal a b && equalItems as bs
  | _, _ => false

/-- Every entry of the first list has an equal value under its key in the
second. -/
def equalEntries : List (Key × Value) → List (Key × Value) → Bool
  | [], _ => true
  | (key, a) :: as, bs =>
    (match OrderedMap.lookup key bs with
      | some b => equal a b
      | none => false) && equalEntries as bs

def equalFields : List (String × Value) → List (String × Value) → Bool
  | [], [] => true
  | (n, a) :: as, (m, b) :: bs => n == m && equal a b && equalFields as bs
  | _, _ => false

end

/-! ## Proper values -/

mutual

/-- Every set lists its keys in increasing order and no dictionary repeats a
key, at every depth. -/
def IsProper : Value → Prop
  | optional inner => IsProperOption inner
  | set keys => Key.Increasing keys
  | list items => AreProper items
  | dict entries => (entries.map Prod.fst).Nodup ∧ AreProperEntries entries
  | struct fields => AreProperFields fields
  | _ => True

def IsProperOption : Option Value → Prop
  | none => True
  | some inner => IsProper inner

def AreProper : List Value → Prop
  | [] => True
  | item :: rest => IsProper item ∧ AreProper rest

def AreProperEntries : List (Key × Value) → Prop
  | [] => True
  | (_, value) :: rest => IsProper value ∧ AreProperEntries rest

def AreProperFields : List (String × Value) → Prop
  | [] => True
  | (_, value) :: rest => IsProper value ∧ AreProperFields rest

end

theorem areProper_iff {items : List Value} :
    AreProper items ↔ ∀ item ∈ items, IsProper item := by
  induction items with
  | nil => simp [AreProper]
  | cons item rest ih => simp [AreProper, ih]

theorem areProperEntries_iff {entries : List (Key × Value)} :
    AreProperEntries entries ↔ ∀ entry ∈ entries, IsProper entry.2 := by
  induction entries with
  | nil => simp [AreProperEntries]
  | cons entry rest ih => simp [AreProperEntries, ih]

theorem areProperFields_iff {fields : List (String × Value)} :
    AreProperFields fields ↔ ∀ field ∈ fields, IsProper field.2 := by
  induction fields with
  | nil => simp [AreProperFields]
  | cons field rest ih => simp [AreProperFields, ih]

end Value

end Colloquy
