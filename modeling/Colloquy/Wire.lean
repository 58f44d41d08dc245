import Colloquy.Value

/-!
# Wire trees

The tree that a field value becomes on the wire, before any schema gives it a
type.  Encoding is directed by the value alone: an optional is an array that
starts with its presence flag, a set is an array, dictionaries and records are
maps.
-/

namespace Colloquy

inductive Wire where
  | nil
  | bool (truth : Bool)
  | int (number : Int64)
  | float (number : Binary64)
  | str (text : String)
  | bin (content : Bytes)
  | array (items : List Wire)
  | map (entries : List (Wire × Wire))
  deriving Repr

/-- The shapes of wire trees, as error texts name them. -/
inductive Wire.Kind where
  | nil
  | bool
  | int
  | float
  | str
  | bin
  | array
  | map
  deriving DecidableEq, Repr

def Wire.Kind.name : Wire.Kind → String
  | nil => "nil"
  | bool => "bool"
  | int => "int"
  | float => "float"
  | str => "str"
  | bin => "bin"
  | array => "array"
  | map => "map"

namespace Wire

instance : Inhabited Wire := ⟨nil⟩

def kind : Wire → Kind
  | nil => .nil
  | bool _ => .bool
  | int _ => .int
  | float _ => .float
  | str _ => .str
  | bin _ => .bin
  | array _ => .array
  | map _ => .map

/-! ## Nesting -/

mutual

/-- How deeply arrays and maps are nested; a map's keys count like its
values. -/
def depth : Wire → Nat
  | array items => depthItems items + 1
  | map entries => depthEntries entries + 1
  | _ => 0

def depthItems : List Wire → Nat
  | [] => 0
  | item :: rest => max (depth item) (depthItems rest)

def depthEntries : List (Wire × Wire) → Nat
  | [] => 0
  | (key, value) :: rest =>
    max (max (depth key) (depth value)) (depthEntries rest)

end

end Wire

/-! ## Values on the wire -/

namespace Key

def toWire : Key → Wire
  | bytes content => .bin content
  | str text => .str text
  | int number => .int number
  | bool truth => .bool truth

theorem toWire_injective : Function.Injective toWire := by
  intro left right heq
  cases left <;> cases right <;> simp_all [toWire]

end Key

namespace Value

mutual

/-- The wire tree of a value. -/
def toWire : Value → Wire
  | bytes content => .bin content
  | str text => .str text
  | int number => .int number
  | float number => .float number
  | bool truth => .bool truth
  | optional inner => .array (toWireOption inner)
  | set keys => .array (keys.map Key.toWire)
  | list items => .array (toWireItems items)
  | dict entries => .map (toWireEntries entries)
  | struct fields => .map (toWireFields fields)

/-- The presence flag, and the value if there is one. -/
def toWireOption : Option Value → List Wire
  | none => [.bool false]
  | some inner => [.bool true, toWire inner]

def toWireItems : List Value → List Wire
  | [] => []
  | item :: rest => toWire item :: toWireItems rest

def toWireEntries : List (Key × Value) → List (Wire × Wire)
  | [] => []
  | (key, value) :: rest => (key.toWire, toWire value) :: toWireEntries rest

def toWireFields : List (String × Value) → List (Wire × Wire)
  | [] => []
  | (name, value) :: rest => (.str name, toWire value) :: toWireFields rest

end

@[simp]
theorem toWire_toValue (key : Key) : key.toValue.toWire = key.toWire := by
  cases key <;> simp [Key.toValue, Key.toWire, toWire]

theorem toWireItems_eq_map (items : List Value) :
    toWireItems items = items.map toWire := by
  induction items with
  | nil => rfl
  | cons item rest ih => simp [toWireItems, ih]

theorem toWireEntries_eq_map (entries : List (Key × Value)) :
    toWireEntries entries =
      entries.map fun entry => (entry.1.toWire, entry.2.toWire) := by
  induction entries with
  | nil => rfl
  | cons entry rest ih => simp [toWireEntries, ih]

theorem toWireFields_eq_map (fields : List (String × Value)) :
    toWireFields fields =
      fields.map fun field => (Wire.str field.1, field.2.toWire) := by
  induction fields with
  | nil => rfl
  | cons field rest ih => simp [toWireFields, ih]

end Value

end Colloquy
