import Colloquy.MessagePack.Token
import Colloquy.Wire

/-!
# Wire trees in MessagePack

`Wire.write` gives the bytes of a tree, `Wire.readExact` the tree of a byte
string that holds nothing else.  A reader accepts at most `maxNestingDepth`
levels of arrays and maps and notices one too many at its header, before it
looks at the contents.  Extensions have no place in a tree.
-/

namespace Colloquy

/-- How deeply arrays and maps may be nested in one field value. -/
def maxNestingDepth : Nat := 64

namespace MessagePack

/-- Why a byte string is no payload of the wanted shape. -/
inductive Fault where
  /-- It is not MessagePack, or not of the wanted shape. -/
  | malformed
  | tooDeep
  | outOfRange (number : UInt64)
  /-- Something is left after the payload. -/
  | trailing (count : Nat)
  deriving DecidableEq, Repr

/-- One token, or a fault if there is none. -/
def readToken (bytes : Bytes) : Except Fault (Token × Bytes) :=
  match Token.read? bytes with
  | some result => .ok result
  | none => .error .malformed

/-- What a reader finds in a byte string that it has to use up. -/
def exactly {α : Type} (item : Bytes → Except Fault (α × Bytes))
    (bytes : Bytes) : Except Fault α := do
  let (value, rest) ← item bytes
  if rest = [] then .ok value else .error (.trailing rest.length)

/-- Two items in a row. -/
def readPair {α β : Type} (left : Bytes → Except Fault (α × Bytes))
    (right : Bytes → Except Fault (β × Bytes)) (bytes : Bytes) :
    Except Fault ((α × β) × Bytes) := do
  let (a, rest) ← left bytes
  let (b, rest) ← right rest
  .ok ((a, b), rest)

end MessagePack

namespace Wire

open MessagePack

/-! ## Writing -/

mutual

/-- The bytes of a wire tree. -/
def write : Wire → Bytes
  | nil => Token.nil.write
  | bool truth => (Token.bool truth).write
  | int number => (Token.sint number).write
  | float number => (Token.float number).write
  | str text => (Token.str text).write
  | bin content => (Token.bin content).write
  | array items => (Token.array items.length).write ++ writeItems items
  | map entries => (Token.map entries.length).write ++ writeEntries entries

def writeItems : List Wire → Bytes
  | [] => []
  | item :: rest => write item ++ writeItems rest

def writeEntries : List (Wire × Wire) → Bytes
  | [] => []
  | (key, value) :: rest => write key ++ (write value ++ writeEntries rest)

end

theorem writeItems_eq_flatMap (items : List Wire) :
    writeItems items = items.flatMap write := by
  induction items with
  | nil => rfl
  | cons item rest ih => simp [writeItems, ih]

theorem writeEntries_eq_flatMap (entries : List (Wire × Wire)) :
    writeEntries entries =
      entries.flatMap fun entry => write entry.1 ++ write entry.2 := by
  induction entries with
  | nil => rfl
  | cons entry rest ih => simp [writeEntries, ih]

/-! ## Reading -/

/-- The tree that begins with a token.  Arrays and maps are read with `nested`;
without it there is no level left for them. -/
def readContent (nested : Option (Bytes → Except Fault (Wire × Bytes))) :
    Token → Bytes → Except Fault (Wire × Bytes)
  | .nil, rest => .ok (nil, rest)
  | .bool truth, rest => .ok (bool truth, rest)
  | .uint number, rest =>
    if number.toNat < 0x8000000000000000 then .ok (int number.toInt64, rest)
    else .error (.outOfRange number)
  | .sint number, rest => .ok (int number, rest)
  | .float number, rest => .ok (float number, rest)
  | .str text, rest => .ok (str text, rest)
  | .bin content, rest => .ok (bin content, rest)
  | .ext _ _, _ => .error .malformed
  | .array size, rest =>
    match nested with
    | some item => do
      let (items, rest) ← times item size rest
      .ok (array items, rest)
    | none => .error .tooDeep
  | .map size, rest =>
    match nested with
    | some item => do
      let (entries, rest) ← times (readPair item item) size rest
      .ok (map entries, rest)
    | none => .error .tooDeep

/-- The tree at the front of a byte string, with at most the given number of
levels, and the rest. -/
def read : (levels : Nat) → Bytes → Except Fault (Wire × Bytes)
  | 0, bytes => do
    let (token, rest) ← readToken bytes
    readContent none token rest
  | levels + 1, bytes => do
    let (token, rest) ← readToken bytes
    readContent (some (read levels)) token rest

/-- The tree that a byte string holds. -/
def readExact (bytes : Bytes) : Except Fault Wire :=
  exactly (read maxNestingDepth) bytes

end Wire

end Colloquy
