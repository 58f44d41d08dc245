import Colloquy.Binary64
import Colloquy.Bytes

/-!
# MessagePack tokens

A MessagePack item is a token, followed by as many further items as the token
announces.  Tokens are written in their shortest form and read in any form.
Integers keep the sign class of their encoding, because a reader may want
unsigned ones only.  Extensions carry bytes that only their kind explains.
-/

namespace Colloquy.MessagePack

inductive Token where
  | nil
  | bool (truth : Bool)
  | uint (number : UInt64)
  | sint (number : Int64)
  | float (number : Binary64)
  | str (text : String)
  | bin (content : Bytes)
  | ext (kind : UInt8) (content : Bytes)
  /-- The header of an array: this many items follow. -/
  | array (size : Nat)
  /-- The header of a map: this many keys follow, each with its value. -/
  | map (size : Nat)
  deriving DecidableEq, Repr

namespace Token

/-! ## Writing -/

/-- The smallest encoding of an unsigned integer. -/
def writeUint (number : Nat) : Bytes :=
  if number < 0x80 then [UInt8.ofNat number]
  else if number < Bytes.capacity 1 then 0xCC :: Bytes.bigEndian 1 number
  else if number < Bytes.capacity 2 then 0xCD :: Bytes.bigEndian 2 number
  else if number < Bytes.capacity 4 then 0xCE :: Bytes.bigEndian 4 number
  else 0xCF :: Bytes.bigEndian 8 number

/-- The smallest encoding of an integer: the unsigned one unless it is
negative, and two's complement then. -/
def writeInt (number : Int64) : Bytes :=
  let digits := number.toUInt64.toNat
  if 0 ≤ number then writeUint digits
  else if -32 ≤ number then Bytes.bigEndian 1 digits
  else if -128 ≤ number then 0xD0 :: Bytes.bigEndian 1 digits
  else if -32768 ≤ number then 0xD1 :: Bytes.bigEndian 2 digits
  else if -2147483648 ≤ number then 0xD2 :: Bytes.bigEndian 4 digits
  else 0xD3 :: Bytes.bigEndian 8 digits

def writeText (content : Bytes) : Bytes :=
  let size := content.length
  if size < 32 then UInt8.ofNat (0xA0 + size) :: content
  else if size < Bytes.capacity 1 then 0xD9 :: Bytes.bigEndian 1 size ++ content
  else if size < Bytes.capacity 2 then 0xDA :: Bytes.bigEndian 2 size ++ content
  else 0xDB :: Bytes.bigEndian 4 size ++ content

def writeBin (content : Bytes) : Bytes :=
  let size := content.length
  if size < Bytes.capacity 1 then 0xC4 :: Bytes.bigEndian 1 size ++ content
  else if size < Bytes.capacity 2 then 0xC5 :: Bytes.bigEndian 2 size ++ content
  else 0xC6 :: Bytes.bigEndian 4 size ++ content

/-- The size of an extension: five sizes have lead bytes of their own. -/
def writeExtSize (size : Nat) : Bytes :=
  if size = 1 then [0xD4]
  else if size = 2 then [0xD5]
  else if size = 4 then [0xD6]
  else if size = 8 then [0xD7]
  else if size = 16 then [0xD8]
  else if size < Bytes.capacity 1 then 0xC7 :: Bytes.bigEndian 1 size
  else if size < Bytes.capacity 2 then 0xC8 :: Bytes.bigEndian 2 size
  else 0xC9 :: Bytes.bigEndian 4 size

def writeExt (kind : UInt8) (content : Bytes) : Bytes :=
  writeExtSize content.length ++ kind :: content

def writeArray (size : Nat) : Bytes :=
  if size < 16 then [UInt8.ofNat (0x90 + size)]
  else if size < Bytes.capacity 2 then 0xDC :: Bytes.bigEndian 2 size
  else 0xDD :: Bytes.bigEndian 4 size

def writeMap (size : Nat) : Bytes :=
  if size < 16 then [UInt8.ofNat (0x80 + size)]
  else if size < Bytes.capacity 2 then 0xDE :: Bytes.bigEndian 2 size
  else 0xDF :: Bytes.bigEndian 4 size

def write : Token → Bytes
  | nil => [0xC0]
  | bool truth => [if truth then 0xC3 else 0xC2]
  | uint number => writeUint number.toNat
  | sint number => writeInt number
  | float number => 0xCB :: Bytes.bigEndian 8 number.bits.toNat
  | str text => writeText (Bytes.ofText text)
  | bin content => writeBin content
  | ext kind content => writeExt kind content
  | array size => writeArray size
  | map size => writeMap size

/-! ## Reading -/

/-- A text, or its bytes when they are not UTF-8. -/
def ofContent (content : Bytes) : Token :=
  match Bytes.text? content with
  | some text => .str text
  | none => .bin content

/-- A number of `width` bytes from the front. -/
def readNumber? (width : Nat) (bytes : Bytes) : Option (Nat × Bytes) := do
  let (digits, rest) ← Bytes.splitAt? width bytes
  some (Bytes.toNat digits, rest)

def readUint? (width : Nat) (bytes : Bytes) : Option (Token × Bytes) := do
  let (number, rest) ← readNumber? width bytes
  some (.uint number.toUInt64, rest)

/-- A two's complement integer of `width` bytes from the front. -/
def readSint? (width : Nat) (bytes : Bytes) : Option (Token × Bytes) := do
  let (number, rest) ← readNumber? width bytes
  some (.sint (Int64.ofInt (Int.bmod number (Bytes.capacity width))), rest)

/-- A text of a known size. -/
def readText? (size : Nat) (bytes : Bytes) : Option (Token × Bytes) := do
  let (content, rest) ← Bytes.splitAt? size bytes
  some (ofContent content, rest)

/-- A text whose size takes `width` bytes. -/
def readSizedText? (width : Nat) (bytes : Bytes) : Option (Token × Bytes) := do
  let (size, rest) ← readNumber? width bytes
  readText? size rest

/-- A byte string whose size takes `width` bytes. -/
def readSizedBin? (width : Nat) (bytes : Bytes) : Option (Token × Bytes) := do
  let (size, rest) ← readNumber? width bytes
  let (content, rest) ← Bytes.splitAt? size rest
  some (.bin content, rest)

/-- An extension whose content has a known size. -/
def readExt? (size : Nat) : Bytes → Option (Token × Bytes)
  | [] => none
  | kind :: rest => do
    let (content, rest) ← Bytes.splitAt? size rest
    some (.ext kind content, rest)

/-- An extension whose size takes `width` bytes. -/
def readSizedExt? (width : Nat) (bytes : Bytes) : Option (Token × Bytes) := do
  let (size, rest) ← readNumber? width bytes
  readExt? size rest

/-- A header whose size takes `width` bytes. -/
def readHeader? (header : Nat → Token) (width : Nat) (bytes : Bytes) :
    Option (Token × Bytes) := do
  let (size, rest) ← readNumber? width bytes
  some (header size, rest)

/-- The token that the lead bytes `0xC0` to `0xDF` announce. -/
def readLong? (lead : Nat) (rest : Bytes) : Option (Token × Bytes) :=
  match lead with
  | 0xC0 => some (.nil, rest)
  | 0xC2 => some (.bool false, rest)
  | 0xC3 => some (.bool true, rest)
  | 0xC4 => readSizedBin? 1 rest
  | 0xC5 => readSizedBin? 2 rest
  | 0xC6 => readSizedBin? 4 rest
  | 0xC7 => readSizedExt? 1 rest
  | 0xC8 => readSizedExt? 2 rest
  | 0xC9 => readSizedExt? 4 rest
  | 0xCA => do
    let (bits, rest) ← readNumber? 4 rest
    some (.float (.ofSingle bits.toUInt32), rest)
  | 0xCB => do
    let (bits, rest) ← readNumber? 8 rest
    some (.float ⟨bits.toUInt64⟩, rest)
  | 0xCC => readUint? 1 rest
  | 0xCD => readUint? 2 rest
  | 0xCE => readUint? 4 rest
  | 0xCF => readUint? 8 rest
  | 0xD0 => readSint? 1 rest
  | 0xD1 => readSint? 2 rest
  | 0xD2 => readSint? 4 rest
  | 0xD3 => readSint? 8 rest
  | 0xD4 => readExt? 1 rest
  | 0xD5 => readExt? 2 rest
  | 0xD6 => readExt? 4 rest
  | 0xD7 => readExt? 8 rest
  | 0xD8 => readExt? 16 rest
  | 0xD9 => readSizedText? 1 rest
  | 0xDA => readSizedText? 2 rest
  | 0xDB => readSizedText? 4 rest
  | 0xDC => readHeader? .array 2 rest
  | 0xDD => readHeader? .array 4 rest
  | 0xDE => readHeader? .map 2 rest
  | 0xDF => readHeader? .map 4 rest
  | _ => none

/-- The token at the front of a byte string, and the rest. -/
def read? : Bytes → Option (Token × Bytes)
  | [] => none
  | first :: rest =>
    let lead := first.toNat
    if lead < 0x80 then some (.uint first.toUInt64, rest)
    else if lead < 0x90 then some (.map (lead - 0x80), rest)
    else if lead < 0xA0 then some (.array (lead - 0x90), rest)
    else if lead < 0xC0 then readText? (lead - 0xA0) rest
    else if lead < 0xE0 then readLong? lead rest
    else some (.sint (Int64.ofInt (lead - 256 : Int)), rest)

end Token

/-! ## Repetition -/

section Times

variable {α ε : Type} (item : Bytes → Except ε (α × Bytes))

/-- Read `count` items, onto the reversed list of those read before. -/
def timesOnto : Nat → List α → Bytes → Except ε (List α × Bytes)
  | 0, read, bytes => .ok (read.reverse, bytes)
  | count + 1, read, bytes =>
    match item bytes with
    | .ok (value, rest) => timesOnto count (value :: read) rest
    | .error fault => .error fault

/-- Read `count` items, one after the other. -/
def times (count : Nat) (bytes : Bytes) : Except ε (List α × Bytes) :=
  timesOnto item count [] bytes

theorem timesOnto_eq (count : Nat) (read : List α) (bytes : Bytes) :
    timesOnto item count read bytes =
      (times item count bytes).map fun result =>
        (read.reverse ++ result.1, result.2) := by
  induction count generalizing read bytes with
  | zero => simp [times, timesOnto, Except.map]
  | succ count ih =>
    simp only [times, timesOnto]
    cases item bytes with
    | error fault => rfl
    | ok result =>
      obtain ⟨value, rest⟩ := result
      simp only []
      rw [ih (value :: read), ih [value]]
      cases times item count rest <;> simp [Except.map]

@[simp]
theorem times_zero (bytes : Bytes) : times item 0 bytes = .ok ([], bytes) := rfl

theorem times_succ (count : Nat) (bytes : Bytes) :
    times item (count + 1) bytes =
      match item bytes with
      | .error fault => .error fault
      | .ok (value, rest) =>
        match times item count rest with
        | .error fault => .error fault
        | .ok (values, rest) => .ok (value :: values, rest) := by
  simp only [times, timesOnto]
  cases item bytes with
  | error fault => rfl
  | ok result =>
    obtain ⟨value, rest⟩ := result
    simp only [timesOnto_eq item count [value]]
    cases hrest : times item count rest <;> simp_all [times, Except.map]

end Times

end Colloquy.MessagePack
