import Colloquy.Document

/-!
# JSON texts

`Document.toJson` writes a document compactly, with no white space and with
escapes for quotes, backslashes and control characters only; `Document.ofJson`
reads a JSON text strictly.

The reader hands back what it read and the rest of the text, or no rest when
the text broke off.  Its fuel is the length of the text, which is enough
because every step consumes a character.
-/

namespace Colloquy.Document

/-! ## Writing -/

/-- The character that stands for a control character in a short escape. -/
def shortEscapes : List (Char × Char) :=
  [('"', '"'), ('\\', '\\'), ('b', '\x08'), ('f', '\x0C'), ('n', '\n'),
    ('r', '\r'), ('t', '\t')]

def hexDigit (digit : Nat) : Char :=
  Char.ofNat (if digit < 10 then digit + 48 else digit + 87)

/-- A character as it stands between quotes. -/
def escape (c : Char) : List Char :=
  match shortEscapes.find? fun pair => pair.2 = c with
  | some pair => ['\\', pair.1]
  | none =>
    if c.toNat < 0x20 then
      ['\\', 'u', '0', '0', hexDigit (c.toNat / 16), hexDigit (c.toNat % 16)]
    else [c]

def quote (content : String) : String :=
  "\"" ++ String.ofList (content.toList.flatMap escape) ++ "\""

mutual

/-- The JSON text of a document. -/
def toJson : Document → String
  | null => "null"
  | bool truth => if truth then "true" else "false"
  | number literal => literal
  | text content => quote content
  | unpaired => quote ""
  | plain content => quote content
  | sequence items _ => "[" ++ toJsonItems items ++ "]"
  | mapping entries _ => "\x7b" ++ toJsonEntries entries ++ "\x7d"
  | broken => "null"

def toJsonItems : List Document → String
  | [] => ""
  | [item] => toJson item
  | item :: rest => toJson item ++ "," ++ toJsonItems rest

def toJsonEntries : List (Document × Document) → String
  | [] => ""
  | [(key, value)] => toJson key ++ ":" ++ toJson value
  | (key, value) :: rest =>
    toJson key ++ ":" ++ toJson value ++ "," ++ toJsonEntries rest

end

/-! ## Characters -/

def isJsonBlank (c : Char) : Bool :=
  c = ' ' || c = '\t' || c = '\n' || c = '\r'

def skipJsonBlank (source : List Char) : List Char :=
  source.dropWhile isJsonBlank

def hexValue? (c : Char) : Option Nat :=
  if c.isDigit then some (c.toNat - 48)
  else if 'a' ≤ c ∧ c ≤ 'f' then some (c.toNat - 87)
  else if 'A' ≤ c ∧ c ≤ 'F' then some (c.toNat - 55)
  else none

/-- The number that hexadecimal digits denote. -/
def hexNumber? (digits : List Char) : Option Nat :=
  digits.foldlM (fun number c => (hexValue? c).map (16 * number + ·)) 0

/-! ## Quoted texts -/

/-- A quoted text as far as it was read.  An escape denotes a code unit, and a
character beyond the basic plane takes two of them. -/
structure Quoted where
  /-- The characters, the last one first; nothing once half of a pair was met. -/
  chars : Option (List Char)
  /-- The first code unit of a pair whose second has to follow. -/
  high : Option Nat

namespace Quoted

def empty : Quoted := ⟨some [], none⟩

/-- A text with half of a pair in it. -/
def spoilt : Quoted := ⟨none, none⟩

def push (c : Char) : Quoted → Quoted
  | ⟨chars, none⟩ => ⟨chars.map (c :: ·), none⟩
  | ⟨_, some _⟩ => spoilt

def pushUnit (unit : Nat) : Quoted → Quoted
  | ⟨chars, some high⟩ =>
    if 0xDC00 ≤ unit ∧ unit ≤ 0xDFFF then
      let c := 0x10000 + 0x400 * (high - 0xD800) + (unit - 0xDC00)
      push (Char.ofNat c) ⟨chars, none⟩
    else spoilt
  | ⟨chars, none⟩ =>
    if 0xD800 ≤ unit ∧ unit ≤ 0xDBFF then ⟨chars, some unit⟩
    else if 0xDC00 ≤ unit ∧ unit ≤ 0xDFFF then spoilt
    else push (Char.ofNat unit) ⟨chars, none⟩

def toDocument : Quoted → Document
  | ⟨some chars, none⟩ => text (String.ofList chars.reverse)
  | _ => unpaired

end Quoted

/-- The character that a short escape denotes. -/
def unescape? (c : Char) : Option Char :=
  if c = '/' then some c
  else (shortEscapes.find? fun pair => pair.1 = c).map Prod.snd

/-- The rest of a quoted text, up to the closing quote. -/
def readQuoted (read : Quoted) : List Char → Document × Option (List Char)
  | '"' :: rest => (read.toDocument, some rest)
  | '\\' :: 'u' :: a :: b :: c :: d :: rest =>
    match hexNumber? [a, b, c, d] with
    | some unit => readQuoted (read.pushUnit unit) rest
    | none => (broken, none)
  | '\\' :: c :: rest =>
    match unescape? c with
    | some char => readQuoted (read.push char) rest
    | none => (broken, none)
  | c :: rest =>
    if c.toNat < 0x20 then (broken, none) else readQuoted (read.push c) rest
  | [] => (broken, none)

/-! ## Numbers -/

/-- One digit at least, and the rest. -/
def readDigits? (source : List Char) : Option (List Char × List Char) :=
  match source.takeWhile Char.isDigit with
  | [] => none
  | digits => some (digits, source.dropWhile Char.isDigit)

/-- The digits before the point: no zero stands before another digit. -/
def readWhole? : List Char → Option (List Char × List Char)
  | '0' :: rest =>
    match rest with
    | c :: _ => if c.isDigit then none else some (['0'], rest)
    | [] => some (['0'], rest)
  | source => readDigits? source

/-- The point and the digits after it, if there is a point. -/
def readFraction? : List Char → Option (List Char × List Char)
  | '.' :: rest => do
    let (digits, rest) ← readDigits? rest
    some ('.' :: digits, rest)
  | rest => some ([], rest)

/-- The exponent, if there is one. -/
def readExponent? : List Char → Option (List Char × List Char)
  | c :: rest =>
    if c = 'e' ∨ c = 'E' then
      let (sign, rest) :=
        match rest with
        | '+' :: rest => (['+'], rest)
        | '-' :: rest => (['-'], rest)
        | rest => ([], rest)
      match readDigits? rest with
      | some (digits, rest) => some (c :: sign ++ digits, rest)
      | none => none
    else some ([], c :: rest)
  | [] => some ([], [])

def readNumber? (source : List Char) : Option (List Char × List Char) := do
  let (sign, rest) :=
    match source with
    | '-' :: rest => (['-'], rest)
    | rest => ([], rest)
  let (whole, rest) ← readWhole? rest
  let (fraction, rest) ← readFraction? rest
  let (exponent, rest) ← readExponent? rest
  some (sign ++ whole ++ fraction ++ exponent, rest)

/-! ## Documents -/

mutual

/-- One JSON value from the front of a text. -/
def readJson : Nat → List Char → Document × Option (List Char)
  | 0, _ => (broken, none)
  | fuel + 1, source =>
    match skipJsonBlank source with
    | '\x7b' :: rest => readMembers fuel [] true rest
    | '[' :: rest => readItems fuel [] true rest
    | '"' :: rest => readQuoted .empty rest
    | 't' :: 'r' :: 'u' :: 'e' :: rest => (bool true, some rest)
    | 'f' :: 'a' :: 'l' :: 's' :: 'e' :: rest => (bool false, some rest)
    | 'n' :: 'u' :: 'l' :: 'l' :: rest => (null, some rest)
    | source =>
      match readNumber? source with
      | some (literal, rest) => (number (String.ofList literal), some rest)
      | none => (broken, none)

/-- The items of an array after those in `read`, the last one first. -/
def readItems : Nat → List Document → (first : Bool) → List Char →
    Document × Option (List Char)
  | 0, read, _, _ => (sequence read.reverse false, none)
  | fuel + 1, read, first, source =>
    match first, skipJsonBlank source with
    | true, ']' :: rest => (sequence [] true, some rest)
    | _, source =>
      match readJson fuel source with
      | (item, none) => (sequence (item :: read).reverse false, none)
      | (item, some rest) =>
        match skipJsonBlank rest with
        | ',' :: rest => readItems fuel (item :: read) false rest
        | ']' :: rest => (sequence (item :: read).reverse true, some rest)
        | _ => (sequence (item :: read).reverse false, none)

/-- The members of an object after those in `read`, the last one first. -/
def readMembers : Nat → List (Document × Document) → (first : Bool) →
    List Char → Document × Option (List Char)
  | 0, read, _, _ => (mapping read.reverse false, none)
  | fuel + 1, read, first, source =>
    match first, skipJsonBlank source with
    | true, '\x7d' :: rest => (mapping [] true, some rest)
    | _, '"' :: rest =>
      match readQuoted .empty rest with
      | (key, none) => (mapping ((key, broken) :: read).reverse false, none)
      | (key, some rest) =>
        match skipJsonBlank rest with
        | ':' :: rest =>
          match readJson fuel rest with
          | (value, none) =>
            (mapping ((key, value) :: read).reverse false, none)
          | (value, some rest) =>
            match skipJsonBlank rest with
            | ',' :: rest => readMembers fuel ((key, value) :: read) false rest
            | '\x7d' :: rest =>
              (mapping ((key, value) :: read).reverse true, some rest)
            | _ => (mapping ((key, value) :: read).reverse false, none)
        | _ => (mapping ((key, broken) :: read).reverse false, none)
    | _, _ => (mapping read.reverse false, none)

end

/-- The document of a JSON text, and whether nothing else follows it. -/
def ofJson (source : String) : Document × Bool :=
  let chars := source.toList
  match readJson (chars.length + 1) chars with
  | (document, some rest) => (document, (skipJsonBlank rest).isEmpty)
  | (document, none) => (document, false)

end Colloquy.Document
