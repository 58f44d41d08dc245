import Colloquy.Document.Json
import Colloquy.Document.Yaml.Cursor

/-!
# YAML scalars

Plain and quoted scalars and the folding of their lines: blanks around a line
end are dropped, a single line feed becomes a space, and of several line ends
all but a first line feed are kept.

All readers are structural on the text.  They return nothing when the scalar
is broken, and else what they read and the place after it.
-/

namespace Colloquy.Document.Yaml

/-! ## Folding -/

/-- A scalar as far as it was read, with what separates it from the next of its
characters: blanks, or line ends. -/
structure Folded where
  /-- The characters, the last one first. -/
  chars : List Char := []
  /-- Blanks after the last character, the last one first. -/
  blanks : List Char := []
  /-- Line ends after the last character, the last one first. -/
  breaks : List Char := []
  /-- Whether these follow an escaped line end. -/
  escaped : Bool := false
  line : Nat
  column : Nat
  offset : Nat

/-- What line ends become, the last one first. -/
def foldBreaks (breaks : List Char) : List Char :=
  if breaks.getLast? = some '\n' then
    if breaks.length = 1 then [' '] else breaks.dropLast
  else breaks

namespace Folded

/-- Whether nothing but blanks stands before this place in its line, and the
line is not the first. -/
def isLeading (scalar : Folded) : Bool :=
  !scalar.breaks.isEmpty || scalar.escaped

/-- Put what separates lines or words in front of the next character. -/
def join (scalar : Folded) : Folded :=
  let gap :=
    if scalar.escaped then scalar.breaks
    else if scalar.breaks.isEmpty then scalar.blanks
    else foldBreaks scalar.breaks
  { scalar with
    chars := gap ++ scalar.chars
    blanks := []
    breaks := []
    escaped := false }

/-- Take a character that is written as it is. -/
def push (c : Char) (scalar : Folded) : Folded :=
  let joined := scalar.join
  { joined with
    chars := c :: joined.chars
    column := scalar.column + 1
    offset := scalar.offset + c.utf8Size }

/-- Take a character that is written as an escape of `width` characters. -/
def pushEscape (c : Char) (width : Nat) (scalar : Folded) : Folded :=
  let joined := scalar.join
  { joined with
    chars := c :: joined.chars
    column := scalar.column + width
    offset := scalar.offset + width }

def pushBlank (c : Char) (scalar : Folded) : Folded :=
  { scalar with
    blanks := if scalar.isLeading then scalar.blanks else c :: scalar.blanks
    column := scalar.column + 1
    offset := scalar.offset + 1 }

def pushBreak (c : Char) (scalar : Folded) : Folded :=
  { scalar with
    breaks := c :: scalar.breaks
    line := scalar.line + 1
    column := 0
    offset := 0 }

/-- Drop an escaped line end. -/
def pushEscapedBreak (scalar : Folded) : Folded :=
  { scalar.join with
    escaped := true
    line := scalar.line + 1
    column := 0
    offset := 0 }

def content (scalar : Folded) : String := String.ofList scalar.chars.reverse

/-- A finished quoted scalar, and the place after it. -/
def close (scalar : Folded) (rest : List Char) : String × Cursor :=
  (scalar.join.content,
    ⟨rest, scalar.line, scalar.column + 1, scalar.offset + 1⟩)

end Folded

/-! ## Quoted scalars -/

/-- The character that an escape of one letter denotes. -/
def escapes : List (Char × Nat) :=
  [('0', 0x00), ('a', 0x07), ('b', 0x08), ('t', 0x09), ('\t', 0x09),
    ('n', 0x0A), ('v', 0x0B), ('f', 0x0C), ('r', 0x0D), ('e', 0x1B),
    (' ', 0x20), ('"', 0x22), ('/', 0x2F), ('\\', 0x5C), ('N', 0x85),
    ('_', 0xA0), ('L', 0x2028), ('P', 0x2029)]

/-- The character with the code point that hexadecimal digits denote. -/
def charOfHex? (digits : List Char) : Option Char := do
  let code ← hexNumber? digits
  if code.isValidChar then some (Char.ofNat code) else none

/-- The rest of a scalar between double quotes. -/
def readDouble (read : Folded) : List Char → Option (String × Cursor)
  | '"' :: rest => some (read.close rest)
  | '\\' :: 'x' :: a :: b :: rest => do
    readDouble (read.pushEscape (← charOfHex? [a, b]) 4) rest
  | '\\' :: 'u' :: a :: b :: c :: d :: rest => do
    readDouble (read.pushEscape (← charOfHex? [a, b, c, d]) 6) rest
  | '\\' :: 'U' :: a :: b :: c :: d :: e :: f :: g :: h :: rest => do
    let c ← charOfHex? [a, b, c, d, e, f, g, h]
    readDouble (read.pushEscape c 10) rest
  | '\\' :: c :: rest =>
    if isBreak c then readDouble read.pushEscapedBreak rest
    else
      match escapes.find? fun pair => pair.1 = c with
      | some pair => readDouble (read.pushEscape (Char.ofNat pair.2) 2) rest
      | none => none
  | c :: rest =>
    if read.column = 0 ∧ startsMarker (c :: rest) then none
    else if isBreak c then readDouble (read.pushBreak c) rest
    else if isBlank c then readDouble (read.pushBlank c) rest
    else readDouble (read.push c) rest
  | [] => none

/-- The rest of a scalar between single quotes. -/
def readSingle (read : Folded) : List Char → Option (String × Cursor)
  | '\'' :: '\'' :: rest => readSingle (read.pushEscape '\'' 2) rest
  | '\'' :: rest => some (read.close rest)
  | c :: rest =>
    if read.column = 0 ∧ startsMarker (c :: rest) then none
    else if isBreak c then readSingle (read.pushBreak c) rest
    else if isBlank c then readSingle (read.pushBlank c) rest
    else readSingle (read.push c) rest
  | [] => none

/-! ## Plain scalars -/

/-- Characters that have a meaning between brackets. -/
def isFlowIndicator (c : Char) : Bool :=
  c = ',' || c = '[' || c = ']' || c = '\x7b' || c = '\x7d'

/-- Characters that start no plain scalar. -/
def isIndicator (c : Char) : Bool :=
  isFlowIndicator c || "-?:#&*!|>'\"%@`".toList.contains c

/-- Whether a plain scalar may start here. -/
def startsPlain (flow : Bool) : List Char → Bool
  | [] => false
  | c :: rest =>
    if isBlank c || isBreak c then false
    else if c = '-' then !atBlank rest
    else if c = '?' || c = ':' then !flow && !atBlank rest
    else !isIndicator c

/-- How a plain scalar goes on at a character that is no blank. -/
inductive Continuation where
  | more
  | stop
  | broken

/-- Whether a plain scalar goes on at the given text.  Outside of brackets its
lines stand in the column `least` at least. -/
def continuation (flow : Bool) (least : Nat) (read : Folded) :
    List Char → Continuation
  | [] => .stop
  | c :: rest =>
    if (read.isLeading || !read.blanks.isEmpty) && c = '#' then .stop
    else if read.isLeading && ((!flow && read.column < least)
        || (read.column = 0 && startsMarker (c :: rest))) then .stop
    else if c = ':' then
      match rest with
      | [] => .stop
      | next :: _ =>
        if isBlank next || isBreak next then .stop
        else if flow && (next = '?' || isFlowIndicator next) then .broken
        else .more
    else if flow && isFlowIndicator c then .stop
    else .more

/-- The rest of a plain scalar.  The blanks and line ends after it belong to
it; a tab among them does not stand left of the column `least`. -/
def readPlain (flow : Bool) (least : Nat) (read : Folded) :
    List Char → Option (Folded × List Char)
  | [] => some (read, [])
  | c :: rest =>
    if isBreak c then readPlain flow least (read.pushBreak c) rest
    else if isBlank c then
      if c = '\t' && read.isLeading && read.column < least then none
      else readPlain flow least (read.pushBlank c) rest
    else
      match continuation flow least read (c :: rest) with
      | .broken => none
      | .stop => some (read, c :: rest)
      | .more => readPlain flow least (read.push c) rest

/-! ## Scalars at a place -/

/-- The quoted scalar after the opening quote at a place. -/
def readQuoted (double : Bool) (cursor : Cursor) :
    Option (String × Cursor) :=
  let read : Folded :=
    { line := cursor.line
      column := cursor.column + 1
      offset := cursor.offset + 1 }
  if double then readDouble read (cursor.rest.drop 1)
  else readSingle read (cursor.rest.drop 1)

/-- The plain scalar at a place, the place after it, and whether line ends
stand before that place. -/
def readPlainAt (flow : Bool) (least : Nat) (cursor : Cursor) :
    Option (String × Cursor × Bool) := do
  let start : Folded :=
    { line := cursor.line, column := cursor.column, offset := cursor.offset }
  let (read, rest) ← readPlain flow least start cursor.rest
  let after : Cursor := ⟨rest, read.line, read.column, read.offset⟩
  some (read.content, after, read.isLeading)

end Colloquy.Document.Yaml
