/-!
# Places in YAML texts

The readers of YAML texts go from place to place.  A place is what follows it,
with its line and what stands before it there: characters, which decide about
indentation, and bytes, which decide how long a key may be.  Every kind of line
end starts a new line.
-/

namespace Colloquy.Document.Yaml

/-- A place in a text. -/
structure Cursor where
  rest : List Char
  line : Nat := 0
  /-- The characters before it in its line. -/
  column : Nat := 0
  /-- The bytes before it in its line. -/
  offset : Nat := 0

/-! ## Characters -/

def isBlank (c : Char) : Bool := c = ' ' || c = '\t'

/-- Line ends, once those of several spellings have become line feeds. -/
def isBreak (c : Char) : Bool := c = '\n' || c = '\u2028' || c = '\u2029'

/-- Whether a text starts with a blank or a line end, or is at its end. -/
def atBlank : List Char → Bool
  | [] => true
  | c :: _ => isBlank c || isBreak c

/-- Whether three dashes or dots stand here, between documents. -/
def startsMarker : List Char → Bool
  | '-' :: '-' :: '-' :: rest => atBlank rest
  | '.' :: '.' :: '.' :: rest => atBlank rest
  | _ => false

/-- Line feeds in place of carriage returns and next-line characters; the
separators of lines and paragraphs stay what they are. -/
def normalise : List Char → List Char
  | '\r' :: '\n' :: rest => '\n' :: normalise rest
  | c :: rest =>
    (if c = '\r' || c = '\x85' then '\n' else c) :: normalise rest
  | [] => []

/-! ## Moving on -/

namespace Cursor

/-- The place some characters of ASCII further on in the same line. -/
def advance (count : Nat) (cursor : Cursor) : Cursor :=
  { cursor with
    rest := cursor.rest.drop count
    column := cursor.column + count
    offset := cursor.offset + count }

/-- Whether three dashes or dots stand at the start of a line. -/
def isMarker (cursor : Cursor) : Bool :=
  cursor.column = 0 && startsMarker cursor.rest

/-- The place where a token may start: blanks, line ends and comments are left
out, and so is a byte order mark at the start of a line.  Tabs count as blanks
between brackets (`flow`), or where no key may start (`tabs`). -/
def skipFrom (flow tabs comment : Bool) (line column offset : Nat) :
    List Char → Cursor
  | [] => ⟨[], line, column, offset⟩
  | c :: rest =>
    if isBreak c then skipFrom flow flow false (line + 1) 0 0 rest
    else if comment || c = ' ' || (c = '\t' && tabs)
        || (c = '\uFEFF' && column = 0) then
      skipFrom flow tabs comment line (column + 1) (offset + c.utf8Size) rest
    else if c = '#' then
      skipFrom flow tabs true line (column + 1) (offset + 1) rest
    else ⟨c :: rest, line, column, offset⟩

def skip (flow tabs : Bool) (cursor : Cursor) : Cursor :=
  skipFrom flow tabs false cursor.line cursor.column cursor.offset cursor.rest

end Cursor

end Colloquy.Document.Yaml
