import Colloquy.Document.Yaml.Scalar

/-!
# YAML block scalars

Scalars that are set off by their indentation: literal ones (`|`) keep their
line ends, folded ones (`>`) join lines that are not indented further.  The
header may say how deep the text is indented and what becomes of the line ends
after it.
-/

namespace Colloquy.Document.Yaml

/-! ## Headers -/

/-- What becomes of the line ends after the last line. -/
inductive Chomping where
  | strip
  | clip
  | keep
  deriving DecidableEq

structure BlockHeader where
  chomping : Chomping := .clip
  /-- The indentation below the parent, if the header gives it. -/
  increment : Option Nat := none

/-- The indicators after `|` or `>`, in either order. -/
def readIndicators : List Char → Option (BlockHeader × List Char)
  | '+' :: rest => digitAfter .keep rest
  | '-' :: rest => digitAfter .strip rest
  | c :: rest =>
    if c = '0' then none
    else if c.isDigit then
      let increment := some (c.toNat - 48)
      match rest with
      | '+' :: rest => some ({ chomping := .keep, increment }, rest)
      | '-' :: rest => some ({ chomping := .strip, increment }, rest)
      | rest => some ({ increment }, rest)
    else some ({}, c :: rest)
  | [] => some ({}, [])
where
  digitAfter (chomping : Chomping) :
      List Char → Option (BlockHeader × List Char)
    | c :: rest =>
      if c = '0' then none
      else if c.isDigit then
        some ({ chomping, increment := some (c.toNat - 48) }, rest)
      else some ({ chomping }, c :: rest)
    | [] => some ({ chomping }, [])

/-- The line end after the header: only a comment may follow the indicators. -/
def afterHeader (rest : List Char) : Option (List Char) :=
  match rest.dropWhile isBlank with
  | [] => some []
  | c :: rest =>
    if isBreak c then some (c :: rest)
    else if c = '#' then some (rest.dropWhile fun c => !isBreak c)
    else none

/-! ## Lines -/

/-- A line of a text and its end; the last line of a text has none. -/
structure Line where
  body : List Char
  ending : List Char
  deriving DecidableEq

namespace Line

/-- How many spaces a line starts with. -/
def indentation (line : Line) : Nat :=
  (line.body.takeWhile (· = ' ')).length

def chars (line : Line) : List Char := line.body ++ line.ending

end Line

/-- The lines of a text, of which there is one at least. -/
def splitLines : List Char → List Line
  | [] => [⟨[], []⟩]
  | c :: rest =>
    if isBreak c then ⟨[], [c]⟩ :: splitLines rest
    else
      match splitLines rest with
      | line :: lines => { line with body := c :: line.body } :: lines
      | [] => [⟨[c], []⟩]

/-- The indentation that the first lines show; nothing if a tab is in the way.
Empty lines count, and so does a last line that has no end. -/
def detectIndentation (widest : Nat) : List Line → Option Nat
  | [] => some widest
  | line :: rest =>
    let width := max widest line.indentation
    match line.body.drop line.indentation with
    | [] => detectIndentation width rest
    | '\t' :: _ => none
    | _ => some width

/-! ## Contents -/

/-- A block scalar as far as it was read. -/
structure Block where
  /-- The characters, the last one first. -/
  chars : List Char := []
  /-- The last line, if there is one. -/
  last : Option Line := none
  /-- The ends of the empty lines after that. -/
  empty : List Char := []

/-- Whether a line is indented further than its block. -/
def startsBlank (body : List Char) : Bool := body.head?.any isBlank

namespace Block

/-- What stands between the last line and another one: of two lines that are
folded and end in a line feed, a space or the empty lines between them. -/
def gap (folded : Bool) (block : Block) (body : List Char) : List Char :=
  match block.last with
  | none => block.empty
  | some last =>
    if folded && last.ending = ['\n'] && !startsBlank last.body
        && !startsBlank body then
      if block.empty = [] then [' '] else block.empty
    else last.ending ++ block.empty

def push (folded : Bool) (line : Line) (block : Block) : Block where
  chars := (block.gap folded line.body ++ line.body).reverse ++ block.chars
  last := some line

/-- The characters of the scalar. -/
def content (chomping : Chomping) (block : Block) : List Char :=
  let ending := (block.last.map Line.ending).getD []
  match chomping with
  | .strip => block.chars.reverse
  | .clip => block.chars.reverse ++ ending
  | .keep => block.chars.reverse ++ ending ++ block.empty

end Block

/-- The lines with the given indentation, and the place after them, which lies
behind the indentation of a line or at the end of the text, where the last line
ends; nothing if a tab is in the way. -/
def readBlock (folded : Bool) (indent : Nat) (block : Block) (number : Nat) :
    List Line → Option (Block × Cursor)
  | [] => some (block, { rest := [], line := number })
  | line :: rest =>
    let width := min indent line.indentation
    match line.body.drop width with
    | [] =>
      if line.ending = [] then
        some (block, { rest := [], line := number + 1 })
      else
        let block := { block with empty := block.empty ++ line.ending }
        readBlock folded indent block (number + 1) rest
    | c :: body =>
      if width < indent then
        if c = '\t' then none
        else
          let left := c :: body ++ line.ending ++ rest.flatMap Line.chars
          some (block, ⟨left, number, width, width⟩)
      else
        let block := block.push folded ⟨c :: body, line.ending⟩
        if line.ending = [] then
          some (block, { rest := [], line := number + 1 })
        else readBlock folded indent block (number + 1) rest

/-- A block scalar after its `|` or `>`, below a parent whose contents stand in
the column `least` at least, and the place after it. -/
def readBlockScalar (folded : Bool) (least : Nat) (cursor : Cursor) :
    Option (String × Cursor) := do
  let (header, rest) ← readIndicators cursor.rest
  match ← afterHeader rest with
  | [] => some ("", { rest := [], line := cursor.line + 1 })
  | _ :: rest =>
    let lines := splitLines rest
    let indent ←
      match header.increment with
      | some increment => some (least - 1 + increment)
      | none =>
        (detectIndentation 0 lines).map fun width => max (max width least) 1
    let (block, after) ← readBlock folded indent {} (cursor.line + 1) lines
    some (String.ofList (block.content header.chomping), after)

end Colloquy.Document.Yaml
