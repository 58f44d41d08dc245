import Colloquy.Document.Yaml.BlockScalar

/-!
# YAML tokens

A YAML text is a list of tokens: scalars, brackets, the marks of items, keys
and values, and the starts and ends of block collections, which nothing but
the indentation shows.

Whether a scalar or a collection is a key is seen at the colon behind it.  Till
then its place is a candidate, and at the colon the missing tokens are put in
front of it.  No token from the first candidate on is certain: if the text
breaks, only those before it count.
-/

namespace Colloquy.Document.Yaml

inductive Token where
  | scalar (content : Document)
  | openBracket
  | closeBracket
  | openBrace
  | closeBrace
  | comma
  /-- The mark of an item of a block sequence. -/
  | item
  /-- The start of a key, written or not. -/
  | key
  /-- The mark of a value. -/
  | value
  | startSequence
  | startMapping
  /-- The end of a block collection. -/
  | endBlock
  | startDocument
  | endDocument
  | endText

/-- A place that becomes a key if a colon follows. -/
structure Candidate where
  /-- How many tokens stand before it. -/
  index : Nat
  line : Nat
  column : Nat
  offset : Nat
  /-- Whether nothing but a key may stand here. -/
  required : Bool

/-- A key is written in one line, in at most that many bytes. -/
def maxKeySize : Nat := 1024

/-- How many characters are looked at before a token is read. -/
def lookAhead : Nat := 4

/-- Whether a colon at the place would still make a candidate a key. -/
def Candidate.isLive (cursor : Cursor) (candidate : Candidate) : Bool :=
  candidate.line = cursor.line
    && cursor.offset ≤ candidate.offset + maxKeySize

/-- What is left of a candidate; nothing if a required key is missing. -/
def expire? (cursor : Cursor) :
    Option Candidate → Option (Option Candidate)
  | none => some none
  | some candidate =>
    if candidate.isLive cursor then some (some candidate)
    else if candidate.required then none
    else some none

/-- A text of which some tokens were read. -/
structure Lexer where
  cursor : Cursor
  tokens : Array Token := #[]
  /-- The columns of the open block collections, the innermost first. -/
  columns : List Nat := []
  /-- The candidate between the innermost brackets. -/
  candidate : Option Candidate := none
  /-- The candidates outside of each pair of open brackets, the innermost
  first. -/
  outer : List (Option Candidate) := []
  /-- Whether a key may start here. -/
  keyAllowed : Bool := true

namespace Lexer

/-- Whether brackets are open. -/
def isFlow (lexer : Lexer) : Bool := !lexer.outer.isEmpty

/-- The least column of what belongs to the innermost block collection. -/
def least (lexer : Lexer) : Nat :=
  match lexer.columns with
  | [] => 0
  | column :: _ => column + 1

/-! ## Candidates -/

/-- Forget candidates that are too far away. -/
def expire (lexer : Lexer) : Option Lexer := do
  let candidate ← expire? lexer.cursor lexer.candidate
  let outer ← lexer.outer.mapM (expire? lexer.cursor)
  some { lexer with candidate, outer }

/-- Forget the candidate, unless a key is required. -/
def forget (lexer : Lexer) : Option Lexer :=
  if lexer.candidate.any Candidate.required then none
  else some { lexer with candidate := none }

/-- Take this place for a candidate, if a key may start here. -/
def propose (lexer : Lexer) : Option Lexer :=
  if lexer.keyAllowed then do
    let lexer ← lexer.forget
    let candidate : Candidate :=
      { index := lexer.tokens.size
        line := lexer.cursor.line
        column := lexer.cursor.column
        offset := lexer.cursor.offset
        required :=
          !lexer.isFlow && lexer.columns.head? = some lexer.cursor.column }
    some { lexer with candidate := some candidate }
  else some lexer

/-- The tokens that no colon can change any more. -/
def settled (lexer : Lexer) : List Token :=
  let candidates := (lexer.candidate :: lexer.outer).filterMap id
  let count := candidates.foldl (fun count next => min count next.index)
    lexer.tokens.size
  lexer.tokens.toList.take count

/-! ## Tokens -/

def push (token : Token) (lexer : Lexer) : Lexer :=
  { lexer with tokens := lexer.tokens.push token }

/-- Add a token that is written in some columns. -/
def take (token : Token) (width : Nat) (lexer : Lexer) : Lexer :=
  { lexer.push token with cursor := lexer.cursor.advance width }

/-- End the block collections in the given column and those after it. -/
def endBlocks (column : Nat) (lexer : Lexer) : Lexer :=
  if lexer.isFlow then lexer
  else
    let ended := lexer.columns.takeWhile (column ≤ ·)
    { lexer with
      tokens := ended.foldl (fun tokens _ => tokens.push .endBlock) lexer.tokens
      columns := lexer.columns.dropWhile (column ≤ ·) }

/-- Start a block collection in a column, unless one has been started there. -/
def startBlock (token : Token) (column index : Nat) (lexer : Lexer) : Lexer :=
  if lexer.isFlow || column < lexer.least then lexer
  else
    { lexer with
      tokens := lexer.tokens.insertIdxIfInBounds index token
      columns := column :: lexer.columns }

/-- The end of the text, which ends its last line. -/
def takeEnd (lexer : Lexer) : Option Lexer := do
  let cursor := lexer.cursor
  let cursor :=
    if cursor.column = 0 then cursor
    else { cursor with line := cursor.line + 1, column := 0, offset := 0 }
  let lexer ← ({ lexer with cursor }.endBlocks 0).forget
  some ({ lexer with keyAllowed := false }.push .endText)

/-- A line of three dashes or dots. -/
def takeMarker (token : Token) (lexer : Lexer) : Option Lexer := do
  let lexer ← (lexer.endBlocks 0).forget
  some ({ lexer with keyAllowed := false }.take token 3)

def takeOpening (token : Token) (lexer : Lexer) : Option Lexer := do
  let lexer ← lexer.propose
  let lexer :=
    { lexer with
      candidate := none
      outer := lexer.candidate :: lexer.outer
      keyAllowed := true }
  some (lexer.take token 1)

/-- A closing bracket; a stray one closes nothing. -/
def takeClosing (token : Token) (lexer : Lexer) : Option Lexer := do
  let lexer ← lexer.forget
  let lexer :=
    match lexer.outer with
    | [] => lexer
    | candidate :: outer => { lexer with candidate, outer }
  some ({ lexer with keyAllowed := false }.take token 1)

def takeComma (lexer : Lexer) : Option Lexer := do
  let lexer ← lexer.forget
  some ({ lexer with keyAllowed := true }.take .comma 1)

/-- Start a block collection here; nothing if no key may start here. -/
def startHere (token : Token) (lexer : Lexer) : Option Lexer :=
  if lexer.isFlow then some lexer
  else if lexer.keyAllowed then
    some (lexer.startBlock token lexer.cursor.column lexer.tokens.size)
  else none

def takeItem (lexer : Lexer) : Option Lexer := do
  let lexer ← (← lexer.startHere .startSequence).forget
  some ({ lexer with keyAllowed := true }.take .item 1)

def takeKey (lexer : Lexer) : Option Lexer := do
  let lexer ← (← lexer.startHere .startMapping).forget
  some ({ lexer with keyAllowed := !lexer.isFlow }.take .key 1)

/-- A colon: what stands at the candidate is a key. -/
def takeValue (lexer : Lexer) : Option Lexer :=
  match lexer.candidate with
  | some candidate =>
    let keyed :=
      { lexer with
        tokens := lexer.tokens.insertIdxIfInBounds candidate.index .key
        candidate := none
        keyAllowed := false }
    some ((keyed.startBlock .startMapping candidate.column
      candidate.index).take .value 1)
  | none => do
    let lexer ← lexer.startHere .startMapping
    some ({ lexer with keyAllowed := !lexer.isFlow }.take .value 1)

def takeQuoted (double : Bool) (lexer : Lexer) : Option Lexer := do
  let lexer ← lexer.propose
  let (content, cursor) ← readQuoted double lexer.cursor
  some ({ lexer with cursor, keyAllowed := false }.push (.scalar (text content)))

def takePlain (lexer : Lexer) : Option Lexer := do
  let lexer ← lexer.propose
  let (content, cursor, leading) ←
    readPlainAt lexer.isFlow lexer.least lexer.cursor
  some ({ lexer with cursor, keyAllowed := leading }.push
    (.scalar (plain content)))

def takeBlock (folded : Bool) (lexer : Lexer) : Option Lexer := do
  let lexer ← lexer.forget
  let (content, cursor) ←
    readBlockScalar folded lexer.least (lexer.cursor.advance 1)
  some ({ lexer with cursor, keyAllowed := true }.push (.scalar (text content)))

/-- The token at a place; nothing if none starts there. -/
def takeToken (lexer : Lexer) : Option Lexer :=
  let flow := lexer.isFlow
  match lexer.cursor.rest with
  | [] => lexer.takeEnd
  | c :: rest =>
    if lexer.cursor.isMarker then
      lexer.takeMarker (if c = '-' then .startDocument else .endDocument)
    else
      match c with
      | '[' => lexer.takeOpening .openBracket
      | '\x7b' => lexer.takeOpening .openBrace
      | ']' => lexer.takeClosing .closeBracket
      | '\x7d' => lexer.takeClosing .closeBrace
      | ',' => lexer.takeComma
      | '"' => lexer.takeQuoted true
      | '\'' => lexer.takeQuoted false
      | '|' => if flow then none else lexer.takeBlock false
      | '>' => if flow then none else lexer.takeBlock true
      | _ =>
        if c = '-' && atBlank rest then lexer.takeItem
        else if c = '?' && (flow || atBlank rest) then lexer.takeKey
        else if c = ':' && (flow || atBlank rest) then lexer.takeValue
        else if startsPlain flow (c :: rest) then lexer.takePlain
        else none

/-! ## Texts -/

/-- The place of the next token, behind blanks and comments. -/
def skip (lexer : Lexer) : Lexer :=
  let flow := lexer.isFlow
  let cursor := lexer.cursor.skip flow (flow || !lexer.keyAllowed)
  let fresh := !flow && cursor.line ≠ lexer.cursor.line
  { lexer with cursor, keyAllowed := lexer.keyAllowed || fresh }

/-- Read the next token; nothing if the text is broken there. -/
def next (lexer : Lexer) : Option Lexer := do
  let lexer ← lexer.skip.expire
  let lexer ← (lexer.endBlocks (lexer.cursor.column + 1)).takeToken
  lexer.expire

/-- Whether the end of the text was read. -/
def isDone (lexer : Lexer) : Bool :=
  match lexer.tokens.back? with
  | some .endText => true
  | _ => false

/-- All tokens up to the end of the text, or to the place where it breaks.
Each of them takes a character, so the length of the text is fuel enough.  A
text that was `cut` short breaks close to its end. -/
def readAll (cut : Bool) : Nat → Lexer → List Token
  | 0, lexer => lexer.settled
  | fuel + 1, lexer =>
    match lexer.next with
    | none => lexer.settled
    | some next =>
      if cut && (next.cursor.rest.drop (lookAhead - 1)).isEmpty then lexer.settled
      else if next.isDone then next.settled
      else readAll cut fuel next

end Lexer

/-- Inclusive code point ranges of the characters that may stand in a text. -/
def printableRanges : List (Nat × Nat) :=
  [(0x09, 0x0A), (0x0D, 0x0D), (0x20, 0x7E), (0x85, 0x85), (0xA0, 0xD7FF),
    (0xE000, 0xFFFD), (0x10000, 0x10FFFF)]

def isPrintable (c : Char) : Bool :=
  printableRanges.any fun range => range.1 ≤ c.toNat && c.toNat ≤ range.2

/-- Texts are taken in blocks of so many bytes, whole characters each. -/
def blockSize : Nat := 16384

/-- The number of characters in the blocks before the first character that may
not stand in a text; nothing if there is none.  So far `before` characters stand
in whole blocks and `count` in all, `size` bytes of them in the last block. -/
def countPrintable (before count size : Nat) : List Char → Option Nat
  | [] => none
  | c :: rest =>
    let full := blockSize < size + c.utf8Size
    let before := if full then count else before
    let size := if full then c.utf8Size else size + c.utf8Size
    if isPrintable c then countPrintable before (count + 1) size rest
    else some before

/-- The tokens of a text.  A block with a character that may not stand in a
text cannot be read at all. -/
def Token.ofText (source : String) : List Token :=
  let chars := source.toList
  let whole := countPrintable 0 0 0 chars
  let chars := normalise (chars.take (whole.getD chars.length))
  Lexer.readAll whole.isSome (chars.length + 1) { cursor := { rest := chars } }

end Colloquy.Document.Yaml
