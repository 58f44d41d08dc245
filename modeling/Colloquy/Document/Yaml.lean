import Colloquy.Document.Yaml.Token

/-!
# YAML texts

`Document.ofYaml` reads the part of YAML that people write configuration in:
block and flow collections, all kinds of scalars, comments and one document.
Anchors, tags and directives count as broken text.

The readers below turn tokens into documents.  They hand back what they read
and the tokens after it, or no tokens when the text broke off.  Their fuel is
four times the number of tokens, which is enough because of four nested calls
one at least takes a token.
-/

namespace Colloquy.Document.Yaml

/-! ## Where nothing is written -/

/-- Where a node stands that need not be written. -/
inductive Slot where
  /-- An item of a block sequence. -/
  | item
  /-- An item of a sequence in the column of the key above it. -/
  | outdentedItem
  /-- A key or a value of a block mapping. -/
  | entry
  | bracketKey
  | bracketValue
  | braceKey
  | braceValue

/-- Whether a token shows that nothing is written in the slot before it. -/
def Token.ends : Slot → Token → Bool
  | .item, .item | .item, .endBlock => true
  | .outdentedItem, .item | .outdentedItem, .key | .outdentedItem, .value
  | .outdentedItem, .endBlock => true
  | .entry, .key | .entry, .value | .entry, .endBlock => true
  | .bracketKey, .value | .bracketKey, .comma
  | .bracketKey, .closeBracket => true
  | .bracketValue, .comma | .bracketValue, .closeBracket => true
  | .braceKey, .value | .braceKey, .comma | .braceKey, .closeBrace => true
  | .braceValue, .comma | .braceValue, .closeBrace => true
  | _, _ => false

/-- Whether the items of a sequence may stand in the column of the key above
it; no token marks where such a sequence starts or ends. -/
def Slot.isEntry : Slot → Bool
  | .entry => true
  | _ => false

/-- What was read, and the tokens after it. -/
abbrev Reading := Document × Option (List Token)

/-! ## Collections -/

mutual

/-- A node, which may be an outdented sequence. -/
def readNode : Nat → (outdented : Bool) → List Token → Reading
  | 0, _, _ => (broken, none)
  | fuel + 1, outdented, tokens =>
    match tokens with
    | .scalar content :: rest => (content, some rest)
    | .openBracket :: rest => readBracket fuel [] rest
    | .openBrace :: rest => readBrace fuel [] rest
    | .startSequence :: rest => readItems fuel [] rest
    | .startMapping :: rest => readEntries fuel [] rest
    | .item :: _ =>
      if outdented then readOutdented fuel [] tokens else (broken, none)
    | _ => (broken, none)

/-- What is written in a slot, which is an empty scalar if nothing is. -/
def readSlot : Nat → Slot → List Token → Reading
  | 0, _, _ => (broken, none)
  | _, _, [] => (broken, none)
  | fuel + 1, slot, token :: rest =>
    if token.ends slot then (plain "", some (token :: rest))
    else readNode fuel slot.isEntry (token :: rest)

/-- The value of a key, if it has one. -/
def readValue : Nat → Slot → List Token → Reading
  | 0, _, _ => (broken, none)
  | _, _, [] => (broken, none)
  | fuel + 1, slot, .value :: rest => readSlot fuel slot rest
  | _, _, tokens => (plain "", some tokens)

/-- The items of a block sequence after those in `read`, the last one first. -/
def readItems : Nat → List Document → List Token → Reading
  | fuel + 1, read, .item :: rest =>
    match readSlot fuel .item rest with
    | (item, none) => (sequence (item :: read).reverse false, none)
    | (item, some after) => readItems fuel (item :: read) after
  | _, read, .endBlock :: rest => (sequence read.reverse true, some rest)
  | _, read, _ => (sequence read.reverse false, none)

/-- The items of an outdented sequence. -/
def readOutdented : Nat → List Document → List Token → Reading
  | 0, read, _ => (sequence read.reverse false, none)
  | _, read, [] => (sequence read.reverse false, none)
  | fuel + 1, read, .item :: rest =>
    match readSlot fuel .outdentedItem rest with
    | (item, none) => (sequence (item :: read).reverse false, none)
    | (item, some after) => readOutdented fuel (item :: read) after
  | _, read, tokens => (sequence read.reverse true, some tokens)

/-- The entries of a block mapping. -/
def readEntries : Nat → List (Document × Document) → List Token → Reading
  | fuel + 1, read, .key :: rest =>
    match readSlot fuel .entry rest with
    | (key, none) => (mapping ((key, broken) :: read).reverse false, none)
    | (key, some after) =>
      match readValue fuel .entry after with
      | (value, none) => (mapping ((key, value) :: read).reverse false, none)
      | (value, some after) => readEntries fuel ((key, value) :: read) after
  | _, read, .endBlock :: rest => (mapping read.reverse true, some rest)
  | _, read, _ => (mapping read.reverse false, none)

/-- The items between brackets. -/
def readBracket : Nat → List Document → List Token → Reading
  | 0, read, _ => (sequence read.reverse false, none)
  | _, read, .closeBracket :: rest => (sequence read.reverse true, some rest)
  | fuel + 1, read, .key :: rest =>
    match readPair fuel rest with
    | (item, none) => (sequence (item :: read).reverse false, none)
    | (item, some after) => readBracketMore fuel (item :: read) after
  | fuel + 1, read, tokens =>
    match readNode fuel false tokens with
    | (item, none) => (sequence (item :: read).reverse false, none)
    | (item, some after) => readBracketMore fuel (item :: read) after

/-- What follows an item between brackets: a comma and more, or the end. -/
def readBracketMore : Nat → List Document → List Token → Reading
  | fuel + 1, read, .comma :: rest => readBracket fuel read rest
  | _, read, .closeBracket :: rest => (sequence read.reverse true, some rest)
  | _, read, _ => (sequence read.reverse false, none)

/-- A single entry between brackets, which is an item of its own.  Where its
key is missing, the token in the place of the key is passed over. -/
def readPair : Nat → List Token → Reading
  | 0, _ => (mapping [] false, none)
  | fuel + 1, tokens =>
    let (key, after) :=
      match tokens with
      | [] => (broken, none)
      | token :: rest =>
        if token.ends .bracketKey then (plain "", some rest)
        else readNode fuel false tokens
    match after with
    | none => (mapping [(key, broken)] false, none)
    | some after =>
      match readValue fuel .bracketValue after with
      | (value, none) => (mapping [(key, value)] false, none)
      | (value, some []) => (mapping [(key, value)] false, none)
      | (value, some after) => (mapping [(key, value)] true, some after)

/-- The entries between braces. -/
def readBrace : Nat → List (Document × Document) → List Token → Reading
  | 0, read, _ => (mapping read.reverse false, none)
  | _, read, .closeBrace :: rest => (mapping read.reverse true, some rest)
  | fuel + 1, read, .key :: rest =>
    match readSlot fuel .braceKey rest with
    | (key, none) => (mapping ((key, broken) :: read).reverse false, none)
    | (key, some after) =>
      match readValue fuel .braceValue after with
      | (value, none) => (mapping ((key, value) :: read).reverse false, none)
      | (value, some after) => readBraceMore fuel ((key, value) :: read) after
  | fuel + 1, read, tokens =>
    match readNode fuel false tokens with
    | (key, none) => (mapping ((key, broken) :: read).reverse false, none)
    | (key, some []) => (mapping ((key, broken) :: read).reverse false, none)
    | (key, some after) => readBraceMore fuel ((key, plain "") :: read) after

/-- What follows an entry between braces: a comma and more, or the end. -/
def readBraceMore :
    Nat → List (Document × Document) → List Token → Reading
  | fuel + 1, read, .comma :: rest => readBrace fuel read rest
  | _, read, .closeBrace :: rest => (mapping read.reverse true, some rest)
  | _, read, _ => (mapping read.reverse false, none)

end

/-! ## Documents -/

/-- The first document of a text; a text without one counts as an empty
scalar. -/
def readDocument (tokens : List Token) : Reading :=
  let fuel := 4 * (tokens.length + 2)
  match tokens with
  | [.endText] => (plain "", some tokens)
  | .startDocument :: rest =>
    match rest with
    | .startDocument :: _ => (plain "", some rest)
    | .endDocument :: _ => (plain "", some rest)
    | .endText :: _ => (plain "", some rest)
    | _ => readNode fuel false rest
  | _ => readNode fuel false tokens

/-- Whether no other document follows. -/
def isLast : List Token → Bool
  | .endDocument :: rest => isLast rest
  | [.endText] => true
  | _ => false

end Yaml

open Yaml in
/-- The document of a YAML text, and whether nothing else follows it. -/
def ofYaml (source : String) : Document × Bool :=
  match readDocument (Token.ofText source) with
  | (document, some after) => (document, isLast after)
  | (document, none) => (document, false)

end Colloquy.Document
