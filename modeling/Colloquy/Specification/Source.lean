import Colloquy.Document.Yaml

/-!
# Specification sources

What the author of a protocol writes down, before anything is checked: the
contents of the speech acts as type expressions, the reply table, the roles and
the end states.  Names are kept in the order in which they were written.

A source is read from a document and written as one.  Reading notices a fault
where it stands in the document; fields that are missing are noticed last, in
the order in which they are declared here.
-/

namespace Colloquy

structure Source where
  name : String
  author : String
  version : String
  description : Option String
  /-- Contents of every speech act: name and type expression. -/
  speechActs : OrderedMap String (OrderedMap String String)
  /-- Fields of every record: name and type expression. -/
  customTypes : OrderedMap String (OrderedMap String String)
  /-- The legal replies to every performative; none after the last one. -/
  reply : OrderedMap String (List String)
  /-- The initiator and the responder. -/
  roles : List String
  endStates : List String
  /-- The performatives that open a dialogue, unless they are inferred. -/
  initiation : Option (List String)
  /-- What a role may send; roles left out may send anything. -/
  speakers : OrderedMap String (List String)
  /-- The end state that a last performative leads to. -/
  terminalOutcomes : OrderedMap String String
  deriving DecidableEq, Repr, Inhabited

namespace Source

open Document (Fault asText asOption asList asOrderedMap)

/-! ## Writing -/

def ofTexts (texts : List String) : Document :=
  .ofList (texts.map .text)

/-- The document of a source; an absent description or initiation is left out. -/
def toDocument (source : Source) : Document :=
  .ofEntries
    ([("name", .text source.name), ("author", .text source.author),
        ("version", .text source.version)]
      ++ (source.description.map fun text =>
        ("description", Document.text text)).toList
      ++ [("speech_acts", .ofOrderedMap (.ofOrderedMap .text) source.speechActs),
        ("custom_types", .ofOrderedMap (.ofOrderedMap .text) source.customTypes),
        ("reply", .ofOrderedMap ofTexts source.reply),
        ("roles", ofTexts source.roles),
        ("end_states", ofTexts source.endStates)]
      ++ (source.initiation.map fun openers =>
        ("initiation", ofTexts openers)).toList
      ++ [("speakers", .ofOrderedMap ofTexts source.speakers),
        ("terminal_outcomes", .ofOrderedMap .text source.terminalOutcomes)])

/-- The JSON text of a source. -/
def toJson (source : Source) : String := source.toDocument.toJson

/-! ## Reading -/

/-- A source of which some fields have been read. -/
structure Draft where
  name : Option String := none
  author : Option String := none
  version : Option String := none
  description : Option (Option String) := none
  speechActs : Option (OrderedMap String (OrderedMap String String)) := none
  customTypes : Option (OrderedMap String (OrderedMap String String)) := none
  reply : Option (OrderedMap String (List String)) := none
  roles : Option (List String) := none
  endStates : Option (List String) := none
  initiation : Option (Option (List String)) := none
  speakers : Option (OrderedMap String (List String)) := none
  terminalOutcomes : Option (OrderedMap String String) := none

/-- The fields of a source, in the order of a source without field names. -/
def fieldNames : List String :=
  ["name", "author", "version", "description", "speech_acts", "custom_types",
    "reply", "roles", "end_states", "initiation", "speakers",
    "terminal_outcomes"]

/-- How many fields a source without field names has at least. -/
def requiredLength : Nat := 8

def asTexts : Document → Except Fault (List String) := asList asText

namespace Draft

/-- Read a field that must not have been read before. -/
def readOnce {α : Type} (name : String) (read : Option α)
    (value : Except Fault α) (store : Option α → Draft) : Except Fault Draft :=
  match read with
  | some _ => .error (.duplicateField name)
  | none => value.map fun content => store (some content)

def readField (draft : Draft) (name : String) (document : Document) :
    Except Fault Draft :=
  match name with
  | "name" =>
    readOnce name draft.name (asText document) fun name => { draft with name }
  | "author" =>
    readOnce name draft.author (asText document) fun author =>
      { draft with author }
  | "version" =>
    readOnce name draft.version (asText document) fun version =>
      { draft with version }
  | "description" =>
    readOnce name draft.description (asOption asText document)
      fun description => { draft with description }
  | "speech_acts" =>
    readOnce name draft.speechActs (asOrderedMap (asOrderedMap asText) document)
      fun speechActs => { draft with speechActs }
  | "custom_types" =>
    readOnce name draft.customTypes
      (asOrderedMap (asOrderedMap asText) document)
      fun customTypes => { draft with customTypes }
  | "reply" =>
    readOnce name draft.reply (asOrderedMap asTexts document) fun reply =>
      { draft with reply }
  | "roles" =>
    readOnce name draft.roles (asTexts document) fun roles =>
      { draft with roles }
  | "end_states" =>
    readOnce name draft.endStates (asTexts document) fun endStates =>
      { draft with endStates }
  | "initiation" =>
    readOnce name draft.initiation (asOption asTexts document)
      fun initiation => { draft with initiation }
  | "speakers" =>
    readOnce name draft.speakers (asOrderedMap asTexts document)
      fun speakers => { draft with speakers }
  | "terminal_outcomes" =>
    readOnce name draft.terminalOutcomes (asOrderedMap asText document)
      fun terminalOutcomes => { draft with terminalOutcomes }
  | _ => .error (.unknownField name)

/-- Read the entries of a mapping, one after the other. -/
def readEntries (draft : Draft) :
    List (Document × Document) → Except Fault Draft
  | [] => .ok draft
  | (key, document) :: rest => do
    let name ← asText key
    let draft ← draft.readField name document
    draft.readEntries rest

/-- Read named fields, one after the other. -/
def readFields (draft : Draft) :
    List (String × Document) → Except Fault Draft
  | [] => .ok draft
  | (name, document) :: rest => do
    let draft ← draft.readField name document
    draft.readFields rest

def require {α : Type} (name : String) (read : Option α) : Except Fault α :=
  match read with
  | some content => .ok content
  | none => .error (.missingField name)

/-- The source of a draft, if no required field is missing. -/
def finish (draft : Draft) : Except Fault Source := do
  let name ← require "name" draft.name
  let author ← require "author" draft.author
  let version ← require "version" draft.version
  let speechActs ← require "speech_acts" draft.speechActs
  let reply ← require "reply" draft.reply
  let roles ← require "roles" draft.roles
  .ok {
    name, author, version, speechActs, reply, roles
    description := draft.description.getD none
    customTypes := draft.customTypes.getD ∅
    endStates := draft.endStates.getD []
    initiation := draft.initiation.getD none
    speakers := draft.speakers.getD ∅
    terminalOutcomes := draft.terminalOutcomes.getD ∅ }

end Draft

/-- The source that a document describes: a mapping from field names, or the
sequence of the fields. -/
def ofDocument : Document → Except Fault Source
  | .mapping entries ended => do
    let draft ← ({} : Draft).readEntries entries
    Document.requireEnd ended
    draft.finish
  | .sequence items ended => do
    let draft ← ({} : Draft).readFields (fieldNames.zip items)
    Document.requireEnd ended
    if items.length < requiredLength ∨ fieldNames.length < items.length then
      .error .malformed
    else draft.finish
  | .plain "" => ({} : Draft).finish
  | _ => .error .malformed

/-- The source of a text that was read as a document, after which nothing else
may stand. -/
def ofRead (read : Document × Bool) : Except Fault Source := do
  let source ← ofDocument read.1
  Document.requireEnd read.2
  .ok source

def ofJson (text : String) : Except Fault Source :=
  ofRead (Document.ofJson text)

/-- In YAML the fields have to be named. -/
def ofYaml (text : String) : Except Fault Source :=
  match Document.ofYaml text with
  | (.sequence _ _, _) => .error .malformed
  | read => ofRead read

end Source

end Colloquy
