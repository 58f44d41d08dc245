import Colloquy.Document.Json
import Colloquy.MessagePack.Token

/-!
# Portable values

What references, states and statistics look like outside of the library.  In
JSON a record is an object with its fields by name; in MessagePack it is an
array of its fields in order.  Counts by name are objects and maps.  A variant
with contents is an object, or a map, of one entry.
-/

namespace Colloquy

inductive Portable where
  | null
  | number (value : UInt64)
  | text (content : String)
  | record (fields : List (String × Portable))
  | counts (entries : List (String × UInt64))
  | variant (name : String) (content : Portable)
  deriving Repr, Inhabited

namespace Portable

open MessagePack

mutual

def toDocument : Portable → Document
  | null => .null
  | number value => .ofNat value.toNat
  | text content => .text content
  | record fields => .ofEntries (toDocumentFields fields)
  | counts entries =>
    .ofEntries (entries.map fun entry => (entry.1, .ofNat entry.2.toNat))
  | variant name content => .ofEntries [(name, toDocument content)]

def toDocumentFields : List (String × Portable) → List (String × Document)
  | [] => []
  | (name, value) :: rest => (name, toDocument value) :: toDocumentFields rest

end

def toJson (value : Portable) : String := value.toDocument.toJson

mutual

/-- The MessagePack form of a portable value. -/
def pack : Portable → Bytes
  | null => Token.nil.write
  | number value => (Token.uint value).write
  | text content => (Token.str content).write
  | record fields => (Token.array fields.length).write ++ packFields fields
  | counts entries =>
    (Token.map entries.length).write ++ entries.flatMap fun entry =>
      (Token.str entry.1).write ++ (Token.uint entry.2).write
  | variant name content =>
    (Token.map 1).write ++ (Token.str name).write ++ pack content

def packFields : List (String × Portable) → Bytes
  | [] => []
  | (_, value) :: rest => pack value ++ packFields rest

end

end Portable

end Colloquy
