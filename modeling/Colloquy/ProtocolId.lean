/-!
# Protocol identities

A protocol is known by its author, its name and its version.  The text of an
identity joins the three and is what messages carry.
-/

namespace Colloquy

structure ProtocolId where
  author : String
  name : String
  version : String
  deriving DecidableEq, Repr, Inhabited

namespace ProtocolId

def text (id : ProtocolId) : String :=
  id.author ++ "/" ++ id.name ++ ":" ++ id.version

/-- By author, then name, then version. -/
def compare (a b : ProtocolId) : Ordering :=
  (Ord.compare a.author b.author).then
    ((Ord.compare a.name b.name).then (Ord.compare a.version b.version))

instance : Ord ProtocolId := ⟨ProtocolId.compare⟩

end ProtocolId

end Colloquy
