import Colloquy.DecodeError
import Colloquy.DialogueError

/-!
# Protocol errors

Whatever may go wrong while an agent sends or receives.
-/

namespace Colloquy

inductive ProtocolError where
  | field (cause : FieldError)
  | decode (cause : DecodeError)
  | dialogue (cause : DialogueError)
  | serialization (cause : TypeError)
  | unknownProtocol (id : ProtocolId)
  deriving DecidableEq, Repr

def ProtocolError.message : ProtocolError → String
  | field cause => "field error: " ++ cause.message
  | decode cause => "decode error: " ++ cause.message
  | dialogue cause => "dialogue error: " ++ cause.message
  | serialization cause => "serialization error: " ++ cause.message
  | unknownProtocol id => "unknown protocol `" ++ id.text ++ "`"

end Colloquy
