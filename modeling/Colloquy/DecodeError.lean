import Colloquy.FieldError
import Colloquy.MessagePack.Wire
import Colloquy.ProtocolId

/-!
# Decode errors

Why a payload is no value of a type, or no message of a protocol.
-/

namespace Colloquy

/-- The lowest message id, which the opener of a dialogue has. -/
def startingMessageId : UInt64 := 1

/-- The target of an opener: it replies to nothing. -/
def startingTarget : UInt64 := 0

namespace MessagePack

def Fault.message : Fault → String
  | malformed => "malformed payload"
  | tooDeep =>
    "malformed payload: nesting deeper than " ++ toString maxNestingDepth
      ++ " levels"
  | outOfRange number =>
    "malformed payload: integer " ++ toString number ++ " out of range"
  | trailing count => toString count ++ " trailing bytes after message"

end MessagePack

inductive DecodeError where
  | payload (fault : MessagePack.Fault)
  | messageId (found : UInt64)
  | repeatedField (field : String)
  | tooLarge (size limit : Nat)
  /-- The identity is carried as a text, which need not be one of an identity. -/
  | protocolMismatch (expected : ProtocolId) (found : String)
  | emptyInitiator
  | type (cause : TypeError)
  | field (cause : FieldError)
  deriving DecidableEq, Repr

def DecodeError.message : DecodeError → String
  | payload fault => fault.message
  | messageId found =>
    "malformed payload: message id " ++ toString found ++ " below "
      ++ toString startingMessageId
  | repeatedField name => "malformed payload: field `" ++ name ++ "` repeated"
  | tooLarge size limit =>
    "payload of " ++ toString size ++ " bytes exceeds limit of "
      ++ toString limit
  | protocolMismatch expected found =>
    "message for protocol `" ++ found ++ "`, expected `" ++ expected.text ++ "`"
  | emptyInitiator => "invalid dialogue reference: initiator half is empty"
  | type cause => cause.message
  | field cause => cause.message

end Colloquy
