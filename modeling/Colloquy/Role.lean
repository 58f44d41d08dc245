/-!
# Roles

A dialogue has two sides: the one that opened it and the one that was
addressed.
-/

namespace Colloquy

inductive Role where
  | initiator
  | responder
  deriving DecidableEq, Repr, Inhabited

namespace Role

def counterpart : Role → Role
  | initiator => responder
  | responder => initiator

def name : Role → String
  | initiator => "Initiator"
  | responder => "Responder"

@[simp]
theorem counterpart_counterpart (role : Role) :
    role.counterpart.counterpart = role := by
  cases role <;> rfl

theorem counterpart_ne (role : Role) : role.counterpart ≠ role := by
  cases role <;> simp [counterpart]

end Role

end Colloquy
