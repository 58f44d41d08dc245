/-!
# Dialogue references

The two-part name of a conversation.  The initiator chooses the first half when
it opens, the responder the second half with its first reply; until then the
second half is unassigned.
-/

namespace Colloquy

/-- Stands for a half that nobody has chosen yet. -/
def unassigned : String := ""

structure Reference where
  initiator : String
  responder : String
  deriving DecidableEq, Repr, Inhabited

namespace Reference

/-- The reference under which a conversation is opened. -/
def opened (initiator : String) : Reference := ⟨initiator, unassigned⟩

def isComplete (reference : Reference) : Bool :=
  reference.initiator ≠ unassigned && reference.responder ≠ unassigned

/-- The reference as it was before the responder answered. -/
def opening (reference : Reference) : Reference := opened reference.initiator

def withResponder (reference : Reference) (half : String) : Reference :=
  { reference with responder := half }

/-- Whether a half occurs on either side. -/
def uses (reference : Reference) (half : String) : Bool :=
  reference.initiator = half || reference.responder = half

def text (reference : Reference) : String :=
  let responder :=
    if reference.responder = unassigned then "?" else reference.responder
  "(" ++ reference.initiator ++ ", " ++ responder ++ ")"

/-- By initiator half, then responder half. -/
def compare (a b : Reference) : Ordering :=
  (Ord.compare a.initiator b.initiator).then
    (Ord.compare a.responder b.responder)

instance : Ord Reference := ⟨Reference.compare⟩

@[simp]
theorem isComplete_opened (half : String) :
    (opened half).isComplete = false := by
  simp [opened, isComplete]

@[simp]
theorem isComplete_opening (reference : Reference) :
    reference.opening.isComplete = false := by
  rw [opening, isComplete_opened]

@[simp]
theorem opening_opening (reference : Reference) :
    reference.opening.opening = reference.opening := rfl

@[simp]
theorem opening_withResponder (reference : Reference) (half : String) :
    (reference.withResponder half).opening = reference.opening := rfl

theorem withResponder_responder (reference : Reference) :
    reference.opening.withResponder reference.responder = reference := rfl

theorem isComplete_iff {reference : Reference} :
    reference.isComplete = true ↔
      reference.initiator ≠ unassigned ∧ reference.responder ≠ unassigned := by
  simp [isComplete]

end Reference

end Colloquy
