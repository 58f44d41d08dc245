import Colloquy.Reference

/-!
# Dialogue labels

A label names one conversation as one of its two participants sees it.  The
other participant holds the mirrored label: the same reference with the
addresses exchanged.
-/

namespace Colloquy

/-- The address of an agent, as the transport hands it over. -/
structure Address where
  text : String
  deriving DecidableEq, Repr, Inhabited

@[ext]
structure Label where
  reference : Reference
  self : Address
  opponent : Address
  deriving DecidableEq, Repr, Inhabited

namespace Label

def isComplete (label : Label) : Bool := label.reference.isComplete

/-- The label before the responder half was known. -/
def incomplete (label : Label) : Label :=
  { label with reference := label.reference.opening }

def withReference (label : Label) (reference : Reference) : Label :=
  { label with reference }

/-- The label that the opponent holds. -/
def mirror (label : Label) : Label :=
  { label with self := label.opponent, opponent := label.self }

def text (label : Label) : String :=
  label.reference.text ++ "@" ++ label.self.text ++ "<->" ++ label.opponent.text

/-- By reference, then own address, then opponent. -/
def compare (a b : Label) : Ordering :=
  (Ord.compare a.reference b.reference).then
    ((Ord.compare a.self.text b.self.text).then
      (Ord.compare a.opponent.text b.opponent.text))

instance : Ord Label := ⟨Label.compare⟩

@[simp]
theorem mirror_mirror (label : Label) : label.mirror.mirror = label := rfl

@[simp]
theorem incomplete_incomplete (label : Label) :
    label.incomplete.incomplete = label.incomplete := rfl

@[simp]
theorem incomplete_mirror (label : Label) :
    label.mirror.incomplete = label.incomplete.mirror := rfl

@[simp]
theorem isComplete_mirror (label : Label) :
    label.mirror.isComplete = label.isComplete := rfl

@[simp]
theorem isComplete_incomplete (label : Label) :
    label.incomplete.isComplete = false :=
  Reference.isComplete_opening label.reference

theorem incomplete_ne_of_isComplete {label : Label}
    (hcomplete : label.isComplete = true) : label.incomplete ≠ label := by
  intro heq
  have hfalse := label.isComplete_incomplete
  rw [heq, hcomplete] at hfalse
  cases hfalse

theorem incomplete_eq_iff {a b : Label} :
    a.incomplete = b.incomplete ↔
      a.reference.initiator = b.reference.initiator ∧ a.self = b.self
        ∧ a.opponent = b.opponent := by
  simp [incomplete, Reference.opening, Reference.opened]

theorem incomplete_of_not_isComplete {label : Label}
    (hincomplete : label.isComplete = false)
    (hinitiator : label.reference.initiator ≠ unassigned) :
    label.incomplete = label := by
  obtain ⟨⟨initiator, responder⟩, self, opponent⟩ := label
  simp only [isComplete, Reference.isComplete, Bool.and_eq_false_imp,
    decide_eq_true_eq, decide_eq_false_iff_not, Decidable.not_not]
    at hincomplete
  rw [incomplete, Reference.opening, Reference.opened, hincomplete hinitiator]

end Label

end Colloquy
