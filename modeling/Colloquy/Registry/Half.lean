import Colloquy.Reference

/-!
# Fresh reference halves

A registry names its side of a conversation by a half that no dialogue it holds
uses.  Where the halves come from does not matter; a supply promises that there
is always another one.
-/

namespace Colloquy

structure HalfSupply where
  /-- A half that is none of those in use. -/
  next : List String → String
  next_not_mem : ∀ used, next used ∉ used
  next_ne_unassigned : ∀ used, next used ≠ unassigned

namespace HalfSupply

/-- A text longer than any of the given ones. -/
def lengthen (half : String) : List String → String
  | [] => half
  | first :: rest => first ++ lengthen half rest

theorem length_le_lengthen (half : String) (used : List String) :
    half.length ≤ (lengthen half used).length := by
  induction used with
  | nil => exact Nat.le_refl _
  | cons first rest ih =>
    rw [lengthen, String.length_append]
    exact Nat.le_trans ih (Nat.le_add_left _ _)

theorem length_lt_lengthen {half : String} (hhalf : 0 < half.length)
    {used : List String} {other : String} (hmem : other ∈ used) :
    other.length < (lengthen half used).length := by
  induction used with
  | nil => cases hmem
  | cons first rest ih =>
    rw [lengthen, String.length_append]
    rcases List.mem_cons.mp hmem with heq | hrest
    · have hle := length_le_lengthen half rest
      rw [heq]
      omega
    · have hlt := ih hrest
      omega

/-- The given half, or a longer one if that is in use. -/
def preferring (half : String) (hhalf : 0 < half.length) : HalfSupply where
  next used := if half ∈ used then lengthen half used else half
  next_not_mem used := by
    split
    · intro hmem
      exact Nat.lt_irrefl _ (length_lt_lengthen hhalf hmem)
    · assumption
  next_ne_unassigned used := by
    have hne : ∀ text : String, 0 < text.length → text ≠ unassigned := by
      rintro text hpos rfl
      exact absurd hpos (by decide)
    split
    · exact hne _ (Nat.lt_of_lt_of_le hhalf (length_le_lengthen half used))
    · exact hne _ hhalf

end HalfSupply

end Colloquy
