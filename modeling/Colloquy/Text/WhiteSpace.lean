/-!
# White space

The characters with the Unicode property `White_Space`, as a table of code
point ranges.  Type expressions may be spaced out with any of them, and a name
made of nothing else counts as blank.
-/

namespace Colloquy.Text

/-- Inclusive code point ranges of the property `White_Space`. -/
def whiteSpaceRanges : List (Nat × Nat) :=
  [(0x0009, 0x000D), (0x0020, 0x0020), (0x0085, 0x0085), (0x00A0, 0x00A0),
    (0x1680, 0x1680), (0x2000, 0x200A), (0x2028, 0x2029), (0x202F, 0x202F),
    (0x205F, 0x205F), (0x3000, 0x3000)]

def isWhiteSpace (c : Char) : Bool :=
  whiteSpaceRanges.any fun range => range.1 ≤ c.toNat && c.toNat ≤ range.2

/-- The rest of a text once its leading white space is gone. -/
def skipWhiteSpace (text : List Char) : List Char :=
  text.dropWhile isWhiteSpace

/-- Whether a text holds nothing but white space. -/
def isBlank (text : String) : Bool :=
  text.toList.all isWhiteSpace

example : (whiteSpaceRanges.map fun range => range.2 + 1 - range.1).sum = 25 := by
  decide

@[simp]
theorem skipWhiteSpace_nil : skipWhiteSpace [] = [] := rfl

theorem skipWhiteSpace_cons_of_space {c : Char} {text : List Char}
    (hspace : isWhiteSpace c = true) :
    skipWhiteSpace (c :: text) = skipWhiteSpace text := by
  simp [skipWhiteSpace, hspace]

theorem skipWhiteSpace_cons_of_solid {c : Char} {text : List Char}
    (hsolid : isWhiteSpace c = false) :
    skipWhiteSpace (c :: text) = c :: text := by
  simp [skipWhiteSpace, hsolid]

/-- What is skipped is white space, and nothing else is lost. -/
theorem exists_skipWhiteSpace (text : List Char) :
    ∃ blank, text = blank ++ skipWhiteSpace text ∧
      ∀ c ∈ blank, isWhiteSpace c = true :=
  ⟨text.takeWhile isWhiteSpace, List.takeWhile_append_dropWhile.symm,
    fun _ hmem => List.all_eq_true.mp List.all_takeWhile _ hmem⟩

theorem length_skipWhiteSpace_le (text : List Char) :
    (skipWhiteSpace text).length ≤ text.length :=
  (List.dropWhile_sublist _).length_le

end Colloquy.Text
