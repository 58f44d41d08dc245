/-!
# Identifiers

The words of type expressions and the names of speech acts and their contents
are made of ASCII letters, digits and underscores.
-/

namespace Colloquy.Text

/-- A character that may occur in a word. -/
def isWordChar (c : Char) : Bool :=
  c.isAlphanum || c == '_'

/-- The longest run of word characters at the start of a text, and the rest. -/
def splitWord (text : List Char) : List Char × List Char :=
  (text.takeWhile isWordChar, text.dropWhile isWordChar)

/-- A word that does not start with a digit. -/
def isIdentifier (name : String) : Bool :=
  match name.toList with
  | [] => false
  | c :: rest => (c.isAlpha || c == '_') && rest.all isWordChar

/-- A capital letter followed by letters and digits. -/
def isTypeName (name : String) : Bool :=
  match name.toList with
  | [] => false
  | c :: rest => c.isUpper && rest.all Char.isAlphanum

theorem splitWord_append (text : List Char) :
    (splitWord text).1 ++ (splitWord text).2 = text :=
  List.takeWhile_append_dropWhile

theorem isWordChar_of_mem_splitWord {text : List Char} {c : Char}
    (hmem : c ∈ (splitWord text).1) : isWordChar c = true :=
  List.all_eq_true.mp List.all_takeWhile _ hmem

/-- A run of word characters that nothing extends is read whole. -/
theorem splitWord_word_append {word rest : List Char}
    (hword : ∀ c ∈ word, isWordChar c = true)
    (hrest : ∀ c, rest.head? = some c → isWordChar c = false) :
    splitWord (word ++ rest) = (word, rest) := by
  induction word with
  | nil =>
    cases rest with
    | nil => rfl
    | cons c rest =>
      simp [splitWord, hrest c rfl]
  | cons c word ih =>
    have hc := hword c List.mem_cons_self
    have hrec := ih fun d hd => hword d (List.mem_cons_of_mem c hd)
    simp only [splitWord, Prod.mk.injEq] at hrec
    simp [splitWord, hc, hrec.1, hrec.2]

end Colloquy.Text
