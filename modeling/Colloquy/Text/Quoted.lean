import Colloquy.Text.Hidden

/-!
# Quoted texts

Texts between double quotes, for people to read: quotes, backslashes and
characters that do not show are escaped.
-/

namespace Colloquy.Text

/-- Short escapes, by the character they stand for. -/
def quotedEscapes : List (Char × Char) :=
  [('"', '"'), ('\\', '\\'), ('\n', 'n'), ('\r', 'r'), ('\t', 't'),
    ('\x00', '0')]

def escapeQuoted (c : Char) : List Char :=
  match quotedEscapes.find? fun pair => pair.1 = c with
  | some pair => ['\\', pair.2]
  | none =>
    if isHidden c then
      ['\\', 'u', '\x7b'] ++ Nat.toDigits 16 c.toNat ++ ['\x7d']
    else [c]

def quote (text : String) : String :=
  "\"" ++ String.ofList (text.toList.flatMap escapeQuoted) ++ "\""

end Colloquy.Text
