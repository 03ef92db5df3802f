import Correlator.Text.Visible

/-!
Contract: texts between quotation marks.

Owns: which characters are escaped inside the marks, and how.

Does not own: which characters are visible (`Correlator.Text.Visible`).
-/

set_option autoImplicit false

namespace Correlator.Text

/-- A code point in lower-case hexadecimal digits between braces. -/
def codePointEscape (char : Char) : List Char :=
  ['\\', 'u', '\x7b'] ++ Nat.toDigits 16 char.toNat ++ ['\x7d']

/-- A character as it stands between quotation marks: the mark and the backslash are escaped, four
control characters have a letter, and everything else without a visible form is given by its code
point. -/
def escapeChar (char : Char) : List Char :=
  if char = '"' then ['\\', '"']
  else if char = '\\' then ['\\', '\\']
  else if char = '\n' then ['\\', 'n']
  else if char = '\r' then ['\\', 'r']
  else if char = '\t' then ['\\', 't']
  else if char = '\x00' then ['\\', '0']
  else if isVisible char then [char]
  else codePointEscape char

/-- A text between quotation marks. -/
def quoted (text : String) : String :=
  String.ofList (['"'] ++ text.toList.flatMap escapeChar ++ ['"'])

/-- A mark, a control character with a letter, one without, and a visible character. -/
example : quoted "a\"\n\u200bé" = "\"a\\\"\\n\\u\x7b200b\x7dé\"" := by decide +kernel

end Correlator.Text
