/-!
Contract: text without a visible character.

Owns: the characters with the Unicode property White_Space, and the texts made of them alone.
-/

set_option autoImplicit false

namespace Correlator.Text

/-- The first and last code points of the stretches of characters with the property White_Space. -/
def blankRanges : List (Nat × Nat) :=
  [(0x09, 0x0d), (0x20, 0x20), (0x85, 0x85), (0xa0, 0xa0), (0x1680, 0x1680), (0x2000, 0x200a),
    (0x2028, 0x2029), (0x202f, 0x202f), (0x205f, 0x205f), (0x3000, 0x3000)]

/-- Whether a character has the property White_Space. -/
def isBlankChar (char : Char) : Bool :=
  blankRanges.any fun (first, last) => first ≤ char.toNat && char.toNat ≤ last

/-- Whether all characters of a text, if any, are blank. -/
def isBlank (text : String) : Bool := text.toList.all isBlankChar

example : (blankRanges.map fun (first, last) => last - first + 1).sum = 25 := by decide

end Correlator.Text
