/-!
Contract: numbers as data notations give them.

Owns: the three kinds of number that a reader tells apart, and the number that a decimal literal
stands for.

Does not own: the text of a number (`Correlator.Decimal.Shortest`) and what a number is used for
(`Correlator.Options.Settings`).
-/

set_option autoImplicit false

namespace Correlator

/-- A number as a notation gives it: an unsigned word, a negative signed word, or anything else as a
double-precision number. -/
inductive Numeral where
  | natural (value : UInt64)
  | negative (value : Int64)
  | real (value : Float)
deriving Repr

namespace Numeral

/-- The number for an integer in the range of signed words. -/
def ofInt (value : Int) : Numeral :=
  if 0 ≤ value then .natural (UInt64.ofNat value.toNat) else .negative (Int64.ofInt value)

/-- A decimal literal: sign, the digits before and behind the point, and the exponent. An integer
literal has neither digits behind the point nor an exponent. -/
structure Literal where
  isNegative : Bool
  whole : List Nat
  fraction : Option (List Nat)
  exponent : Option Int
deriving DecidableEq, Repr

namespace Literal

/-- The digits that fit an unsigned word read from the left, and the rest. -/
def leadingWord (value : Nat) : List Nat → Nat × List Nat
  | [] => (value, [])
  | digit :: rest =>
    if value * 10 + digit < UInt64.size then leadingWord (value * 10 + digit) rest
    else (value, digit :: rest)

/-- Whether the literal is written as an integer. -/
def isInteger (literal : Literal) : Bool := literal.fraction.isNone && literal.exponent.isNone

/-- The magnitude of the literal as its leading digits and a power of ten; a digit that does not fit
an unsigned word counts only by its place, as do all behind it on its side of the point. -/
def parts (literal : Literal) : Nat × Int :=
  let fraction := literal.fraction.getD []
  let (whole, wholeRest) := leadingWord 0 literal.whole
  let (significand, fractionRest) := leadingWord whole fraction
  let places : Nat := fraction.length - fractionRest.length
  (significand, literal.exponent.getD 0 + wholeRest.length - places)

/-- Scales by a power of ten in double-precision steps of at most `10 ^ 308`. Zero stays zero, a power
above that makes all else infinite, and one below two full steps leaves nothing of a word. -/
def scaled (value : Float) (exponent : Int) : Float :=
  let step := Float.ofScientific 1 false 308
  let power (places : Nat) := Float.ofScientific 1 false places
  let places := exponent.natAbs
  if value == 0.0 then value
  else if 0 ≤ exponent then if places ≤ 308 then value * power places else 1.0 / 0.0
  else if places ≤ 308 then value / power places
  else if places ≤ 616 then value / step / power (places - 308)
  else 0.0

end Literal

/-- The number of a literal: a word where an integer literal fits one, and otherwise the leading
digits scaled in double precision. Minus zero is no word. -/
def ofLiteral (literal : Literal) : Numeral :=
  let (significand, exponent) := literal.parts
  let magnitude := Literal.scaled (Float.ofNat significand) exponent
  let real : Numeral := .real (if literal.isNegative then -magnitude else magnitude)
  if literal.isInteger && exponent == 0 then
    if !literal.isNegative then .natural (UInt64.ofNat significand)
    else if 0 < significand && significand ≤ 0x8000000000000000 then .negative (Int64.ofInt (-significand))
    else real
  else real

end Numeral

end Correlator
