/-!
Contract: the shortest decimal that reads back as a given binary fraction.

Owns: the stretch of reals that round to a binary fraction, the search for the shortest decimal in
it, and the text of the result, with all its places or with an exponent.

Does not own: where such texts are written, and in which layout (`Correlator.Options.Settings`).
-/

set_option autoImplicit false

namespace Correlator.Decimal

/-- A positive number `mantissa * 2 ^ exponent`. -/
structure Binary where
  mantissa : Nat
  exponent : Int
deriving DecidableEq, Repr

/-- A number `digits * 10 ^ exponent`. -/
structure Scaled where
  digits : Nat
  exponent : Int
deriving DecidableEq, Repr

/-- Which of two equally near decimals stands for a number. -/
inductive Tie where
  | upper
  /-- The one with the even last digit. -/
  | even
deriving DecidableEq, Repr

/-- How the text of a number is laid out. -/
structure Layout where
  /-- The powers of ten, from the first up to but without the second, at which the leading digit may
  stand for all places to be written out; none where all places always are. -/
  plain : Option (Int × Int)
  tie : Tie
deriving DecidableEq, Repr

namespace Binary

/-- The weight of the leading bit of a mantissa, which the 52 bits of a fraction stay below. -/
abbrev mantissaBound : Nat := 0x10000000000000

/-- The binary fraction of a positive finite double-precision word without its sign bit. -/
def ofWord (word : UInt64) : Binary :=
  let fraction : Nat := word.toNat % mantissaBound
  let biased : Nat := word.toNat / mantissaBound % 0x800
  if biased = 0 then ⟨fraction, -1074⟩ else ⟨fraction + mantissaBound, (biased : Int) - 1075⟩

def numerator (binary : Binary) : Nat := binary.mantissa * Nat.pow 2 binary.exponent.toNat

def scale (binary : Binary) : Nat := Nat.pow 2 (-binary.exponent).toNat

/-- Four times the distance to the lower end of the stretch that rounds to this number, counted in
units of the last place: below a power of two the neighbours lie closer. -/
def lowerQuarter (binary : Binary) : Nat :=
  if binary.mantissa = mantissaBound && -1074 < binary.exponent then 1 else 2

/-- Whether a decimal rounds to this number. The ends of the stretch belong to it where the mantissa
is even. -/
def accepts (binary : Binary) (decimal : Scaled) : Bool :=
  let point := 4 * decimal.digits * Nat.pow 10 decimal.exponent.toNat * binary.scale
  let unit := Nat.pow 2 binary.exponent.toNat * Nat.pow 10 (-decimal.exponent).toNat
  let low := (4 * binary.mantissa - binary.lowerQuarter) * unit
  let high := (4 * binary.mantissa + 2) * unit
  if binary.mantissa % 2 = 0 then low ≤ point && point ≤ high else low < point && point < high

/-- The least `magnitude` with the number below `10 ^ magnitude`. -/
def magnitude (binary : Binary) : Int :=
  if binary.scale ≤ binary.numerator then
    ((Nat.toDigits 10 (binary.numerator / binary.scale)).length : Int)
  else
    1 - ((Nat.toDigits 10 ((binary.scale - 1) / binary.numerator)).length : Int)

/-- The nearest of the two neighbours of the number on the grid of `count`-digit decimals that
rounds to it, if one does. -/
def nearestOfLength? (binary : Binary) (tie : Tie) (count : Nat) : Option Scaled :=
  let exponent := binary.magnitude - count
  let top := binary.numerator * Nat.pow 10 (-exponent).toNat
  let bottom := binary.scale * Nat.pow 10 exponent.toNat
  let below : Scaled := ⟨top / bottom, exponent⟩
  let above : Scaled := ⟨top / bottom + 1, exponent⟩
  let belowFirst :=
    2 * (top % bottom) < bottom
      || (2 * (top % bottom) == bottom && tie == .even && below.digits % 2 == 0)
  (if belowFirst then [below, above] else [above, below]).find? binary.accepts

/-- The shortest decimal that rounds to the number; seventeen digits always suffice. -/
def shortest (binary : Binary) (tie : Tie) : Scaled :=
  ((List.range 17).findSome? fun count => binary.nearestOfLength? tie (count + 1)).getD ⟨0, 0⟩

end Binary

namespace Scaled

/-- The power of ten at which the leading digit stands. -/
def place (decimal : Scaled) : Int :=
  ((Nat.toDigits 10 decimal.digits).length : Int) - 1 + decimal.exponent

/-- The digits of the number, written out with all their places. -/
def positional (decimal : Scaled) : String :=
  let digits := Nat.toDigits 10 decimal.digits
  if 0 ≤ decimal.exponent then
    String.ofList (digits ++ List.replicate decimal.exponent.toNat '0') ++ ".0"
  else
    let places := (-decimal.exponent).toNat
    let padded := digits.leftpad (places + 1) '0'
    let whole := padded.take (padded.length - places)
    let part := ((padded.drop (padded.length - places)).reverse.dropWhile (· == '0')).reverse
    String.ofList whole ++ "." ++ (if part.isEmpty then "0" else String.ofList part)

/-- The digits without zeros at the end. -/
def significantDigits (decimal : Scaled) : List Char :=
  ((Nat.toDigits 10 decimal.digits).reverse.dropWhile (· == '0')).reverse

/-- The leading digit, the others behind a point, and the power of ten at which the leading digit
stands, with its sign. -/
def exponential (decimal : Scaled) : String :=
  let leading := decimal.significantDigits.take 1
  let others := decimal.significantDigits.drop 1
  let part := if others.isEmpty then [] else '.' :: others
  String.ofList (leading ++ part) ++ (if decimal.place < 0 then "e-" else "e+")
    ++ toString decimal.place.natAbs

def text (decimal : Scaled) (layout : Layout) : String :=
  let isPlain := layout.plain.all fun (first, behind) => first ≤ decimal.place && decimal.place < behind
  if isPlain then decimal.positional else decimal.exponential

end Scaled

/-- The least positive number needs one digit only. -/
example : (Binary.mk 1 (-1074)).shortest .upper = ⟨5, -324⟩ := by decide +kernel

/-- A number half-way between two decimals of the same length. -/
example : [Tie.upper, Tie.even].map (Binary.mk 0x1ccf9f87bc2875 (-2)).shortest
    = [⟨20273958579758373, -1⟩, ⟨20273958579758372, -1⟩] := by
  decide +kernel

/-- All places are written out, and always a point. -/
example : [Scaled.mk 125 (-2), Scaled.mk 12 3, Scaled.mk 5 (-3)].map Scaled.positional
    = ["1.25", "12000.0", "0.005"] := by
  decide +kernel

/-- There is a point only before further digits, and always a sign before the power. -/
example : [Scaled.mk 125 (-9), Scaled.mk 10 22].map Scaled.exponential = ["1.25e-7", "1e+23"] := by
  decide +kernel

/-- The text of a double-precision number: the fewest digits that read back, with a point or an
exponent; the words `NaN`, `inf` and `-inf` for the rest. -/
def realText (layout : Layout) (value : Float) : String :=
  let word := value.toBits
  let sign := if 0x8000000000000000 ≤ word.toNat then "-" else ""
  let magnitude := word % 0x8000000000000000
  if 0x7ff0000000000000 < magnitude then "NaN"
  else if magnitude = 0x7ff0000000000000 then sign ++ "inf"
  else if magnitude = 0 then sign ++ "0.0"
  else sign ++ ((Binary.ofWord magnitude).shortest layout.tie).text layout

end Correlator.Decimal
