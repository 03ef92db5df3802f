import Correlator.Toml.Document

/-!
Contract: the smallest written parts of a document: blanks, comments, strings, numbers, dates and
keys.

Owns: the characters that each part is made of. Every reader takes the characters in front of it and
gives what it read with those behind, or nothing where the part is not well formed.

Does not own: values with parts and statements (`Correlator.Toml.Reader`).
-/

set_option autoImplicit false

namespace Correlator.Toml

/-- Reads from the front of a list of characters. -/
abbrev Reader (α : Type) := List Char → Option (α × List Char)

/-! ### Blanks, comments and line ends -/

def isSpace (char : Char) : Bool := char == ' ' || char == '\t'

/-- Characters outside control codes, and the tabulator. -/
def isPlain (char : Char) : Bool :=
  char == '\t' || (0x20 ≤ char.toNat && char.toNat != 0x7f)

def skipSpace (chars : List Char) : List Char := chars.dropWhile isSpace

def lineBreak? : List Char → Option (List Char)
  | '\n' :: rest => some rest
  | '\r' :: '\n' :: rest => some rest
  | _ => none

/-- Takes the rest of a line off the front: blanks, a comment, and the end of the line or text. -/
def lineRest? (chars : List Char) : Option (List Char) :=
  let behindComment (chars : List Char) :=
    match chars with
    | '#' :: rest => rest.dropWhile isPlain
    | chars => chars
  match behindComment (skipSpace chars) with
  | [] => some []
  | chars => lineBreak? chars

/-- Skips blanks, comments and line ends; `inComment` tells whether a comment is open. -/
def skipLines (inComment : Bool) : List Char → List Char
  | [] => []
  | '\n' :: rest => skipLines false rest
  | '\r' :: '\n' :: rest => skipLines false rest
  | char :: rest =>
    if inComment && isPlain char then skipLines true rest
    else if isSpace char then skipLines false rest
    else if char == '#' then skipLines true rest
    else char :: rest

/-! ### Strings -/

def hexDigit? (char : Char) : Option Nat :=
  if '0' ≤ char ∧ char ≤ '9' then some (char.toNat - 48)
  else if 'a' ≤ char ∧ char ≤ 'f' then some (char.toNat - 87)
  else if 'A' ≤ char ∧ char ≤ 'F' then some (char.toNat - 55)
  else none

/-- The character of a code point in exactly `count` hexadecimal digits. -/
def codePoint? (count : Nat) : Reader Char := fun chars => do
  let digits ← (chars.take count).mapM hexDigit?
  if digits.length < count then none
  else
    let code := digits.foldl (fun value digit => value * 16 + digit) 0
    if Nat.isValidChar code then some (Char.ofNat code, chars.drop count) else none

/-- The character that an escape stands for, behind its backslash. -/
def escape? : Reader Char
  | 'b' :: rest => some ('\x08', rest)
  | 't' :: rest => some ('\t', rest)
  | 'n' :: rest => some ('\n', rest)
  | 'f' :: rest => some ('\x0c', rest)
  | 'r' :: rest => some ('\r', rest)
  | '"' :: rest => some ('"', rest)
  | '\\' :: rest => some ('\\', rest)
  | 'u' :: rest => codePoint? 4 rest
  | 'U' :: rest => codePoint? 8 rest
  | _ => none

/-- The rest of a string on one line up to its closing mark; only where `escapes` is set does a
backslash have a meaning. -/
def lineString (escapes : Bool) (mark : Char) : Nat → Reader (List Char)
  | 0, _ => none
  | _ + 1, [] => none
  | fuel + 1, char :: rest =>
    if char == mark then some ([], rest)
    else if escapes && char == '\\' then do
      let (value, rest) ← escape? rest
      let (values, rest) ← lineString escapes mark fuel rest
      some (value :: values, rest)
    else if isPlain char then do
      let (values, rest) ← lineString escapes mark fuel rest
      some (char :: values, rest)
    else none

/-- What a backslash at the end of a line skips: the line end and all blanks and line ends behind
it. -/
def continuation? (chars : List Char) : Option (List Char) :=
  (lineBreak? (skipSpace chars)).map (skipBlank ·)
where
  skipBlank : List Char → List Char
    | '\r' :: '\n' :: rest => skipBlank rest
    | char :: rest => if isSpace char || char == '\n' then skipBlank rest else char :: rest
    | [] => []

/-- The rest of a string over several lines, which three marks close. One or two further marks may
stand directly before these. -/
def blockString (escapes : Bool) (mark : Char) : Nat → Reader (List Char)
  | 0, _ => none
  | _ + 1, [] => none
  | fuel + 1, char :: rest =>
    let marks := ((char :: rest).takeWhile (· == mark)).length
    if 3 ≤ marks then
      let inner := min (marks - 3) 2
      some (List.replicate inner mark, (char :: rest).drop (inner + 3))
    else if escapes && char == '\\' then
      match continuation? rest with
      | some rest => blockString escapes mark fuel rest
      | none => do
        let (value, rest) ← escape? rest
        let (values, rest) ← blockString escapes mark fuel rest
        some (value :: values, rest)
    else match lineBreak? (char :: rest) with
    | some rest => do
      let (values, rest) ← blockString escapes mark fuel rest
      some ('\n' :: values, rest)
    | none =>
      if isPlain char then do
        let (values, rest) ← blockString escapes mark fuel rest
        some (char :: values, rest)
      else none

/-- A string behind its first mark, over several lines if two more marks follow. -/
def string (escapes : Bool) (mark : Char) : Reader String := fun chars =>
  let read : Option (List Char × List Char) :=
    match chars with
    | second :: third :: rest =>
      if second == mark && third == mark then
        let body := (lineBreak? rest).getD rest
        blockString escapes mark (body.length + 1) body
      else lineString escapes mark (chars.length + 1) chars
    | _ => lineString escapes mark (chars.length + 1) chars
  read.map fun (value, rest) => (String.ofList value, rest)

/-! ### Keys -/

/-- The characters of a key without marks. -/
def isBare (char : Char) : Bool :=
  ('a' ≤ char && char ≤ 'z') || ('A' ≤ char && char ≤ 'Z') || ('0' ≤ char && char ≤ '9')
    || char == '-' || char == '_'

/-- One part of a key: bare, or a string on one line. -/
def keyPart : Reader Key := fun chars =>
  match chars with
  | '"' :: rest => do
    let (name, rest) ← lineString true '"' (rest.length + 1) rest
    some (⟨String.ofList name, chars.length⟩, rest)
  | '\x27' :: rest => do
    let (name, rest) ← lineString false '\x27' (rest.length + 1) rest
    some (⟨String.ofList name, chars.length⟩, rest)
  | _ =>
    let name := chars.takeWhile isBare
    if name.isEmpty then none
    else some (⟨String.ofList name, chars.length⟩, chars.drop name.length)

/-- A key of parts between points, as its path and its last part. -/
def keyParts : Nat → Reader (List Key × Key)
  | 0, _ => none
  | fuel + 1, chars => do
    let (part, rest) ← keyPart (skipSpace chars)
    match skipSpace rest with
    | '.' :: rest => do
      let ((path, last), rest) ← keyParts fuel rest
      some ((part :: path, last), rest)
    | rest => some (([], part), rest)

/-- The most parts that a key may have. -/
def keyPartLimit : Nat := 79

def key : Reader (List Key × Key) := keyParts keyPartLimit

/-! ### Numbers -/

def isDigit (char : Char) : Bool := '0' ≤ char && char ≤ '9'

def digitsValue (digits : List Char) : Nat :=
  digits.foldl (fun value digit => value * 10 + (digit.toNat - 48)) 0

/-- Digits, between any two of which an underscore may stand. -/
def moreDigits (accepts : Char → Bool) : List Char → List Char × List Char
  | [] => ([], [])
  | '_' :: char :: rest =>
    if accepts char then
      let (digits, rest) := moreDigits accepts rest
      (char :: digits, rest)
    else ([], '_' :: char :: rest)
  | char :: rest =>
    if accepts char then
      let (digits, rest) := moreDigits accepts rest
      (char :: digits, rest)
    else ([], char :: rest)

def someDigits (accepts : Char → Bool) : Reader (List Char)
  | char :: rest =>
    if accepts char then
      let (digits, rest) := moreDigits accepts rest
      some (char :: digits, rest)
    else none
  | [] => none

/-- A sign, positive where none is written. -/
def sign : List Char → Bool × List Char
  | '+' :: rest => (false, rest)
  | '-' :: rest => (true, rest)
  | rest => (false, rest)

/-- A sign and the digits of a decimal integer, which starts with a zero only where it is one. -/
def decimalDigits : Reader (Bool × List Char) := fun chars =>
  match sign chars with
  | (isNegative, '0' :: rest) => some ((isNegative, ['0']), rest)
  | (isNegative, rest) => (someDigits isDigit rest).map fun (digits, rest) => ((isNegative, digits), rest)

/-- An integer in the range of signed 64-bit words. -/
def integerInRange? (value : Int) : Option Scalar :=
  if -0x8000000000000000 ≤ value ∧ value < 0x8000000000000000 then some (.integer value) else none

/-- The digits of an integer in a base that is a power of two. -/
def basedInteger (base : Nat) (chars : List Char) : Option (Scalar × List Char) := do
  let accepts (char : Char) : Bool := (hexDigit? char).any (· < base)
  let (digits, rest) ← someDigits accepts chars
  let value := (digits.filterMap hexDigit?).foldl (fun value digit => value * base + digit) 0
  let scalar ← integerInRange? value
  some (scalar, rest)

def integer : Reader Scalar
  | '0' :: 'x' :: rest => basedInteger 16 rest
  | '0' :: 'o' :: rest => basedInteger 8 rest
  | '0' :: 'b' :: rest => basedInteger 2 rest
  | chars => do
    let ((isNegative, digits), rest) ← decimalDigits chars
    let magnitude : Int := digitsValue digits
    let scalar ← integerInRange? (if isNegative then -magnitude else magnitude)
    some (scalar, rest)

/-- The double-precision number nearest to `digits * 10 ^ exponent`; beyond the range of exponents
that can matter it is zero or infinite. -/
def nearestReal (digits : List Char) (exponent : Int) : Float :=
  let significand := digitsValue digits
  let magnitude := (digits.dropWhile (· == '0')).length + exponent
  if significand = 0 ∨ magnitude < -400 then 0.0
  else if 400 < magnitude then 1.0 / 0.0
  else Float.ofScientific significand (exponent < 0) exponent.natAbs

def exponentPart? : Reader Int
  | char :: rest =>
    if char == 'e' || char == 'E' then do
      let (isNegative, rest) := sign rest
      let (digits, rest) ← someDigits isDigit rest
      let magnitude : Int := digitsValue digits
      some (if isNegative then -magnitude else magnitude, rest)
    else none
  | [] => none

/-- The words for the real numbers without digits. -/
def specialReal : Reader Scalar := fun chars =>
  match sign chars with
  | (isNegative, 'i' :: 'n' :: 'f' :: rest) =>
    some (.real (if isNegative then -(1.0 / 0.0) else 1.0 / 0.0), rest)
  | (_, 'n' :: 'a' :: 'n' :: rest) => some (.real (0.0 / 0.0), rest)
  | _ => none

/-- A real number: digits with a fraction, an exponent or both, and not above all numbers. -/
def digitsReal : Reader Scalar := fun chars => do
  let ((isNegative, whole), rest) ← decimalDigits chars
  let (fraction, exponent, rest) ←
    match rest with
    | '.' :: rest => do
      let (fraction, rest) ← someDigits isDigit rest
      let (exponent, rest) := (exponentPart? rest).getD (0, rest)
      some (fraction, exponent, rest)
    | rest => do
      let (exponent, rest) ← exponentPart? rest
      some ([], exponent, rest)
  let magnitude := nearestReal (whole ++ fraction) (exponent - fraction.length)
  if magnitude.isInf && !isNegative then none
  else some (.real (if isNegative then -magnitude else magnitude), rest)

def real : Reader Scalar := fun chars =>
  match digitsReal chars with
  | some read => some read
  | none => specialReal chars

/-! ### Dates and times -/

/-- A number of exactly `count` digits within bounds. -/
def fixedDigits (count least most : Nat) : Reader Nat := fun chars =>
  let digits := chars.take count
  let value := digitsValue digits
  if digits.length = count && digits.all isDigit && least ≤ value && value ≤ most then
    some (value, chars.drop count)
  else none

def expect (char : Char) : List Char → Option (List Char)
  | head :: rest => if head == char then some rest else none
  | [] => none

def daysIn (year month : Nat) : Nat :=
  if month = 2 then
    if year % 4 = 0 ∧ (year % 100 ≠ 0 ∨ year % 400 = 0) then 29 else 28
  else if month = 4 ∨ month = 6 ∨ month = 9 ∨ month = 11 then 30
  else 31

def date (chars : List Char) : Option (List Char) := do
  let (year, rest) ← fixedDigits 4 0 9999 chars
  let rest ← expect '-' rest
  let (month, rest) ← fixedDigits 2 1 12 rest
  let rest ← expect '-' rest
  let (_, rest) ← fixedDigits 2 1 (daysIn year month) rest
  some rest

/-- A time of day, with a fraction of a second where one is written. -/
def timeOfDay (chars : List Char) : Option (List Char) := do
  let (_, rest) ← fixedDigits 2 0 23 chars
  let rest ← expect ':' rest
  let (_, rest) ← fixedDigits 2 0 59 rest
  let rest ← expect ':' rest
  let (_, rest) ← fixedDigits 2 0 60 rest
  match rest with
  | '.' :: char :: rest =>
    if isDigit char then some (rest.dropWhile isDigit) else some ('.' :: char :: rest)
  | rest => some rest

/-- The distance to the time at the zero meridian. -/
def offset? : List Char → Option (List Char)
  | char :: rest =>
    if char == 'Z' || char == 'z' then some rest
    else if char == '+' || char == '-' then do
      let (_, rest) ← fixedDigits 2 0 23 rest
      let rest ← expect ':' rest
      let (_, rest) ← fixedDigits 2 0 59 rest
      some rest
    else none
  | [] => none

/-- The time of day behind a date. -/
def timeBehindDate? : List Char → Option (List Char)
  | char :: rest =>
    if char == 'T' || char == 't' || char == ' ' then do
      let rest ← timeOfDay rest
      some ((offset? rest).getD rest)
    else none
  | [] => none

def dateTime : Reader Scalar := fun chars =>
  match date chars with
  | some rest => some (.dateTime, (timeBehindDate? rest).getD rest)
  | none => (timeOfDay chars).map fun rest => (.dateTime, rest)

/-- A number, date or time: the first of these readings that succeeds. -/
def numeric : Reader Scalar := fun chars =>
  match dateTime chars with
  | some read => some read
  | none =>
    match real chars with
    | some read => some read
    | none => integer chars

end Correlator.Toml
