import Mathlib.Data.List.Basic
import Correlator.Toml.Lexical

/-!
Contract: integers in decimal notation, read back at the end of a line.

Owns: what a decimal numeral is made of, that it is read as neither a date, a time nor a real number, and the integer
that it is read as.

Does not own: the line that it stands on (`Correlator.Proofs.Toml.Lines`).
-/

set_option autoImplicit false

namespace Correlator.Toml

/-- Nothing is left of a text, or its next line. -/
def AtLineEnd (rest : List Char) : Prop := rest = [] ∨ ∃ more, rest = '\n' :: more

/-- The digits of an integer, with a zero in front only where it is one. -/
structure IsNumeral (digits : List Char) : Prop where
  nonempty : digits ≠ []
  digit : ∀ char ∈ digits, isDigit char = true
  canonical : digits.head? = some '0' → digits = ['0']

/-! ### The notation of a number -/

theorem isDigit_eq (char : Char) : isDigit char = char.isDigit := by
  rw [Bool.eq_iff_iff]
  simp only [isDigit, Char.isDigit, Bool.and_eq_true, decide_eq_true_eq]
  exact Iff.rfl

theorem head?_toDigits {number : Nat} (leading : (Nat.toDigits 10 number).head? = some '0') :
    Nat.toDigits 10 number = ['0'] := by
  induction number using Nat.strongRecOn with
  | ind number inductionHypothesis =>
    rw [Nat.toDigits_eq_if (by decide)] at leading ⊢
    split at leading
    next small =>
      rw [if_pos small]
      exact congrArg (· :: []) (Option.some.inj leading)
    next large =>
      -- The digits in front would be those of zero.
      rw [List.head?_append_of_ne_nil _ Nat.toDigits_ne_nil] at leading
      have zero := inductionHypothesis (number / 10) (by omega) leading
      have value := congrArg (Nat.ofDigitChars 10 · 0) zero
      rw [Nat.ofDigitChars_toDigits (by decide) (by decide)] at value
      have none : number / 10 = 0 := value
      omega

theorem isNumeral_toString (number : Nat) : IsNumeral (toString number).toList where
  nonempty := by
    show number.repr.toList ≠ []
    rw [Nat.toList_repr]
    exact Nat.toDigits_ne_nil
  digit := by
    intro char member
    rw [show toString number = number.repr from rfl, Nat.toList_repr] at member
    rw [isDigit_eq]
    exact Nat.isDigit_of_mem_toDigits (by decide) (by decide) member
  canonical := by
    show number.repr.toList.head? = _ → number.repr.toList = _
    rw [Nat.toList_repr]
    exact head?_toDigits

theorem digitsValue_toString (number : Nat) : digitsValue (toString number).toList = number := by
  have same : digitsValue (toString number).toList
      = Nat.ofDigitChars 10 (toString number).toList 0 := by
    unfold digitsValue
    rw [Nat.ofDigitChars_eq_foldl]
    congr 1
    funext value char
    rw [Nat.mul_comm]
    rfl
  rw [same, show toString number = number.repr from rfl, Nat.toList_repr,
    Nat.ofDigitChars_toDigits (by decide) (by decide)]

/-! ### Reading -/

section Reading

variable {digits rest : List Char}

/-- Digits are read up to the end of the line. -/
theorem moreDigits_append (each : ∀ char ∈ digits, isDigit char = true) (atEnd : AtLineEnd rest) :
    moreDigits isDigit (digits ++ rest) = (digits, rest) := by
  induction digits with
  | nil =>
    obtain rfl | ⟨more, rfl⟩ := atEnd
    · rfl
    · rw [List.nil_append, moreDigits]
      · rfl
      · intro char rest same
        cases same
  | cons digit digits inductionHypothesis =>
    obtain ⟨first, others⟩ := List.forall_mem_cons.mp each
    rw [List.cons_append, moreDigits, if_pos first, inductionHypothesis others]
    intro char rest same
    cases same
    cases first

theorem someDigits_append (numeral : IsNumeral digits) (atEnd : AtLineEnd rest) :
    someDigits isDigit (digits ++ rest) = some (digits, rest) := by
  obtain ⟨nonempty, each, -⟩ := numeral
  cases digits with
  | nil => exact absurd rfl nonempty
  | cons digit digits =>
    obtain ⟨first, others⟩ := List.forall_mem_cons.mp each
    rw [List.cons_append, someDigits, if_pos first, moreDigits_append others atEnd]

theorem IsNumeral.exists_cons (numeral : IsNumeral digits) :
    ∃ digit others, digits = digit :: others ∧ isDigit digit = true ∧ (digit = '0' → others = []) := by
  obtain ⟨nonempty, each, canonical⟩ := numeral
  cases digits with
  | nil => exact absurd rfl nonempty
  | cons digit others =>
    refine ⟨digit, others, rfl, each digit List.mem_cons_self, ?_⟩
    rintro rfl
    exact (List.cons.inj (canonical rfl)).2

theorem sign_append (numeral : IsNumeral digits) : sign (digits ++ rest) = (false, digits ++ rest) := by
  obtain ⟨digit, others, rfl, isDigit, -⟩ := numeral.exists_cons
  rw [List.cons_append]
  unfold sign
  split
  next same => cases same; cases isDigit
  next same => cases same; cases isDigit
  next => rfl

theorem decimalDigits_append (numeral : IsNumeral digits) (atEnd : AtLineEnd rest) :
    decimalDigits (digits ++ rest) = some ((false, digits), rest) := by
  unfold decimalDigits
  rw [sign_append numeral]
  split
  next same =>
    obtain ⟨digit, others, rfl, -, alone⟩ := numeral.exists_cons
    obtain ⟨rfl, text⟩ := Prod.mk.inj same
    obtain ⟨rfl, rfl⟩ := List.cons.inj text
    rw [alone rfl]
    rfl
  next same =>
    obtain ⟨rfl, rfl⟩ := Prod.mk.inj same
    rw [someDigits_append numeral atEnd]
    rfl

/-- Behind a number of digits that is fixed, there is no mark on the line. -/
theorem expect_eq_none {count least most value : Nat} {mark : Char} {behind : List Char}
    (each : ∀ char ∈ digits, isDigit char = true) (atEnd : AtLineEnd rest)
    (fixed : fixedDigits count least most (digits ++ rest) = some (value, behind))
    (noDigit : isDigit mark = false) (noBreak : mark ≠ '\n') : expect mark behind = none := by
  unfold fixedDigits at fixed
  dsimp only at fixed
  split at fixed
  next given =>
    obtain ⟨-, rfl⟩ := Prod.mk.inj (Option.some.inj fixed)
    simp only [Bool.and_eq_true, decide_eq_true_eq, List.all_eq_true] at given
    obtain ⟨⟨⟨counted, all⟩, -⟩, -⟩ := given
    have within : count ≤ digits.length := by
      by_contra beyond
      obtain rfl | ⟨more, rfl⟩ := atEnd
      · rw [List.length_take, List.append_nil] at counted
        omega
      · cases all '\n' (List.mem_take_iff_getElem.mpr ⟨digits.length, by simp; omega, by simp⟩)
    rw [List.drop_append_of_le_length within]
    cases left : digits.drop count with
    | nil =>
      obtain rfl | ⟨more, rfl⟩ := atEnd
      · rfl
      · exact if_neg fun same => noBreak (eq_of_beq same).symm
    | cons digit others =>
      refine if_neg fun same => ?_
      have isDigit := each digit (List.mem_of_mem_drop (left ▸ List.mem_cons_self))
      rw [eq_of_beq same, noDigit] at isDigit
      cases isDigit
  next => cases fixed

/-- A numeral starts neither a date nor a time. -/
theorem dateTime_append (numeral : IsNumeral digits) (atEnd : AtLineEnd rest) :
    dateTime (digits ++ rest) = none := by
  have noDate : date (digits ++ rest) = none := by
    unfold date
    cases fixed : fixedDigits 4 0 9999 (digits ++ rest) with
    | none => rfl
    | some read =>
      obtain ⟨value, behind⟩ := read
      have unmarked : expect '-' behind = none :=
        expect_eq_none numeral.digit atEnd fixed (by decide) (by decide)
      simp [unmarked]
  have noTime : timeOfDay (digits ++ rest) = none := by
    unfold timeOfDay
    cases fixed : fixedDigits 2 0 23 (digits ++ rest) with
    | none => rfl
    | some read =>
      obtain ⟨value, behind⟩ := read
      have unmarked : expect ':' behind = none :=
        expect_eq_none numeral.digit atEnd fixed (by decide) (by decide)
      simp [unmarked]
  unfold dateTime
  rw [noDate, noTime]
  rfl

/-- A numeral starts no real number. -/
theorem real_append (numeral : IsNumeral digits) (atEnd : AtLineEnd rest) :
    real (digits ++ rest) = none := by
  have noDigits : digitsReal (digits ++ rest) = none := by
    unfold digitsReal
    rw [decimalDigits_append numeral atEnd]
    obtain rfl | ⟨more, rfl⟩ := atEnd <;> rfl
  have noWord : specialReal (digits ++ rest) = none := by
    unfold specialReal
    rw [sign_append numeral]
    obtain ⟨digit, others, rfl, isDigit, -⟩ := numeral.exists_cons
    rw [List.cons_append]
    split
    next same =>
      obtain ⟨rfl, -⟩ := List.cons.inj (Prod.mk.inj same).2
      cases isDigit
    next same =>
      obtain ⟨rfl, -⟩ := List.cons.inj (Prod.mk.inj same).2
      cases isDigit
    next => rfl
  unfold real
  rw [noDigits, noWord]

theorem integer_append (numeral : IsNumeral digits) (atEnd : AtLineEnd rest)
    (inRange : digitsValue digits < 0x8000000000000000) :
    integer (digits ++ rest) = some (.integer (digitsValue digits), rest) := by
  have whole := decimalDigits_append numeral atEnd
  have scalar : integerInRange? (digitsValue digits) = some (.integer (digitsValue digits)) := by
    unfold integerInRange?
    rw [if_pos (by omega)]
  -- A base is written behind a zero, and nothing on the line is behind this digit.
  have noBase : ∀ mark behind, digits ++ rest = '0' :: mark :: behind → mark = '\n' := by
    intro mark behind same
    obtain ⟨digit, others, rfl, -, alone⟩ := numeral.exists_cons
    obtain ⟨rfl, same⟩ := List.cons.inj same
    rw [alone rfl] at same
    obtain rfl | ⟨more, rfl⟩ := atEnd <;> cases same
    rfl
  unfold integer
  split
  next same => cases noBase _ _ same
  next same => cases noBase _ _ same
  next same => cases noBase _ _ same
  next =>
    rw [whole, Option.bind_eq_bind, Option.bind_some]
    dsimp only
    rw [if_neg Bool.false_ne_true, scalar, Option.bind_eq_bind, Option.bind_some]

theorem numeric_append (numeral : IsNumeral digits) (atEnd : AtLineEnd rest)
    (inRange : digitsValue digits < 0x8000000000000000) :
    numeric (digits ++ rest) = some (.integer (digitsValue digits), rest) := by
  unfold numeric
  rw [dateTime_append numeral atEnd, real_append numeral atEnd]
  exact integer_append numeral atEnd inRange

end Reading

end Correlator.Toml
