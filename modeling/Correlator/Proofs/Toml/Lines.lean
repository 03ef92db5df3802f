import Correlator.Proofs.Toml.Numeral
import Correlator.Toml.Reader

/-!
Contract: documents of lines that each give an integer to a bare name.

Owns: how such lines are written, what one of them does to a draft, and that the table of the document has just what
its lines give, in their order.

Does not own: what integers are read from (`Correlator.Proofs.Toml.Numeral`).
-/

set_option autoImplicit false

namespace Correlator.Toml

/-! ### The text -/

/-- The line that gives an integer to a name. -/
def line (pair : String × Nat) : String := pair.1 ++ " = " ++ toString pair.2

/-- A document of lines, the last of which may be closed. -/
def page (pairs : List (String × Nat)) (closed : Bool) : String :=
  "\n".intercalate (pairs.map line) ++ if closed then "\n" else ""

/-- A name is written without marks. -/
structure IsBareName (name : String) : Prop where
  nonempty : name.toList ≠ []
  bare : ∀ char ∈ name.toList, isBare char = true

/-- A name can be given an integer on a line of its own. -/
structure IsPlainPair (pair : String × Nat) : Prop where
  name : IsBareName pair.1
  inRange : pair.2 < 0x8000000000000000

/-- A part of a table has just what a line gives. -/
def Lists (pair : String × Nat) (part : Key × Node) : Prop :=
  part.1.name = pair.1 ∧ ∃ mark, part.2 = .scalar mark (.integer pair.2)

theorem toList_line (pair : String × Nat) :
    (line pair).toList = pair.1.toList ++ ' ' :: '=' :: ' ' :: (toString pair.2).toList := by
  unfold line
  rw [String.toList_append, String.toList_append, List.append_assoc]
  rfl

/-- Behind the first line of a document the others make one as well. -/
theorem exists_behind_line (pair : String × Nat) (pairs : List (String × Nat)) (closed : Bool) :
    ∃ rest still,
      (page (pair :: pairs) closed).toList = (line pair).toList ++ rest
        ∧ AtLineEnd rest
        ∧ lineRest? rest = some (page pairs still).toList
        ∧ (page pairs still).toList.length ≤ rest.length := by
  unfold page
  cases pairs with
  | nil =>
    refine ⟨if closed then ['\n'] else [], false, ?_⟩
    cases closed <;> simp [AtLineEnd, lineRest?, skipSpace, isSpace, lineBreak?]
  | cons next others =>
    refine ⟨'\n' :: (page (next :: others) closed).toList, closed, ?_, .inr ⟨_, rfl⟩, rfl, Nat.le_succ _⟩
    unfold page
    simp only [String.toList_append, String.toList_intercalate, List.map_cons,
      List.intercalate_cons_cons, List.append_assoc]
    rfl

/-! ### A line -/

section Line

variable {digits rest : List Char} {name : String}

theorem value_append (depth : Nat) (numeral : IsNumeral digits) (atEnd : AtLineEnd rest)
    (inRange : digitsValue digits < 0x8000000000000000) :
    value depth (digits ++ rest)
      = some (.scalar (digits ++ rest).length (.integer (digitsValue digits)), rest) := by
  have read := numeric_append numeral atEnd inRange
  obtain ⟨digit, others, rfl, isDigit, -⟩ := numeral.exists_cons
  rw [List.cons_append] at read ⊢
  -- No other value starts with a digit.
  unfold value
  split
  next same => cases same
  next same => cases (List.cons.inj same).1; cases isDigit
  next same => cases (List.cons.inj same).1; cases isDigit
  next same => cases (List.cons.inj same).1; cases isDigit
  next same => cases (List.cons.inj same).1; cases isDigit
  next same => cases (List.cons.inj same).1; cases isDigit
  next same => cases (List.cons.inj same).1; cases isDigit
  next =>
    rw [read]
    rfl

theorem IsBareName.exists_cons (bareName : IsBareName name) :
    ∃ first others, name.toList = first :: others ∧ isBare first = true := by
  obtain ⟨nonempty, bare⟩ := bareName
  cases chars : name.toList with
  | nil => exact absurd chars nonempty
  | cons first others => exact ⟨first, others, rfl, bare first (chars ▸ List.mem_cons_self)⟩

/-- A text that starts with a name does not start with a mark. -/
theorem IsBareName.isBare_of_eq {mark : Char} {others : List Char} (bareName : IsBareName name)
    (text : name.toList ++ rest = mark :: others) : isBare mark = true := by
  obtain ⟨first, tail, chars, bare⟩ := bareName.exists_cons
  rw [chars] at text
  obtain ⟨rfl, -⟩ := List.cons.inj text
  exact bare

theorem isBare_of_isDigit {char : Char} (digit : isDigit char = true) : isBare char = true := by
  unfold isBare
  rw [show ('0' ≤ char && char ≤ '9') = true from digit]
  simp

theorem skipSpace_of_isBare {first : Char} {others : List Char} (bare : isBare first = true) :
    skipSpace (first :: others) = first :: others := by
  refine List.dropWhile_cons_of_neg ?_
  intro space
  simp only [isSpace, Bool.or_eq_true, beq_iff_eq] at space
  obtain rfl | rfl := space <;> cases bare

theorem keyPart_append (bareName : IsBareName name) :
    keyPart (name.toList ++ ' ' :: rest)
      = some (⟨name, (name.toList ++ ' ' :: rest).length⟩, ' ' :: rest) := by
  have whole : (name.toList ++ ' ' :: rest).takeWhile isBare = name.toList := by
    rw [List.takeWhile_append_of_pos bareName.bare]
    exact List.append_nil _
  unfold keyPart
  split
  next same => cases bareName.isBare_of_eq same
  next same => cases bareName.isBare_of_eq same
  next =>
    dsimp only
    rw [whole, if_neg (by simpa using bareName.nonempty), String.ofList_toList, List.drop_left]

theorem key_append (bareName : IsBareName name) :
    key (name.toList ++ ' ' :: '=' :: rest)
      = some (([], ⟨name, (name.toList ++ ' ' :: '=' :: rest).length⟩), '=' :: rest) := by
  have front : skipSpace (name.toList ++ ' ' :: '=' :: rest) = name.toList ++ ' ' :: '=' :: rest := by
    obtain ⟨first, others, chars, bare⟩ := bareName.exists_cons
    rw [chars]
    exact skipSpace_of_isBare bare
  unfold key keyPartLimit keyParts
  rw [front, keyPart_append bareName]
  rfl

/-- A draft with further parts in its current table. -/
def Draft.extend (draft : Draft) (added : List (Key × Node)) : Draft :=
  { draft with current := { draft.current with parts := draft.current.parts ++ added } }

@[simp]
theorem Draft.extend_nil (draft : Draft) : draft.extend [] = draft := by
  unfold Draft.extend
  rw [List.append_nil]

theorem Draft.extend_extend (draft : Draft) (first others : List (Key × Node)) :
    (draft.extend first).extend others = draft.extend (first ++ others) := by
  unfold Draft.extend
  rw [List.append_assoc]

/-- A table takes a value under a name that it does not have yet. -/
theorem Draft.value_eq {draft : Draft} {key : Key} (node : Node)
    (origin : draft.current.origin = .explicit) (unused : draft.current.find? key.name = none) :
    draft.value [] key node = some (draft.extend [(key, node)]) := by
  unfold Draft.value Table.put Table.alter Table.descend
  dsimp only
  rw [origin, unused]
  rfl

theorem pairStatement_line {pair : String × Nat} (plain : IsPlainPair pair) {draft : Draft}
    {behind : List Char} (origin : draft.current.origin = .explicit)
    (unused : draft.current.find? pair.1 = none) (atEnd : AtLineEnd rest)
    (ended : lineRest? rest = some behind) :
    ∃ part, Lists pair part
      ∧ pairStatement draft ((line pair).toList ++ rest) = some (draft.extend [part], behind) := by
  have numeral := isNumeral_toString pair.2
  have written := digitsValue_toString pair.2
  have read := value_append depthLimit numeral atEnd (written.symm ▸ plain.inRange)
  have front : skipSpace (' ' :: ((toString pair.2).toList ++ rest)) = (toString pair.2).toList ++ rest := by
    obtain ⟨digit, others, chars, isDigit, -⟩ := numeral.exists_cons
    rw [chars]
    exact skipSpace_of_isBare (isBare_of_isDigit isDigit)
  rw [toList_line, List.append_assoc, List.cons_append, List.cons_append, List.cons_append]
  obtain ⟨start, named⟩ : ∃ start,
      key (pair.1.toList ++ ' ' :: '=' :: ' ' :: ((toString pair.2).toList ++ rest))
        = some (([], ⟨pair.1, start⟩), '=' :: ' ' :: ((toString pair.2).toList ++ rest)) :=
    ⟨_, key_append plain.name⟩
  refine ⟨(⟨pair.1, start⟩, .scalar ((toString pair.2).toList ++ rest).length (.integer pair.2)),
    ⟨rfl, _, rfl⟩, ?_⟩
  unfold pairStatement
  rw [named, Option.bind_eq_bind, Option.bind_some]
  dsimp only
  rw [show expect '=' ('=' :: ' ' :: ((toString pair.2).toList ++ rest))
      = some (' ' :: ((toString pair.2).toList ++ rest)) from rfl,
    Option.bind_eq_bind, Option.bind_some, front, read, Option.bind_eq_bind, Option.bind_some]
  dsimp only
  rw [ended, Option.bind_eq_bind, Option.bind_some, Draft.value_eq _ origin unused, written]
  rfl

/-- A statement that starts with a name gives a value to a key. -/
theorem statements_of_isBare {fuel : Nat} {draft next : Draft} {first : Char} {others behind : List Char}
    (bare : isBare first = true) (read : pairStatement draft (first :: others) = some (next, behind)) :
    statements (fuel + 1) draft (first :: others) = statements fuel next behind := by
  rw [statements, skipSpace_of_isBare bare]
  split
  next same => cases same
  next same => cases (List.cons.inj same).1; cases bare
  next same => cases (List.cons.inj same).1; cases bare
  next =>
    have unbroken : lineBreak? (first :: others) = none := by
      unfold lineBreak?
      split
      next same => cases (List.cons.inj same).1; cases bare
      next same => cases (List.cons.inj same).1; cases bare
      next => rfl
    rw [unbroken, read]
    rfl

end Line

/-! ### The table -/

theorem Draft.find?_extend_eq_none {draft : Draft} {part : Key × Node} {name : String}
    (unused : draft.current.find? name = none) (other : part.1.name ≠ name) :
    (draft.extend [part]).current.find? name = none := by
  unfold Table.find? at unused ⊢
  rw [Option.map_eq_none_iff] at unused ⊢
  unfold Draft.extend
  dsimp only
  rw [List.find?_append, unused, Option.none_or, List.find?_cons_of_neg (by simpa using other),
    List.find?_nil]

/-- The lines of a document put what they give behind the parts that the current table has. -/
theorem statements_page {pairs : List (String × Nat)} (plain : ∀ pair ∈ pairs, IsPlainPair pair)
    (once : (pairs.map (·.1)).Nodup) {closed : Bool} {fuel : Nat} {draft : Draft}
    (fueled : (page pairs closed).toList.length < fuel) (origin : draft.current.origin = .explicit)
    (unused : ∀ pair ∈ pairs, draft.current.find? pair.1 = none) :
    ∃ added, statements fuel draft (page pairs closed).toList = some (draft.extend added)
      ∧ List.Forall₂ Lists pairs added := by
  induction pairs generalizing closed fuel draft with
  | nil =>
    refine ⟨[], ?_, .nil⟩
    rw [Draft.extend_nil]
    match fuel with
    | fuel + 1 =>
      cases closed with
      | false => rfl
      | true =>
        match fuel with
        | fuel + 1 => rfl
  | cons pair pairs inductionHypothesis =>
    obtain ⟨own, others⟩ := List.forall_mem_cons.mp plain
    obtain ⟨unrepeated, once⟩ := List.nodup_cons.mp once
    obtain ⟨fresh, unused⟩ := List.forall_mem_cons.mp unused
    obtain ⟨rest, still, text, atEnd, ended, shorter⟩ := exists_behind_line pair pairs closed
    obtain ⟨part, lists, read⟩ := pairStatement_line own origin fresh atEnd ended
    obtain ⟨first, tail, chars, bare⟩ : ∃ first tail, (line pair).toList ++ rest = first :: tail
        ∧ isBare first = true := by
      obtain ⟨first, others, chars, bare⟩ := own.name.exists_cons
      rw [toList_line, chars]
      exact ⟨_, _, rfl, bare⟩
    rw [text, chars] at fueled ⊢
    rw [chars] at read
    match fuel with
    | fuel + 1 =>
      have counted : rest.length < tail.length + 1 := by
        have lengths := congrArg List.length chars
        rw [List.length_append, List.length_cons] at lengths
        have nonempty : 0 < (line pair).toList.length := by
          rw [toList_line, List.length_append, List.length_cons]
          omega
        omega
      have remaining : (page pairs still).toList.length < fuel := by
        rw [List.length_cons] at fueled
        omega
      have kept : (draft.extend [part]).current.origin = .explicit := origin
      have unused : ∀ other ∈ pairs, (draft.extend [part]).current.find? other.1 = none :=
        fun other member => Draft.find?_extend_eq_none (unused other member) fun same =>
          unrepeated (List.mem_map.mpr ⟨other, member, same.symm.trans lists.1⟩)
      obtain ⟨added, finished, listed⟩ := inductionHypothesis others once remaining kept unused
      refine ⟨part :: added, ?_, .cons lists listed⟩
      rw [statements_of_isBare bare read, finished, Draft.extend_extend]
      rfl

/-- A document of lines is a table with just what they give, in their order. -/
theorem exists_ofChars?_page {pairs : List (String × Nat)} (plain : ∀ pair ∈ pairs, IsPlainPair pair)
    (once : (pairs.map (·.1)).Nodup) (closed : Bool) :
    ∃ table, Table.ofChars? (page pairs closed).toList = some table
      ∧ List.Forall₂ Lists pairs table.parts := by
  have unmarked : ∀ rest, (page pairs closed).toList ≠ '\ufeff' :: rest := by
    intro rest same
    cases pairs with
    | nil => cases closed <;> cases same
    | cons pair pairs =>
      obtain ⟨behind, still, text, -⟩ := exists_behind_line pair pairs closed
      rw [text, toList_line, List.append_assoc] at same
      cases (plain pair List.mem_cons_self).name.isBare_of_eq same
  obtain ⟨added, read, listed⟩ : ∃ added,
      statements ((page pairs closed).toList.length + 1) .empty (page pairs closed).toList
          = some (Draft.empty.extend added)
        ∧ List.Forall₂ Lists pairs added :=
    statements_page plain once (Nat.lt_succ_self _) rfl fun _ _ => rfl
  refine ⟨⟨none, .explicit, added⟩, ?_, listed⟩
  unfold Table.ofChars?
  split
  next same => exact absurd same (unmarked _)
  next =>
    dsimp only
    rw [read]
    rfl

end Correlator.Toml
