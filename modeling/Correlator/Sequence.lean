/-!
Contract: request numbers and the allocator that hands them out.

Owns: the order and the written forms of a number, and the wrapping of the allocator at `2 ^ 64`.

Does not own: which number a request gets (`Correlator.Transport`).
-/

set_option autoImplicit false

namespace Correlator

/-- The number that ties a response to its request. -/
structure Sequence where
  number : UInt64
deriving DecidableEq, Repr

namespace Sequence

instance : Inhabited Sequence := ⟨⟨0⟩⟩

instance : LT Sequence := ⟨fun left right => left.number < right.number⟩

instance (left right : Sequence) : Decidable (left < right) :=
  inferInstanceAs (Decidable (left.number < right.number))

instance : LE Sequence := ⟨fun left right => left.number ≤ right.number⟩

instance (left right : Sequence) : Decidable (left ≤ right) :=
  inferInstanceAs (Decidable (left.number ≤ right.number))

/-- Numbers compare as unsigned words. -/
def order (left right : Sequence) : Ordering := compare left.number right.number

def text (sequence : Sequence) : String := toString sequence.number.toNat

/-- The number with the name of its type. -/
def describe (sequence : Sequence) : String := "SequenceId(" ++ sequence.text ++ ")"

/-- Inserts a number into an ascending list, unless it is there. -/
def insertAscending (sequence : Sequence) : List Sequence → List Sequence
  | [] => [sequence]
  | head :: rest =>
    if sequence < head then sequence :: head :: rest
    else if sequence = head then head :: rest
    else head :: insertAscending sequence rest

/-- The distinct numbers of a list in ascending order. -/
def ascending (sequences : List Sequence) : List Sequence :=
  sequences.foldr insertAscending []

/-- The written form of a list of numbers on one line. -/
def describeList (sequences : List Sequence) : String :=
  "[" ++ ", ".intercalate (sequences.map describe) ++ "]"

/-- The written form of a list of numbers with one part a line. -/
def describeLines (sequences : List Sequence) : String :=
  if sequences.isEmpty then "[]"
  else
    "[\n"
      ++ String.join (sequences.map fun sequence =>
        "    SequenceId(\n        " ++ sequence.text ++ ",\n    ),\n")
      ++ "]"

end Sequence

/-- Hands out numbers one after the other, and starts over at zero after the last one. -/
structure Allocator where
  next : UInt64 := 1
deriving DecidableEq, Repr

namespace Allocator

/-- The number that the next `take` hands out. -/
def peek (allocator : Allocator) : Sequence := ⟨allocator.next⟩

def take (allocator : Allocator) : Sequence × Allocator :=
  (⟨allocator.next⟩, ⟨allocator.next + 1⟩)

end Allocator

end Correlator
