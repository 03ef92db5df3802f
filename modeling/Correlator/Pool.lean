/-!
Contract: pools of things of one kind, one under each number.

Owns: what stands under a number, also one that was never touched, and that a change under one number
leaves all others alone.

Does not own: what the things are, and who knows which number (`Correlator.Client.Basic`).
-/

set_option autoImplicit false

namespace Correlator

/-- One thing under each number. Beyond the rows that are stored, all are as in the beginning. -/
structure Pool (α : Type) where
  rows : List α := []
deriving DecidableEq, Repr

namespace Pool

variable {α : Type} [Inhabited α]

def get (pool : Pool α) (index : Nat) : α := pool.rows[index]?.getD default

/-- The rows with another one under a number; rows that are missing before it are filled in. -/
def putRow (value : α) : List α → Nat → List α
  | [], 0 => [value]
  | [], index + 1 => default :: putRow value [] index
  | _ :: rest, 0 => value :: rest
  | row :: rest, index + 1 => row :: putRow value rest index

def put (pool : Pool α) (index : Nat) (value : α) : Pool α := ⟨putRow value pool.rows index⟩

private theorem getD_putRow (value : α) (rows : List α) (index other : Nat) :
    (putRow value rows index)[other]?.getD default
      = if index = other then value else rows[other]?.getD default := by
  induction index generalizing rows other with
  | zero => cases rows <;> cases other <;> simp [putRow]
  | succ index inductionHypothesis =>
    cases rows <;> cases other <;> simp [putRow, inductionHypothesis]

/-- After a change under one number the others stand as before. -/
theorem get_put (pool : Pool α) (index other : Nat) (value : α) :
    (pool.put index value).get other = if index = other then value else pool.get other :=
  getD_putRow value pool.rows index other

end Pool

end Correlator
