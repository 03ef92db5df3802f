import Correlator.Proofs.Course.History
import Correlator.Proofs.Response.History

/-!
Contract: attempts to complete requests, as the steps of clients make them.

Owns: which step is an attempt and what came of it, that no other step wakes a task or hands a callback on, and
that every attempt uses up an entry.

Does not own: attempts that are made past the clients (`Correlator.Proofs.Concourse.Basic`).
-/

set_option autoImplicit false

namespace Correlator

variable {κ : Type}

/-- An attempt to complete a request. If it succeeds, some tasks are woken, and there may be a callback to run. -/
structure Attempt (κ : Type) where
  future : Future
  value : Response
  outcome : Except ClientError (List Waker × Option κ)

namespace Attempt

/-- What the attempt is to a cell, and to which. -/
def event (attempt : Attempt κ) : CellId × Cell.Event :=
  (attempt.future.cell, .attempted attempt.value (attempt.outcome.map Prod.fst))

def wakers (attempt : Attempt κ) : List Waker :=
  match attempt.outcome with
  | .ok (wakers, _) => wakers
  | .error _ => []

/-- The callback that is to run since the attempt succeeded, with its future. -/
def call? (attempt : Attempt κ) : Option (Future × κ) :=
  match attempt.outcome with
  | .ok (_, callback) => callback.map fun callback => (attempt.future, callback)
  | .error _ => none

end Attempt

namespace Effect

def waker? : Effect → Option Waker
  | .woke waker => some waker
  | _ => none

/-- The future whose entry was taken out to complete it. -/
def completed? : Effect → Option Future
  | .removed future .completed => some future
  | _ => none

def stored? : Effect → Option Future
  | .stored future => some future
  | _ => none

variable {effects : List Effect}

theorem wakers_of_isAside (aside : ∀ effect ∈ effects, effect.isAside = true) :
    effects.filterMap waker? = [] :=
  List.filterMap_eq_nil_iff.mpr fun effect member => by
    have isAside := aside effect member
    cases effect <;> first | rfl | cases isAside

end Effect

/-- The callback that a complete under way has to run, with its future. -/
def Phase.due? : Phase κ → Option (Future × κ)
  | .countCompleted completed => completed.callback.map fun callback => (completed.future, callback)
  | .notify future callback => some (future, callback)
  | _ => none

theorem Phase.due?_eq_none {phase : Phase κ} (notCompleting : phase.isCompleting = false) :
    phase.due? = none := by
  cases phase <;> first | rfl | cases notCompleting

namespace Turn

/-- The tasks that were woken in a turn, in their order. -/
def woken (turn : Turn κ) : List Waker := turn.effects.filterMap Effect.waker?

/-- The futures of the entries that came into a table in a turn. -/
def stored (turn : Turn κ) : List Future := turn.effects.filterMap Effect.stored?

/-- The attempt to complete a request that a turn was. -/
def attempt? (turn : Turn κ) : Option (Attempt κ) :=
  match turn.phase, turn.next with
  | .complete _ value, .goesOn (.countCompleted completed) =>
    some ⟨completed.future, value, .ok (turn.woken, completed.callback)⟩
  | .complete _ value, .returned (.error error) =>
    (turn.effects.findSome? Effect.completed?).map fun future => ⟨future, value, .error error⟩
  | _, _ => none

end Turn

namespace Client

variable {client : Client κ} {environment : Environment} {phase : Phase κ} {step : Step κ}

/-- Every pending request of a client has a cell. -/
def IsGrounded (client : Client κ) (cells : Cells) : Prop :=
  ∀ row ∈ client.table.rows, row.2.future.cell < cells.length

private theorem attempt?_of_isAside (index : ClientId) (service : String)
    (isAside : phase.isAside = true) :
    Turn.attempt? ⟨index, service, phase, step.effects, step.next⟩ = none := by
  cases phase <;> first | cases isAside; done | rfl

private theorem woken_matched (wakers : List Waker) (future : Future) (response : Response) :
    (Effect.locked :: .removed future .completed :: .resolved future response
      :: (wakers.map Effect.woke ++ [.unlocked])).filterMap Effect.waker? = wakers := by
  simp [List.filterMap_cons, Effect.waker?, List.filterMap_map, Function.comp_def]

/-- A step makes a new cell, or it is an attempt, or it leaves the cells alone. -/
theorem Exit.change (exit : client.Exit environment phase step) (index : ClientId)
    (service : String) (grounded : client.IsGrounded environment.cells) :
    environment.cells.Change
      ((Turn.attempt? ⟨index, service, phase, step.effects, step.next⟩).map Attempt.event)
      step.environment.cells := by
  cases exit with
  | untimed live room sent read | doubled live room sent read =>
    rw [Environment.cells_eq_of_readClock read]
    exact .still
  | stored => exact .made _
  | lost live found refused =>
    exact .refused (grounded _ (Pending.Table.mem_of_find? found)) refused
  | @matched sequence response entry wakers cells live found filled =>
    show Cells.Change _ (some (entry.future.cell, .attempted response (.ok
      (List.filterMap Effect.waker? _)))) cells
    rw [woken_matched]
    exact .filled (grounded _ (Pending.Table.mem_of_find? found)) filled
  | gone disposed begins =>
    cases phase <;> first | cases begins; done | exact .still
  | pruned live prunes =>
    cases phase <;> first | cases prunes; done | exact .still
  | aside isAside client_eq cells_eq =>
    rw [attempt?_of_isAside index service isAside, cells_eq]
    exact .still
  | _ => exact .still

/-- Only attempts that succeed wake tasks. -/
theorem Exit.woken_eq (exit : client.Exit environment phase step) (index : ClientId)
    (service : String) :
    Turn.woken ⟨index, service, phase, step.effects, step.next⟩
      = ((Turn.attempt? ⟨index, service, phase, step.effects, step.next⟩).map
          Attempt.wakers).getD [] := by
  cases exit with
  | gone disposed begins =>
    cases phase <;> first | cases begins; done | rfl
  | pruned live prunes =>
    have unwoken : ∀ (scope : PruneScope) (stale : Sequence × Pending.Entry κ → Bool),
        (Effect.locked :: ((client.table.rows.filter stale).map
          (fun row => Effect.removed row.2.future .pruned)
            ++ pruneReport scope (client.table.rows.filter stale).length
            ++ [.unlocked])).filterMap Effect.waker? = [] := by
      intro scope stale
      have report : (pruneReport scope (client.table.rows.filter stale).length).filterMap
          Effect.waker? = [] := by
        unfold pruneReport
        split <;> rfl
      simp [List.filterMap_cons, Effect.waker?, List.filterMap_map, Function.comp_def, report]
    cases phase <;> first | cases prunes; done | exact unwoken _ _
  | aside isAside client_eq cells_eq effects =>
    rw [attempt?_of_isAside index service isAside]
    exact Effect.wakers_of_isAside effects
  | _ => rfl

/-- What a complete has to run comes from an attempt that succeeded, and is handed on or stays to be run. -/
theorem Exit.calls_eq (exit : client.Exit environment phase step) (index : ClientId)
    (service : String) :
    (Turn.handover? ⟨index, service, phase, step.effects, step.next⟩).toList
        ++ (step.next.phase?.bind Phase.due?).toList
      = phase.due?.toList
        ++ ((Turn.attempt? ⟨index, service, phase, step.effects, step.next⟩).bind
            Attempt.call?).toList := by
  cases exit with
  | gone disposed begins =>
    cases phase <;> first | cases begins; done | rfl
  | pruned live prunes =>
    cases phase <;> first | cases prunes; done | rfl
  | aside isAside client_eq cells_eq effects next =>
    rw [attempt?_of_isAside index service isAside,
      Phase.due?_eq_none (Phase.not_completing_of_isAside isAside)]
    unfold Turn.handover?
    dsimp only
    cases known : step.next with
    | goesOn later =>
      rw [known] at next
      have still : later.due? = none := Phase.due?_eq_none (by simpa [Next.isAside] using next)
      simp [Next.phase?, still]
    | callsBack future callback =>
      rw [known] at next
      cases next
    | returned | failed => rfl
  | _ => rfl

/-- Rows come into the table one at a time, and each attempt uses one up. -/
theorem Exit.rows_le (exit : client.Exit environment phase step) (index : ClientId)
    (service : String) (chosen : Future → Bool) :
    step.client.table.count (fun row => chosen row.2.future)
        + ((Turn.attempt? ⟨index, service, phase, step.effects, step.next⟩).map
            Attempt.future).toList.countP chosen
      ≤ client.table.count (fun row => chosen row.2.future)
        + (Turn.stored ⟨index, service, phase, step.effects, step.next⟩).countP chosen := by
  cases exit with
  | @stored _ _ sequence _ _ _ table live room sent read inserted =>
    have grown := Pending.Table.count_insert? inserted fun row => chosen row.2.future
    show table.count _ + 0 ≤ _ + List.countP chosen [(environment.cells.fresh sequence).1]
    rw [List.countP_singleton]
    exact Nat.le_of_eq grown
  | @lost _ _ entry _ live found | @matched _ _ entry _ _ live found =>
    have used := Pending.Table.count_erase_le found fun row => chosen row.2.future
    refine Nat.le_trans ?_ (Nat.le_add_right _ _)
    show _ + List.countP chosen [entry.future] ≤ _
    rw [List.countP_singleton]
    exact used
  | cancelled live found =>
    have fewer := Pending.Table.count_erase_le found fun row => chosen row.2.future
    exact Nat.le_trans (Nat.le_of_add_right_le fewer) (Nat.le_add_right _ _)
  | @pruned _ _ stale live prunes =>
    have fewer := client.table.count_filter_le (fun row => !stale row)
      fun row => chosen row.2.future
    cases phase <;> first | cases prunes; done | exact Nat.le_trans fewer (Nat.le_add_right _ _)
  | gone disposed begins =>
    cases phase <;> first | cases begins; done | exact Nat.le_add_right _ _
  | aside isAside client_eq cells_eq =>
    rw [attempt?_of_isAside index service isAside, client_eq]
    exact Nat.le_add_right _ _
  | _ => exact Nat.le_add_right _ _

/-- An entry that comes into the table stands for a cell that there is. -/
theorem Exit.stored_lt (exit : client.Exit environment phase step) (index : ClientId)
    (service : String) :
    ∀ future ∈ Turn.stored ⟨index, service, phase, step.effects, step.next⟩,
      future.cell < step.environment.cells.length := by
  intro future member
  obtain ⟨effect, inside, stores⟩ := List.mem_filterMap.mp member
  cases effect with
  | stored known =>
    cases stores
    cases exit with
    | @stored _ _ sequence =>
      have own : future = (environment.cells.fresh sequence).1 := by simpa using inside
      rw [own]
      show environment.cells.length < (environment.cells ++ [_]).length
      rw [List.length_append]
      exact Nat.lt_succ_self _
    | aside isAside client_eq cells_eq effects => cases effects _ inside
    | _ => simp at inside
  | _ => cases stores

end Client

end Correlator
