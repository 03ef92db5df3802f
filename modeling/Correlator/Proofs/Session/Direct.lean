import Correlator.Proofs.Session.Outcome

/-!
Contract: completions past all clients, and with them what tasks of any kind do to clients and environment.

Owns: the ways in which one of them can end, what it does to what there is, and that any task stores in cells, acts
outside of the clients or makes a step of one of them.

Does not own: how the other tasks of a session end (`Correlator.Proofs.Session.Outcome`).
-/

set_option autoImplicit false

namespace Correlator.Session.Machine

/-- The ways in which a completion past all clients can end, taken from an agenda of which the rest is left. -/
inductive Direct (machine : Machine) : Task → Result → Prop where
  /-- The reference means no future. -/
  | unknown {op : Op} {own : Option Future} {reply : Reply} :
      Direct machine (.perform op own) ([], machine.answer reply)
  /-- The future has a response. -/
  | refused {reference : FutureRef} {value : Response} {callback : Option Program}
      {own : Option Future} {known : Future} {error : ClientError}
      (refused : (⟨known, callback, .origin⟩ : Pending.Entry Program).resolve
        machine.session.cells value = .error error) :
      Direct machine (.perform (.resolveDirect reference value callback) own)
        ([], machine.answer (.answered (.error error)))
  /-- The response is stored, the tasks that wait are woken, and the callback is next. -/
  | filled {reference : FutureRef} {value : Response} {callback : Option Program}
      {own : Option Future} {known : Future} {wakers : List Waker}
      {completed : Pending.Completed Program} {cells : Cells}
      (filled : (⟨known, callback, .origin⟩ : Pending.Entry Program).resolve
        machine.session.cells value = .ok (wakers, completed, cells)) :
      Direct machine (.perform (.resolveDirect reference value callback) own)
        (wakers.map Occurrence.woke,
          (machine.withEnvironment { machine.session.environment with cells }).push
            ((completed.callback.map (Task.callBack completed.future)).toList
              ++ [.reply (.resolved completed.future.sequence)]))

private theorem direct_of_known (machine : Machine) (own : Option Future) (reference : FutureRef)
    (value : Response) (callback : Option Program) (known : Future) :
    Direct machine (.perform (.resolveDirect reference value callback) own)
      (match (⟨known, callback, .origin⟩ : Pending.Entry Program).resolve
          machine.session.cells value with
      | .error error => ([], machine.answer (.answered (.error error)))
      | .ok (wakers, completed, cells) =>
        (wakers.map Occurrence.woke,
          (machine.withEnvironment { machine.session.environment with cells }).push
            ((completed.callback.map (Task.callBack completed.future)).toList
              ++ [.reply (.resolved completed.future.sequence)]))) := by
  split
  next error refused => exact .refused refused
  next wakers completed cells filled => exact .filled filled

theorem direct_carryOut (machine : Machine) {task : Task} (isDirect : task.isDirect = true) :
    Direct machine task (machine.carryOut task) := by
  cases task with
  | perform op own =>
    cases op with
    | resolveDirect reference value callback =>
      exact machine.withFuture_cases own (fun _ => .unknown) reference fun known =>
        machine.direct_of_known own reference value callback known
    | _ => cases isDirect
  | _ => cases isDirect

variable {machine : Machine} {task : Task} {result : Result}

namespace Direct

/-- It makes no step of a client. -/
theorem silent (direct : Direct machine task result) : Trail.turns result.1 = [] := by
  cases direct with
  | unknown | refused => rfl
  | filled =>
    refine List.filterMap_eq_nil_iff.mpr fun occurrence member => ?_
    obtain ⟨waker, -, rfl⟩ := List.mem_map.mp member
    rfl

/-- It may store a response in a cell, and does nothing else to clients or environment. -/
theorem world_eq (direct : Direct machine task result) :
    ∃ cells, result.2.session.world = { machine.session.world with
      environment := { machine.session.environment with cells } } := by
  cases direct with
  | unknown | refused => exact ⟨machine.session.cells, rfl⟩
  | filled => exact ⟨_, rfl⟩

/-- What it puts before the rest of the agenda is no operation of a client. -/
theorem agenda_eq (direct : Direct machine task result) :
    ∃ fresh, result.2.agenda = fresh ++ machine.agenda ∧ ∀ task ∈ fresh, task.operation? = none := by
  cases direct with
  | unknown | refused => exact ⟨[], rfl, by simp⟩
  | filled =>
    refine ⟨_ ++ [_], rfl, fun task member => ?_⟩
    rcases List.mem_append.mp member with call | last
    · obtain ⟨program, -, rfl⟩ := Option.map_eq_some_iff.mp (Option.mem_toList.mp call)
      rfl
    · rw [List.mem_singleton.mp last]
      rfl

end Direct

/-- What a task can do to clients and environment. -/
inductive Alters (machine : Machine) (task : Task) (after : World Program) : Prop where
  /-- All stays as it is, but for cells. -/
  | stores (cells : Cells)
      (world_eq : after = { machine.session.world with
        environment := { machine.session.environment with cells } })
  /-- The environment changes; a number is queued only where this is asked for. -/
  | acts (act : Outside)
      (world_eq : after = { machine.session.world with
        environment := act.apply machine.session.environment })
      (asked : ∀ transport sequence, act = .forceNext transport sequence →
        ∃ own, task = .perform (.forceNext transport sequence) own)
  /-- A client makes a step. -/
  | steps (client : ClientId) (phase : Phase Program) (turn : Turn Program)
      (made : machine.session.world.step? client phase = some (turn, after))

theorem alters_carryOut (machine : Machine) (task : Task) :
    machine.Alters task (machine.carryOut task).2.session.world := by
  cases keeps : task.isDirect with
  | true =>
    obtain ⟨cells, world_eq⟩ := (machine.direct_carryOut keeps).world_eq
    exact .stores cells world_eq
  | false =>
    have outcome := machine.outcome_carryOut keeps
    generalize machine.carryOut task = result at outcome ⊢
    cases outcome with
    | begins idle uncalled silent begins => exact .stores machine.session.cells begins.world_eq
    | acts act idle uncalled world_eq agenda_eq asked => exact .acts act world_eq asked
    | breaksOff _ _ world_eq | calls _ world_eq | defers _ world_eq | drops _ _ world_eq =>
      exact .stores machine.session.cells world_eq
    | fails operation made _ world_eq | turns _ operation made world_eq =>
      exact .steps _ _ _ (world_eq ▸ made)

end Correlator.Session.Machine
