import Correlator.Proofs.Session.Execution
import Correlator.Proofs.Session.Likeness
import Correlator.Proofs.Session.Turn

/-!
Contract: machines that do the same tasks in parallel.

Owns: that two machines which are alike stay so, task by task, and that what is left to be done afterwards
makes no difference to a run.

Does not own: the relation between them (`Correlator.Proofs.Session.Likeness`).
-/

set_option autoImplicit false

namespace Correlator.Session

namespace Machine

variable {muted : Future → Bool} {known : List Future} {rest : List Task} {left right : Machine}

/-! ### All tasks -/

namespace Beside

private theorem finish (beside : Beside muted known rest left right)
    (same : right.reply = left.reply) (finish : Finish) :
    Alike muted known rest (left.finish finish) (right.finish finish) := by
  have unchanged : Alike muted known rest left right := ⟨beside, .inl same⟩
  cases finish with
  | submission =>
    unfold Machine.finish
    dsimp only
    rw [same]
    split
    next future answered =>
      exact beside.answerRecorded future (.submitted · future.sequence) fun _ => rfl
    · exact unchanged
  | wait simple =>
    unfold Machine.finish
    dsimp only
    rw [same]
    split
    · cases simple with
      | false => exact unchanged
      | true => exact beside.answer rfl
    · exact unchanged
  | series index total sent accepted lastError =>
    unfold Machine.finish
    dsimp only
    rw [same]
    split
    next future answered =>
      have recorded := beside.record future
      apply Beside.series
      exact ⟨recorded.session, recorded.hooks, recorded.agenda, recorded.known, recorded.waits,
        recorded.unbroken, recorded.whole⟩
    · exact beside.series index total _ _ _
    · exact unchanged
  | readers future readers =>
    unfold Machine.finish
    dsimp only
    rw [same, beside.cells]
    split
    · exact beside.answer rfl
    · exact unchanged
  | race index sequence response remaining counts =>
    unfold Machine.finish
    dsimp only
    rw [same]
    split
    · exact beside.race index sequence response remaining _
    · exact unchanged
  | raceSubmit index remaining futures =>
    unfold Machine.finish
    dsimp only
    rw [same]
    split
    · exact beside.raceSubmit index remaining _
    · exact beside.raceSubmit index remaining futures

end Beside

namespace Alike

theorem pushTasks (alike : Alike muted known rest left right) (program : Program)
    (own : Option Future) :
    Alike muted known rest (left.push (tasks program own)) (right.push (tasks program own)) where
  session := alike.session
  hooks := alike.hooks
  agenda := by
    unfold Machine.push
    rw [alike.agenda, List.append_assoc]
  known := alike.known
  waits := by
    unfold Machine.push
    rw [List.countP_append, countP_isClosing_tasks, Nat.zero_add]
    exact alike.waits
  unbroken := by
    unfold Machine.push
    rw [List.any_append, any_isBreach_tasks, alike.unbroken]
    rfl
  whole := alike.whole
  reply := by
    rcases alike.reply with same | settled
    · exact .inl same
    · exact .inr (settles_tasks program own settled)

private theorem rehook (alike : Alike muted known rest left right) {old new : Hooks}
    {outer : List Hooks} (inside : left.hooks = old :: outer) :
    Alike muted known rest { left with hooks := new :: outer }
      { right with hooks := new :: outer } := by
  refine ⟨⟨alike.session, rfl, alike.agenda, alike.known, ?_, alike.unbroken, alike.whole⟩,
    alike.reply⟩
  rw [← alike.waits, inside]
  rfl

private theorem afterSleep (alike : Alike muted known rest left right) :
    Alike muted known rest left.afterSleep right.afterSleep := by
  unfold Machine.afterSleep
  rw [alike.hooks]
  split
  · exact alike
  next hooks outer inside => exact (alike.rehook inside).pushTasks _ none

private theorem beforeQuery (alike : Alike muted known rest left right) :
    Alike muted known rest left.beforeQuery right.beforeQuery := by
  unfold Machine.beforeQuery
  rw [alike.hooks]
  split
  · exact alike
  next hooks outer inside => exact (alike.rehook inside).pushTasks _ none

end Alike

private theorem Together.afterSleep {left right : Result} (together : Together muted known rest left right) :
    Together muted known rest (left.1, left.2.afterSleep) (right.1, right.2.afterSleep) := by
  refine ⟨together.occurrences, ?_⟩
  rcases together.machines with alike | broken
  · exact .inl alike.afterSleep
  · have right_eq : right.2 = { left.2 with session := left.2.session.mute muted } := broken.right_eq
    rw [afterSleep_of_hooks broken.hooks, afterSleep_of_hooks (by rw [right_eq]; exact broken.hooks)]
    exact .inr broken

private theorem Together.resume (beside : Beside muted known rest left right) (index : ClientId)
    (next : Next Program) (occurrences : Trail) :
    Together muted known rest (occurrences, left.resume index next)
      (occurrences, right.resume index next) := by
  cases next with
  | goesOn phase => exact (beside.push rfl rfl rfl).together _
  | callsBack future callback => exact (beside.push rfl rfl rfl).together _
  | returned result => exact (beside.answer rfl).together _
  | failed fault => exact ⟨rfl, (beside.breakOff fault).machines⟩

theorem Together.proceed (beside : Beside muted known rest left right) (world : World Program)
    (turn : Turn Program) (occurrences : Trail) :
    Together muted known rest (occurrences, left.proceed world turn)
      (occurrences, right.proceed (world.mute muted) turn) := by
  have moved : Beside muted known rest
      { left with session := { left.session with world } }
      { right with session := { right.session with world := world.mute muted } } := by
    refine ⟨?_, beside.hooks, beside.agenda, beside.known, beside.waits, beside.unbroken,
      beside.whole⟩
    rw [beside.session]
    rfl
  have carried := Together.resume moved turn.client turn.next occurrences
  unfold Machine.proceed
  dsimp only
  generalize turn.effects.any _ = slept
  cases slept with
  | false => exact carried
  | true => exact carried.afterSleep

private theorem Together.step (beside : Beside muted known rest left right) {index : ClientId}
    {phase : Phase Program}
    (heeds : ∀ client, left.session.client? index = some client →
      client.Heeds muted left.session.environment phase) :
    Together muted known rest (left.step index phase) (right.step index phase) := by
  have shadow : right.session.world.step? index phase
      = (left.session.world.step? index phase).map fun made => (made.1, made.2.mute muted) := by
    rw [beside.session]
    exact World.step?_mute heeds
  cases made : left.session.world.step? index phase with
  | none =>
    rw [made] at shadow
    unfold Machine.step
    rw [made, shadow]
    exact beside.replies rfl
  | some result =>
    rw [made] at shadow
    rw [step_eq made, step_eq shadow]
    exact .proceed beside result.2 result.1 _

end Machine

/-- A task neither completes a request whose future is muted nor submits one. -/
def Task.Heeds (muted : Future → Bool) (session : Session) (task : Task) : Prop :=
  ∀ index phase, task.operation? = some (index, phase) → ∀ client,
    session.client? index = some client → client.Heeds muted session.environment phase

namespace Machine

variable {muted : Future → Bool} {known : List Future} {rest : List Task} {left right : Machine}

/-- A task that ends no wait is taken from both agendas. -/
theorem Alike.pop (alike : Alike muted known rest left right) {task : Task} {agenda : List Task}
    (first : left.agenda = task :: agenda) (calm : task.isClosing = false) :
    Beside muted known rest { left with agenda } { right with agenda := agenda ++ rest } := by
  have waits := alike.waits
  have unbroken := alike.unbroken
  rw [first] at waits unbroken
  rw [List.countP_cons, calm] at waits
  rw [List.any_cons, Bool.or_eq_false_iff] at unbroken
  exact ⟨alike.session, alike.hooks, rfl, alike.known, waits, unbroken.2, alike.whole⟩

/-- Two machines that do the same task go on alike. -/
theorem Alike.carryOut (alike : Alike muted known rest left right) {task : Task}
    {agenda : List Task} (first : left.agenda = task :: agenda)
    (heeds : task.Heeds muted left.session) :
    Together muted known rest ({ left with agenda }.carryOut task)
      ({ right with agenda := agenda ++ rest }.carryOut task) := by
  have reply := alike.reply
  have unbroken := alike.unbroken
  rw [first] at reply unbroken
  rw [List.any_cons, Bool.or_eq_false_iff] at unbroken
  have beside := alike.pop first
  cases task with
  | perform op own => exact (beside rfl).perform own op
  | report op =>
    have same : right.reply = left.reply := reply.resolve_right Bool.false_ne_true
    refine ⟨?_, .inl ⟨beside rfl, .inl same⟩⟩
    show [Occurrence.nested op right.reply] = [Occurrence.nested op left.reply]
    rw [same]
  | advance index phase =>
    cases phase with
    | probeQuery purpose => exact ((beside rfl).push rfl rfl rfl).beforeQuery.together []
    | _ => exact .step (beside rfl) (heeds index _ rfl)
  | step index phase => exact .step (beside rfl) (heeds index phase rfl)
  | callBack future callback =>
    have popped : Alike muted known rest { left with agenda }
      { right with agenda := agenda ++ rest } := ⟨beside rfl, reply⟩
    refine ⟨?_, .inl (popped.pushTasks callback (some future))⟩
    show [Occurrence.calledBack future.sequence (right.session.cells.value? future)]
      = [Occurrence.calledBack future.sequence (left.session.cells.value? future)]
    rw [show right.session.cells = left.session.cells from (beside rfl).cells]
  | reply given => exact (beside rfl).replies unbroken.1
  | finish finish =>
    have same : right.reply = left.reply := reply.resolve_right Bool.false_ne_true
    exact ((beside rfl).finish same finish).together []
  | closeHooks =>
    apply Alike.together
    refine ⟨⟨alike.session, congrArg List.tail alike.hooks, rfl, alike.known, ?_, unbroken.2,
      alike.whole⟩, reply⟩
    have waits := alike.waits
    rw [first, List.countP_cons] at waits
    show left.hooks.tail.length = _
    rw [List.length_tail, waits]
    rfl
  | leaveThreads =>
    have popped : Alike muted known rest { left with agenda }
      { right with agenda := agenda ++ rest } := ⟨beside rfl, reply⟩
    exact popped.together [.threadsLeft]

/-! ### Runs -/

/-- No callback is muted. -/
def unmuted : Future → Bool := fun _ => false

theorem heeds_unmuted (session : Session) (task : Task) : task.Heeds unmuted session := by
  intro index phase _ client _
  cases phase with
  | submit request callback => exact fun _ => rfl
  | complete sequence response => exact fun _ _ _ => rfl
  | _ => trivial

theorem mute_unmuted (session : Session) : session.mute unmuted = session := by
  have same : session.world.clients.map (Client.mute unmuted) = session.world.clients :=
    (List.map_congr_left fun client _ => Client.mute_eq_self fun _ _ => rfl).trans (List.map_id' _)
  unfold Session.mute World.mute
  rw [same]

/-- When a machine has nothing left to do, a machine alike has what it has to do besides. -/
theorem Alike.eq_of_idle (alike : Alike unmuted known rest left right) (idle : left.agenda = []) :
    right = { session := left.session, agenda := rest, reply := left.reply } := by
  have none : left.hooks = [] := by
    apply List.eq_nil_of_length_eq_zero
    rw [alike.waits, idle]
    rfl
  obtain ⟨session, hooks, agenda, reply⟩ := right
  have session_eq : session = left.session := alike.session.trans (mute_unmuted _)
  have hooks_eq : hooks = [] := alike.hooks.trans none
  have agenda_eq : agenda = rest := by
    have all := alike.agenda
    rw [idle] at all
    exact all
  have reply_eq : reply = left.reply := by
    have same := alike.reply
    rw [idle] at same
    exact same.resolve_right Bool.false_ne_true
  rw [session_eq, hooks_eq, agenda_eq, reply_eq]

theorem Broken.eq {left right : Machine} (broken : Broken unmuted known left right) : right = left := by
  rw [broken.right_eq, mute_unmuted]

private theorem Together.advance? (alike : Alike unmuted known rest left right) {trail : Trail}
    {next : Machine} (first : left.advance? = some (trail, next)) :
    ∃ other, right.advance? = some (trail, other)
      ∧ (Alike unmuted known rest next other ∨ Broken unmuted known next other) := by
  cases agenda : left.agenda with
  | nil =>
    rw [advance?_eq_none.mpr agenda] at first
    cases first
  | cons task later =>
    rw [advance?_of_agenda agenda] at first
    have together := alike.carryOut agenda (heeds_unmuted _ _)
    rw [Option.some.inj first] at together
    refine ⟨_, ?_, together.machines⟩
    have rightAgenda : right.agenda = task :: (later ++ rest) := by
      rw [alike.agenda, agenda]
      rfl
    rw [advance?_of_agenda rightAgenda]
    exact congrArg some (Prod.ext together.occurrences rfl)

/-- A machine with more left to be done comes past all points of a machine that is alike. -/
theorem Alike.runs (alike : Alike unmuted known rest left right) {trail : Trail} {finish : Machine}
    (runs : left.Runs trail finish) :
    ∃ last, right.Runs trail last
      ∧ (Alike unmuted known rest finish last ∨ Broken unmuted known finish last) := by
  induction runs generalizing right with
  | here => exact ⟨right, .here right, .inl alike⟩
  | task first runs inductionHypothesis =>
    obtain ⟨other, onward, going | broken⟩ := Together.advance? alike first
    · obtain ⟨last, later, result⟩ := inductionHypothesis going
      exact ⟨last, .task onward later, result⟩
    · obtain ⟨rfl, rfl⟩ := runs.of_agenda_eq_nil broken.agenda
      exact ⟨other, .task onward (.here other), .inr broken⟩

/-- A machine that comes to its end, with nothing broken off, comes past the end of a machine that is
alike. -/
theorem Alike.finishes (alike : Alike unmuted known rest left right) {more : Trail} {last : Machine}
    (finishes : right.Finishes more last) (whole : last.reply.isBroken = false) :
    ∃ trail finish middle later, left.Finishes trail finish ∧ more = trail ++ later
      ∧ Alike unmuted known rest finish middle ∧ middle.Finishes later last := by
  obtain ⟨runs, idle⟩ := finishes
  induction runs generalizing left with
  | here machine =>
    have nothing : left.agenda = [] ∧ rest = [] := by
      have all := alike.agenda
      rw [idle] at all
      exact List.append_eq_nil_iff.mp all.symm
    exact ⟨[], left, machine, [], ⟨.here left, nothing.1⟩, rfl, alike, .here machine, idle⟩
  | @task machine next finish occurrences trail first runs inductionHypothesis =>
    cases own : left.advance? with
    | none =>
      exact ⟨[], left, machine, occurrences ++ trail, ⟨.here left, advance?_eq_none.mp own⟩, rfl,
        alike, .task first runs, idle⟩
    | some result =>
      obtain ⟨happened, after⟩ := result
      obtain ⟨other, onward, going | broken⟩ := Together.advance? alike own
      · rw [first] at onward
        cases onward
        obtain ⟨begun, ending, middle, later, ends, split, likewise, remaining⟩ :=
          inductionHypothesis going whole idle
        refine ⟨occurrences ++ begun, ending, middle, later, ⟨.task own ends.1, ends.2⟩, ?_, likewise,
          remaining⟩
        rw [split, List.append_assoc]
      · rw [first] at onward
        cases onward
        have same := broken.eq
        subst same
        obtain ⟨-, rfl⟩ := runs.of_agenda_eq_nil broken.agenda
        rw [broken.broke] at whole
        cases whole

end Machine

namespace Point

variable {session : Session} {point : Point} {index : ClientId}

/-- A task that goes on with an operation makes the turn of its client. -/
theorem work_eq {task : Task} {turn : Turn Program} {world : World Program}
    {phase : Phase Program} (operation : task.operation? = some (index, phase))
    (steady : ∀ purpose, phase ≠ .probeQuery purpose)
    (made : point.machine.session.world.step? index phase = some (turn, world))
    (agenda : List Task) :
    point.work task agenda
      = point.after task ([.turn turn], Machine.proceed { point.machine with agenda } world turn) := by
  have stepped := (Machine.carryOut_of_operation { point.machine with agenda } operation steady).trans
    (Machine.step_eq made)
  unfold work
  rw [stepped]

/-- At every point of a run, the machine is alike to itself. -/
theorem Leads.alike_self (leads : (opening session).Leads point) :
    Machine.Alike Machine.unmuted [] [] point.machine point.machine
      ∨ Machine.Broken Machine.unmuted [] point.machine point.machine := by
  induction leads with
  | here =>
    exact .inl ⟨⟨(Machine.mute_unmuted _).symm, rfl, rfl, List.nil_prefix, rfl, rfl, rfl⟩, .inl rfl⟩
  | ask op leads idle inductionHypothesis =>
    exact .inl ⟨⟨(Machine.mute_unmuted _).symm, rfl, rfl, List.nil_prefix, rfl, rfl, rfl⟩, .inr rfl⟩
  | @work point task agenda leads first inductionHypothesis =>
    rcases inductionHypothesis with alike | broken
    · have together := alike.carryOut first (Machine.heeds_unmuted _ _)
      rw [List.append_nil] at together
      exact together.machines
    · rw [broken.agenda] at first
      cases first

end Point

end Correlator.Session
