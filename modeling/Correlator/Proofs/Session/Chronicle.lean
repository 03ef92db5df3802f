import Correlator.Proofs.Course.Chronicle
import Correlator.Proofs.Session.Disposal
import Correlator.Proofs.Session.Progress

/-!
Contract: what the log of a session tells of its clients.

Owns: that the counts of a client are what its reports add up to, which results are reported and with which
numbers, and that a log which keeps everything has all reports.

Does not own: the reports of single turns (`Correlator.Proofs.Course.Chronicle`).
-/

set_option autoImplicit false

namespace Correlator.Session

theorem LogEntry.ofTurn_eq (turn : Turn Program) :
    LogEntry.ofTurn turn = turn.notices.map (LogEntry.mk turn.service) := by
  unfold ofTurn Turn.notices
  rw [List.map_filterMap]
  refine List.filterMap_congr fun effect _ => ?_
  cases effect <;> rfl

namespace Trail

theorem reports_of_not_threaded {trail : Trail} (plain : Occurrence.threadsEntered ∉ trail) :
    trail.reports 0 = trail.turns.flatMap LogEntry.ofTurn := by
  induction trail with
  | nil => rfl
  | cons occurrence rest inductionHypothesis =>
    have onward := inductionHypothesis fun member => plain (List.mem_cons_of_mem _ member)
    cases occurrence with
    | turn turn => exact congrArg (LogEntry.ofTurn turn ++ ·) onward
    | threadsEntered => exact absurd List.mem_cons_self plain
    | woke | calledBack | nested | threadsLeft => exact onward

/-- A log that keeps all severities has every report that was made outside of other threads. -/
theorem log_trace (trail : Trail) : trail.log (some .trace) = trail.reports 0 := by
  refine List.filter_eq_self.mpr fun entry _ => ?_
  cases entry.notice <;> rfl

end Trail

namespace Point

variable {session : Session} {point : Point} {index : ClientId} {client : Client Program}

/-- What was reported of the operations of a client, in its order. -/
def told (point : Point) (index : ClientId) : List Notice :=
  shared point.turns (· = index) Turn.notices

/-- How often a message was reported of a client, as its counts count. -/
def tellings (point : Point) (index : ClientId) (message : String) : UInt64 :=
  UInt64.ofNat ((point.told index).countP (·.message = message))

/-- The reports of a client agree with its counts and with its results. -/
structure Chronicled (start point : Point) (index : ClientId) (client : Client Program) : Prop where
  submitted : client.tally.submitted = point.tellings index "request submitted"
  completed : client.tally.completed = point.tellings index "response correlated"
  unmatched :
    client.tally.unmatched = point.tellings index "response does not match any pending request"
  cancelled : client.tally.cancelled = point.tellings index "pending request cancelled"
  transmitFailures :
    client.tally.transmitFailures = point.tellings index "request transmission failed"
  pruned : client.tally.pruned = UInt64.ofNat
    (((point.told index).filter (·.message = "pruned pending requests")).filterMap
      (·.number? "removed")).sum
  /-- What the reports of a turn tell was so right after its step. -/
  tells : ∀ turn ∈ point.turns, turn.client = index → ∃ earlier world after,
    start.Leads earlier ∧ earlier.Leads point ∧ earlier.operation? = some (index, turn.phase)
      ∧ earlier.machine.session.world.step? index turn.phase = some (turn, world)
      ∧ world.clients[index]? = some after ∧ Client.Tells turn after
  /-- A dispose that succeeds reports the requests that stay pending for good, if there are any. -/
  orphaned : ∀ turn ∈ point.turns, turn.client = index →
    turn.orphanings = if .succeeded ∈ turn.farewells ∧ client.pendingCount ≠ 0
      then [some client.pendingCount] else []
  /-- Unless operations ran on other threads, the whole log has the reports of all turns. -/
  logged : Occurrence.threadsEntered ∉ point.trail →
    point.trail.log (some .trace)
      = point.turns.flatMap fun turn => turn.notices.map (LogEntry.mk turn.service)

/-! ### The counts -/

/-- Each count of a client is what the reports of its turns add up to. -/
theorem Leads.get_tally (leads : (opening session).Leads point) (fresh : session.world.IsFresh)
    (found : point.machine.session.client? index = some client) (counter : Counter) :
    client.tally.get counter = UInt64.ofNat (Notice.total counter (point.told index)) := by
  refine leads.client_induction (motive := fun turns client => client.tally.get counter
      = UInt64.ofNat (Notice.total counter (shared turns (· = index) Turn.notices)))
    found ?initial ?own ?others
  case initial =>
    intro first known
    rw [(fresh first (List.mem_of_getElem? known)).2.1]
    cases counter <;> rfl
  case own =>
    intro before actor environment phase inductionHypothesis
    have own : shared (before ++ [actor.turn environment index phase]) (· = index) Turn.notices
        = shared before (· = index) Turn.notices
          ++ (actor.turn environment index phase).notices :=
      (shared_append _ _ _ _).trans (congrArg _ (if_pos (decide_eq_true rfl)))
    rw [actor.get_tally_step environment index phase, inductionHypothesis, own,
      Notice.total_append, UInt64.ofNat_add]
  case others =>
    intro before actor turn different inductionHypothesis
    rw [shared_append, if_neg (by simpa using different), List.append_nil]
    exact inductionHypothesis

/-! ### The requests left behind -/

/-- A client that goes on to go out of use, or has gone, leaves behind what it has pending. -/
def CountsOrphans (point : Point) : Prop :=
  ∀ index client, point.machine.session.client? index = some client → ∀ phase orphaned,
    phase.orphans? = some orphaned → point.Reaches index phase →
      client.disposed = true ∧ client.pendingCount = orphaned

private theorem not_opening_of_orphans? {phase : Phase Program} {orphaned : Nat}
    (leaves : phase.orphans? = some orphaned) : phase.isOpening = false := by
  cases phase <;> first | rfl | cases leaves

private theorem CountsOrphans.work (counts : point.CountsOrphans) {task : Task} {agenda : List Task}
    (first : point.machine.agenda = task :: agenda) : (point.work task agenda).CountsOrphans := by
  intro index client found phase orphaned leaves reaches
  -- What was in reach before the task stays so, because the client is out of use.
  have settled : ∀ phase, phase.orphans? = some orphaned → point.Reaches index phase →
      client.disposed = true ∧ client.pendingCount = orphaned := by
    intro phase leaves reaches
    unfold Point.work at found
    cases Machine.progress_carryOut { point.machine with agenda } task with
    | still silent clients_eq underway =>
      have found := (congrArg (·[index]?) clients_eq).symm.trans found
      exact counts index client found phase orphaned leaves reaches
    | turned turn world operation made turns_eq clients_eq underway =>
      obtain ⟨actor, foundActor, turn_eq, rfl⟩ := World.step?_eq_some made
      have found := (congrArg (·[index]?) clients_eq).symm.trans found
      rcases (World.getElem?_set_client foundActor).mp found with ⟨rfl, rfl⟩ | ⟨different, old⟩
      · obtain ⟨disposed, count⟩ := counts turn.client actor foundActor phase orphaned leaves reaches
        have frozen := (actor.exit_step point.machine.session.world.environment turn.phase).frozen
          disposed
        exact ⟨frozen.2, (congrArg Pending.Table.size frozen.1).trans count⟩
      · exact counts index client old phase orphaned leaves reaches
  rcases reaches_of_work first reaches (not_opening_of_orphans? leaves) with
    before | ⟨turn, world, operation, made, clients_eq, rfl, goesOn⟩
  · exact settled phase leaves before
  · obtain ⟨actor, foundActor, turn_eq, rfl⟩ := World.step?_eq_some made
    have found := (congrArg (·[turn.client]?) clients_eq).symm.trans found
    rcases (World.getElem?_set_client foundActor).mp found with ⟨-, rfl⟩ | ⟨different, -⟩
    · rw [turn_eq] at goesOn
      rcases actor.orphans_step point.machine.session.world.environment goesOn leaves with same | now
      · refine settled turn.phase same (.inl ?_)
        rw [first, underway_cons, operation]
        exact List.mem_cons_self
      · exact now
    · exact absurd rfl different

theorem Leads.countsOrphans (leads : (opening session).Leads point) : point.CountsOrphans := by
  induction leads with
  | here =>
    rintro index client - phase orphaned - (underway | ⟨turn, member, -⟩)
    · cases underway
    · cases member
  | ask op leads idle inductionHypothesis =>
    intro index client found phase orphaned leaves reaches
    refine inductionHypothesis index client found phase orphaned leaves (reaches.imp_left fun member => ?_)
    cases member
  | work task agenda leads first inductionHypothesis => exact inductionHypothesis.work first

/-- The turn in which a dispose succeeds is a step that knows how many requests are left behind. -/
private theorem orphans?_of_succeeded {world after : World Program} {phase : Phase Program}
    {turn : Turn Program} (made : world.step? index phase = some (turn, after))
    (succeeded : .succeeded ∈ turn.farewells) : ∃ orphaned, phase.orphans? = some orphaned := by
  obtain ⟨actor, -, rfl, -⟩ := World.step?_eq_some made
  cases retires : phase.isRetiring with
  | false =>
    have nothing := actor.farewells_of_not_retiring world.environment index retires
    unfold Client.turn at nothing
    rw [nothing] at succeeded
    cases succeeded
  | true =>
    cases phase with
    | deregister orphaned | release orphaned => exact ⟨orphaned, rfl⟩
    | _ => cases retires

/-- The tally of a client agrees with what is reported of its operations. -/
theorem chronicle (fresh : session.world.IsFresh) (leads : (opening session).Leads point)
    (found : point.machine.session.client? index = some client) :
    Chronicled (opening session) point index client := by
  have counts := leads.get_tally fresh found
  have single : ∀ counter ≠ .pruned,
      client.tally.get counter = point.tellings index counter.message := by
    intro counter others
    rw [counts counter, Notice.total_eq_countP others]
    rfl
  have tells : ∀ turn ∈ point.turns, turn.client = index → ∃ earlier world after,
      (opening session).Leads earlier ∧ earlier.Leads point
        ∧ earlier.operation? = some (index, turn.phase)
        ∧ earlier.machine.session.world.step? index turn.phase = some (turn, world)
        ∧ world.clients[index]? = some after ∧ Client.Tells turn after := by
    rintro turn member rfl
    obtain ⟨earlier, world, before, onward, operation, made⟩ := leads.stepped member
    obtain ⟨actor, foundActor, turn_eq, rfl⟩ := World.step?_eq_some made
    refine ⟨earlier, _, _, before, onward, operation, made,
      (World.getElem?_set_client foundActor).mpr (.inl ⟨rfl, rfl⟩), ?_⟩
    rw [turn_eq]
    exact actor.tells_turn earlier.machine.session.world.environment turn.client turn.phase
  constructor
  case submitted => exact single .submitted nofun
  case completed => exact single .completed nofun
  case unmatched => exact single .unmatched nofun
  case cancelled => exact single .cancelled nofun
  case transmitFailures => exact single .transmitFailures nofun
  case pruned => exact (counts .pruned).trans (congrArg UInt64.ofNat (Notice.total_pruned _))
  case tells => exact tells
  case orphaned =>
    intro turn member own
    obtain ⟨earlier, world, after, -, -, -, made, -, told⟩ := tells turn member own
    rw [told.orphaned]
    by_cases succeeded : .succeeded ∈ turn.farewells
    · obtain ⟨orphaned, leaves⟩ := orphans?_of_succeeded made succeeded
      have count := (leads.countsOrphans index client found turn.phase orphaned leaves
        (.inr ⟨turn, member, own, rfl⟩)).2
      simp [succeeded, leaves, count]
    · simp [succeeded]
  case logged =>
    intro plain
    rw [Trail.log_trace, Trail.reports_of_not_threaded plain]
    exact List.flatMap_congr fun turn _ => LogEntry.ofTurn_eq turn

/-- In the dispose at this point, one request was left behind. -/
theorem chronicle_orphaning :
    ∃ client, orphaning.machine.session.client? 0 = some client
      ∧ client.tally.submitted = orphaning.tellings 0 "request submitted"
      ∧ client.tally.submitted = 2
      ∧ (orphaning.turns.flatMap Turn.orphanings) = [some client.pendingCount] := by
  have chronicled := chronicle solo_isFresh leads_orphaning
    (show orphaning.machine.session.client? 0 = some _ from rfl)
  exact ⟨_, rfl, chronicled.submitted, rfl, by decide⟩

end Point

end Correlator.Session
