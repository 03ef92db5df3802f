import Correlator.Proofs.Client.Sidestep
import Correlator.Proofs.Pending.Table

/-!
Contract: the ways in which a single step of a client can end.

Owns: one case for each exit of an operation that touches the pending requests, the counts or the
cells, with all that the step leaves behind; one case for all other steps, which touch none of them.

Does not own: what the cases mean for requests over a whole course (`Correlator.Proofs.Course`).
-/

set_option autoImplicit false

namespace Correlator

/-- Effects that concern neither pending requests nor counts nor cells. -/
def Effect.isAside : Effect → Bool
  | .stored _ | .removed _ _ | .resolved _ _ | .woke _ | .counted _ _ => false
  | _ => true

namespace Phase

variable {κ : Type}

/-- The steps that remain of a complete once its response is stored. -/
def isCompleting : Phase κ → Bool
  | .countCompleted _ | .notify _ _ => true
  | _ => false

/-- The scope of a prune, and which rows it drops. -/
def prunes? : Phase κ → Option (PruneScope × (Sequence × Pending.Entry κ → Bool))
  | .pruneAll => some (.all, fun _ => true)
  | .pruneOlder cutoff => some (.olderThan, fun row => decide (row.2.submittedAt < cutoff))
  | _ => none

theorem not_completing_of_isAside {phase : Phase κ} (isAside : phase.isAside = true) :
    phase.isCompleting = false := by
  cases phase <;> first | rfl | cases isAside

theorem not_completing_of_prunes {phase : Phase κ}
    {prune : PruneScope × (Sequence × Pending.Entry κ → Bool)}
    (prunes : phase.prunes? = some prune) : phase.isCompleting = false := by
  cases phase <;> first | rfl | cases prunes

end Phase

/-- A continuation that neither registers, completes nor hands over a request. -/
def Next.isAside {κ : Type} : Next κ → Bool
  | .goesOn phase => !phase.isCompleting
  | .callsBack _ _ => false
  | .returned (.ok (.submitted _)) => false
  | _ => true

theorem Effect.isAside_of_observes {effect : Effect} (observes : effect.observes = true) :
    effect.isAside = true := by
  cases effect <;> first | rfl | cases observes

theorem Next.isAside_of_isCalm {κ : Type} {next : Next κ} (calm : next.isCalm = true) :
    next.isAside = true := by
  cases next with
  | goesOn phase => cases phase <;> first | rfl | cases calm
  | callsBack => cases calm
  | returned result =>
    cases result with
    | error => cases calm
    | ok answer => cases answer <;> first | rfl | cases calm
  | failed => rfl

namespace Environment

@[simp] theorem setTransport_cells (environment : Environment) (index : TransportId)
    (transport : Transport.Loopback) :
    (environment.setTransport index transport).cells = environment.cells := rfl

/-- To read a clock changes nothing but what the clock of real time has ready. -/
theorem eq_of_readClock {environment timed : Environment} {clock : ClockChoice}
    {now : Option Moment} (read : environment.readClock clock = (now, timed)) :
    timed = { environment with realTime := timed.realTime } := by
  have timed_eq : (environment.readClock clock).2 = timed := congrArg Prod.snd read
  rw [← timed_eq]
  cases clock <;> rfl

theorem cells_eq_of_readClock {environment timed : Environment} {clock : ClockChoice}
    {now : Option Moment} (read : environment.readClock clock = (now, timed)) :
    timed.cells = environment.cells := by
  rw [eq_of_readClock read]

@[simp] theorem sleep_cells (environment : Environment) (nap : Span) (clock : ClockChoice) :
    (environment.sleep nap clock).cells = environment.cells := by
  cases clock <;> rfl

end Environment

namespace Client

variable {κ : Type}

/-- What a prune that counts its removals reports. -/
def pruneReport (scope : PruneScope) (removed : Nat) : List Effect :=
  if removed = 0 then []
  else [.counted .pruned (UInt64.ofNat removed), .logged (.requestsPruned removed scope)]

@[simp] theorem mem_pruneReport {scope : PruneScope} {removed : Nat} {effect : Effect} :
    effect ∈ pruneReport scope removed ↔
      removed ≠ 0 ∧ (effect = .counted .pruned (UInt64.ofNat removed)
        ∨ effect = .logged (.requestsPruned removed scope)) := by
  unfold pruneReport
  split
  next nothing => simp [nothing]
  next something => simp [something]

/-- The client after all rows with a property left its table in a prune. -/
def afterPrune (client : Client κ) (stale : Sequence × Pending.Entry κ → Bool) : Client κ :=
  { client with table := ⟨client.table.rows.filter fun row => !stale row⟩ }.count .pruned
    (UInt64.ofNat (client.table.rows.filter stale).length)

/-- Every pending request of a client would take a response. -/
def TakesResponses (client : Client κ) (environment : Environment) : Prop :=
  ∀ sequence entry response, client.table.find? sequence = some entry →
    ∃ filled, environment.cells.resolve entry.future response = .ok filled

theorem TakesResponses.ne_error {client : Client κ} {environment : Environment}
    (takes : client.TakesResponses environment) {sequence : Sequence} {entry : Pending.Entry κ}
    (found : client.table.find? sequence = some entry) (response : Response)
    (error : ClientError) :
    environment.cells.resolve entry.future response ≠ .error error := by
  obtain ⟨filled, fills⟩ := takes sequence entry response found
  rw [fills]
  exact nofun

/-- The ways in which a step can end. -/
inductive Exit (client : Client κ) (environment : Environment) : Phase κ → Step κ → Prop where
  /-- The client is disposed of. -/
  | gone {phase : Phase κ} (disposed : client.disposed = true)
      (begins : phase.isCompleting = false) :
      Exit client environment phase
        ⟨client, environment, [.locked, .unlocked],
          .returned (.error (.invalidHandle client.service))⟩
  /-- No further request may be pending. -/
  | full {request : Request} {callback : Option κ} {limit : Nat}
      (live : client.disposed = false) (reached : client.reached? = some limit) :
      Exit client environment (.submit request callback)
        ⟨client, environment, [.locked, .logged (.capacityReached limit), .unlocked],
          .returned (.error (.capacityExceeded client.service limit))⟩
  /-- The transport failed. -/
  | unsent {request : Request} {callback : Option κ} {failure : Transport.Failure}
      {transport : Transport.Loopback}
      (live : client.disposed = false) (room : client.reached? = none)
      (failed : (environment.transport client.transport).send request
        = (.error failure, transport)) :
      Exit client environment (.submit request callback)
        ⟨client.count .transmitFailures 1, environment.setTransport client.transport transport,
          [.locked, .refused request failure, .counted .transmitFailures 1,
            .logged (.transmissionFailed failure), .unlocked],
          .returned (.error (.transmit client.service failure))⟩
  /-- The clock was out of range after the request had been sent. -/
  | untimed {request : Request} {callback : Option κ} {sequence : Sequence}
      {transport : Transport.Loopback} {timed : Environment}
      (live : client.disposed = false) (room : client.reached? = none)
      (sent : (environment.transport client.transport).send request = (.ok sequence, transport))
      (read : (environment.setTransport client.transport transport).readClock client.clock
        = (none, timed)) :
      Exit client environment (.submit request callback)
        ⟨client, timed, [.locked, .sent request sequence, .readClock none, .unlocked],
          .failed .clockOutOfRange⟩
  /-- The request was sent under a number that is taken. -/
  | doubled {request : Request} {callback : Option κ} {sequence : Sequence}
      {transport : Transport.Loopback} {timed : Environment} {now : Moment}
      (live : client.disposed = false) (room : client.reached? = none)
      (sent : (environment.transport client.transport).send request = (.ok sequence, transport))
      (read : (environment.setTransport client.transport transport).readClock client.clock
        = (some now, timed))
      (taken : client.table.contains sequence = true) :
      Exit client environment (.submit request callback)
        ⟨client, timed,
          [.locked, .sent request sequence, .readClock (some now),
            .logged (.sequenceReused sequence), .unlocked],
          .returned (.error (.duplicateSequence client.service sequence))⟩
  /-- The request is pending. -/
  | stored {request : Request} {callback : Option κ} {sequence : Sequence}
      {transport : Transport.Loopback} {timed : Environment} {now : Moment}
      {table : Pending.Table κ}
      (live : client.disposed = false) (room : client.reached? = none)
      (sent : (environment.transport client.transport).send request = (.ok sequence, transport))
      (read : (environment.setTransport client.transport transport).readClock client.clock
        = (some now, timed))
      (inserted : client.table.insert? ⟨(environment.cells.fresh sequence).1, callback, now⟩
        = some table) :
      Exit client environment (.submit request callback)
        ⟨{ client with table }.count .submitted 1,
          { timed with cells := (environment.cells.fresh sequence).2 },
          [.locked, .sent request sequence, .readClock (some now),
            .stored (environment.cells.fresh sequence).1, .counted .submitted 1,
            .logged (.requestSubmitted sequence table.size), .unlocked],
          .returned (.ok (.submitted (environment.cells.fresh sequence).1))⟩
  /-- The number of a response is not pending. -/
  | unmatched {sequence : Sequence} {response : Response}
      (live : client.disposed = false) (absent : client.table.contains sequence = false) :
      Exit client environment (.complete sequence response)
        ⟨client.count .unmatched 1, environment,
          [.locked, .counted .unmatched 1, .logged (.responseUnmatched sequence), .unlocked],
          .returned (.error (.unmatchedResponse client.service sequence))⟩
  /-- The entry of a response was taken out, but its cell was not empty. -/
  | lost {sequence : Sequence} {response : Response} {entry : Pending.Entry κ}
      {error : ClientError}
      (live : client.disposed = false) (found : client.table.find? sequence = some entry)
      (refused : environment.cells.resolve entry.future response = .error error) :
      Exit client environment (.complete sequence response)
        ⟨{ client with table := client.table.erase sequence }, environment,
          [.locked, .removed entry.future .completed, .unlocked], .returned (.error error)⟩
  /-- The entry of a response was taken out, and the response stored. -/
  | matched {sequence : Sequence} {response : Response} {entry : Pending.Entry κ}
      {wakers : List Waker} {cells : Cells}
      (live : client.disposed = false) (found : client.table.find? sequence = some entry)
      (filled : environment.cells.resolve entry.future response = .ok (wakers, cells)) :
      Exit client environment (.complete sequence response)
        ⟨{ client with table := client.table.erase sequence }, { environment with cells },
          .locked :: .removed entry.future .completed :: .resolved entry.future response
            :: (wakers.map Effect.woke ++ [.unlocked]),
          .goesOn (.countCompleted ⟨entry.future, entry.callback⟩)⟩
  /-- A completed request without a callback is counted. -/
  | counted {future : Future} :
      Exit client environment (.countCompleted ⟨future, none⟩)
        ⟨client.count .completed 1, environment,
          [.counted .completed 1, .logged (.responseCorrelated future.sequence)],
          .returned (.ok .done)⟩
  /-- A completed request with a callback is counted. -/
  | countedBefore {future : Future} {callback : κ} :
      Exit client environment (.countCompleted ⟨future, some callback⟩)
        ⟨client.count .completed 1, environment,
          [.counted .completed 1, .logged (.responseCorrelated future.sequence)],
          .goesOn (.notify future callback)⟩
  /-- The callback of a completed request gets its future. -/
  | handedOver {future : Future} {callback : κ} :
      Exit client environment (.notify future callback)
        ⟨client, environment, [], .callsBack future callback⟩
  /-- There was nothing to cancel. -/
  | missed {future : Future}
      (live : client.disposed = false)
      (absent : client.table.contains future.sequence = false) :
      Exit client environment (.cancel future)
        ⟨client, environment, [.locked, .unlocked], .returned (.ok (.flag false))⟩
  /-- The entry under the number of a future was taken out. -/
  | cancelled {future : Future} {entry : Pending.Entry κ}
      (live : client.disposed = false)
      (found : client.table.find? future.sequence = some entry) :
      Exit client environment (.cancel future)
        ⟨{ client with table := client.table.erase future.sequence }.count .cancelled 1,
          environment,
          [.locked, .removed entry.future .cancelled, .counted .cancelled 1,
            .logged (.requestCancelled future.sequence), .unlocked],
          .returned (.ok (.flag true))⟩
  /-- The rows with a property were dropped. -/
  | pruned {phase : Phase κ} {scope : PruneScope} {stale : Sequence × Pending.Entry κ → Bool}
      (live : client.disposed = false) (prunes : phase.prunes? = some (scope, stale)) :
      Exit client environment phase
        ⟨client.afterPrune stale, environment,
          .locked ::
            ((client.table.rows.filter stale).map (fun row => Effect.removed row.2.future .pruned)
              ++ pruneReport scope (client.table.rows.filter stale).length ++ [.unlocked]),
          .returned (.ok (.count (client.table.rows.filter stale).length))⟩
  /-- The client goes out of use. -/
  | retired (live : client.disposed = false) :
      Exit client environment .dispose
        ⟨{ client with disposed := true }, environment, [.locked, .unlocked],
          .goesOn (.deregister client.pendingCount)⟩
  /-- A step that concerns none of this. -/
  | aside {phase : Phase κ} {step : Step κ} (isAside : phase.isAside = true)
      (client_eq : step.client = client) (cells_eq : step.environment.cells = environment.cells)
      (effects : ∀ effect ∈ step.effects, effect.isAside = true)
      (next : step.next.isAside = true) :
      Exit client environment phase step

variable (client : Client κ) (environment : Environment)

/-! ### Each operation under the lock -/

theorem whileLive_of_live {client : Client κ} (live : client.disposed = false)
    (environment : Environment) (body : Step κ) :
    client.whileLive environment body
      = { body with effects := .locked :: body.effects ++ [.unlocked] } :=
  if_neg (by simp [live])

theorem whileLive_of_disposed {client : Client κ} (disposed : client.disposed = true)
    (environment : Environment) (body : Step κ) :
    client.whileLive environment body
      = ⟨client, environment, [.locked, .unlocked],
          .returned (.error (.invalidHandle client.service))⟩ :=
  if_pos disposed

private theorem exit_whileLive {phase : Phase κ} {body : Step κ}
    (begins : phase.isCompleting = false)
    (exits : client.disposed = false →
      Exit client environment phase
        { body with effects := .locked :: body.effects ++ [.unlocked] }) :
    Exit client environment phase (client.whileLive environment body) := by
  unfold whileLive
  cases disposed : client.disposed with
  | true => exact .gone disposed begins
  | false => exact exits disposed

private theorem exit_submit (request : Request) (callback : Option κ) :
    Exit client environment (.submit request callback)
      (client.whileLive environment (client.submit environment request callback)) := by
  refine client.exit_whileLive environment rfl fun live => ?_
  unfold submit
  split
  next limit reached => exact .full live reached
  next room =>
    split
    next failure transport failed => exact .unsent live room failed
    next sequence transport sent =>
      dsimp only
      split
      next timed read => exact .untimed live room sent read
      next now timed read =>
        rw [Environment.cells_eq_of_readClock read, Environment.setTransport_cells]
        split
        next refused =>
          exact .doubled live room sent read (Pending.Table.insert?_eq_none.mp refused)
        next table inserted => exact .stored live room sent read inserted

private theorem exit_complete (sequence : Sequence) (response : Response) :
    Exit client environment (.complete sequence response)
      (client.whileLive environment (client.complete environment sequence response)) := by
  refine client.exit_whileLive environment rfl fun live => ?_
  unfold complete
  split
  next absent => exact .unmatched live (Pending.Table.remove?_eq_none.mp absent)
  next entry table removed =>
    obtain ⟨found, rfl⟩ := Pending.Table.remove?_eq_some removed
    unfold Pending.Entry.resolve
    cases resolution : environment.cells.resolve entry.future response with
    | error error => exact .lost live found resolution
    | ok filled =>
      obtain ⟨wakers, cells⟩ := filled
      simpa using Exit.matched live found resolution

private theorem exit_cancel (future : Future) :
    Exit client environment (.cancel future)
      (client.whileLive environment (client.cancel environment future)) := by
  refine client.exit_whileLive environment rfl fun live => ?_
  unfold cancel
  split
  next absent => exact .missed live (Pending.Table.remove?_eq_none.mp absent)
  next entry table removed =>
    obtain ⟨found, rfl⟩ := Pending.Table.remove?_eq_some removed
    exact .cancelled live found

private theorem exit_pruned {phase : Phase κ} {scope : PruneScope}
    {stale : Sequence × Pending.Entry κ → Bool} (prunes : phase.prunes? = some (scope, stale)) :
    Exit client environment phase
      (client.whileLive environment
        (client.pruned environment scope (client.table.rows.filter stale)
          (client.table.rows.filter stale).length
          ⟨client.table.rows.filter fun row => !stale row⟩)) := by
  refine client.exit_whileLive environment (Phase.not_completing_of_prunes prunes) fun live => ?_
  have exits : Exit client environment phase _ := .pruned live prunes
  unfold afterPrune pruneReport at exits
  unfold pruned
  split
  next nothing =>
    simpa [nothing, Client.count, Tally.add] using exits
  next something => simpa [something] using exits

private theorem exit_pruneAll :
    Exit client environment .pruneAll
      (client.whileLive environment (client.pruneAll environment)) := by
  have exits : Exit client environment .pruneAll _ := client.exit_pruned environment rfl
  simpa [pruneAll, Pending.Table.clear, Pending.Table.size, Pending.Table.empty] using exits

private theorem exit_pruneOlder (cutoff : Moment) :
    Exit client environment (.pruneOlder cutoff)
      (client.whileLive environment (client.pruneOlder environment cutoff)) := by
  have exits : Exit client environment (.pruneOlder cutoff) _ :=
    client.exit_pruned environment rfl
  have parts := Pending.Table.countP_filter_add client.table.rows
    (fun row => decide (row.2.submittedAt < cutoff)) fun _ => true
  simp only [List.countP_true] at parts
  have removed : client.table.size - (client.table.since cutoff).size
      = (client.table.rows.filter fun row => decide (row.2.submittedAt < cutoff)).length := by
    change client.table.rows.length
      - (client.table.rows.filter fun row => !decide (row.2.submittedAt < cutoff)).length = _
    omega
  unfold pruneOlder Pending.Table.removeBefore
  rw [removed]
  exact exits

private theorem exit_countCompleted (completed : Pending.Completed κ) :
    Exit client environment (.countCompleted completed)
      (client.countCompleted environment completed) := by
  obtain ⟨future, callback⟩ := completed
  cases callback with
  | none => exact .counted
  | some callback => exact .countedBefore

/-! ### Steps that touch no request -/

private theorem Sidestep.exit {client : Client κ} {environment : Environment} {phase : Phase κ}
    {step : Step κ} (sidestep : client.Sidestep environment phase step)
    (isAside : phase.isAside = true) : Exit client environment phase step := by
  cases sidestep with
  | gone disposed => exact .gone disposed (Phase.not_completing_of_isAside isAside)
  | timed read calm =>
    exact .aside isAside rfl (Environment.cells_eq_of_readClock read) (by simp [Effect.isAside])
      (Next.isAside_of_isCalm calm)
  | entered live calm | queried calm =>
    exact .aside isAside rfl rfl (by simp [Effect.isAside]) (Next.isAside_of_isCalm calm)
  | looked observes calm =>
    exact .aside isAside rfl rfl (by simpa using Effect.isAside_of_observes observes)
      (Next.isAside_of_isCalm calm)
  | slept calm =>
    exact .aside isAside rfl (environment.sleep_cells _ client.clock) (by simp [Effect.isAside])
      (Next.isAside_of_isCalm calm)
  | signedOff | unhosted => exact .aside isAside rfl rfl (by simp [Effect.isAside]) rfl
  | released observe =>
    exact .aside isAside rfl rfl
      (List.forall_mem_cons.mpr ⟨rfl, fun effect member =>
        Effect.isAside_of_observes (observe effect member)⟩) rfl

/-! ### Every step -/

/-- A step ends in one of the listed ways. -/
theorem exit_step (phase : Phase κ) : Exit client environment phase (client.step environment phase) := by
  cases phase with
  | submit request callback => exact client.exit_submit environment request callback
  | complete sequence response => exact client.exit_complete environment sequence response
  | cancel future => exact client.exit_cancel environment future
  | pruneAll => exact client.exit_pruneAll environment
  | pruneOlder cutoff => exact client.exit_pruneOlder environment cutoff
  | dispose => exact client.exit_whileLive environment rfl fun live => .retired live
  | countCompleted completed => exact client.exit_countCompleted environment completed
  | notify future callback => exact .handedOver
  | _ => exact (client.sidestep_step environment rfl).exit rfl

/-- A client that is disposed of keeps its table as it is, and stays disposed of. -/
theorem Exit.frozen {client : Client κ} {environment : Environment} {phase : Phase κ} {step : Step κ}
    (exit : client.Exit environment phase step) (disposed : client.disposed = true) :
    step.client.table = client.table ∧ step.client.disposed = true := by
  cases exit with
  | gone | counted | countedBefore | handedOver => exact ⟨rfl, disposed⟩
  | aside isAside client_eq cells_eq effects next =>
    rw [client_eq]
    exact ⟨rfl, disposed⟩
  | full live | unsent live | untimed live | doubled live | stored live | unmatched live | lost live
  | matched live | missed live | cancelled live | pruned live | retired live =>
    rw [live] at disposed
    cases disposed

end Client

end Correlator
