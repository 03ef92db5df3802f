import Correlator.Proofs.Course.Past

/-!
Contract: what the log of a client tells, turn by turn.

Owns: the reports of a turn with the numbers in their fields, that a step adds to the counts of its client what its
turn reports, which failures are reported, and when it is known how many requests are left behind.

Does not own: which reports a log keeps (`Correlator.Session.Reply`), and what they come to in a run
(`Correlator.Proofs.Session.Chronicle`).
-/

set_option autoImplicit false

namespace Correlator

variable {κ : Type}

def Effect.notice? : Effect → Option Notice
  | .logged notice => some notice
  | _ => none

/-- The reports that were made in a turn. -/
def Turn.notices (turn : Turn κ) : List Notice := turn.effects.filterMap Effect.notice?

/-- The code of the error that a turn answers. -/
def Turn.failure? (turn : Turn κ) : Option String :=
  match turn.next with
  | .returned (.error error) => some error.code
  | _ => none

/-- The message of the reports on what is counted. -/
def Counter.message : Counter → String
  | .submitted => "request submitted"
  | .completed => "response correlated"
  | .unmatched => "response does not match any pending request"
  | .cancelled => "pending request cancelled"
  | .pruned => "pruned pending requests"
  | .transmitFailures => "request transmission failed"

namespace Notice

/-- The number in a field of a report. -/
def number? (notice : Notice) (field : String) : Option Nat :=
  match notice.details.lookup field with
  | some (.number value) => some value
  | _ => none

/-- What a report adds to a count: the number of requests that a prune removed, and one elsewhere. -/
def amount (counter : Counter) (notice : Notice) : Nat :=
  if notice.message = counter.message then (notice.number? "removed").getD 1 else 0

/-- What reports add to a count together. -/
def total (counter : Counter) (notices : List Notice) : Nat := (notices.map (amount counter)).sum

/-- The messages of the reports that concern no request. -/
def asides : List String :=
  ["polling service availability",
    "node context is no longer valid; skipping client deregistration",
    "client disposed with outstanding pending requests", "client disposed"]

theorem total_append (counter : Counter) (front back : List Notice) :
    total counter (front ++ back) = total counter front + total counter back := by
  simp [total]

/-- All counts but one count reports. -/
theorem total_eq_countP {counter : Counter} (single : counter ≠ .pruned) (notices : List Notice) :
    total counter notices = notices.countP (·.message = counter.message) := by
  have one : ∀ notice : Notice, notice.message = counter.message →
      (notice.number? "removed").getD 1 = 1 := by
    intro notice told
    cases notice with
    | requestsPruned removed scope =>
      cases counter <;> first | exact absurd rfl single | simp [message, Counter.message] at told
    | _ => rfl
  induction notices with
  | nil => rfl
  | cons notice rest inductionHypothesis =>
    have split := total_append counter [notice] rest
    rw [List.singleton_append] at split
    rw [split, inductionHypothesis, List.countP_cons, Nat.add_comm]
    by_cases told : notice.message = counter.message
    · simp [total, amount, told, one notice told]
    · simp [total, amount, told]

/-- The count of pruned requests adds up what the prunes report to have removed. -/
theorem total_pruned (notices : List Notice) :
    total .pruned notices
      = ((notices.filter (·.message = "pruned pending requests")).filterMap
          (·.number? "removed")).sum := by
  induction notices with
  | nil => rfl
  | cons notice rest inductionHypothesis =>
    have split := total_append .pruned [notice] rest
    rw [List.singleton_append] at split
    rw [split, inductionHypothesis]
    cases notice <;> simp [total, amount, message, Counter.message, number?, details]

end Notice

/-- The numbers of requests left behind, as a turn reports them. -/
def Turn.orphanings (turn : Turn κ) : List (Option Nat) :=
  (turn.notices.filter (·.message = "client disposed with outstanding pending requests")).map
    (·.number? "orphaned")

theorem Counter.message_inj {left right : Counter} (same : left.message = right.message) :
    left = right := by
  cases left <;> cases right <;> first | rfl | simp [message] at same

theorem Tally.get_add (tally : Tally) (amount : UInt64) (counted counter : Counter) :
    (tally.add amount counted).get counter
      = tally.get counter + if counted = counter then amount else 0 := by
  cases counted <;> cases counter <;> simp [add, get]

namespace Phase

/-- What is reported in a step that concerns no request. -/
def remarks (hosted : Bool) : Phase κ → List Notice
  | .waitReport _ nap => [.polling nap]
  | .deregister _ => if hosted then [] else [.hostGone]
  | .release orphaned =>
    (if orphaned = 0 then [] else [.requestsOrphaned orphaned]) ++ [.disposed]
  | _ => []

/-- The requests that a client leaves behind, in the later steps of its dispose. -/
def orphans? : Phase κ → Option Nat
  | .deregister orphaned | .release orphaned => some orphaned
  | _ => none

end Phase

/-- A response that was not stored was stored before. -/
theorem Cells.code_of_resolve_error {cells : Cells} {future : Future} {response : Response}
    {error : ClientError} (refused : cells.resolve future response = .error error) :
    error.code = "client.double_resolution" := by
  unfold resolve at refused
  dsimp only at refused
  split at refused
  next => cases refused
  next =>
    cases refused
    rfl

namespace Client

variable (client : Client κ) (environment : Environment) (index : ClientId)

theorem notices_of_isAside {phase : Phase κ} (isAside : phase.isAside = true) :
    (client.turn environment index phase).notices
      = phase.remarks (environment.host client.host).isValid := by
  unfold Turn.notices turn
  cases phase with
  | submit | complete | cancel | pruneAll | pruneOlder | dispose | countCompleted | notify =>
    cases isAside
  | pruneStale =>
    unfold step pruneStale pruneNothing whileLive
    dsimp only
    split
    · split <;> rfl
    · split <;> rfl
  | isAvailable | wait | probeLive | pruneNothing =>
    unfold step
    dsimp only [pruneNothing]
    unfold whileLive
    split <;> rfl
  | waitBegin | waitBudget =>
    unfold step
    dsimp only [waitBegin, waitBudget]
    split <;> rfl
  | deregister =>
    unfold step deregister Phase.remarks
    dsimp only
    split <;> rfl
  | release orphaned =>
    unfold step release Phase.remarks
    dsimp only
    split <;> rfl
  | _ => rfl

/-- To count something and to report it adds the same to every count. -/
private theorem get_count (counted : Counter) (notice : Notice) {amount : Nat}
    (told : notice.message = counted.message) (number : (notice.number? "removed").getD 1 = amount)
    (counter : Counter) :
    (client.count counted (UInt64.ofNat amount)).tally.get counter
      = client.tally.get counter + UInt64.ofNat (Notice.total counter [notice]) := by
  unfold count
  rw [Tally.get_add]
  congr 1
  by_cases same : counted = counter
  · subst same
    simp [Notice.total, Notice.amount, told, number]
  · have apart : notice.message ≠ counter.message := fun equal =>
      same (Counter.message_inj (told.symm.trans equal))
    simp [Notice.total, Notice.amount, same, apart]

/-- Reports on what is not counted add nothing. -/
private theorem get_uncounted (notices : List Notice)
    (uncounted : ∀ notice ∈ notices, ∀ counter : Counter, notice.message ≠ counter.message)
    (counter : Counter) :
    client.tally.get counter
      = client.tally.get counter + UInt64.ofNat (Notice.total counter notices) := by
  have nothing : Notice.total counter notices = 0 := by
    refine List.sum_eq_zero fun amount member => ?_
    obtain ⟨notice, inside, rfl⟩ := List.mem_map.mp member
    exact if_neg (uncounted notice inside counter)
  rw [nothing]
  exact (UInt64.add_zero _).symm

private theorem message_of_mem_remarks {hosted : Bool} {phase : Phase κ} {notice : Notice}
    (member : notice ∈ phase.remarks hosted) : notice.message ∈ Notice.asides := by
  unfold Phase.remarks at member
  split at member
  next =>
    rw [List.mem_singleton.mp member]
    simp [Notice.message, Notice.asides]
  next =>
    split at member
    next => cases member
    next =>
      rw [List.mem_singleton.mp member]
      simp [Notice.message, Notice.asides]
  next =>
    rcases List.mem_append.mp member with left | last
    · split at left
      next => cases left
      next =>
        rw [List.mem_singleton.mp left]
        simp [Notice.message, Notice.asides]
    · rw [List.mem_singleton.mp last]
      simp [Notice.message, Notice.asides]
  next => cases member

private theorem uncounted_remarks (hosted : Bool) (phase : Phase κ) :
    ∀ notice ∈ phase.remarks hosted, ∀ counter : Counter, notice.message ≠ counter.message := by
  intro notice member counter same
  have told := message_of_mem_remarks member
  rw [same] at told
  cases counter <;> simp [Notice.asides, Counter.message] at told

/-- A prune reports how many rows it dropped, if there are any. -/
private theorem notices_pruned (service : String) (phase : Phase κ) (scope : PruneScope)
    (rows : List (Sequence × Pending.Entry κ)) (next : Next κ) :
    (⟨index, service, phase, .locked ::
        (rows.map (fun row => Effect.removed row.2.future .pruned)
          ++ pruneReport scope rows.length ++ [.unlocked]), next⟩ : Turn κ).notices
      = if rows.length = 0 then [] else [.requestsPruned rows.length scope] := by
  have report : (pruneReport scope rows.length).filterMap Effect.notice?
      = if rows.length = 0 then [] else [.requestsPruned rows.length scope] := by
    unfold pruneReport
    split <;> rfl
  have departures : (rows.map fun row => Effect.removed row.2.future .pruned).filterMap
      Effect.notice? = [] := by
    simp [List.filterMap_map, Function.comp_def, Effect.notice?]
  unfold Turn.notices
  rw [List.filterMap_cons, List.filterMap_append, List.filterMap_append, report, departures]
  exact List.append_nil _

/-- A step adds to every count of its client what the reports of its turn add up to. -/
theorem get_tally_step (phase : Phase κ) (counter : Counter) :
    (client.step environment phase).client.tally.get counter
      = client.tally.get counter
        + UInt64.ofNat (Notice.total counter (client.turn environment index phase).notices) := by
  by_cases isAside : phase.isAside = true
  · have same : (client.step environment phase).client = client := by
      have sidestep := client.sidestep_step environment isAside
      generalize client.step environment phase = step at sidestep ⊢
      cases sidestep <;> rfl
    rw [client.notices_of_isAside environment index isAside, same]
    exact client.get_uncounted _ (uncounted_remarks _ phase) counter
  · have exit := client.exit_step environment phase
    unfold turn
    generalize client.step environment phase = step at exit ⊢
    cases exit with
    | gone | missed | handedOver | untimed | lost | retired =>
      exact client.get_uncounted _ (by simp [Turn.notices, Effect.notice?]) counter
    | full | doubled =>
      refine client.get_uncounted [_] (List.forall_mem_singleton.mpr ?_) counter
      intro counter
      cases counter <;> simp [Notice.message, Counter.message]
    | unsent => exact client.get_count .transmitFailures (.transmissionFailed _) rfl rfl counter
    | stored => exact get_count _ .submitted (.requestSubmitted _ _) rfl rfl counter
    | unmatched => exact client.get_count .unmatched (.responseUnmatched _) rfl rfl counter
    | matched =>
      refine client.get_uncounted (Turn.notices _) ?_ counter
      simp [Turn.notices, Effect.notice?]
    | counted | countedBefore =>
      exact client.get_count .completed (.responseCorrelated _) rfl rfl counter
    | cancelled => exact get_count _ .cancelled (.requestCancelled _) rfl rfl counter
    | @pruned _ scope stale live prunes =>
      rw [notices_pruned]
      refine (get_count _ .pruned (.requestsPruned _ scope) rfl rfl counter).trans ?_
      split
      next nothing =>
        rw [nothing]
        cases counter <;> rfl
      next something => rfl
    | aside aside => exact absurd aside isAside

/-! ### What a turn tells -/

/-- What is told by the reports of a turn, at the end of which the client is as given. -/
structure Tells (turn : Turn κ) (after : Client κ) : Prop where
  /-- A prune that removed nothing is not reported. -/
  pruned : ∀ notice ∈ turn.notices, notice.message = "pruned pending requests" →
    ∃ removed, notice.number? "removed" = some removed ∧ removed ≠ 0
  reused : turn.notices.countP (·.message = "transport reused a live sequence number")
    = if turn.failure? = some "client.duplicate_sequence" then 1 else 0
  full : turn.notices.countP (·.message = "pending request capacity reached; request not sent")
    = if turn.failure? = some "client.capacity_exceeded" then 1 else 0
  submitted : ∀ notice ∈ turn.notices, notice.message = "request submitted" →
    notice.number? "pending" = some after.pendingCount
  /-- Requests that are left behind are reported when the dispose succeeds. -/
  orphaned : turn.orphanings
    = if .succeeded ∈ turn.farewells ∧ turn.phase.orphans? ≠ some 0 then [turn.phase.orphans?] else []

private theorem failure?_of_isAside {phase : Phase κ} (isAside : phase.isAside = true) {code : String}
    (other : code ≠ "client.invalid_handle") :
    (client.turn environment index phase).failure? ≠ some code := by
  have refusal := (client.unobtrusive_step environment isAside).error
  intro failed
  unfold Turn.failure? turn at failed
  split at failed
  next error returned =>
    rw [refusal error returned] at failed
    exact other (Option.some.inj failed).symm
  next => cases failed

private theorem orphanings_of_isAside {phase : Phase κ} (isAside : phase.isAside = true) :
    (client.turn environment index phase).orphanings
      = if .succeeded ∈ (client.turn environment index phase).farewells ∧ phase.orphans? ≠ some 0
        then [phase.orphans?] else [] := by
  unfold Turn.orphanings
  rw [client.notices_of_isAside environment index isAside]
  by_cases retires : phase.isRetiring = true
  · cases phase with
    | deregister orphaned =>
      rw [client.farewells_deregister]
      cases (environment.host client.host).isValid <;>
        simp [Phase.remarks, Retirement.notice, Notice.message]
    | release orphaned =>
      rw [client.farewells_release]
      by_cases none : orphaned = 0 <;>
        simp [Phase.remarks, Phase.orphans?, Notice.message, Notice.number?, Notice.details, none]
    | _ => cases retires
  · rw [client.farewells_of_not_retiring environment index (by simpa using retires)]
    cases phase with
    | deregister | release => exact absurd rfl retires
    | waitReport => simp [Phase.remarks, Notice.message]
    | _ => rfl

private theorem tells_of_isAside {phase : Phase κ} (isAside : phase.isAside = true) :
    Tells (client.turn environment index phase) (client.step environment phase).client := by
  have untold : ∀ message ∉ Notice.asides, ∀ notice ∈ (client.turn environment index phase).notices,
      notice.message ≠ message := by
    intro message other notice member same
    rw [client.notices_of_isAside environment index isAside] at member
    exact other (same ▸ message_of_mem_remarks member)
  have uncounted : ∀ message ∉ Notice.asides, ∀ code ≠ "client.invalid_handle",
      (client.turn environment index phase).notices.countP (·.message = message)
        = if (client.turn environment index phase).failure? = some code then 1 else 0 := by
    intro message other code failure
    rw [if_neg (client.failure?_of_isAside environment index isAside failure),
      List.countP_eq_zero]
    exact fun notice member told => untold message other notice member (of_decide_eq_true told)
  exact {
    pruned := fun notice member told => absurd told (untold _ (by simp [Notice.asides]) notice member)
    reused := uncounted _ (by simp [Notice.asides]) _ (by simp)
    full := uncounted _ (by simp [Notice.asides]) _ (by simp)
    submitted := fun notice member told => absurd told (untold _ (by simp [Notice.asides]) notice member)
    orphaned := client.orphanings_of_isAside environment index isAside }

section Requests

variable {turn : Turn κ} {after : Client κ}

private theorem tells_of_silent (silent : turn.notices = []) (bids : turn.farewells = [])
    (reused : turn.failure? ≠ some "client.duplicate_sequence")
    (full : turn.failure? ≠ some "client.capacity_exceeded") : Tells turn after := by
  constructor
  case pruned | submitted => simp [silent]
  case reused => rw [silent, if_neg reused, List.countP_nil]
  case full => rw [silent, if_neg full, List.countP_nil]
  case orphaned =>
    rw [bids, Turn.orphanings, silent]
    rfl

private theorem tells_of_single {notice : Notice} (single : turn.notices = [notice])
    (bids : turn.farewells = [])
    (pruned : notice.message = "pruned pending requests" →
      ∃ removed, notice.number? "removed" = some removed ∧ removed ≠ 0)
    (reused : notice.message = "transport reused a live sequence number" ↔
      turn.failure? = some "client.duplicate_sequence")
    (full : notice.message = "pending request capacity reached; request not sent" ↔
      turn.failure? = some "client.capacity_exceeded")
    (submitted : notice.message = "request submitted" →
      notice.number? "pending" = some after.pendingCount)
    (kept : notice.message ≠ "client disposed with outstanding pending requests") :
    Tells turn after := by
  constructor
  case pruned => simpa [single] using pruned
  case reused => simp [single, reused]
  case full => simp [single, full]
  case submitted => simpa [single] using submitted
  case orphaned => simp [bids, Turn.orphanings, single, kept]

end Requests

/-- What a turn reports of its step is so. -/
theorem tells_turn (phase : Phase κ) :
    Tells (client.turn environment index phase) (client.step environment phase).client := by
  by_cases isAside : phase.isAside = true
  · exact client.tells_of_isAside environment index isAside
  have notRetiring : phase.isRetiring = false := by
    cases phase <;> first | rfl | exact absurd rfl isAside
  have bids := client.farewells_of_not_retiring environment index notRetiring
  have exit := client.exit_step environment phase
  unfold turn at bids ⊢
  generalize client.step environment phase = step at exit bids ⊢
  cases exit with
  | gone | missed | handedOver | untimed | retired =>
    exact tells_of_silent rfl bids (by simp [Turn.failure?, ClientError.code])
      (by simp [Turn.failure?, ClientError.code])
  | lost live found refused =>
    have code := Cells.code_of_resolve_error refused
    exact tells_of_silent rfl bids (by simp [Turn.failure?, code]) (by simp [Turn.failure?, code])
  | matched =>
    refine tells_of_silent (List.filterMap_eq_nil_iff.mpr ?_) bids (by simp [Turn.failure?])
      (by simp [Turn.failure?])
    intro effect member
    simp only [List.mem_cons, List.mem_append, List.mem_map, List.not_mem_nil, or_false] at member
    rcases member with rfl | rfl | rfl | ⟨waker, -, rfl⟩ | rfl <;> rfl
  | full | doubled | unsent | unmatched | counted | countedBefore | cancelled =>
    refine tells_of_single rfl bids ?_ ?_ ?_ ?_ ?_ <;>
      simp [Notice.message, Turn.failure?, ClientError.code]
  | stored =>
    refine tells_of_single rfl bids ?_ ?_ ?_ (fun _ => rfl) ?_ <;>
      simp [Notice.message, Turn.failure?]
  | @pruned _ scope stale live prunes =>
    have notices := notices_pruned index client.service phase scope
      (client.table.rows.filter stale)
      (.returned (.ok (.count (client.table.rows.filter stale).length)))
    split at notices
    next nothing => exact tells_of_silent notices bids (by simp [Turn.failure?]) (by simp [Turn.failure?])
    next something =>
      refine tells_of_single notices bids ?_ ?_ ?_ ?_ ?_ <;>
        simp [Notice.message, Turn.failure?, Notice.number?, Notice.details]
      simpa using something
  | aside aside => exact absurd aside isAside

/-! ### The requests left behind -/

/-- The step with which a client comes to leave requests behind, or to report them. -/
theorem orphans_step {phase later : Phase κ} {orphaned : Nat}
    (goesOn : (client.step environment phase).next = .goesOn later)
    (leaves : later.orphans? = some orphaned) :
    phase.orphans? = some orphaned
      ∨ (client.step environment phase).client.disposed = true
        ∧ (client.step environment phase).client.pendingCount = orphaned := by
  have retires : (client.step environment phase).next.isRetiring = true := by
    rw [goesOn]
    cases later <;> first | rfl | cases leaves
  rcases (client.awake_of_retiring environment retires).1 with rfl | ⟨count, rfl⟩
  · cases disposed : client.disposed with
    | true =>
      have refused : (client.step environment .dispose).next = .returned (.error _) :=
        congrArg Step.next (Client.whileLive_of_disposed disposed environment _)
      rw [refused] at goesOn
      cases goesOn
    | false =>
      rw [Client.step_dispose disposed] at goesOn ⊢
      cases goesOn
      cases leaves
      exact .inr ⟨rfl, rfl⟩
  · rw [(client.step_deregister environment count).2.1] at goesOn
    cases goesOn
    exact .inl leaves

end Client

end Correlator
