import Correlator.Proofs.Course.Soundness

/-!
Contract: the accounts of a client. No request gets lost between its submission and its departure, and
the counts of the client say how many there were.

Owns: what a turn enters into the accounts, the balance of each step, and the balance of every course.

Does not own: the life of a single request (`Correlator.Proofs.Course.Soundness`).
-/

set_option autoImplicit false

namespace Correlator

variable {κ : Type}

namespace Turn

/-- The numbers under which a turn made requests pending. -/
def accepted (turn : Turn κ) : List Sequence :=
  match turn.phase, turn.next with
  | .submit _ _, .returned (.ok (.submitted future)) => [future.sequence]
  | _, _ => []

def matched (turn : Turn κ) : List Sequence :=
  match turn.phase, turn.next with
  | .complete sequence _, .goesOn _ => [sequence]
  | _, _ => []

def cancelled (turn : Turn κ) : List Sequence :=
  match turn.phase, turn.next with
  | .cancel future, .returned (.ok (.flag true)) => [future.sequence]
  | _, _ => []

def pruned (turn : Turn κ) : List Sequence :=
  turn.effects.filterMap fun effect =>
    match effect with
    | .removed future .pruned => some future.sequence
    | _ => none

end Turn

/-- What the turns of a client entered into one of its accounts. -/
def entered (turns : List (Turn κ)) (index : ClientId) (account : Turn κ → List Sequence) :
    List Sequence :=
  (turns.filter (·.client = index)).flatMap account

theorem entered_append (turns : List (Turn κ)) (turn : Turn κ) (index : ClientId)
    (account : Turn κ → List Sequence) :
    entered (turns ++ [turn]) index account
      = entered turns index account ++ if turn.client = index then account turn else [] := by
  by_cases own : turn.client = index <;> simp [entered, List.filter_append, own]

def Phase.isCounting : Phase κ → Bool
  | .countCompleted _ => true
  | _ => false

theorem Phase.not_counting_of_not_completing {phase : Phase κ}
    (notCompleting : phase.isCompleting = false) : phase.isCounting = false := by
  cases phase <;> first | rfl | cases notCompleting

/-- How many completed requests of a client have yet to be counted. -/
def uncounted (underway : List (ClientId × Phase κ)) (index : ClientId) : Nat :=
  underway.countP fun operation => operation.1 = index && operation.2.isCounting

theorem uncounted_append (front back : List (ClientId × Phase κ)) (index : ClientId) :
    uncounted (front ++ back) index = uncounted front index + uncounted back index :=
  List.countP_append

theorem uncounted_eq_zero {phase : Phase κ} (client index : ClientId)
    (notCounting : phase.isCounting = false) : uncounted [(client, phase)] index = 0 := by
  simp [uncounted, notCounting]

theorem uncounted_other {phase : Phase κ} {client index : ClientId} (other : client ≠ index) :
    uncounted [(client, phase)] index = 0 := by
  simp [uncounted, other]

/-! ### One turn -/

/-- A turn balances the accounts of its client: what comes in goes out or is pending afterwards, and
each count grows by what is entered. -/
structure Turn.Balances (turn : Turn κ) (before after : Client κ) : Prop where
  entries : ∀ property : Sequence → Bool,
    turn.accepted.countP property + before.table.count (fun row => property row.1)
      = turn.matched.countP property + turn.cancelled.countP property
        + turn.pruned.countP property + after.table.count (fun row => property row.1)
  submitted : after.tally.submitted
    = before.tally.submitted + UInt64.ofNat turn.accepted.length
  cancelled : after.tally.cancelled
    = before.tally.cancelled + UInt64.ofNat turn.cancelled.length
  pruned : after.tally.pruned = before.tally.pruned + UInt64.ofNat turn.pruned.length
  completed : after.tally.completed
      + UInt64.ofNat
        (uncounted (turn.next.phase?.map fun phase => (turn.client, phase)).toList turn.client)
    = before.tally.completed + UInt64.ofNat (uncounted [(turn.client, turn.phase)] turn.client)
      + UInt64.ofNat turn.matched.length

namespace Turn

variable {turn : Turn κ} {before after : Client κ}

/-- A turn that enters nothing and leaves the pending requests and their four counts alone. -/
private theorem Balances.of_unconcerned
    (nothing : turn.accepted = [] ∧ turn.matched = [] ∧ turn.cancelled = [] ∧ turn.pruned = [])
    (table_eq : after.table = before.table)
    (tally_eq : ∀ counter, counter ≠ .unmatched → counter ≠ .transmitFailures →
      after.tally.get counter = before.tally.get counter)
    (begins : turn.phase.isCompleting = false) (goesOn : turn.next.isAside = true) :
    turn.Balances before after := by
  obtain ⟨accepted, matched, cancelled, pruned⟩ := nothing
  have uncounted_eq :
      uncounted (turn.next.phase?.map fun phase => (turn.client, phase)).toList turn.client = 0 := by
    cases next : turn.next with
    | goesOn later =>
      rw [next] at goesOn
      exact uncounted_eq_zero _ _
        (Phase.not_counting_of_not_completing (by simpa [Next.isAside] using goesOn))
    | _ => rfl
  have submittedCount := tally_eq .submitted (by decide) (by decide)
  have completedCount := tally_eq .completed (by decide) (by decide)
  have cancelledCount := tally_eq .cancelled (by decide) (by decide)
  have prunedCount := tally_eq .pruned (by decide) (by decide)
  simp only [Tally.get] at submittedCount completedCount cancelledCount prunedCount
  constructor
  · simp [accepted, matched, cancelled, pruned, table_eq]
  · simp [accepted, submittedCount]
  · simp [cancelled, cancelledCount]
  · simp [pruned, prunedCount]
  · simp [uncounted_eq, uncounted_eq_zero _ _ (Phase.not_counting_of_not_completing begins), matched,
      completedCount]

end Turn

namespace Client

variable {client : Client κ} {environment : Environment} {phase : Phase κ} {step : Step κ}
  (index : ClientId) (service : String)

private theorem balances_stored {request : Request} {callback : Option κ} {future : Future}
    {now : Moment} {table : Pending.Table κ} {effects : List Effect}
    (inserted : client.table.insert? ⟨future, callback, now⟩ = some table)
    (unpruned : (⟨index, service, .submit request callback, effects,
      .returned (.ok (.submitted future))⟩ : Turn κ).pruned = []) :
    Turn.Balances
      ⟨index, service, .submit request callback, effects, .returned (.ok (.submitted future))⟩
      client ({ client with table }.count .submitted 1) := by
  constructor
  · intro property
    rw [unpruned]
    change _ = 0 + 0 + 0 + table.count _
    rw [Pending.Table.count_insert? inserted]
    by_cases counts : property future.sequence = true <;>
      simp [Turn.accepted, Pending.Entry.sequence, counts, Nat.add_comm]
  · rfl
  · exact (UInt64.add_zero _).symm
  · rw [unpruned]
    exact (UInt64.add_zero _).symm
  · simp [Next.phase?, Turn.matched, uncounted, Phase.isCounting, Client.count, Tally.add]

private theorem balances_matched {sequence : Sequence} {response : Response}
    {entry : Pending.Entry κ} {effects : List Effect} (filed : client.table.Filed)
    (found : client.table.find? sequence = some entry)
    (unpruned : (⟨index, service, .complete sequence response, effects,
      .goesOn (.countCompleted ⟨entry.future, entry.callback⟩)⟩ : Turn κ).pruned = []) :
    Turn.Balances
      ⟨index, service, .complete sequence response, effects,
        .goesOn (.countCompleted ⟨entry.future, entry.callback⟩)⟩
      client { client with table := client.table.erase sequence } := by
  constructor
  · intro property
    rw [unpruned]
    have rest := filed.count_erase found fun row => property row.1
    simp only [Turn.accepted, Turn.matched, Turn.cancelled, List.countP_nil, List.countP_cons] at *
    omega
  · exact (UInt64.add_zero _).symm
  · exact (UInt64.add_zero _).symm
  · rw [unpruned]
    exact (UInt64.add_zero _).symm
  · simp [Next.phase?, Turn.matched, uncounted, Phase.isCounting]

private theorem balances_cancelled {future : Future} {entry : Pending.Entry κ}
    {effects : List Effect} (filed : client.table.Filed)
    (found : client.table.find? future.sequence = some entry)
    (unpruned : (⟨index, service, .cancel future, effects,
      .returned (.ok (.flag true))⟩ : Turn κ).pruned = []) :
    Turn.Balances ⟨index, service, .cancel future, effects, .returned (.ok (.flag true))⟩
      client ({ client with table := client.table.erase future.sequence }.count .cancelled 1) := by
  constructor
  · intro property
    rw [unpruned]
    have rest := filed.count_erase found fun row => property row.1
    change 0 + _ = 0 + _ + 0 + (client.table.erase future.sequence).count _
    simp only [Turn.cancelled, List.countP_nil, List.countP_cons] at *
    omega
  · exact (UInt64.add_zero _).symm
  · rfl
  · rw [unpruned]
    exact (UInt64.add_zero _).symm
  · simp [Next.phase?, Turn.matched, uncounted, Phase.isCounting, Client.count, Tally.add]

private theorem filterMap_departures (scope : PruneScope)
    (rows : List (Sequence × Pending.Entry κ)) (next : Next κ) :
    (⟨index, service, phase, .locked ::
        (rows.map (fun row => Effect.removed row.2.future .pruned)
          ++ pruneReport scope rows.length ++ [.unlocked]), next⟩ : Turn κ).pruned
      = rows.map fun row => row.2.future.sequence := by
  have report : (⟨index, service, phase, pruneReport scope rows.length, next⟩ : Turn κ).pruned
      = [] := by
    unfold pruneReport
    split <;> rfl
  unfold Turn.pruned at report ⊢
  simp [List.filterMap_map, report]

private theorem balances_pruned {scope : PruneScope}
    {stale : Sequence × Pending.Entry κ → Bool} {effects : List Effect}
    (filed : client.table.Filed) (prunes : phase.prunes? = some (scope, stale)) (removed : Nat)
    (pruned : (⟨index, service, phase, effects, .returned (.ok (.count removed))⟩ : Turn κ).pruned
      = (client.table.rows.filter stale).map fun row => row.2.future.sequence) :
    Turn.Balances ⟨index, service, phase, effects, .returned (.ok (.count removed))⟩ client
      (client.afterPrune stale) := by
  have begins := Phase.not_completing_of_prunes prunes
  have accepted : (⟨index, service, phase, effects, .returned (.ok (.count removed))⟩
      : Turn κ).accepted = [] := by
    cases phase <;> rfl
  have matched : (⟨index, service, phase, effects, .returned (.ok (.count removed))⟩
      : Turn κ).matched = [] := by
    cases phase <;> rfl
  have cancelled : (⟨index, service, phase, effects, .returned (.ok (.count removed))⟩
      : Turn κ).cancelled = [] := by
    cases phase <;> rfl
  constructor
  · intro property
    rw [accepted, matched, cancelled, pruned, List.countP_map]
    -- Each row stands under the number of its own future.
    have departures : (client.table.rows.filter stale).countP
          (property ∘ fun row => row.2.future.sequence)
        = (client.table.rows.filter stale).countP fun row => property row.1 := by
      refine List.countP_congr fun row member => ?_
      have own := filed.own row (List.mem_filter.mp member).1
      rw [own]
      rfl
    rw [departures]
    have parts := Pending.Table.countP_filter_add client.table.rows stale
      fun row => property row.1
    change 0 + client.table.rows.countP _ = 0 + 0 + _
      + (client.table.rows.filter fun row => !stale row).countP _
    omega
  · rw [accepted]
    exact (UInt64.add_zero _).symm
  · rw [cancelled]
    exact (UInt64.add_zero _).symm
  · rw [pruned, List.length_map]
    rfl
  · rw [matched, uncounted_eq_zero _ _ (Phase.not_counting_of_not_completing begins)]
    simp [Next.phase?, uncounted, afterPrune, Client.count, Tally.add]

private theorem balances_counted {completed : Pending.Completed κ} {effects : List Effect}
    {next : Next κ}
    (later : uncounted (next.phase?.map fun phase => (index, phase)).toList index = 0)
    (unpruned : (⟨index, service, .countCompleted completed, effects, next⟩ : Turn κ).pruned = []) :
    Turn.Balances ⟨index, service, .countCompleted completed, effects, next⟩ client
      (client.count .completed 1) := by
  constructor
  · intro property
    rw [unpruned]
    simp [Turn.accepted, Turn.matched, Turn.cancelled, Client.count]
  · exact (UInt64.add_zero _).symm
  · exact (UInt64.add_zero _).symm
  · rw [unpruned]
    exact (UInt64.add_zero _).symm
  · rw [later]
    simp [Turn.matched, uncounted, Phase.isCounting, Client.count, Tally.add]

private theorem balances_handedOver {future : Future} {callback : κ} :
    Turn.Balances ⟨index, service, .notify future callback, [], .callsBack future callback⟩ client
      client := by
  constructor
  · intro property
    simp [Turn.accepted, Turn.matched, Turn.cancelled, Turn.pruned]
  · exact (UInt64.add_zero _).symm
  · exact (UInt64.add_zero _).symm
  · exact (UInt64.add_zero _).symm
  · simp [Next.phase?, Turn.matched, uncounted, Phase.isCounting]

/-- The turn of a step balances, if the cells of pending requests take a response. -/
theorem Exit.balances (exit : client.Exit environment phase step) (filed : client.table.Filed)
    (takes : client.TakesResponses environment) :
    Turn.Balances ⟨index, service, phase, step.effects, step.next⟩ client step.client := by
  cases exit with
  | gone disposed begins =>
    refine .of_unconcerned ⟨?_, ?_, ?_, rfl⟩ rfl (fun _ _ _ => rfl) begins rfl <;>
      cases phase <;> rfl
  | full live reached =>
    exact .of_unconcerned ⟨rfl, rfl, rfl, rfl⟩ rfl (fun _ _ _ => rfl) rfl rfl
  | unsent live room failed =>
    refine .of_unconcerned ⟨rfl, rfl, rfl, rfl⟩ rfl ?_ rfl rfl
    intro counter _ notFailures
    cases counter <;> first | rfl | exact absurd rfl notFailures
  | untimed live room sent read =>
    exact .of_unconcerned ⟨rfl, rfl, rfl, rfl⟩ rfl (fun _ _ _ => rfl) rfl rfl
  | doubled live room sent read taken =>
    exact .of_unconcerned ⟨rfl, rfl, rfl, rfl⟩ rfl (fun _ _ _ => rfl) rfl rfl
  | stored live room sent read inserted => exact balances_stored index service inserted rfl
  | unmatched live absent =>
    refine .of_unconcerned ⟨rfl, rfl, rfl, rfl⟩ rfl ?_ rfl rfl
    intro counter notUnmatched _
    cases counter <;> first | rfl | exact absurd rfl notUnmatched
  | lost live found refused => exact absurd refused (takes.ne_error found _ _)
  | matched live found resolved =>
    refine balances_matched index service filed found ?_
    simp [Turn.pruned, List.filterMap_map]
  | counted => exact balances_counted index service rfl rfl
  | countedBefore => exact balances_counted index service (uncounted_eq_zero _ _ rfl) rfl
  | handedOver => exact balances_handedOver index service
  | missed live absent =>
    exact .of_unconcerned ⟨rfl, rfl, rfl, rfl⟩ rfl (fun _ _ _ => rfl) rfl rfl
  | cancelled live found => exact balances_cancelled index service filed found rfl
  | pruned live prunes =>
    exact balances_pruned index service filed prunes _ (filterMap_departures index service _ _ _)
  | retired live =>
    exact .of_unconcerned ⟨rfl, rfl, rfl, rfl⟩ rfl (fun _ _ _ => rfl) rfl rfl
  | aside isAside client_eq cells_eq effects next =>
    refine .of_unconcerned ⟨?_, ?_, ?_, ?_⟩ (congrArg Client.table client_eq) ?_
      (Phase.not_completing_of_isAside isAside) next
    · cases phase <;> first | rfl | cases isAside
    · cases phase <;> first | rfl | cases isAside
    · cases phase <;> first | rfl | cases isAside
    · refine List.filterMap_eq_nil_iff.mpr fun effect member => ?_
      have effectAside := effects effect member
      cases effect <;> first | rfl | cases effectAside
    · intro counter _ _
      rw [client_eq]

end Client

/-! ### Every move -/

namespace Course

/-- The accounts of a client balance: every number that came in went out in one way or is pending,
and the counts are the lengths of the accounts, up to the requests that have yet to be counted. -/
structure Balanced (course : Course κ) (index : ClientId) (client : Client κ) : Prop where
  entries : ∀ property : Sequence → Bool,
    (entered course.turns index Turn.accepted).countP property
      = (entered course.turns index Turn.matched).countP property
        + (entered course.turns index Turn.cancelled).countP property
        + (entered course.turns index Turn.pruned).countP property
        + client.table.count (fun row => property row.1)
  submitted : client.tally.submitted
    = UInt64.ofNat (entered course.turns index Turn.accepted).length
  cancelled : client.tally.cancelled
    = UInt64.ofNat (entered course.turns index Turn.cancelled).length
  pruned : client.tally.pruned = UInt64.ofNat (entered course.turns index Turn.pruned).length
  completed : client.tally.completed + UInt64.ofNat (uncounted course.underway index)
    = UInt64.ofNat (entered course.turns index Turn.matched).length

def IsBalanced (course : Course κ) : Prop :=
  ∀ (index : ClientId) (client : Client κ),
    course.world.clients[index]? = some client → course.Balanced index client

variable {course : Course κ} {front back : List (ClientId × Phase κ)} {index : ClientId}
  {client : Client κ} {service : String} {phase : Phase κ} {step : Step κ}

private theorem Balanced.after_own (balanced : course.Balanced index client)
    (split : course.underway = front ++ (index, phase) :: back)
    (turn : Turn.Balances ⟨index, service, phase, step.effects, step.next⟩ client step.client) :
    (course.after front back index service phase step).Balanced index step.client := by
  have entered_after : ∀ account : Turn κ → List Sequence,
      entered (course.after front back index service phase step).turns index account
        = entered course.turns index account
          ++ account ⟨index, service, phase, step.effects, step.next⟩ := fun account =>
    (entered_append _ _ _ _).trans (congrArg _ (if_pos rfl))
  have before : uncounted course.underway index
      = uncounted front index + uncounted [(index, phase)] index + uncounted back index := by
    rw [split, List.append_cons, uncounted_append, uncounted_append]
  have later : uncounted (course.after front back index service phase step).underway index
      = uncounted front index
        + uncounted (step.next.phase?.map fun phase => (index, phase)).toList index
        + uncounted back index := by
    unfold after
    rw [uncounted_append, uncounted_append]
  constructor
  · intro property
    have old := balanced.entries property
    have new := turn.entries property
    simp only [entered_after, List.countP_append]
    omega
  · rw [entered_after, List.length_append, UInt64.ofNat_add, ← balanced.submitted]
    exact turn.submitted
  · rw [entered_after, List.length_append, UInt64.ofNat_add, ← balanced.cancelled]
    exact turn.cancelled
  · rw [entered_after, List.length_append, UInt64.ofNat_add, ← balanced.pruned]
    exact turn.pruned
  · have old := balanced.completed
    have new := turn.completed
    rw [before, UInt64.ofNat_add, UInt64.ofNat_add] at old
    rw [entered_after, List.length_append, UInt64.ofNat_add, ← old, later, UInt64.ofNat_add,
      UInt64.ofNat_add]
    dsimp only at new
    grind

private theorem Balanced.after_other {other : ClientId} {known : Client κ}
    (balanced : course.Balanced other known) (different : other ≠ index)
    (split : course.underway = front ++ (index, phase) :: back) :
    (course.after front back index service phase step).Balanced other known := by
  have entered_after : ∀ account : Turn κ → List Sequence,
      entered (course.after front back index service phase step).turns other account
        = entered course.turns other account := fun account => by
    refine (entered_append _ _ _ _).trans ?_
    rw [if_neg (Ne.symm different), List.append_nil]
  have uncounted_after :
      uncounted (course.after front back index service phase step).underway other
        = uncounted course.underway other := by
    have later : uncounted (step.next.phase?.map fun phase => (index, phase)).toList other = 0 := by
      cases step.next.phase? with
      | none => rfl
      | some phase => exact uncounted_other (Ne.symm different)
    rw [split, List.append_cons]
    unfold after
    simp only [uncounted_append, later, uncounted_other (Ne.symm different)]
  constructor
  · simpa only [entered_after] using balanced.entries
  · simpa only [entered_after] using balanced.submitted
  · simpa only [entered_after] using balanced.cancelled
  · simpa only [entered_after] using balanced.pruned
  · simpa only [entered_after, uncounted_after] using balanced.completed

theorem IsBalanced.move {course next : Course κ} (balanced : course.IsBalanced)
    (sound : course.Sound) (move : Move course next) : next.IsBalanced := by
  intro other known search
  cases move with
  | enter client phase opening =>
    have nothing : uncounted [(client, phase)] other = 0 := uncounted_eq_zero _ _
      (Phase.not_counting_of_not_completing (Phase.not_completing_of_opening opening))
    have old := balanced other known search
    refine ⟨old.entries, old.submitted, old.cancelled, old.pruned, ?_⟩
    change _ + UInt64.ofNat (uncounted ([(client, phase)] ++ course.underway) other) = _
    rw [uncounted_append, nothing, Nat.zero_add]
    exact old.completed
  | proceed front back index phase turn world split made =>
    obtain ⟨client, found, rfl, rfl⟩ := World.step?_eq_some made
    have exit := client.exit_step course.world.environment phase
    rcases (World.getElem?_set_client found).mp search with ⟨rfl, rfl⟩ | ⟨different, old⟩
    · exact (balanced other client found).after_own split
        (exit.balances other client.service (sound.filed other client found)
          (sound.takesResponses found))
    · exact (balanced other known old).after_other different split
  | abandon front back client phase split interruptible =>
    have nothing : uncounted [(client, phase)] other = 0 :=
      uncounted_eq_zero _ _ (Phase.not_counting_of_not_completing interruptible)
    have old := balanced other known search
    refine ⟨old.entries, old.submitted, old.cancelled, old.pruned, ?_⟩
    have same : uncounted (front ++ back) other = uncounted course.underway other := by
      rw [split, List.append_cons, uncounted_append, uncounted_append, uncounted_append, nothing,
        Nat.add_zero]
    dsimp only
    rw [same]
    exact old.completed
  | outside act =>
    have old := balanced other known search
    exact ⟨old.entries, old.submitted, old.cancelled, old.pruned, old.completed⟩

theorem balanced_opening {world : World κ} (fresh : world.IsFresh) : (opening world).IsBalanced := by
  intro index client found
  obtain ⟨table_eq, tally_eq, -⟩ := fresh client (List.mem_of_getElem? found)
  constructor <;>
    simp [entered, opening, uncounted, table_eq, tally_eq, Pending.Table.count_empty]

/-- At every point of a course of fresh clients, the accounts of every client balance. -/
theorem Leads.isBalanced {world : World κ} {course : Course κ}
    (leads : (opening world).Leads course) (fresh : world.IsFresh) : course.IsBalanced := by
  induction leads with
  | here => exact balanced_opening fresh
  | move leads move inductionHypothesis => exact inductionHypothesis.move (leads.sound fresh) move

/-- The counts of a client and its pending requests, up to the requests that have yet to be counted. -/
theorem Balanced.tally_eq (balanced : course.Balanced index client) :
    client.tally.submitted
      = client.tally.completed + client.tally.cancelled + client.tally.pruned
        + UInt64.ofNat client.pendingCount + UInt64.ofNat (uncounted course.underway index) := by
  have total := balanced.entries fun _ => true
  rw [List.countP_true, Pending.Table.count_true] at total
  rw [balanced.submitted, total, UInt64.ofNat_add, UInt64.ofNat_add, UInt64.ofNat_add,
    ← balanced.completed, ← balanced.cancelled, ← balanced.pruned]
  unfold Client.pendingCount
  grind

/-- Every request under a number went out in one way, or is the one that is pending. -/
theorem Balanced.count_eq (balanced : course.Balanced index client) (filed : client.table.Filed)
    (sequence : Sequence) :
    (entered course.turns index Turn.accepted).count sequence
      = (entered course.turns index Turn.matched).count sequence
        + (entered course.turns index Turn.cancelled).count sequence
        + (entered course.turns index Turn.pruned).count sequence
        + if client.table.contains sequence then 1 else 0 := by
  have entries := balanced.entries (· == sequence)
  rw [filed.count_sequence] at entries
  exact entries

end Course

end Correlator
