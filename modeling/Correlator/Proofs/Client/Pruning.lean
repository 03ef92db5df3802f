import Correlator.Proofs.Client.Performance
import Correlator.Proofs.Course.Request
import Correlator.Proofs.Time.Span

/-!
Contract: what prunes drop and what they leave.

Owns: the law of a prune, which drops the rows with a property and does nothing else; which rows these are for
each kind of prune; and what prunes come to that follow each other.

Does not own: the steps of which a prune consists (`Correlator.Proofs.Client.Exit`).
-/

set_option autoImplicit false

namespace Correlator

variable {κ : Type}

/-- How much time has passed at a point since an entry was submitted, in nanoseconds; negative before it. -/
def Pending.Entry.ageAt (entry : Pending.Entry κ) (now : Moment) : Int :=
  now.toNanos - entry.submittedAt.toNanos

namespace Phase

/-- The operations that drop pending requests. -/
def isPrune : Phase κ → Bool
  | .pruneAll | .pruneOlder _ | .pruneStale => true
  | _ => false

end Phase

namespace Client

/-- The law of a prune: it answers how many rows have a property and takes them out. The other rows stay as they
are, the count of pruned requests goes up by as many, and nothing else happens to any request. -/
structure Drops (client : Client κ) (environment : Environment)
    (stale : Sequence × Pending.Entry κ → Bool) (ending : Step κ) : Prop where
  answer : ending.next = .returned (.ok (.count (client.table.rows.filter stale).length))
  client_eq : ending.client =
    { client with
      table := ⟨client.table.rows.filter fun row => !stale row⟩
      tally := client.tally.add (UInt64.ofNat (client.table.rows.filter stale).length) .pruned }
  /-- The requests of these rows leave as pruned ones, in the order of their numbers, and none is completed. -/
  milestones : ending.effects.filterMap Effect.milestone?
    = (client.table.rows.filter stale).map fun row => (row.2.future, Milestone.left (κ := κ) .pruned)
  unwoken : ∀ waker, Effect.woke waker ∉ ending.effects
  cells_eq : ending.environment.cells = environment.cells

/-- A property of rows that an older one has if a younger one does. -/
def GoesByAge (stale : Sequence × Pending.Entry κ → Bool) : Prop :=
  ∀ older younger : Sequence × Pending.Entry κ,
    older.2.submittedAt.toNanos ≤ younger.2.submittedAt.toNanos →
      stale younger = true → stale older = true

variable {client : Client κ} {environment timed : Environment} {phase : Phase κ}
  {stale other : Sequence × Pending.Entry κ → Bool} {step one two : Step κ}

/-! ### Single prunes -/

theorem Exit.drops (exit : client.Exit environment phase step) (live : client.disposed = false)
    {scope : PruneScope} (prunes : phase.prunes? = some (scope, stale)) :
    client.Drops environment stale step := by
  cases exit with
  | gone disposed begins =>
    rw [live] at disposed
    cases disposed
  | pruned live known =>
    cases known.symm.trans prunes
    have report : (pruneReport scope (client.table.rows.filter stale).length).filterMap
        (Effect.milestone? (κ := κ)) = [] := by
      unfold pruneReport
      split <;> rfl
    refine ⟨rfl, rfl, ?_, by simp, rfl⟩
    simp [List.filterMap_cons, List.filterMap_map, Function.comp_def, Effect.milestone?, report]
  | aside isAside client_eq cells_eq effects next =>
    cases phase <;> first | cases isAside; done | cases prunes
  | _ => cases prunes

/-- A prune that has nothing to look for drops nothing. -/
theorem drops_pruneNothing (live : client.disposed = false)
    (none : ∀ row ∈ client.table.rows, stale row = false) :
    client.Drops environment stale (client.step environment .pruneNothing) := by
  have dropped : client.table.rows.filter stale = [] :=
    List.filter_eq_nil_iff.mpr fun row member => by simp [none row member]
  have kept : (client.table.rows.filter fun row => !stale row) = client.table.rows :=
    List.filter_eq_self.mpr fun row member => by simp [none row member]
  have step_eq : client.step environment .pruneNothing
      = ⟨client, environment, [.locked, .unlocked], .returned (.ok (.count 0))⟩ :=
    whileLive_of_live live environment _
  rw [step_eq]
  constructor
  case answer => rw [dropped]; rfl
  case client_eq => simp [dropped, kept, Tally.add]
  case milestones => rw [dropped]; rfl
  case unwoken => simp
  case cells_eq => rfl

/-- A prune changes nothing where no row has the property. -/
theorem Drops.spared (drops : client.Drops environment stale step)
    (none : ∀ row ∈ client.table.rows, stale row = false) :
    step.next = .returned (.ok (.count 0)) ∧ step.client = client := by
  have dropped : client.table.rows.filter stale = [] :=
    List.filter_eq_nil_iff.mpr fun row member => by simp [none row member]
  have kept : (client.table.rows.filter fun row => !stale row) = client.table.rows :=
    List.filter_eq_self.mpr fun row member => by simp [none row member]
  refine ⟨?_, ?_⟩
  · rw [drops.answer, dropped]
    rfl
  · rw [drops.client_eq, dropped, kept]
    simp [Tally.add]

theorem Drops.congr (drops : client.Drops environment stale step)
    (same : ∀ row ∈ client.table.rows, stale row = other row) :
    client.Drops environment other step := by
  have dropped := List.filter_congr same
  have kept : (client.table.rows.filter fun row => !stale row)
      = client.table.rows.filter fun row => !other row :=
    List.filter_congr fun row member => by rw [same row member]
  obtain ⟨answer, client_eq, milestones, unwoken, cells_eq⟩ := drops
  rw [dropped] at answer client_eq milestones
  rw [kept] at client_eq
  exact ⟨answer, client_eq, milestones, unwoken, cells_eq⟩

theorem Drops.live (drops : client.Drops environment stale step) (live : client.disposed = false) :
    step.client.disposed = false := by
  rw [drops.client_eq]
  exact live

/-- A reading of the clock before a prune does not show. -/
theorem Drops.after_reading (drops : client.Drops timed stale step) {reading : Option Moment}
    (cells_eq : timed.cells = environment.cells) :
    client.Drops environment stale { step with effects := [.readClock reading] ++ step.effects } :=
  ⟨drops.answer, drops.client_eq, drops.milestones, by simpa using drops.unwoken,
    drops.cells_eq.trans cells_eq⟩

/-- Prunes that look for rows ask nothing of the environment. -/
theorem environment_eq_of_prunes {scope : PruneScope}
    (prunes : phase.prunes? = some (scope, stale)) :
    (client.step environment phase).environment = environment := by
  have exit := client.exit_step environment phase
  generalize client.step environment phase = step at exit
  cases exit with
  | gone | pruned => rfl
  | aside isAside => cases phase <;> first | cases isAside; done | cases prunes
  | _ => cases prunes

theorem performs_drops (live : client.disposed = false) {scope : PruneScope}
    (prunes : phase.prunes? = some (scope, stale)) :
    client.Performs environment phase (client.step environment phase)
      ∧ client.Drops environment stale (client.step environment phase) := by
  have drops := (client.exit_step environment phase).drops live prunes
  refine ⟨.ends ?_, drops⟩
  rw [drops.answer]
  rfl

/-! ### Prunes of stale requests -/

/-- Without a threshold, a prune of stale requests does nothing. -/
theorem performs_pruneStale_of_none (live : client.disposed = false)
    (unset : client.options.staleAfter = none) :
    client.Performs environment .pruneStale
      ⟨client, environment, [.locked, .unlocked], .returned (.ok (.count 0))⟩ := by
  refine performs_of_step ?_ rfl
  unfold Client.step pruneStale
  rw [unset]
  exact whileLive_of_live live environment _

/-- A row is older than a cutoff just if its age exceeds what lies between the cutoff and the present. -/
theorem stale_iff_ageAt {now cutoff : Moment} {threshold : Span}
    (before : now.before? threshold = some cutoff) (entry : Pending.Entry κ) :
    entry.submittedAt < cutoff ↔ (threshold.toNanos : Int) < entry.ageAt now := by
  have shift := Moment.toNanos_of_before? before
  unfold Pending.Entry.ageAt
  rw [Moment.lt_iff_toNanos_lt]
  omega

/-- Where the cutoff would lie before all points in time, no entry exceeds the threshold. -/
theorem ageAt_lt_of_before?_eq_none {now : Moment} {threshold : Span}
    (beyond : now.before? threshold = none) (entry : Pending.Entry κ) :
    entry.ageAt now < threshold.toNanos := by
  have far := Moment.before?_eq_none.mp beyond
  have inRange := entry.submittedAt.neg_range_le_toNanos
  unfold Pending.Entry.ageAt
  omega

/-- A prune of stale requests drops those whose age exceeds the threshold. -/
theorem performs_pruneStale (live : client.disposed = false) {threshold : Span} {now : Moment}
    (isSet : client.options.staleAfter = some threshold)
    (read : environment.readClock client.clock = (some now, timed)) :
    ∃ ending, client.Performs environment .pruneStale ending
      ∧ client.Drops environment (fun row => decide ((threshold.toNanos : Int) < row.2.ageAt now))
        ending
      ∧ ending.environment = timed := by
  have cells_eq := Environment.cells_eq_of_readClock read
  cases before : now.before? threshold with
  | some cutoff =>
    have first : client.step environment .pruneStale
        = ⟨client, timed, [.readClock (some now)], .goesOn (.pruneOlder cutoff)⟩ := by
      show client.pruneStale environment = _
      simp only [pruneStale, isSet, read, before]
    obtain ⟨performs, drops⟩ : client.Performs timed (.pruneOlder cutoff) _ ∧ _ :=
      performs_drops live rfl
    refine ⟨_, performs_of_goesOn first rfl performs, ?_, environment_eq_of_prunes rfl⟩
    refine (drops.congr fun row member => ?_).after_reading cells_eq
    exact decide_eq_decide.mpr (stale_iff_ageAt before row.2)
  | none =>
    have first : client.step environment .pruneStale
        = ⟨client, timed, [.readClock (some now)], .goesOn .pruneNothing⟩ := by
      show client.pruneStale environment = _
      simp only [pruneStale, isSet, read, before]
    have step_eq : client.step timed .pruneNothing
        = ⟨client, timed, [.locked, .unlocked], .returned (.ok (.count 0))⟩ :=
      whileLive_of_live live timed _
    have drops : client.Drops timed
        (fun row => decide ((threshold.toNanos : Int) < row.2.ageAt now))
        (client.step timed .pruneNothing) := drops_pruneNothing live fun row member => by
      have young := ageAt_lt_of_before?_eq_none before row.2
      exact decide_eq_false (Int.not_lt.mpr (Int.le_of_lt young))
    refine ⟨_, performs_of_goesOn first rfl (performs_of_step rfl ?_), drops.after_reading cells_eq,
      ?_⟩
    · rw [drops.answer]
      rfl
    · rw [step_eq]

/-! ### Prunes that follow each other -/

/-- Two prunes drop the rows with either property, and their counts add up. -/
theorem Drops.followed (first : client.Drops environment stale one)
    (second : one.client.Drops timed other two) :
    (client.table.rows.filter stale).length + (one.client.table.rows.filter other).length
        = (client.table.rows.filter fun row => stale row || other row).length
      ∧ two.client =
        { client with
          table := ⟨client.table.rows.filter fun row => !(stale row || other row)⟩
          tally := client.tally.add
            (UInt64.ofNat (client.table.rows.filter fun row => stale row || other row).length)
            .pruned } := by
  have rows_eq : one.client.table.rows = client.table.rows.filter fun row => !stale row := by
    rw [first.client_eq]
  have counts : (client.table.rows.filter stale).length
        + (one.client.table.rows.filter other).length
      = (client.table.rows.filter fun row => stale row || other row).length := by
    have parts := Pending.Table.countP_filter_add client.table.rows stale
      fun row => stale row || other row
    have gone : (client.table.rows.filter stale).countP (fun row => stale row || other row)
        = (client.table.rows.filter stale).length :=
      List.countP_eq_length.mpr fun row member => by simp [(List.mem_filter.mp member).2]
    have later : (client.table.rows.filter fun row => !stale row).countP
          (fun row => stale row || other row)
        = (client.table.rows.filter fun row => !stale row).countP other :=
      List.countP_congr fun row member => by
        have kept := (List.mem_filter.mp member).2
        simp_all
    rw [rows_eq, ← List.countP_eq_length_filter (p := other),
      ← List.countP_eq_length_filter (p := fun row => stale row || other row)]
    omega
  refine ⟨counts, ?_⟩
  rw [second.client_eq, ← counts, rows_eq, first.client_eq, List.filter_filter]
  have kept : (client.table.rows.filter fun row => !other row && !stale row)
      = client.table.rows.filter fun row => !(stale row || other row) := by
    congr
    funext row
    cases stale row <;> cases other row <;> rfl
  simp [kept, Tally.add, UInt64.ofNat_add, UInt64.add_assoc]

/-- A prune with a cutoff upon another one comes to a prune with the later cutoff. -/
theorem Drops.cutoffs {early late : Moment} {single : Step κ}
    (first : client.Drops environment (fun row => decide (row.2.submittedAt < early)) one)
    (second : one.client.Drops timed (fun row => decide (row.2.submittedAt < late)) two)
    (whole : client.Drops environment (fun row => decide (row.2.submittedAt < early.later late))
      single) :
    two.client = single.client
      ∧ ∃ earlier later, one.next = .returned (.ok (.count earlier))
        ∧ two.next = .returned (.ok (.count later))
        ∧ single.next = .returned (.ok (.count (earlier + later))) := by
  obtain ⟨counts, client_eq⟩ := first.followed second
  have either : ∀ row : Sequence × Pending.Entry κ,
      (decide (row.2.submittedAt < early) || decide (row.2.submittedAt < late))
        = decide (row.2.submittedAt < early.later late) := by
    intro row
    rw [← Bool.decide_or]
    exact decide_eq_decide.mpr Moment.lt_later_iff.symm
  simp only [either] at counts client_eq
  refine ⟨client_eq.trans whole.client_eq.symm, _, _, first.answer, second.answer, ?_⟩
  rw [counts]
  exact whole.answer

/-- A prune of all requests upon another prune leaves none, and their counts come to all requests. -/
theorem Drops.emptied (first : client.Drops environment stale one)
    (second : one.client.Drops timed (fun _ => true) two) :
    two.client.table = .empty
      ∧ ∃ earlier later, one.next = .returned (.ok (.count earlier))
        ∧ two.next = .returned (.ok (.count later)) ∧ earlier + later = client.pendingCount := by
  obtain ⟨counts, client_eq⟩ := first.followed second
  refine ⟨?_, _, _, first.answer, second.answer, ?_⟩
  · rw [client_eq]
    simp [Pending.Table.empty]
  · rw [counts]
    simp [pendingCount, Pending.Table.size]

/-- Every prune drops rows by their age, unless it breaks off since the clock is out of range. -/
theorem exists_drops_goesByAge (isPrune : phase.isPrune = true) (live : client.disposed = false) :
    ∃ ending, client.Performs environment phase ending
      ∧ (ending.next = .failed .clockOutOfRange ∧ (environment.readClock client.clock).1 = none
          ∧ ending.client = client
        ∨ ∃ stale, client.Drops environment stale ending ∧ GoesByAge stale) := by
  cases phase with
  | pruneAll =>
    obtain ⟨performs, drops⟩ : client.Performs environment .pruneAll _ ∧ _ :=
      performs_drops live rfl
    exact ⟨_, performs, .inr ⟨_, drops, fun _ _ _ _ => rfl⟩⟩
  | pruneOlder cutoff =>
    obtain ⟨performs, drops⟩ : client.Performs environment (.pruneOlder cutoff) _ ∧ _ :=
      performs_drops live rfl
    refine ⟨_, performs, .inr ⟨_, drops, fun older younger before stale => ?_⟩⟩
    simp only [decide_eq_true_eq, Moment.lt_iff_toNanos_lt] at stale ⊢
    omega
  | pruneStale =>
    cases isSet : client.options.staleAfter with
    | none =>
      have drops : client.Drops environment (fun _ => false) _ :=
        drops_pruneNothing live (by simp)
      rw [show client.step environment .pruneNothing = _ from
        whileLive_of_live live environment _] at drops
      exact ⟨_, performs_pruneStale_of_none live isSet, .inr ⟨_, drops, fun _ _ _ stale => stale⟩⟩
    | some threshold =>
      cases read : environment.readClock client.clock with
      | mk reading timed =>
        cases reading with
        | some now =>
          obtain ⟨ending, performs, drops, -⟩ := performs_pruneStale live isSet read
          refine ⟨ending, performs, .inr ⟨_, drops, fun older younger before stale => ?_⟩⟩
          have exceeds : (threshold.toNanos : Int) < younger.2.ageAt now := of_decide_eq_true stale
          refine decide_eq_true (Int.lt_of_lt_of_le exceeds ?_)
          unfold Pending.Entry.ageAt
          omega
        | none =>
          have broke : client.step environment .pruneStale
              = ⟨client, timed, [.readClock none], .failed .clockOutOfRange⟩ := by
            show client.pruneStale environment = _
            unfold pruneStale
            rw [isSet]
            dsimp only
            rw [read]
          exact ⟨_, performs_of_step broke rfl, .inl ⟨rfl, rfl, rfl⟩⟩
  | _ => cases isPrune

theorem exists_drops (isPrune : phase.isPrune = true) (live : client.disposed = false) :
    ∃ ending, client.Performs environment phase ending
      ∧ (ending.next = .failed .clockOutOfRange ∧ (environment.readClock client.clock).1 = none
        ∨ ∃ stale, client.Drops environment stale ending) := by
  obtain ⟨ending, performs, ends⟩ := exists_drops_goesByAge isPrune live
  refine ⟨ending, performs, ends.imp ?_ ?_⟩
  · rintro ⟨failed, unread, -⟩
    exact ⟨failed, unread⟩
  · rintro ⟨stale, drops, -⟩
    exact ⟨stale, drops⟩

end Client

end Correlator
