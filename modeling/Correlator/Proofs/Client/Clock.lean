import Correlator.Proofs.Client.Exit
import Correlator.Proofs.Time.Span

/-!
Contract: what the steps of clients do to the clocks, and what clocks do to the steps.

Owns: that no step puts a clock back, which time a new entry is stamped with, and how old an entry is
that a prune drops.

Does not own: clocks along courses (`Correlator.Proofs.Course.Clock`).
-/

set_option autoImplicit false

namespace Correlator

variable {κ : Type}

namespace Environment

/-- The time that has elapsed on a clock. -/
def elapsed (environment : Environment) : ClockChoice → Span
  | .virtual index => (environment.clock index).elapsed
  | .running => environment.realTime.elapsed

/-- No clock is put back. -/
def Precedes (before after : Environment) : Prop :=
  ∀ clock, (before.elapsed clock).toNanos ≤ (after.elapsed clock).toNanos

variable {before middle after environment timed : Environment}

theorem Precedes.refl (environment : Environment) : environment.Precedes environment :=
  fun _ => Nat.le_refl _

theorem Precedes.trans (first : before.Precedes middle) (second : middle.Precedes after) :
    before.Precedes after :=
  fun clock => Nat.le_trans (first clock) (second clock)

theorem Precedes.of_eq (clocks_eq : after.clocks = before.clocks)
    (realTime_eq : after.realTime = before.realTime) : before.Precedes after := by
  intro clock
  cases clock with
  | virtual index =>
    exact Nat.le_of_eq (congrArg (fun clocks => (clocks.get index).elapsed.toNanos) clocks_eq.symm)
  | running => exact Nat.le_of_eq (congrArg (·.elapsed.toNanos) realTime_eq.symm)

theorem precedes_setClock (environment : Environment) (index : ClockId) {clock : VirtualClock}
    (later : (environment.clock index).elapsed.toNanos ≤ clock.elapsed.toNanos) :
    environment.Precedes (environment.setClock index clock) := by
  intro other
  cases other with
  | virtual other =>
    show (environment.clock other).elapsed.toNanos
      ≤ ((environment.setClock index clock).clock other).elapsed.toNanos
    rw [clock_setClock]
    split
    next same => exact same ▸ later
    next => exact Nat.le_refl _
  | running => exact Nat.le_refl _

/-- A sleep on a virtual clock moves this clock. -/
theorem clock_sleep (environment : Environment) (nap : Span) (index : ClockId) :
    (environment.sleep nap (.virtual index)).clock index = (environment.clock index).sleep nap :=
  (clock_setClock _ _ _ _).trans (if_pos rfl)

theorem precedes_sleep (environment : Environment) (nap : Span) (clock : ClockChoice) :
    environment.Precedes (environment.sleep nap clock) := by
  cases clock with
  | virtual index => exact environment.precedes_setClock index (Span.toNanos_le_add _ _)
  | running =>
    intro other
    cases other with
    | virtual => exact Nat.le_refl _
    | running => exact Span.toNanos_le_add _ _

theorem precedes_of_readClock {clock : ClockChoice} {now : Option Moment}
    (read : environment.readClock clock = (now, timed)) : environment.Precedes timed := by
  have timed_eq : (environment.readClock clock).2 = timed := congrArg Prod.snd read
  rw [← timed_eq]
  intro other
  cases clock with
  | virtual => exact Nat.le_refl _
  | running =>
    cases other with
    | virtual => exact Nat.le_refl _
    | running => exact Span.toNanos_le_add _ _

/-- A clock shows the time that has elapsed on it. -/
theorem toNanos_of_readClock {clock : ClockChoice} {now : Moment}
    (read : environment.readClock clock = (some now, timed)) :
    now.toNanos = (timed.elapsed clock).toNanos := by
  have origin : Moment.origin.toNanos = 0 := by decide
  have since_origin : ∀ span, Moment.origin.after? span = some now → now.toNanos = span.toNanos := by
    intro span shown
    rw [Moment.toNanos_of_after? shown, origin, Int.zero_add]
  cases clock with
  | virtual =>
    obtain ⟨shown, rfl⟩ := Prod.mk.inj read
    exact since_origin _ shown
  | running =>
    simp only [readClock, RunningClock.read, Prod.mk.injEq] at read
    obtain ⟨shown, rfl⟩ := read
    exact since_origin _ shown

@[simp] theorem elapsed_with_cells (environment : Environment) (cells : Cells)
    (clock : ClockChoice) :
    Environment.elapsed { environment with cells } clock = environment.elapsed clock := by
  cases clock <;> rfl

end Environment

namespace Client

variable (client : Client κ) (environment : Environment)

private theorem precedes_of_isAside {phase : Phase κ} (isAside : phase.isAside = true) :
    environment.Precedes (client.step environment phase).environment := by
  have sidestep := client.sidestep_step environment isAside
  generalize client.step environment phase = step at sidestep ⊢
  cases sidestep with
  | gone | entered | looked => exact .refl environment
  | timed read calm => exact Environment.precedes_of_readClock read
  | @slept phase nap next calm => exact environment.precedes_sleep nap client.clock
  | queried | signedOff | unhosted | released => exact .of_eq rfl rfl

/-- No step puts a clock back. -/
theorem precedes_step (phase : Phase κ) :
    environment.Precedes (client.step environment phase).environment := by
  by_cases isAside : phase.isAside = true
  · exact client.precedes_of_isAside environment isAside
  have exit := client.exit_step environment phase
  generalize client.step environment phase = step at exit ⊢
  cases exit with
  | @untimed request callback sequence transport timed live room sent read
  | @doubled request callback sequence transport timed now live room sent read =>
    have sending : environment.Precedes (environment.setTransport client.transport transport) :=
      .of_eq rfl rfl
    exact sending.trans (Environment.precedes_of_readClock read)
  | @stored request callback sequence transport timed now table live room sent read =>
    have sending : environment.Precedes (environment.setTransport client.transport transport) :=
      .of_eq rfl rfl
    exact (sending.trans (Environment.precedes_of_readClock read)).trans (.of_eq rfl rfl)
  | aside aside => exact absurd aside isAside
  | _ => exact .of_eq rfl rfl

variable {client : Client κ} {environment : Environment} {phase : Phase κ} {step : Step κ}

/-- No step gives a client another clock. -/
theorem Exit.clock_eq (exit : client.Exit environment phase step) :
    step.client.clock = client.clock := by
  cases exit with
  | aside isAside client_eq cells_eq effects next => rw [client_eq]
  | _ => rfl

/-- An entry that is new is stamped with the time on the client's clock. -/
theorem Exit.stamped (exit : client.Exit environment phase step)
    {row : Sequence × Pending.Entry κ} (member : row ∈ step.client.table.rows) :
    row ∈ client.table.rows
      ∨ row.2.submittedAt.toNanos = (step.environment.elapsed client.clock).toNanos := by
  cases exit with
  | stored live room sent read inserted =>
    rcases (Pending.Table.mem_insert? inserted row).mp member with rfl | old
    · right
      rw [Environment.elapsed_with_cells]
      exact Environment.toNanos_of_readClock read
    · exact Or.inl old
  | lost | matched | cancelled | pruned => exact Or.inl (List.mem_filter.mp member).1
  | aside isAside client_eq cells_eq effects next =>
    rw [client_eq] at member
    exact Or.inl member
  | _ => exact Or.inl member

/-- A cutoff that a prune of stale entries found lies no later than the time on the client's clock. -/
theorem cutoff_le_elapsed {cutoff : Moment}
    (found : (client.step environment .pruneStale).next = .goesOn (.pruneOlder cutoff)) :
    cutoff.toNanos
      ≤ ((client.step environment .pruneStale).environment.elapsed client.clock).toNanos := by
  change (client.pruneStale environment).next = _ at found
  change _ ≤ (((client.pruneStale environment).environment.elapsed client.clock).toNanos : Int)
  unfold pruneStale at found ⊢
  cases isSet : client.options.staleAfter with
  | none =>
    rw [isSet] at found
    dsimp only at found
    unfold pruneNothing whileLive at found
    split at found <;> cases found
  | some threshold =>
    rw [isSet] at found
    dsimp only at found ⊢
    cases read : environment.readClock client.clock with
    | mk reading timed =>
      rw [read] at found
      cases reading with
      | none => cases found
      | some now =>
        have shown := Environment.toNanos_of_readClock read
        dsimp only at found ⊢
        split at found
        next earlier before =>
          cases found
          have shift := Moment.toNanos_of_before? before
          omega
        next => cases found

/-- What a prune with a cutoff drops is older than the cutoff. -/
theorem Exit.stale_of_pruned {cutoff : Moment}
    (exit : client.Exit environment (.pruneOlder cutoff) step) {future : Future}
    (dropped : Effect.removed future .pruned ∈ step.effects) :
    ∃ row ∈ client.table.rows, row.2.future = future ∧ row.2.submittedAt < cutoff := by
  cases exit with
  | gone disposed begins => simp at dropped
  | pruned live prunes =>
    cases prunes
    simp only [List.mem_cons, List.mem_append, List.mem_map, mem_pruneReport, reduceCtorEq,
      List.not_mem_nil, or_self, and_false, or_false, false_or, Effect.removed.injEq, and_true]
      at dropped
    obtain ⟨row, member, own⟩ := dropped
    obtain ⟨inside, stale⟩ := List.mem_filter.mp member
    exact ⟨row, inside, own, of_decide_eq_true stale⟩
  | aside isAside client_eq cells_eq effects next => cases isAside

end Client

end Correlator
