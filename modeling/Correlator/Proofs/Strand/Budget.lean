import Mathlib.Algebra.Order.Floor.Div
import Correlator.Proofs.Session.Start
import Correlator.Proofs.Strand.Waiting

/-!
Contract: the time that a limited wait takes.

Owns: how long each nap of such a wait is, how many naps there are and how much time they come to, and that
the wait ends.

Does not own: with which answer it ends (`Correlator.Proofs.Strand.Interruption`).
-/

set_option autoImplicit false

namespace Correlator

variable {κ : Type}

/-- The steps of a limited wait, as far as they concern the time. -/
inductive Tempo (environment : Environment) (clock : ClockChoice) (interval timeout : Span) :
    Phase κ → Step κ → Prop where
  /-- The step neither reads the clock nor sleeps, unless the clock is out of range. -/
  | quiet {phase : Phase κ} {step : Step κ} (idle : step.effects.filterMap Effect.nap? = [])
      (onward : ∀ later, step.next = .goesOn later → later.vigil? = phase.vigil?
        ∧ ∀ vigil nap, later ≠ .waitSleep vigil nap) :
      Tempo environment clock interval timeout phase step
  | begins {actor : Client κ} {token : Option Token} {timed : Environment} {started : Moment}
      (read : environment.readClock clock = (some started, timed)) :
      Tempo environment clock interval timeout (.waitBegin (some timeout) token)
        ⟨actor, timed, [.readClock (some started)],
          .goesOn (.waitShutdown ⟨some timeout, token, started⟩)⟩
  | expires {actor : Client κ} {vigil : Vigil} {timed : Environment} {now : Moment}
      (read : environment.readClock clock = (some now, timed))
      (spent : timeout.toNanos ≤ (now.since vigil.started).toNanos) :
      Tempo environment clock interval timeout (.waitBudget vigil timeout)
        ⟨actor, timed, [.readClock (some now)], .returned (.ok (.outcome .timedOut))⟩
  | grants {actor : Client κ} {vigil : Vigil} {nap : Span} {timed : Environment} {now : Moment}
      (read : environment.readClock clock = (some now, timed))
      (left : (now.since vigil.started).toNanos < timeout.toNanos)
      (nap_eq : nap.toNanos
        = min (timeout.toNanos - (now.since vigil.started).toNanos) interval.toNanos) :
      Tempo environment clock interval timeout (.waitBudget vigil timeout)
        ⟨actor, timed, [.readClock (some now)], .goesOn (.waitSleep vigil nap)⟩
  | sleeps {actor : Client κ} {vigil : Vigil} {nap : Span} :
      Tempo environment clock interval timeout (.waitSleep vigil nap)
        ⟨actor, environment.sleep nap clock, [.slept clock nap], .goesOn (.waitReport vigil nap)⟩

theorem Client.Await.tempo {client : Client κ} {environment : Environment} {phase : Phase κ}
    {step : Step κ} (await : client.Await environment phase step) {timeout : Span}
    {token : Option Token} (awaits : phase.Awaits (some timeout) token) :
    Tempo environment client.clock client.options.pollInterval timeout phase step := by
  cases await with
  | begun read =>
    obtain ⟨rfl, rfl⟩ := awaits
    exact .begins read
  | expired read spent =>
    obtain ⟨-, -, same⟩ := awaits
    cases same
    exact .expires read spent
  | granted read left nap_eq =>
    obtain ⟨-, -, same⟩ := awaits
    cases same
    exact .grants read left nap_eq
  | slept => exact .sleeps
  | unlimited hosted untimed =>
    rw [awaits.1] at untimed
    cases untimed
  | _ =>
    refine .quiet rfl fun later goesOn => ?_
    cases goesOn <;> simp [Phase.vigil?]

/-- The client slept in a turn. -/
def Turn.Sleeps (turn : Turn κ) : Prop := ∃ clock nap, .slept clock nap ∈ turn.effects

/-- A nap of a wait, in a turn that comes behind a reading of the clock: it is positive, no longer than the poll
interval, and fits into what is left of the time at this reading. -/
def Turn.Rests (client : Client κ) (timeout : Span) (started : Moment) (previous turn : Turn κ) :
    Prop :=
  ∃ now nap, previous.effects = [.readClock (some now)] ∧ turn.effects = [.slept client.clock nap]
    ∧ 0 < nap.toNanos ∧ nap.toNanos ≤ client.options.pollInterval.toNanos
    ∧ nap.toNanos + (now.since started).toNanos ≤ timeout.toNanos

namespace Strand

/-- How much time a wait has slept. -/
def slept (strand : Strand κ) : Nat := (strand.naps.map Span.toNanos).sum

section Limited

variable (client : Client κ) (timeout : Span) (strand : Strand κ)

/-- The clock of a wait under way has moved on by all of its naps, and by as many poll intervals as it took naps
unless the time is up. -/
structure Spends (started : Moment) : Prop where
  slept : started.toNanos + strand.slept ≤ strand.elapsed client
    ∨ Moment.range ≤ strand.elapsed client
  lapped : started.toNanos
        + min (strand.naps.length * client.options.pollInterval.toNanos) timeout.toNanos
      ≤ strand.elapsed client
    ∨ Moment.range ≤ strand.elapsed client

/-- A wait is about to take a nap. -/
structure Due (started : Moment) (nap : Span) : Prop where
  asked : ∃ front previous now, strand.turns = front ++ [previous]
    ∧ previous.effects = [.readClock (some now)]
    ∧ nap.toNanos + (now.since started).toNanos ≤ timeout.toNanos
  positive : 0 < nap.toNanos
  short : nap.toNanos ≤ client.options.pollInterval.toNanos
  /-- The time is not up, by the naps taken so far. -/
  left : strand.naps.length * client.options.pollInterval.toNanos < timeout.toNanos
  fits : strand.slept + nap.toNanos ≤ timeout.toNanos
  /-- A nap that is shorter than the poll interval is the last one. -/
  last : nap.toNanos = client.options.pollInterval.toNanos
    ∨ started.toNanos + timeout.toNanos ≤ strand.elapsed client + nap.toNanos

structure Budgeted : Prop where
  count : strand.naps.length ≤ timeout.toNanos ⌈/⌉ client.options.pollInterval.toNanos
  total : strand.slept ≤ timeout.toNanos
  fresh : ∀ phase, strand.next = .goesOn phase → phase.vigil? = none → strand.naps = []
  spends : ∀ phase vigil, strand.next = .goesOn phase → phase.vigil? = some vigil →
    strand.Spends client timeout vigil.started
  due : ∀ vigil nap, strand.next = .goesOn (.waitSleep vigil nap) →
    strand.Due client timeout vigil.started nap

variable {client timeout strand} {later : Strand κ} {started : Moment} {nap : Span}

theorem Spends.carry (spends : strand.Spends client timeout started) (naps_eq : later.naps = strand.naps)
    (passed : strand.elapsed client ≤ later.elapsed client) : later.Spends client timeout started := by
  obtain ⟨slept, lapped⟩ := spends
  unfold Strand.slept at slept
  refine ⟨?_, ?_⟩
  · unfold Strand.slept
    rw [naps_eq]
    omega
  · rw [naps_eq]
    omega

/-- What happens around a wait changes nothing but that time may pass. -/
theorem Budgeted.stir {world : World κ} (budgeted : strand.Budgeted client timeout)
    (retains : strand.world.Retains world) :
    Budgeted client timeout { strand with world } := by
  have passed : strand.elapsed client ≤ Strand.elapsed { strand with world } client :=
    retains.clocks client.clock
  exact {
    count := budgeted.count
    total := budgeted.total
    fresh := budgeted.fresh
    spends := fun phase vigil goesOn known =>
      (budgeted.spends phase vigil goesOn known).carry rfl passed
    due := fun vigil nap goesOn =>
      have due := budgeted.due vigil nap goesOn
      { due with last := due.last.imp_right fun up => up.trans (by omega) } }

section Step

variable {actor other : Client κ} {phase : Phase κ} {step : Step κ}

private theorem Budgeted.quiet (budgeted : strand.Budgeted client timeout)
    (goesOn : strand.next = .goesOn phase) (idle : step.effects.filterMap Effect.nap? = [])
    (onward : ∀ later, step.next = .goesOn later → later.vigil? = phase.vigil?
      ∧ ∀ vigil nap, later ≠ .waitSleep vigil nap)
    (passed : strand.elapsed client ≤ (strand.after actor phase step).elapsed client) :
    (strand.after actor phase step).Budgeted client timeout := by
  have naps_eq : (strand.after actor phase step).naps = strand.naps := by
    rw [naps_after, idle, List.append_nil]
  constructor
  case count => rw [naps_eq]; exact budgeted.count
  case total =>
    unfold slept
    rw [naps_eq]
    exact budgeted.total
  case fresh =>
    intro later goesOnNow none
    rw [naps_eq]
    exact budgeted.fresh phase goesOn ((onward later goesOnNow).1.symm.trans none)
  case spends =>
    intro later vigil goesOnNow known
    exact (budgeted.spends phase vigil goesOn ((onward later goesOnNow).1.symm.trans known)).carry
      naps_eq passed
  case due =>
    intro vigil nap goesOnNow
    exact absurd rfl ((onward _ goesOnNow).2 vigil nap)

private theorem Budgeted.begins (budgeted : strand.Budgeted client timeout) {token : Option Token}
    {timed : Environment} (goesOn : strand.next = .goesOn (.waitBegin (some timeout) token))
    (read : strand.world.environment.readClock client.clock = (some started, timed)) :
    (strand.after actor (.waitBegin (some timeout) token)
      ⟨other, timed, [.readClock (some started)],
        .goesOn (.waitShutdown ⟨some timeout, token, started⟩)⟩).Budgeted client timeout := by
  have shown := Environment.toNanos_of_readClock read
  generalize ran : strand.after actor (.waitBegin (some timeout) token) _ = later
  have naps_eq : later.naps = [] := by
    rw [← ran, naps_after, budgeted.fresh _ goesOn rfl]
    rfl
  have elapsed_eq : later.elapsed client = (timed.elapsed client.clock).toNanos := by
    rw [← ran]
    rfl
  constructor
  case count => simp [naps_eq]
  case total => simp [slept, naps_eq]
  case fresh => exact fun _ _ _ => naps_eq
  case spends =>
    intro phase vigil goesOnNow known
    subst ran
    cases goesOnNow
    cases known
    refine ⟨.inl ?_, .inl ?_⟩
    · simp only [slept, naps_eq, List.map_nil, List.sum_nil]
      omega
    · simp only [naps_eq, List.length_nil, Nat.zero_mul, Nat.zero_min]
      omega
  case due =>
    intro vigil nap goesOnNow
    subst ran
    cases goesOnNow

/-- By how much time the clock of a wait under way has moved on by a reading. -/
private theorem Spends.read (spends : strand.Spends client timeout started) {timed : Environment}
    {now : Moment} (clocks : strand.world.environment.Precedes timed)
    (read : strand.world.environment.readClock client.clock = (some now, timed)) :
    now.toNanos = started.toNanos + (now.since started).toNanos
      ∧ strand.slept ≤ (now.since started).toNanos
      ∧ min (strand.naps.length * client.options.pollInterval.toNanos) timeout.toNanos
        ≤ (now.since started).toNanos := by
  have shown := Environment.toNanos_of_readClock read
  have inRange := Environment.lt_range_of_readClock read
  have passed : strand.elapsed client ≤ (timed.elapsed client.clock).toNanos := clocks client.clock
  obtain ⟨slept, lapped⟩ := spends
  have since := Moment.toNanos_since (show started.toNanos ≤ now.toNanos by omega)
  omega

private theorem Budgeted.reads (budgeted : strand.Budgeted client timeout) {vigil : Vigil}
    (goesOn : strand.next = .goesOn (.waitBudget vigil timeout)) {timed : Environment} {now : Moment}
    (clocks : strand.world.environment.Precedes timed) {next : Next κ}
    (onward : ∀ later, next = .goesOn later → ∃ nap, later = .waitSleep vigil nap
      ∧ (strand.after actor (.waitBudget vigil timeout)
        ⟨other, timed, [.readClock (some now)], next⟩).Due client timeout vigil.started nap) :
    (strand.after actor (.waitBudget vigil timeout)
      ⟨other, timed, [.readClock (some now)], next⟩).Budgeted client timeout := by
  have spends := budgeted.spends _ vigil goesOn rfl
  have passed : strand.elapsed client ≤ (timed.elapsed client.clock).toNanos := clocks client.clock
  generalize ran : strand.after actor (.waitBudget vigil timeout) _ = later at onward
  have naps_eq : later.naps = strand.naps := by
    rw [← ran, naps_after]
    exact List.append_nil _
  have next_eq : later.next = next := by
    rw [← ran]
    rfl
  constructor
  case count => rw [naps_eq]; exact budgeted.count
  case total =>
    unfold slept
    rw [naps_eq]
    exact budgeted.total
  case fresh =>
    intro phase goesOnNow none
    obtain ⟨nap, rfl, -⟩ := onward phase (next_eq.symm.trans goesOnNow)
    cases none
  case spends =>
    intro phase known goesOnNow same
    obtain ⟨nap, rfl, -⟩ := onward phase (next_eq.symm.trans goesOnNow)
    cases same
    refine spends.carry naps_eq ?_
    rw [← ran]
    exact passed
  case due =>
    intro known nap goesOnNow
    obtain ⟨granted, same, due⟩ := onward _ (next_eq.symm.trans goesOnNow)
    cases same
    exact due

private theorem Budgeted.grants (budgeted : strand.Budgeted client timeout)
    (interval : 0 < client.options.pollInterval.toNanos) {vigil : Vigil}
    (goesOn : strand.next = .goesOn (.waitBudget vigil timeout)) {timed : Environment} {now : Moment}
    (clocks : strand.world.environment.Precedes timed)
    (read : strand.world.environment.readClock client.clock = (some now, timed))
    (left : (now.since vigil.started).toNanos < timeout.toNanos)
    (nap_eq : nap.toNanos = min (timeout.toNanos - (now.since vigil.started).toNanos)
      client.options.pollInterval.toNanos) :
    (strand.after actor (.waitBudget vigil timeout)
      ⟨other, timed, [.readClock (some now)], .goesOn (.waitSleep vigil nap)⟩).Budgeted
        client timeout := by
  obtain ⟨now_eq, slept, lapped⟩ := (budgeted.spends _ vigil goesOn rfl).read clocks read
  have shown := Environment.toNanos_of_readClock read
  refine budgeted.reads goesOn clocks ?_
  rintro later ⟨⟩
  refine ⟨nap, rfl, ?_⟩
  generalize ran : strand.after actor (.waitBudget vigil timeout) _ = later
  have naps_eq : later.naps = strand.naps := by
    rw [← ran, naps_after]
    exact List.append_nil _
  have elapsed_eq : later.elapsed client = (timed.elapsed client.clock).toNanos := by
    rw [← ran]
    rfl
  have slept_eq : later.slept = strand.slept := congrArg (fun naps => (naps.map Span.toNanos).sum) naps_eq
  constructor
  case asked =>
    rw [← ran]
    exact ⟨strand.turns, _, now, rfl, rfl, by omega⟩
  case positive => omega
  case short => omega
  case left =>
    rw [naps_eq]
    omega
  case fits => omega
  case last => omega

section Clock

variable {start : Int} {before after laps interval limit span range : Nat}

/-- A nap moves a clock on by its length. -/
private theorem slept_le {slept : Nat} (sofar : start + slept ≤ before ∨ range ≤ before)
    (moved : before + span ≤ after ∨ range ≤ after) :
    start + (slept + span : Nat) ≤ after ∨ range ≤ after := by
  omega

/-- A nap moves a clock on by another poll interval, or to where the time is up. -/
private theorem lapped_le (sofar : start + min laps limit ≤ before ∨ range ≤ before)
    (left : laps < limit) (last : span = interval ∨ start + limit ≤ (before + span : Nat))
    (moved : before + span ≤ after ∨ range ≤ after) :
    start + min (laps + interval) limit ≤ after ∨ range ≤ after := by
  omega

end Clock

private theorem Budgeted.sleeps (budgeted : strand.Budgeted client timeout)
    (interval : 0 < client.options.pollInterval.toNanos) {vigil : Vigil}
    (goesOn : strand.next = .goesOn (.waitSleep vigil nap)) :
    (strand.after actor (.waitSleep vigil nap)
      ⟨other, strand.world.environment.sleep nap client.clock, [.slept client.clock nap],
        .goesOn (.waitReport vigil nap)⟩).Budgeted client timeout := by
  have spends := budgeted.spends _ vigil goesOn rfl
  have due := budgeted.due vigil nap goesOn
  have moved := strand.world.environment.le_elapsed_sleep nap client.clock
  generalize ran : strand.after actor (.waitSleep vigil nap) _ = later
  have naps_eq : later.naps = strand.naps ++ [nap] := by
    rw [← ran, naps_after]
    rfl
  have slept_eq : later.slept = strand.slept + nap.toNanos := by
    unfold slept
    rw [naps_eq, List.map_append, List.sum_append]
    simp
  have moved : strand.elapsed client + nap.toNanos ≤ later.elapsed client
      ∨ Moment.range ≤ later.elapsed client := ran ▸ moved
  have next_eq : later.next = .goesOn (.waitReport vigil nap) := by
    rw [← ran]
    rfl
  constructor
  case count =>
    rw [naps_eq, List.length_append, List.length_singleton, Nat.succ_le_iff, ← Nat.not_le,
      ceilDiv_le_iff_le_mul interval, Nat.mul_comm]
    exact Nat.not_le.mpr due.left
  case total => exact slept_eq.le.trans due.fits
  case fresh =>
    intro phase goesOnNow none
    cases next_eq.symm.trans goesOnNow
    cases none
  case spends =>
    intro phase known goesOnNow same
    cases next_eq.symm.trans goesOnNow
    cases same
    refine ⟨?_, ?_⟩
    · rw [slept_eq]
      exact slept_le spends.slept moved
    · rw [naps_eq, List.length_append, List.length_singleton, Nat.succ_mul]
      exact lapped_le spends.lapped due.left due.last moved
  case due =>
    intro vigil nap goesOnNow
    cases next_eq.symm.trans goesOnNow

end Step

end Limited

variable {world : World κ} {index : ClientId} {client actor : Client κ} {timeout : Span}
  {token : Option Token} {strand : Strand κ}

/-- At every step of a limited wait, it has kept to its budget. -/
theorem Leads.budgeted (found : world.clients[index]? = some actor) (endures : client.Endures actor)
    (interval : 0 < client.options.pollInterval.toNanos) (lasting : timeout.isZero = false)
    (leads : (opening world index (.wait (some timeout) token)).Leads strand) :
    strand.Budgeted client timeout := by
  refine leads.wait_induction (motive := fun strand => strand.Budgeted client timeout)
    (show (some timeout).any (·.isZero) = false from lasting) found ?initial ?step ?stir
  case initial =>
    exact ⟨Nat.zero_le _, Nat.zero_le _, fun _ _ _ => rfl, by rintro phase vigil ⟨⟩ ⟨⟩,
      by rintro vigil nap ⟨⟩⟩
  case step =>
    intro strand known phase step _ proceeds budgeted
    obtain ⟨goesOn, awaits, -, enduresOn, retains, await⟩ := proceeds
    have clocks : strand.world.environment.Precedes step.environment := retains.clocks
    have tempo := await.tempo awaits
    rw [(endures.trans enduresOn).clock_eq, (endures.trans enduresOn).options_eq] at tempo
    cases tempo with
    | quiet idle onward => exact budgeted.quiet goesOn idle onward (clocks client.clock)
    | begins read => exact budgeted.begins goesOn read
    | expires read spent => exact budgeted.reads goesOn clocks (by rintro later ⟨⟩)
    | grants read left nap_eq => exact budgeted.grants interval goesOn clocks read left nap_eq
    | sleeps => exact budgeted.sleeps interval goesOn
  case stir => exact fun strand after retains budgeted => budgeted.stir retains

/-- Each nap of a limited wait follows on a reading of the clock, and fits into what is left by then. -/
theorem Leads.rests (found : world.clients[index]? = some actor) (endures : client.Endures actor)
    (interval : 0 < client.options.pollInterval.toNanos) (lasting : timeout.isZero = false)
    (leads : (opening world index (.wait (some timeout) token)).Leads strand) :
    Turn.Preceded strand.turns Turn.Sleeps fun previous turn =>
      ∃ started, strand.readings.head? = some started
        ∧ Turn.Rests client timeout started previous turn := by
  have limited : (some timeout).any (·.isZero) = false := lasting
  refine leads.wait_induction limited found (motive := fun strand =>
    Turn.Preceded strand.turns Turn.Sleeps fun previous turn =>
      ∃ started, strand.readings.head? = some started
        ∧ Turn.Rests client timeout started previous turn) ?initial ?step ?stir
  case initial => exact Turn.preceded_nil _ _
  case step =>
    intro strand known phase step leads proceeds inductionHypothesis
    obtain ⟨goesOn, awaits, -, enduresOn, -, await⟩ := proceeds
    have head := leads.readings_head? limited found phase goesOn
    have budgeted := leads.budgeted found endures interval lasting
    have tempo := await.tempo awaits
    rw [(endures.trans enduresOn).clock_eq, (endures.trans enduresOn).options_eq] at tempo
    refine (inductionHypothesis.imp fun previous turn rests => ?_).concat fun sleeps => ?_
    · obtain ⟨started, first, rests⟩ := rests
      exact ⟨started, by rw [readings_after, List.head?_append, first]; rfl, rests⟩
    · obtain ⟨clock, nap, member⟩ := sleeps
      cases tempo with
      | quiet idle =>
        have none := List.filterMap_eq_nil_iff.mp idle _ member
        cases none
      | begins | expires | grants => simp at member
      | @sleeps other vigil nap =>
        obtain ⟨asked, positive, short, -, -, -⟩ := budgeted.due vigil nap goesOn
        obtain ⟨front, previous, now, turns_eq, reads, fits⟩ := asked
        refine ⟨front, previous, turns_eq, vigil.started, ?_, now, nap, reads, rfl, positive, short, fits⟩
        rw [readings_after, List.head?_append, head]
        rfl
  case stir => exact fun _ _ _ => id

/-- What holds at every point of a limited wait: its naps are few, and none is too long; they come to no
more than the limit; and the wait ends after a number of steps that is known beforehand, if it is not stuck
before on a clock that is out of range. -/
structure WithinBudget (client : Client κ) (timeout : Span) (strand : Strand κ) : Prop where
  naps : strand.naps.length ≤ timeout.toNanos ⌈/⌉ client.options.pollInterval.toNanos
  slept : strand.slept ≤ timeout.toNanos
  /-- Each nap follows on a reading of the clock, and is no longer than what is left by then, counted from
  the first reading on. -/
  rested : Turn.Preceded strand.turns Turn.Sleeps fun previous turn =>
    ∃ started, strand.readings.head? = some started ∧ Turn.Rests client timeout started previous turn
  turns : strand.turns.length ≤ 11 + 9 * (timeout.toNanos ⌈/⌉ client.options.pollInterval.toNanos)
  onward : strand.isOver = false → ∃ later, strand.advance? = some later
  ending : strand.isOver = true → (∃ result, strand.next = .returned result)
    ∨ (strand.next = .failed .clockOutOfRange ∧ .readClock none ∈ strand.effects)
  /-- The wait ends if nothing happens around it any more. -/
  ends : ∃ steps final, strand.run? steps = some final ∧ final.isOver = true

/-- A limited wait of a client that was built keeps to its budget, whatever happens around it. -/
theorem bounded_wait {builder : Builder} (built : builder.build = .ok client) {origin : World κ}
    (member : origin.clients[index]? = some client) (becomes : origin.Becomes world)
    (lasting : timeout.isZero = false)
    (leads : (opening world index (.wait (some timeout) token)).Leads strand) :
    strand.WithinBudget client timeout := by
  obtain ⟨actor, found, endures⟩ := becomes.retains.clients index client member
  have interval := Session.pollInterval_pos_of_build built
  have limited : (some timeout).any (·.isZero) = false := lasting
  have turns : ∀ strand, (opening world index (.wait (some timeout) token)).Leads strand →
      strand.turns.length
        ≤ 11 + 9 * (timeout.toNanos ⌈/⌉ client.options.pollInterval.toNanos) := by
    intro strand leads
    have count := (leads.budgeted found endures interval lasting).count
    have length := leads.length_turns_le limited found
    omega
  have budgeted := leads.budgeted found endures interval lasting
  constructor
  case naps => exact budgeted.count
  case slept => exact budgeted.total
  case rested => exact leads.rests found endures interval lasting
  case turns => exact turns strand leads
  case onward => exact leads.onward found
  case ending => exact leads.ending limited found
  case ends => exact leads.exists_run? found turns

/-- A wait of 25 ms takes two full naps, and one for what is then left. -/
theorem bounded_wait_solo :
    ∃ strand, (opening Session.solo.world 0 (.wait (some (.ofMillis 25)) none)).run? 33 = some strand
      ∧ strand.naps = [.ofMillis 10, .ofMillis 10, .ofMillis 5]
      ∧ strand.next = .returned (.ok (.outcome .timedOut))
      ∧ ∃ client, Session.solo.world.clients[0]? = some client
        ∧ strand.WithinBudget client (.ofMillis 25) := by
  have run : ((opening Session.solo.world 0 (.wait (some (.ofMillis 25)) none)).run? 33).map
      (fun strand => (strand.naps, strand.next))
      = some ([.ofMillis 10, .ofMillis 10, .ofMillis 5], .returned (.ok (.outcome .timedOut))) := rfl
  obtain ⟨strand, ran, shown⟩ := Option.map_eq_some_iff.mp run
  obtain ⟨naps, next⟩ := Prod.mk.inj shown
  obtain ⟨client, built, found⟩ : ∃ client, Builder.build
      { service := { name := "echo" }, transport := some 0, registry := some 0, host := some 0,
        shutdown := some TokenShelf.empty.fresh.1, clock := .virtual 0 } = .ok client
      ∧ Session.solo.world.clients[0]? = some client := ⟨_, rfl, rfl⟩
  exact ⟨strand, ran, naps, next, client, found, bounded_wait built found .refl rfl (.of_run? ran)⟩

end Strand

end Correlator
