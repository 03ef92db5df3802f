import Correlator.Proofs.Strand.Budget
import Correlator.Proofs.Strand.Interruption
import Correlator.Proofs.Strand.Undisturbed

/-!
Contract: what becomes of a wait that nothing disturbs.

Owns: how it ends, after how many naps and questions, and how far it moves the clock, for every sequence of
answers.

Does not own: waits that are disturbed (`Correlator.Proofs.Strand.Budget`,
`Correlator.Proofs.Strand.Interruption`).
-/

set_option autoImplicit false

namespace Correlator

variable {κ : Type}

/-- How much time so many naps come to, if nothing disturbs them. -/
def Client.pace (client : Client κ) (timeout : Option Span) (naps : Nat) : Nat :=
  match timeout with
  | none => naps * client.options.pollInterval.toNanos
  | some limit => min (naps * client.options.pollInterval.toNanos) limit.toNanos

/-- Where a wait stands after so many naps and answers, if nothing disturbs it: its first reading is that of
the clock at the beginning, there is an answer for each nap, and a nap that it is about to take is as long
as planned. -/
structure Phase.Poised (client : Client κ) (timeout : Option Span) (origin naps answers : Nat)
    (phase : Phase κ) : Prop where
  fresh : phase.vigil? = none → naps = 0
  began : ∀ vigil, phase.vigil? = some vigil → vigil.started.toNanos = origin
  asked : answers + (if 7 ≤ phase.place then 1 else 0) = naps
  due : ∀ vigil nap, phase = .waitSleep vigil nap →
    client.pace timeout naps + nap.toNanos = client.pace timeout (naps + 1)

/-- How a wait can go on or end after so many naps and answers, if nothing disturbs it. -/
def Next.Poised (client : Client κ) (timeout : Option Span) (origin naps answers : Nat) :
    Next κ → Prop
  | .goesOn phase => phase.Poised client timeout origin naps answers
  | .returned result => answers = naps ∧ (result = .ok (.outcome .available)
    ∨ result = .ok (.outcome .timedOut) ∧ ∃ limit, timeout = some limit
      ∧ limit.toNanos ≤ naps * client.options.pollInterval.toNanos)
  | .failed _ => answers = naps ∧ Moment.range ≤ origin + client.pace timeout naps
  | .callsBack _ _ => False

theorem Next.Poised.naps_le {client : Client κ} {timeout : Option Span} {origin naps answers : Nat}
    {next : Next κ} (poised : next.Poised client timeout origin naps answers) :
    naps ≤ answers + 1 := by
  cases next with
  | goesOn phase =>
    have asked := poised.asked
    split at asked <;> omega
  | callsBack => exact poised.elim
  | returned | failed => exact poised.1 ▸ Nat.le_succ answers

namespace Client

variable {client : Client κ} {environment : Environment} {phase : Phase κ} {step : Step κ}
  {timeout : Option Span} {token : Option Token} {origin naps answers : Nat}

theorem pace_zero : client.pace timeout 0 = 0 := by
  cases timeout <;> simp [pace]

theorem pace_none : client.pace none naps = naps * client.options.pollInterval.toNanos := rfl

theorem pace_some {limit : Span} : client.pace (some limit) naps
    = min (naps * client.options.pollInterval.toNanos) limit.toNanos := rfl

theorem Await.poised (await : client.Await environment phase step)
    (awaits : phase.Awaits timeout token) (calm : client.disposed = false
      ∧ (environment.host client.host).isValid = true ∧ environment.isCancelled client.shutdown = false
      ∧ environment.isCancelled token = false)
    (shown : ∀ now timed, environment.readClock client.clock = (some now, timed) →
      now.toNanos = origin + client.pace timeout naps)
    (hidden : ∀ timed, environment.readClock client.clock = (none, timed) →
      Moment.range ≤ origin + client.pace timeout naps)
    (poised : phase.Poised client timeout origin naps answers) :
    step.next.Poised client timeout origin (naps + if phase.place = 6 then 1 else 0)
      (answers + if phase.place = 10 then 1 else 0) := by
  obtain ⟨fresh, began, asked, due⟩ := poised
  obtain ⟨live, hosted, notShutDown, notCancelled⟩ := calm
  have since_eq : ∀ (vigil : Vigil) (now : Moment), vigil.started.toNanos = origin →
      now.toNanos = origin + client.pace timeout naps →
      (now.since vigil.started).toNanos = client.pace timeout naps := by
    intro vigil now start present
    have since := Moment.toNanos_since (show vigil.started.toNanos ≤ now.toNanos by omega)
    omega
  cases await with
  | refused disposed | retired disposed =>
    rw [live] at disposed
    cases disposed
  | shutDown isSet =>
    rw [notShutDown] at isSet
    cases isSet
  | cancelled isSet =>
    rw [awaits.2, notCancelled] at isSet
    cases isSet
  | unhosted gone | unasked gone =>
    rw [hosted] at gone
    cases gone
  | unbegun read | lost read => exact ⟨asked, hidden _ read⟩
  | @begun timeout token timed started read =>
    have none := fresh rfl
    have start := shown _ _ read
    rw [none, pace_zero] at start
    refine ⟨by rintro ⟨⟩, ?_, asked, by rintro vigil nap ⟨⟩⟩
    rintro vigil ⟨⟩
    exact start
  | unlimited _ untimed =>
    rw [awaits.1] at untimed
    subst untimed
    refine ⟨by rintro ⟨⟩, began, asked, ?_⟩
    rintro vigil nap ⟨⟩
    rw [pace_none, pace_none]
    exact (Nat.succ_mul _ _).symm
  | @expired vigil limit timed now read spent =>
    obtain ⟨-, -, rfl⟩ := awaits
    rw [since_eq vigil now (began vigil rfl) (shown _ _ read), pace_some] at spent
    exact ⟨asked, .inr ⟨rfl, limit, rfl, spent.trans (Nat.min_le_left _ _)⟩⟩
  | @granted vigil limit nap timed now read left nap_eq =>
    obtain ⟨-, -, rfl⟩ := awaits
    rw [since_eq vigil now (began vigil rfl) (shown _ _ read), pace_some] at left nap_eq
    refine ⟨by rintro ⟨⟩, began, asked, ?_⟩
    rintro vigil nap ⟨⟩
    change client.pace (some limit) naps + nap.toNanos = client.pace (some limit) (naps + 1)
    rw [pace_some, pace_some, Nat.succ_mul]
    omega
  | slept =>
    refine ⟨by rintro ⟨⟩, began, ?_, by rintro vigil nap ⟨⟩⟩
    exact congrArg (· + 1) asked
  | found =>
    exact ⟨asked, .inl rfl⟩
  | missed =>
    exact ⟨by rintro ⟨⟩, began, asked, by rintro vigil nap ⟨⟩⟩
  | _ => exact ⟨fresh, began, asked, by rintro vigil nap ⟨⟩⟩

/-- A step of such a wait moves a virtual clock by the nap it takes, if it takes one. -/
theorem Await.moved (await : client.Await environment phase step) {clock : ClockId}
    (virtual : client.clock = .virtual clock)
    (due : ∀ vigil nap, phase = .waitSleep vigil nap →
      client.pace timeout naps + nap.toNanos = client.pace timeout (naps + 1))
    (elapsed : (environment.elapsed client.clock).toNanos
      = min (origin + client.pace timeout naps) Span.longest.toNanos) :
    (step.environment.elapsed client.clock).toNanos
        = min (origin + client.pace timeout (naps + if phase.place = 6 then 1 else 0))
          Span.longest.toNanos
      ∧ (step.environment.clock clock).sleeps
        = (environment.clock clock).sleeps + UInt64.ofNat (if phase.place = 6 then 1 else 0) := by
  cases await with
  | @slept vigil nap =>
    have planned := due vigil nap rfl
    refine ⟨?_, ?_⟩
    · rw [Environment.elapsed_sleep, elapsed]
      change _ = min (origin + client.pace timeout (naps + 1)) _
      omega
    · dsimp only
      rw [virtual, Environment.clock_sleep]
      rfl
  | unbegun read | begun read | lost read | expired read | granted read =>
    have clock_eq := congrArg (·.clock clock) (Environment.eq_of_readClock read)
    refine ⟨?_, (congrArg VirtualClock.sleeps clock_eq).trans (UInt64.add_zero _).symm⟩
    rw [virtual] at elapsed ⊢
    exact (congrArg (fun clock => clock.elapsed.toNanos) clock_eq).trans elapsed
  | _ => exact ⟨elapsed, (UInt64.add_zero _).symm⟩

end Client

namespace Strand

variable {world : World κ} {index : ClientId} {client : Client κ} {timeout : Option Span}
  {token : Option Token} {strand : Strand κ} {clock : ClockId}

private theorem eq_of_lt_range {shown sum range longest : Nat} (inRange : shown < range)
    (within : range ≤ longest) (shown_eq : shown = min sum longest) : shown = sum := by
  omega

/-- What a wait has come to by some point if nothing disturbs it. -/
structure Steady (world : World κ) (index : ClientId) (client : Client κ) (timeout : Option Span)
    (token : Option Token) (strand : Strand κ) : Prop where
  calm : strand.world.Calm index client token
  elapsed : strand.elapsed client
    = min ((world.environment.elapsed client.clock).toNanos + client.pace timeout strand.naps.length)
      Span.longest.toNanos
  sleeps : ∀ clock, client.clock = .virtual clock → (strand.world.environment.clock clock).sleeps
    = (world.environment.clock clock).sleeps + UInt64.ofNat strand.naps.length
  poised : strand.next.Poised client timeout (world.environment.elapsed client.clock).toNanos
    strand.naps.length strand.answers.length

/-- At every point of a wait that nothing disturbs, it goes as planned. -/
theorem Undisturbed.steady (lasting : timeout.any (·.isZero) = false)
    (calm : world.Calm index client token) (virtual : client.clock = .virtual clock)
    (undisturbed : (opening world index (.wait timeout token)).Undisturbed strand) :
    strand.Steady world index client timeout token := by
  induction undisturbed with
  | here =>
    refine ⟨calm, ?_, fun _ _ => (UInt64.add_zero _).symm,
      ⟨fun _ => rfl, by rintro vigil ⟨⟩, rfl, by rintro vigil nap ⟨⟩⟩⟩
    change _ = min (_ + client.pace timeout 0) _
    rw [Client.pace_zero]
    rw [Nat.add_zero, Nat.min_eq_left (Span.toNanos_le_longest _)]
    rfl
  | @advance strand later sofar advances inductionHypothesis =>
    obtain ⟨phase, actor, goesOn, foundActor, rfl⟩ := advance?_eq_some advances
    obtain ⟨calm, elapsed, sleeps, poised⟩ := inductionHypothesis
    have awaits := sofar.leads.awaits lasting phase goesOn
    have client_eq : strand.client = index := sofar.leads.client_eq
    rw [client_eq] at foundActor
    cases calm.found.symm.trans foundActor
    have await := client.await_step strand.world.environment lasting awaits
    generalize client.step strand.world.environment phase = step at await
    rw [goesOn] at poised
    have moved := await.moved virtual poised.due elapsed
    have present : ∀ {reading timed}, strand.world.environment.readClock client.clock = (reading, timed) →
        (timed.elapsed client.clock).toNanos = strand.elapsed client := by
      intro reading timed read
      unfold Strand.elapsed
      rw [virtual] at read ⊢
      obtain ⟨-, rfl⟩ := Prod.mk.inj read
      rfl
    have naps_eq : (strand.after client phase step).naps.length
        = strand.naps.length + if phase.place = 6 then 1 else 0 := by
      rw [naps_after, List.length_append, await.length_naps]
    have answers_eq : (strand.after client phase step).answers.length
        = strand.answers.length + if phase.place = 10 then 1 else 0 := by
      rw [answers_after, List.length_append, await.length_answers]
    constructor
    case calm =>
      have tokens_eq := congrArg Environment.tokens await.confined.others
      have hosts_eq := congrArg Environment.hosts await.confined.others
      unfold after
      rw [await.client_eq, client_eq]
      exact calm.stays tokens_eq hosts_eq
    case elapsed =>
      rw [naps_eq]
      exact moved.1
    case sleeps =>
      intro own same
      rw [naps_eq, UInt64.ofNat_add, ← UInt64.add_assoc, ← sleeps own same]
      exact (await.moved same poised.due elapsed).2
    case poised =>
      rw [naps_eq, answers_eq]
      refine await.poised awaits ⟨calm.live, calm.hosted, calm.notShutDown, calm.notCancelled⟩
        ?_ ?_ poised
      · intro now timed read
        have shown := Environment.toNanos_of_readClock read
        have inRange := Environment.lt_range_of_readClock read
        rw [present read] at shown inRange
        rw [shown, eq_of_lt_range inRange Moment.range_le_longest elapsed, Nat.cast_add]
      · intro timed read
        have beyond := Environment.range_le_of_readClock read
        rw [present read] at beyond
        exact (beyond.trans elapsed.le).trans (Nat.min_le_left _ _)
  | registry sofar changed registry inductionHypothesis =>
    obtain ⟨calm, elapsed, sleeps, poised⟩ := inductionHypothesis
    exact ⟨⟨calm.found, calm.live, calm.hosted, calm.notShutDown, calm.notCancelled⟩,
      elapsed, sleeps, poised⟩

end Strand

/-! ### Forecasts -/

/-- A sequence of answers says yes for the first time after so many misses. -/
def FirstAfter (answers : Nat → Bool) (misses : Nat) : Prop :=
  answers misses = true ∧ ∀ check < misses, answers check = false

theorem FirstAfter.unique {answers : Nat → Bool} {misses others : Nat} (first : FirstAfter answers misses)
    (second : FirstAfter answers others) : misses = others := by
  rcases Nat.lt_trichotomy misses others with less | same | more
  · exact absurd ((second.2 misses less).symm.trans first.1) (by decide)
  · exact same
  · exact absurd ((first.2 others more).symm.trans second.1) (by decide)

/-- How a wait with the given limit ends that nothing disturbs, after how many naps and questions, and by
how many nanoseconds it moves the clock. -/
inductive Forecast (interval : Nat) (answers : Nat → Bool) :
    Option Span → WaitOutcome → Nat → Nat → Nat → Prop where
  /-- The registry says yes while there is time. -/
  | found {limit : Span} {misses : Nat} (lasting : limit.isZero = false)
      (first : FirstAfter answers misses) (within : misses + 1 ≤ limit.toNanos ⌈/⌉ interval) :
      Forecast interval answers (some limit) .available (misses + 1) (misses + 1)
        (min ((misses + 1) * interval) limit.toNanos)
  /-- It does not. -/
  | expired {limit : Span} (lasting : limit.isZero = false)
      (absent : ∀ check < limit.toNanos ⌈/⌉ interval, answers check = false) :
      Forecast interval answers (some limit) .timedOut (limit.toNanos ⌈/⌉ interval)
        (limit.toNanos ⌈/⌉ interval) limit.toNanos
  /-- The wait has no limit, and the registry says yes some time. -/
  | unlimited {misses : Nat} (first : FirstAfter answers misses) :
      Forecast interval answers none .available (misses + 1) (misses + 1) ((misses + 1) * interval)
  /-- The wait may take no time. -/
  | once {limit : Span} (instant : limit.isZero = true) :
      Forecast interval answers (some limit) (if answers 0 then .available else .timedOut) 0 1 0

theorem FirstAfter.le {answers : Nat → Bool} {misses told : Nat} (first : FirstAfter answers misses)
    (absent : ∀ check < told, answers check = false) : told ≤ misses := by
  by_contra more
  exact absurd ((absent misses (Nat.not_le.mp more)).symm.trans first.1) (by decide)

/-- There is a forecast for every wait with a limit. -/
theorem Forecast.exists_of_limit (interval : Nat) (answers : Nat → Bool) (limit : Span) :
    ∃ outcome naps checks moved, Forecast interval answers (some limit) outcome naps checks moved := by
  cases instant : limit.isZero with
  | true => exact ⟨_, _, _, _, .once instant⟩
  | false =>
    by_cases told : ∃ check, check < limit.toNanos ⌈/⌉ interval ∧ answers check = true
    · have least := Nat.find_spec told
      have before : ∀ check < Nat.find told, answers check = false := by
        intro check earlier
        have missed := Nat.find_min told earlier
        exact Bool.eq_false_iff.mpr fun yes => missed ⟨earlier.trans least.1, yes⟩
      exact ⟨_, _, _, _, .found instant ⟨least.2, before⟩ least.1⟩
    · exact ⟨_, _, _, _, .expired instant fun check within =>
        Bool.eq_false_iff.mpr fun yes => told ⟨check, within, yes⟩⟩

namespace Strand

variable {world : World κ} {index : ClientId} {client : Client κ} {timeout : Option Span}
  {token : Option Token} {strand : Strand κ} {answers : Nat → Bool} {clock : ClockId}

/-- The answers that end with the first yes are the first ones of such a sequence. -/
theorem Follows.firstAfter {misses : Nat} (follows : strand.Follows answers)
    (told : strand.answers = List.replicate misses false ++ [true]) : FirstAfter answers misses := by
  have length : strand.answers.length = misses + 1 := by
    rw [told, List.length_append, List.length_replicate, List.length_singleton]
  unfold Follows at follows
  rw [length, List.range_succ, List.map_append, told] at follows
  obtain ⟨front, last⟩ := List.append_inj' follows rfl
  refine ⟨(List.singleton_inj.mp last).symm, fun check earlier => ?_⟩
  have member : answers check ∈ List.replicate misses false :=
    front ▸ List.mem_map_of_mem (List.mem_range.mpr earlier)
  exact List.eq_of_mem_replicate member

/-- The ways in which a wait ends that nothing disturbs. -/
inductive Ends (origin : Nat) (client : Client κ) (timeout : Option Span) (answers : Nat → Bool)
    (strand : Strand κ) : Prop where
  | available {misses : Nat} (next : strand.next = .returned (.ok (.outcome .available)))
      (first : FirstAfter answers misses) (naps : strand.naps.length = misses + 1)
      (asked : strand.answers.length = misses + 1)
  | timedOut {limit : Span} (next : strand.next = .returned (.ok (.outcome .timedOut)))
      (limited : timeout = some limit)
      (spent : limit.toNanos ≤ strand.naps.length * client.options.pollInterval.toNanos)
      (absent : ∀ check < strand.naps.length, answers check = false)
      (asked : strand.answers.length = strand.naps.length)
  /-- The clock is out of range. -/
  | lost (read : .readClock none ∈ strand.effects)
      (beyond : Moment.range ≤ origin + client.pace timeout strand.naps.length)
      (absent : ∀ check < strand.naps.length, answers check = false)

theorem Undisturbed.ends (lasting : timeout.any (·.isZero) = false)
    (calm : world.Calm index client token) (virtual : client.clock = .virtual clock)
    (undisturbed : (opening world index (.wait timeout token)).Undisturbed strand)
    (follows : strand.Follows answers) (ended : strand.isOver = true) :
    strand.Ends (world.environment.elapsed client.clock).toNanos client timeout answers := by
  have leads := undisturbed.leads
  have poised := (undisturbed.steady lasting calm virtual).poised
  rcases leads.ending lasting calm.found ended with ⟨result, next⟩ | ⟨next, read⟩
  · rw [next] at poised
    obtain ⟨asked, rfl | ⟨rfl, limit, limited, spent⟩⟩ := poised
    · obtain ⟨misses, told⟩ := leads.answers_of_available lasting calm.found next
      have length : strand.answers.length = misses + 1 := by
        rw [told, List.length_append, List.length_replicate, List.length_singleton]
      exact .available next (follows.firstAfter told) (asked.symm.trans length) length
    · have absent := follows.unanswered
        (leads.unanswered lasting calm.found (by rw [next]; rintro ⟨⟩))
      rw [asked] at absent
      exact .timedOut next limited spent absent asked
  · rw [next] at poised
    have absent := follows.unanswered
      (leads.unanswered lasting calm.found (by rw [next]; rintro ⟨⟩))
    rw [poised.1] at absent
    exact .lost read poised.2 absent

/-- A wait that nothing disturbs takes no further nap after the first yes. -/
theorem Undisturbed.naps_le (lasting : timeout.any (·.isZero) = false)
    (calm : world.Calm index client token) (virtual : client.clock = .virtual clock)
    (undisturbed : (opening world index (.wait timeout token)).Undisturbed strand)
    (follows : strand.Follows answers) {misses : Nat} (first : FirstAfter answers misses) :
    strand.naps.length ≤ misses + 1 := by
  have leads := undisturbed.leads
  have poised := (undisturbed.steady lasting calm virtual).poised
  by_cases available : strand.next = .returned (.ok (.outcome .available))
  · rw [available] at poised
    obtain ⟨others, told⟩ := leads.answers_of_available lasting calm.found available
    have length := congrArg List.length told
    rw [List.length_append, List.length_replicate, List.length_singleton] at length
    cases (follows.firstAfter told).unique first
    exact (poised.1.symm.trans length).le
  · have absent := follows.unanswered (leads.unanswered lasting calm.found available)
    exact poised.naps_le.trans (Nat.succ_le_succ (first.le absent))

/-- Whatever the registry is to answer, a wait comes to its end if it can take but so many naps. -/
theorem Undisturbed.exists_wait (lasting : timeout.any (·.isZero) = false)
    (calm : world.Calm index client token) {most : Nat}
    (few : ∀ strand, (opening world index (.wait timeout token)).Undisturbed strand →
      strand.Follows answers → strand.turns.length ≤ most)
    (sofar : (opening world index (.wait timeout token)).Undisturbed strand)
    (follows : strand.Follows answers) :
    ∃ final, strand.Undisturbed final ∧ final.Follows answers ∧ final.isOver = true := by
  refine exists_over calm.found (fun strand phase actor undisturbed goesOn foundActor => ?_) few
    sofar follows
  have await := actor.await_step strand.world.environment lasting
    (undisturbed.leads.awaits lasting phase goesOn)
  generalize actor.step strand.world.environment phase = step at await
  cases await with
  | found available => exact .inr (congrArg (fun answer => [answer]) available.symm)
  | missed absent => exact .inr (congrArg (fun answer => [answer]) absent.symm)
  | _ => exact .inl rfl

/-- A wait has come out as it was forecast: it has slept and asked so many times, and the clock has moved on
by so much, up to the longest length that it can show. -/
structure Fulfils (world : World κ) (client : Client κ) (outcome : WaitOutcome)
    (naps checks moved : Nat) (strand : Strand κ) : Prop where
  next_eq : strand.next = .returned (.ok (.outcome outcome))
  naps_eq : strand.naps.length = naps
  checks_eq : strand.answers.length = checks
  elapsed_eq : strand.elapsed client
    = min ((world.environment.elapsed client.clock).toNanos + moved) Span.longest.toNanos
  sleeps_eq : ∀ clock, client.clock = .virtual clock → (strand.world.environment.clock clock).sleeps
    = (world.environment.clock clock).sleeps + UInt64.ofNat naps

private theorem pace_mono {few many : Nat} (less : few ≤ many) :
    client.pace timeout few ≤ client.pace timeout many := by
  have laps := Nat.mul_le_mul_right client.options.pollInterval.toNanos less
  cases timeout with
  | none => exact laps
  | some limit =>
    rw [Client.pace_some, Client.pace_some]
    omega

theorem Steady.fulfils (steady : strand.Steady world index client timeout token)
    {outcome : WaitOutcome} {naps moved : Nat}
    (next : strand.next = .returned (.ok (.outcome outcome))) (naps_eq : strand.naps.length = naps)
    (asked : strand.answers.length = naps) (moved_eq : client.pace timeout naps = moved) :
    strand.Fulfils world client outcome naps naps moved := by
  subst naps_eq moved_eq
  exact ⟨next, rfl, asked, steady.elapsed, steady.sleeps⟩

/-- A wait that may take time comes out as it was forecast. -/
theorem Undisturbed.fulfils (calm : world.Calm index client token) (virtual : client.clock = .virtual clock)
    (interval : 0 < client.options.pollInterval.toNanos) {outcome : WaitOutcome}
    {naps checks moved : Nat} (lasting : timeout.any (·.isZero) = false)
    (forecast : Forecast client.options.pollInterval.toNanos answers timeout outcome naps checks moved)
    (undisturbed : (opening world index (.wait timeout token)).Undisturbed strand)
    (follows : strand.Follows answers) (ended : strand.isOver = true)
    (inRange : .readClock none ∉ strand.effects
      ∨ (world.environment.elapsed client.clock).toNanos + moved < Moment.range) :
    strand.Fulfils world client outcome naps checks moved := by
  have steady := undisturbed.steady lasting calm virtual
  have shown : ∀ {beyond : Nat}, .readClock none ∈ strand.effects →
      Moment.range ≤ (world.environment.elapsed client.clock).toNanos + beyond → ¬ beyond ≤ moved := by
    intro beyond read outOfRange within
    rcases inRange with unread | inRange
    · exact unread read
    · omega
  have ends := undisturbed.ends lasting calm virtual follows ended
  cases forecast with
  | @found limit misses _ first within =>
    cases ends with
    | available next firstNow naps_eq asked =>
      cases firstNow.unique first
      exact steady.fulfils next naps_eq asked rfl
    | timedOut next limited spent absent =>
      cases limited
      have all : limit.toNanos ⌈/⌉ client.options.pollInterval.toNanos ≤ strand.naps.length :=
        (ceilDiv_le_iff_le_mul interval).mpr (Nat.mul_comm _ _ ▸ spent)
      exact absurd (first.le absent) (by omega)
    | lost read beyond absent =>
      exact absurd (pace_mono ((first.le absent).trans (Nat.le_succ misses))) (shown read beyond)
  | @expired limit _ absent =>
    have count := (undisturbed.leads.budgeted calm.found (.refl client) interval lasting).count
    cases ends with
    | available next first naps_eq asked =>
      rw [naps_eq] at count
      exact absurd ((absent _ count).symm.trans first.1) (by decide)
    | timedOut next limited spent _ asked =>
      cases limited
      have naps_eq : strand.naps.length = limit.toNanos ⌈/⌉ client.options.pollInterval.toNanos :=
        Nat.le_antisymm count ((ceilDiv_le_iff_le_mul interval).mpr (Nat.mul_comm _ _ ▸ spent))
      refine steady.fulfils next naps_eq (asked.trans naps_eq) ?_
      rw [← naps_eq, Client.pace_some]
      exact Nat.min_eq_right spent
    | lost read beyond =>
      exact absurd (Nat.min_le_right _ _) (shown read beyond)
  | @unlimited misses first =>
    cases ends with
    | available next firstNow naps_eq asked =>
      cases firstNow.unique first
      exact steady.fulfils next naps_eq asked rfl
    | timedOut next limited => cases limited
    | lost read beyond absent =>
      exact absurd (pace_mono ((first.le absent).trans (Nat.le_succ misses))) (shown read beyond)
  | once instant => exact absurd (instant.symm.trans lasting) (by decide)

/-- An operation that asks the registry once says what its first answer means. -/
theorem Undisturbed.inquires_first (calm : world.Calm index client token) {first : Phase κ}
    {purpose : Purpose} {total : Nat} (asks : first.query? = some (purpose, total))
    (ends : purpose = .answer ∨ purpose = .once)
    (undisturbed : (opening world index first).Undisturbed strand)
    (follows : strand.Follows answers) (ended : strand.isOver = true) :
    strand.answers.length = 1 ∧ strand.next = Purpose.conclude (answers 0) purpose := by
  obtain ⟨answer, told, next⟩ := (undisturbed.inquires calm asks ends).ended ended
  unfold Follows at follows
  rw [told] at follows
  cases List.singleton_inj.mp follows
  exact ⟨congrArg List.length told, next⟩

/-- A wait that may take no time asks the registry once. -/
theorem Undisturbed.fulfils_once (calm : world.Calm index client token) (virtual : client.clock = .virtual clock)
    {limit : Span} (instant : limit.isZero = true)
    (undisturbed : (opening world index (.wait (some limit) token)).Undisturbed strand)
    (follows : strand.Follows answers) (ended : strand.isOver = true) :
    strand.Fulfils world client (if answers 0 then .available else .timedOut) 0 1 0 := by
  obtain ⟨asked, next⟩ := undisturbed.inquires_first calm (Phase.query?_wait instant token) (.inr rfl)
    follows ended
  obtain ⟨-, clocks_eq, naps_eq, -, -, -, -⟩ :=
    undisturbed.inquires calm (Phase.query?_wait instant token) (.inr rfl)
  refine ⟨next, by rw [naps_eq]; rfl, asked, ?_, fun own _ => ?_⟩
  · rw [Nat.add_zero, Nat.min_eq_left (Span.toNanos_le_longest _), elapsed, virtual]
    exact congrArg (fun clocks => (clocks.get clock).elapsed.toNanos) clocks_eq
  · exact (congrArg (fun clocks => (clocks.get own).sleeps) clocks_eq).trans
      (UInt64.add_zero _).symm

/-- A wait that nothing disturbs makes no more steps than its forecast allows for. -/
theorem Undisturbed.turns_le (calm : world.Calm index client token) (virtual : client.clock = .virtual clock)
    (interval : 0 < client.options.pollInterval.toNanos) {outcome : WaitOutcome}
    {naps checks moved : Nat}
    (forecast : Forecast client.options.pollInterval.toNanos answers timeout outcome naps checks moved)
    (undisturbed : (opening world index (.wait timeout token)).Undisturbed strand)
    (follows : strand.Follows answers) : strand.turns.length ≤ 11 + 9 * naps := by
  have leads := undisturbed.leads
  cases forecast with
  | @found limit misses lasting first =>
    have limited : (some limit).any (·.isZero) = false := lasting
    have few := undisturbed.naps_le limited calm virtual follows first
    exact (leads.length_turns_le limited calm.found).trans (by omega)
  | @expired limit lasting =>
    have limited : (some limit).any (·.isZero) = false := lasting
    have few := (leads.budgeted calm.found (.refl client) interval lasting).count
    exact (leads.length_turns_le limited calm.found).trans (by omega)
  | unlimited first =>
    have few := undisturbed.naps_le rfl calm virtual follows first
    exact (leads.length_turns_le rfl calm.found).trans (by omega)
  | once instant =>
    have inquires := undisturbed.inquires calm (Phase.query?_wait instant token) (.inr rfl)
    exact inquires.turns_le.trans (by decide)

/-- A wait that nothing disturbs comes to its end, and comes out as it was forecast if its clock can be
read. One that may take no time finds out what the question for the service does. -/
theorem undisturbed_wait (calm : world.Calm index client token) (virtual : client.clock = .virtual clock)
    (interval : 0 < client.options.pollInterval.toNanos) {outcome : WaitOutcome}
    {naps checks moved : Nat}
    (forecast : Forecast client.options.pollInterval.toNanos answers timeout outcome naps checks moved) :
    (∀ strand, (opening world index (.wait timeout token)).Undisturbed strand →
        strand.Follows answers → strand.turns.length ≤ 11 + 9 * naps
          ∧ ∃ final, strand.Undisturbed final ∧ final.Follows answers ∧ final.isOver = true)
      ∧ (∀ strand, (opening world index (.wait timeout token)).Undisturbed strand →
        strand.Follows answers → strand.isOver = true →
        (.readClock none ∉ strand.effects
          ∨ (world.environment.elapsed client.clock).toNanos + moved < Moment.range) →
        strand.Fulfils world client outcome naps checks moved)
      ∧ (timeout.any (·.isZero) = true →
        ∀ probe, (opening world index .isAvailable).Undisturbed probe → probe.Follows answers →
          (∃ final, probe.Undisturbed final ∧ final.Follows answers ∧ final.isOver = true)
          ∧ (probe.isOver = true → probe.next = .returned (.ok (.flag outcome.isAvailable)))) := by
  have turns_le : ∀ strand, (opening world index (.wait timeout token)).Undisturbed strand →
      strand.Follows answers → strand.turns.length ≤ 11 + 9 * naps :=
    fun strand undisturbed => undisturbed.turns_le calm virtual interval forecast
  cases instant : timeout.any (·.isZero) with
  | false =>
    refine ⟨fun strand undisturbed follows => ⟨turns_le strand undisturbed follows,
      Undisturbed.exists_wait instant calm turns_le undisturbed follows⟩, fun strand undisturbed =>
      undisturbed.fulfils calm virtual interval instant forecast, by rintro ⟨⟩⟩
  | true =>
    have available : (Phase.isAvailable : Phase κ).query? = some (.answer, 2) := rfl
    cases forecast with
    | found lasting | expired lasting => exact absurd (instant.symm.trans lasting) (by decide)
    | unlimited => cases instant
    | @once limit zero =>
      refine ⟨fun strand undisturbed follows => ⟨turns_le strand undisturbed follows,
        Undisturbed.exists_inquiry calm (Phase.query?_wait zero token) (.inr rfl) undisturbed follows⟩,
        fun strand undisturbed follows ended _ =>
          undisturbed.fulfils_once calm virtual zero follows ended,
        fun _ probe undisturbed follows =>
          ⟨Undisturbed.exists_inquiry calm available (.inl rfl) undisturbed follows, fun ended => ?_⟩⟩
      obtain ⟨-, next⟩ := undisturbed.inquires_first calm available (.inl rfl) follows ended
      rw [next]
      cases answers 0 <;> rfl

/-- The registry misses once: a wait of 25 ms ends after two naps of 10 ms. -/
theorem undisturbed_wait_solo :
    ∃ client strand, Session.solo.world.clients[0]? = some client
      ∧ (opening Session.solo.world 0 (.wait (some (.ofMillis 25)) none)).Undisturbed strand
      ∧ strand.Follows (· == 1)
      ∧ strand.Fulfils Session.solo.world client .available 2 2 20000000 := by
  obtain ⟨client, calm, virtual, interval⟩ : ∃ client, Session.solo.world.Calm 0 client none
      ∧ client.clock = .virtual 0 ∧ client.options.pollInterval = .ofMillis 10 :=
    ⟨_, ⟨rfl, rfl, rfl, rfl, rfl⟩, rfl, rfl⟩
  have forecast : Forecast client.options.pollInterval.toNanos (· == 1) (some (.ofMillis 25))
      .available 2 2 20000000 := by
    have moved : min ((1 + 1) * (Span.ofMillis 10).toNanos) (Span.ofMillis 25).toNanos = 20000000 := by
      decide
    have enough : ¬ (Span.ofMillis 25).toNanos ⌈/⌉ (Span.ofMillis 10).toNanos ≤ 1 :=
      mt (ceilDiv_le_iff_le_mul (by decide)).mp (by decide)
    rw [interval, ← moved]
    exact .found rfl ⟨rfl, by decide⟩ (Nat.not_le.mp enough)
  obtain ⟨ends, fulfils, -⟩ := undisturbed_wait calm virtual (by rw [interval]; decide) forecast
  obtain ⟨-, strand, undisturbed, follows, ended⟩ := ends _ .here rfl
  have inRange : (Session.solo.world.environment.elapsed client.clock).toNanos + 20000000
      < Moment.range := by
    rw [virtual]
    decide
  exact ⟨client, strand, calm.found, undisturbed, follows,
    fulfils strand undisturbed follows ended (.inr inRange)⟩

end Strand

end Correlator
