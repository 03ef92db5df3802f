import Correlator.Proofs.Client.Clock
import Correlator.Proofs.Client.Disposal
import Correlator.Proofs.Time.Span

/-!
Contract: the steps of a wait that may take time.

Owns: the ways in which each of these steps can end, the length of a nap, and when a clock cannot be read.

Does not own: what the steps come to together, with others acting between them (`Correlator.Proofs.Strand`).
-/

set_option autoImplicit false

namespace Correlator

variable {κ : Type}

/-- The steps of a wait with the given limit and the given token. -/
def Phase.Awaits (timeout : Option Span) (token : Option Token) : Phase κ → Prop
  | .wait limit known | .waitBegin limit known => limit = timeout ∧ known = token
  | .waitShutdown vigil | .waitToken vigil | .waitHost vigil | .waitSleep vigil _ | .waitReport vigil _
  | .probeLive (.during vigil) | .probeHost (.during vigil) | .probeQuery (.during vigil) =>
    vigil.timeout = timeout ∧ vigil.token = token
  | .waitBudget vigil limit => vigil.timeout = timeout ∧ vigil.token = token ∧ timeout = some limit
  | _ => False

namespace Environment

variable {environment timed : Environment} {clock : ClockChoice}

/-- A clock cannot be read once the time that has elapsed on it is out of range. -/
theorem range_le_of_readClock (read : environment.readClock clock = (none, timed)) :
    Moment.range ≤ (timed.elapsed clock).toNanos := by
  cases clock with
  | virtual =>
    obtain ⟨shown, rfl⟩ := Prod.mk.inj read
    exact Moment.origin_after?_eq_none.mp shown
  | running =>
    simp only [readClock, RunningClock.read, Prod.mk.injEq] at read
    obtain ⟨shown, rfl⟩ := read
    exact Moment.origin_after?_eq_none.mp shown

theorem lt_range_of_readClock {now : Moment}
    (read : environment.readClock clock = (some now, timed)) :
    (timed.elapsed clock).toNanos < Moment.range := by
  by_contra beyond
  have shown : Moment.origin.after? (timed.elapsed clock) = some now := by
    cases clock with
    | virtual =>
      obtain ⟨shown, rfl⟩ := Prod.mk.inj read
      exact shown
    | running =>
      simp only [readClock, RunningClock.read, Prod.mk.injEq] at read
      obtain ⟨shown, rfl⟩ := read
      exact shown
  rw [Moment.origin_after?_eq_none.mpr (Nat.not_lt.mp beyond)] at shown
  cases shown

/-- A sleep moves its clock on by the nap, up to the longest length. -/
theorem elapsed_sleep (environment : Environment) (nap : Span) (clock : ClockChoice) :
    ((environment.sleep nap clock).elapsed clock).toNanos
      = min ((environment.elapsed clock).toNanos + nap.toNanos) Span.longest.toNanos := by
  cases clock with
  | virtual index =>
    show ((environment.sleep nap (.virtual index)).clock index).elapsed.toNanos = _
    rw [clock_sleep]
    exact Span.toNanos_add _ _
  | running => exact Span.toNanos_add _ _

/-- A sleep moves its clock on by the nap at least, unless this takes it out of range. -/
theorem le_elapsed_sleep (environment : Environment) (nap : Span) (clock : ClockChoice) :
    (environment.elapsed clock).toNanos + nap.toNanos
        ≤ ((environment.sleep nap clock).elapsed clock).toNanos
      ∨ Moment.range ≤ ((environment.sleep nap clock).elapsed clock).toNanos := by
  rw [elapsed_sleep]
  rcases Nat.le_total ((environment.elapsed clock).toNanos + nap.toNanos) Span.longest.toNanos with
    within | beyond
  · exact .inl (Nat.min_eq_left within).ge
  · exact .inr (Moment.range_le_longest.trans (Nat.min_eq_right beyond).ge)

end Environment

namespace Client

/-- The next nap is as long as the poll interval, or as what is left of the time if that is less, and there is
none just if nothing is left. -/
theorem nap?_spec (interval timeout spent : Span) :
    match nap? interval timeout spent with
    | some nap => spent.toNanos < timeout.toNanos
        ∧ nap.toNanos = min (timeout.toNanos - spent.toNanos) interval.toNanos
    | none => timeout.toNanos ≤ spent.toNanos := by
  have left := Span.sub?_spec timeout spent
  unfold nap?
  cases difference : timeout.sub? spent with
  | none =>
    rw [difference] at left
    exact Nat.le_of_lt left
  | some rest =>
    rw [difference] at left
    dsimp only at left ⊢
    split
    next nap more =>
      split at more
      next => cases more
      next something =>
        cases more
        rw [Span.isZero_iff] at something
        rw [Span.toNanos_shorter]
        omega
    next none =>
      split at none
      next nothing =>
        rw [Span.isZero_iff] at nothing
        omega
      next => cases none

/-- The ways in which a step of a wait can end. -/
inductive Await (client : Client κ) (environment : Environment) : Phase κ → Step κ → Prop where
  /-- The client is disposed of. -/
  | refused {timeout : Option Span} {token : Option Token} (disposed : client.disposed = true) :
      Await client environment (.wait timeout token)
        ⟨client, environment, [.locked, .unlocked],
          .returned (.error (.invalidHandle client.service))⟩
  | entered {timeout : Option Span} {token : Option Token} (live : client.disposed = false) :
      Await client environment (.wait timeout token)
        ⟨client, environment, [.locked, .unlocked], .goesOn (.waitBegin timeout token)⟩
  /-- The clock is out of range when the wait begins. -/
  | unbegun {timeout : Option Span} {token : Option Token} {timed : Environment}
      (read : environment.readClock client.clock = (none, timed)) :
      Await client environment (.waitBegin timeout token)
        ⟨client, timed, [.readClock none], .failed .clockOutOfRange⟩
  | begun {timeout : Option Span} {token : Option Token} {timed : Environment} {started : Moment}
      (read : environment.readClock client.clock = (some started, timed)) :
      Await client environment (.waitBegin timeout token)
        ⟨client, timed, [.readClock (some started)], .goesOn (.waitShutdown ⟨timeout, token, started⟩)⟩
  /-- The token of the client is set. -/
  | shutDown {vigil : Vigil} (isSet : environment.isCancelled client.shutdown = true) :
      Await client environment (.waitShutdown vigil)
        ⟨client, environment, [.sawToken true], .returned (.ok (.outcome .cancelled))⟩
  | notShutDown {vigil : Vigil} (clear : environment.isCancelled client.shutdown = false) :
      Await client environment (.waitShutdown vigil)
        ⟨client, environment, [.sawToken false], .goesOn (.waitToken vigil)⟩
  /-- The token of the caller is set. -/
  | cancelled {vigil : Vigil} (isSet : environment.isCancelled vigil.token = true) :
      Await client environment (.waitToken vigil)
        ⟨client, environment, [.sawToken true], .returned (.ok (.outcome .cancelled))⟩
  | notCancelled {vigil : Vigil} (clear : environment.isCancelled vigil.token = false) :
      Await client environment (.waitToken vigil)
        ⟨client, environment, [.sawToken false], .goesOn (.waitHost vigil)⟩
  /-- The host is gone. -/
  | unhosted {vigil : Vigil} (gone : (environment.host client.host).isValid = false) :
      Await client environment (.waitHost vigil)
        ⟨client, environment, [.sawHost false], .returned (.ok (.outcome .contextInvalid))⟩
  /-- A wait without limit goes on to a nap as long as the poll interval. -/
  | unlimited {vigil : Vigil} (hosted : (environment.host client.host).isValid = true)
      (untimed : vigil.timeout = none) :
      Await client environment (.waitHost vigil)
        ⟨client, environment, [.sawHost true],
          .goesOn (.waitSleep vigil client.options.pollInterval)⟩
  | limited {vigil : Vigil} {timeout : Span} (hosted : (environment.host client.host).isValid = true)
      (timed : vigil.timeout = some timeout) :
      Await client environment (.waitHost vigil)
        ⟨client, environment, [.sawHost true], .goesOn (.waitBudget vigil timeout)⟩
  /-- The clock is out of range by now. -/
  | lost {vigil : Vigil} {timeout : Span} {timed : Environment}
      (read : environment.readClock client.clock = (none, timed)) :
      Await client environment (.waitBudget vigil timeout)
        ⟨client, timed, [.readClock none], .failed .clockOutOfRange⟩
  /-- No time is left. -/
  | expired {vigil : Vigil} {timeout : Span} {timed : Environment} {now : Moment}
      (read : environment.readClock client.clock = (some now, timed))
      (spent : timeout.toNanos ≤ (now.since vigil.started).toNanos) :
      Await client environment (.waitBudget vigil timeout)
        ⟨client, timed, [.readClock (some now)], .returned (.ok (.outcome .timedOut))⟩
  | granted {vigil : Vigil} {timeout nap : Span} {timed : Environment} {now : Moment}
      (read : environment.readClock client.clock = (some now, timed))
      (left : (now.since vigil.started).toNanos < timeout.toNanos)
      (nap_eq : nap.toNanos = min (timeout.toNanos - (now.since vigil.started).toNanos)
        client.options.pollInterval.toNanos) :
      Await client environment (.waitBudget vigil timeout)
        ⟨client, timed, [.readClock (some now)], .goesOn (.waitSleep vigil nap)⟩
  | slept {vigil : Vigil} {nap : Span} :
      Await client environment (.waitSleep vigil nap)
        ⟨client, environment.sleep nap client.clock, [.slept client.clock nap],
          .goesOn (.waitReport vigil nap)⟩
  | reported {vigil : Vigil} {nap : Span} :
      Await client environment (.waitReport vigil nap)
        ⟨client, environment, [.logged (.polling nap)], .goesOn (.probeLive (.during vigil))⟩
  /-- The client was disposed of meanwhile. -/
  | retired {vigil : Vigil} (disposed : client.disposed = true) :
      Await client environment (.probeLive (.during vigil))
        ⟨client, environment, [.locked, .unlocked],
          .returned (.error (.invalidHandle client.service))⟩
  | inUse {vigil : Vigil} (live : client.disposed = false) :
      Await client environment (.probeLive (.during vigil))
        ⟨client, environment, [.locked, .unlocked], .goesOn (.probeHost (.during vigil))⟩
  /-- Without a host the registry is not asked, and the service counts as not available. -/
  | unasked {vigil : Vigil} (gone : (environment.host client.host).isValid = false) :
      Await client environment (.probeHost (.during vigil))
        ⟨client, environment, [.sawHost false], .goesOn (.waitShutdown vigil)⟩
  | asks {vigil : Vigil} (hosted : (environment.host client.host).isValid = true) :
      Await client environment (.probeHost (.during vigil))
        ⟨client, environment, [.sawHost true], .goesOn (.probeQuery (.during vigil))⟩
  | found {vigil : Vigil} (available : (environment.registry client.registry).query.1 = true) :
      Await client environment (.probeQuery (.during vigil))
        ⟨client,
          environment.setRegistry client.registry (environment.registry client.registry).query.2,
          [.queried true],
          .returned (.ok (.outcome .available))⟩
  | missed {vigil : Vigil} (absent : (environment.registry client.registry).query.1 = false) :
      Await client environment (.probeQuery (.during vigil))
        ⟨client,
          environment.setRegistry client.registry (environment.registry client.registry).query.2,
          [.queried false],
          .goesOn (.waitShutdown vigil)⟩

variable (client : Client κ) (environment : Environment)

private theorem await_wait {timeout : Option Span} (lasting : timeout.any (·.isZero) = false)
    (token : Option Token) :
    client.Await environment (.wait timeout token)
      (client.whileLive environment ⟨client, environment, [],
        if timeout.any (·.isZero) then .goesOn .waitOnce else .goesOn (.waitBegin timeout token)⟩) := by
  rw [lasting]
  unfold whileLive
  cases disposed : client.disposed with
  | true => exact .refused disposed
  | false => exact .entered disposed

private theorem await_waitBegin (timeout : Option Span) (token : Option Token) :
    client.Await environment (.waitBegin timeout token)
      (client.waitBegin environment timeout token) := by
  unfold waitBegin
  split
  next timed read => exact .unbegun read
  next started timed read => exact .begun read

private theorem await_waitShutdown (vigil : Vigil) :
    client.Await environment (.waitShutdown vigil)
      (client.waitFlag environment client.shutdown (.waitToken vigil)) := by
  unfold waitFlag
  dsimp only
  cases isSet : environment.isCancelled client.shutdown with
  | true => exact .shutDown isSet
  | false => exact .notShutDown isSet

private theorem await_waitToken (vigil : Vigil) :
    client.Await environment (.waitToken vigil)
      (client.waitFlag environment vigil.token (.waitHost vigil)) := by
  unfold waitFlag
  dsimp only
  cases isSet : environment.isCancelled vigil.token with
  | true => exact .cancelled isSet
  | false => exact .notCancelled isSet

private theorem await_waitHost (vigil : Vigil) :
    client.Await environment (.waitHost vigil) (client.waitHost environment vigil) := by
  unfold waitHost
  cases hosted : (environment.host client.host).isValid with
  | false => exact .unhosted hosted
  | true =>
    cases timed : vigil.timeout with
    | none => exact .unlimited hosted timed
    | some timeout => exact .limited hosted timed

private theorem await_waitBudget (vigil : Vigil) (timeout : Span) :
    client.Await environment (.waitBudget vigil timeout)
      (client.waitBudget environment vigil timeout) := by
  unfold waitBudget
  split
  next timed read => exact .lost read
  next now timed read =>
    have spec := nap?_spec client.options.pollInterval timeout (now.since vigil.started)
    split
    next nap more =>
      rw [more] at spec
      exact .granted read spec.1 spec.2
    next none =>
      rw [none] at spec
      exact .expired read spec

private theorem await_probeLive (vigil : Vigil) :
    client.Await environment (.probeLive (.during vigil))
      (client.whileLive environment
        ⟨client, environment, [], .goesOn (.probeHost (.during vigil))⟩) := by
  unfold whileLive
  cases disposed : client.disposed with
  | true => exact .retired disposed
  | false => exact .inUse disposed

private theorem await_probeHost (vigil : Vigil) :
    client.Await environment (.probeHost (.during vigil))
      (client.probeHost environment (.during vigil)) := by
  unfold probeHost
  cases hosted : (environment.host client.host).isValid with
  | false => exact .unasked hosted
  | true => exact .asks hosted

private theorem await_probeQuery (vigil : Vigil) :
    client.Await environment (.probeQuery (.during vigil))
      (client.probeQuery environment (.during vigil)) := by
  unfold probeQuery
  dsimp only
  cases answer : (environment.registry client.registry).query.1 with
  | true => exact .found answer
  | false => exact .missed answer

/-- A step of a wait that may take time ends in one of the listed ways. -/
theorem await_step {timeout : Option Span} (lasting : timeout.any (·.isZero) = false)
    {token : Option Token} {phase : Phase κ} (awaits : phase.Awaits timeout token) :
    client.Await environment phase (client.step environment phase) := by
  cases phase with
  | wait limit known =>
    obtain ⟨rfl, rfl⟩ := awaits
    exact client.await_wait environment lasting known
  | waitBegin limit known => exact client.await_waitBegin environment limit known
  | waitShutdown vigil => exact client.await_waitShutdown environment vigil
  | waitToken vigil => exact client.await_waitToken environment vigil
  | waitHost vigil => exact client.await_waitHost environment vigil
  | waitBudget vigil limit => exact client.await_waitBudget environment vigil limit
  | waitSleep vigil nap => exact .slept
  | waitReport vigil nap => exact .reported
  | probeLive purpose =>
    cases purpose with
    | during vigil => exact client.await_probeLive environment vigil
    | answer | once => cases awaits
  | probeHost purpose =>
    cases purpose with
    | during vigil => exact client.await_probeHost environment vigil
    | answer | once => cases awaits
  | probeQuery purpose =>
    cases purpose with
    | during vigil => exact client.await_probeQuery environment vigil
    | answer | once => cases awaits
  | _ => cases awaits

variable {client : Client κ} {environment : Environment} {phase : Phase κ} {step : Step κ}

/-- A wait goes on with its own steps. -/
theorem Await.awaits (await : client.Await environment phase step) {timeout : Option Span}
    {token : Option Token} (awaits : phase.Awaits timeout token) {later : Phase κ}
    (goesOn : step.next = .goesOn later) : later.Awaits timeout token := by
  cases await with
  | limited hosted timed =>
    cases goesOn
    exact ⟨awaits.1, awaits.2, awaits.1.symm.trans timed⟩
  | granted =>
    cases goesOn
    exact ⟨awaits.1, awaits.2.1⟩
  | _ =>
    cases goesOn <;> exact awaits

/-- A step of a wait leaves its client alone. -/
theorem Await.client_eq (await : client.Await environment phase step) : step.client = client := by
  cases await <;> rfl

end Client

end Correlator
