import Correlator.Proofs.Client.Exit

/-!
Contract: the steps that concern no request: what they leave alone.

Owns: whether a table is closed after some effects, and of these steps that they fail in one way only, that
they leave the transports alone but for a release, and that they leave their client's table open.

Does not own: which steps these are and how they end (`Correlator.Proofs.Client.Sidestep`), and that clients and
cells stay as they are in them (`Client.Exit.aside`).
-/

set_option autoImplicit false

namespace Correlator

namespace Effect

/-- Whether a table is closed after an effect, if it was closed or not before. -/
def closed (before : Bool) : Effect → Bool
  | .locked => true
  | .unlocked => false
  | _ => before

/-- Whether a table that was open is closed after some effects. -/
def closes (effects : List Effect) : Bool := effects.foldl closed false

/-- Effects that neither close nor open a table keep it as it is. -/
private theorem foldl_closed {effects : List Effect} (before : Bool)
    (keeps : ∀ effect ∈ effects, effect.closed before = before) :
    effects.foldl closed before = before := by
  induction effects with
  | nil => rfl
  | cons effect rest inductionHypothesis =>
    rw [List.foldl_cons, keeps effect List.mem_cons_self]
    apply inductionHypothesis
    intro later member
    exact keeps later (List.mem_cons_of_mem _ member)

/-- A table that is never closed stays open. -/
theorem closes_of_never_locked {effects : List Effect}
    (never : ∀ effect ∈ effects, effect ≠ .locked) : closes effects = false := by
  apply foldl_closed
  intro effect member
  have other := never effect member
  cases effect with
  | locked => exact absurd rfl other
  | _ => rfl

/-- After effects that leave the table open, others close it as if they were the first. -/
theorem closes_append {first : List Effect} (opened : closes first = false) (second : List Effect) :
    closes (first ++ second) = closes second := by
  unfold closes at opened ⊢
  rw [List.foldl_append, opened]

end Effect

namespace Environment

/-- What a transport has sent so far; none if there is no such transport. -/
def sent? (environment : Environment) (index : TransportId) : Option (List (Sequence × Request)) :=
  environment.transports[index]?.map (·.sent)

/-- A change of one transport shows there, and nowhere else. -/
theorem getElem?_setTransport (environment : Environment) (changed index : TransportId)
    (transport : Transport.Loopback) :
    (environment.setTransport changed transport).transports[index]?
      = if changed = index then environment.transports[index]?.map fun _ => transport
        else environment.transports[index]? := by
  unfold setTransport
  rw [List.getElem?_set]
  by_cases same : changed = index
  · subst same
    by_cases below : changed < environment.transports.length
    · simp [below]
    · simp [below]
  · simp [same]

theorem sent?_setTransport (environment : Environment) (changed index : TransportId)
    (transport : Transport.Loopback) :
    (environment.setTransport changed transport).sent? index
      = if changed = index then (environment.sent? index).map fun _ => transport.sent
        else environment.sent? index := by
  unfold sent?
  rw [getElem?_setTransport]
  by_cases same : changed = index
  · simp [same, Function.comp_def]
  · simp [same]

theorem sent?_eq_transport {environment : Environment} {index : TransportId}
    {log : List (Sequence × Request)} (known : environment.sent? index = some log) :
    (environment.transport index).sent = log := by
  unfold sent? at known
  obtain ⟨found, search, rfl⟩ := Option.map_eq_some_iff.mp known
  simp [transport, search]

/-- A change of a transport that sends nothing does not show. -/
theorem sent?_setTransport_of_silent (environment : Environment) (changed index : TransportId)
    {transport : Transport.Loopback}
    (silent : transport.sent = (environment.transport changed).sent) :
    (environment.setTransport changed transport).sent? index = environment.sent? index := by
  rw [sent?_setTransport]
  by_cases same : changed = index
  · subst same
    rw [if_pos rfl, silent]
    cases known : environment.sent? changed with
    | none => rfl
    | some log =>
      rw [sent?_eq_transport known]
      rfl
  · rw [if_neg same]

theorem transports_eq_of_readClock {environment timed : Environment} {clock : ClockChoice}
    {now : Option Moment} (read : environment.readClock clock = (now, timed)) :
    timed.transports = environment.transports := by
  rw [eq_of_readClock read]

@[simp] theorem sleep_transports (environment : Environment) (nap : Span) (clock : ClockChoice) :
    (environment.sleep nap clock).transports = environment.transports := by
  cases clock <;> rfl

theorem sent?_congr {left right : Environment} (same : left.transports = right.transports)
    (index : TransportId) : left.sent? index = right.sent? index := by
  unfold sent?
  rw [same]

end Environment

namespace Client

variable {κ : Type}

/-- What a step leaves alone that concerns no request. -/
structure Unobtrusive (client : Client κ) (environment : Environment) (step : Step κ) : Prop where
  /-- It fails only because the client is disposed of. -/
  error : ∀ error, step.next = .returned (.error error) → error = .invalidHandle client.service
  /-- No transport sends anything. -/
  sent : ∀ index, step.environment.sent? index = environment.sent? index
  /-- The table is open afterwards. -/
  opened : Effect.closes step.effects = false

variable (client : Client κ) (environment : Environment)

/-- A step that concerns no request leaves the transports as they are, but for a release of its client's. -/
theorem transports_step {phase : Phase κ} (isAside : phase.isAside = true) :
    (client.step environment phase).environment.transports = environment.transports
      ∨ (client.step environment phase).environment.transports
        = (environment.setTransport client.transport
            (environment.transport client.transport).release).transports := by
  have sidestep := client.sidestep_step environment isAside
  generalize client.step environment phase = step at sidestep ⊢
  cases sidestep with
  | released observe => exact .inr rfl
  | timed read calm => exact .inl (Environment.transports_eq_of_readClock read)
  | @slept phase nap next calm => exact .inl (environment.sleep_transports nap client.clock)
  | _ => exact .inl rfl

/-- A release of a transport sends nothing. -/
private theorem sent?_of_isAside {phase : Phase κ} (isAside : phase.isAside = true)
    (index : TransportId) :
    (client.step environment phase).environment.sent? index = environment.sent? index := by
  rcases client.transports_step environment isAside with same | released
  · exact Environment.sent?_congr same index
  · rw [Environment.sent?_congr released]
    exact environment.sent?_setTransport_of_silent client.transport index rfl

variable {client : Client κ} {environment : Environment}

private theorem Sidestep.error_eq {phase : Phase κ} {step : Step κ}
    (sidestep : client.Sidestep environment phase step) {error : ClientError}
    (returned : step.next = .returned (.error error)) : error = .invalidHandle client.service := by
  cases sidestep with
  | gone disposed =>
    cases returned
    rfl
  | entered live calm | timed read calm | looked observes calm | queried calm | slept calm =>
    exact absurd returned (Next.ne_error_of_isCalm calm error)
  | signedOff | unhosted | released => cases returned

private theorem Sidestep.opened {phase : Phase κ} {step : Step κ}
    (sidestep : client.Sidestep environment phase step) : Effect.closes step.effects = false := by
  cases sidestep with
  | gone | entered => rfl
  | timed | queried | slept | signedOff | unhosted =>
    exact Effect.closes_of_never_locked (by simp)
  | looked observes =>
    refine Effect.closes_of_never_locked (List.forall_mem_singleton.mpr ?_)
    rintro rfl
    cases observes
  | released observe =>
    refine Effect.closes_of_never_locked (List.forall_mem_cons.mpr ⟨by simp, ?_⟩)
    rintro effect member rfl
    cases observe _ member

theorem unobtrusive_step (client : Client κ) (environment : Environment) {phase : Phase κ}
    (isAside : phase.isAside = true) :
    client.Unobtrusive environment (client.step environment phase) :=
  have sidestep := client.sidestep_step environment isAside
  ⟨fun _ => sidestep.error_eq, client.sent?_of_isAside environment isAside, sidestep.opened⟩

end Client

end Correlator
