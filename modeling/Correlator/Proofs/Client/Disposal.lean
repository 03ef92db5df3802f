import Correlator.Proofs.Client.Aside
import Correlator.Proofs.Transport.Loopback
import Correlator.World

/-!
Contract: the end of a client's use, step by step.

Owns: which steps a client takes when it goes out of use, what it does in them to its host and to its
transport, and that all other steps leave the use of the client, the hosts and the releases alone.

Does not own: that these steps follow each other once at most in a whole course
(`Correlator.Proofs.Course.Disposal`).
-/

set_option autoImplicit false

namespace Correlator

/-- What a client does when it goes out of use, apart from going. -/
inductive Farewell where
  | deregistered (service : String)
  | released (transport : TransportId)
  /-- The dispose succeeds. -/
  | succeeded
deriving DecidableEq, Repr

def Effect.farewell? : Effect → Option Farewell
  | .deregistered service => some (.deregistered service)
  | .released transport => some (.released transport)
  | _ => none

def Next.succeeds {κ : Type} : Next κ → Bool
  | .returned (.ok _) => true
  | _ => false

namespace Phase

variable {κ : Type}

/-- The steps that remain of a dispose once its client is out of use. -/
def isRetiring : Phase κ → Bool
  | .deregister _ | .release _ => true
  | _ => false

/-- All steps of a dispose. -/
def disposes : Phase κ → Bool
  | .dispose | .deregister _ | .release _ => true
  | _ => false

end Phase

/-- A continuation with a dispose that has yet to be carried through. -/
def Next.isRetiring {κ : Type} : Next κ → Bool
  | .goesOn phase => phase.isRetiring
  | _ => false

/-- What the client did in a turn when it went out of use. -/
def Turn.farewells {κ : Type} (turn : Turn κ) : List Farewell :=
  turn.effects.filterMap Effect.farewell?
    ++ if turn.phase.disposes && turn.next.succeeds then [.succeeded] else []

namespace Environment

/-- What a change leaves alone about the host that it is made to, it leaves alone about all. -/
theorem host_setHost_congr {α : Type} (view : Host → α) (environment : Environment) (index other : HostId)
    {changed : Host} (same : view changed = view (environment.host index)) :
    view ((environment.setHost index changed).host other) = view (environment.host other) := by
  rw [host_setHost]
  split
  next own => exact own ▸ same
  next => rfl

/-- How often a transport was released; none if there is no such transport. -/
def released? (environment : Environment) (index : TransportId) : Option Nat :=
  environment.transports[index]?.map (·.releases)

theorem released?_congr {left right : Environment} (same : left.transports = right.transports)
    (index : TransportId) : left.released? index = right.released? index := by
  unfold released?
  rw [same]

theorem released?_eq_transport {environment : Environment} {index : TransportId} {count : Nat}
    (known : environment.released? index = some count) :
    (environment.transport index).releases = count := by
  unfold released? at known
  obtain ⟨found, search, rfl⟩ := Option.map_eq_some_iff.mp known
  simp [transport, search]

/-- A change of a transport shows in the number of its releases by as much as they grow. -/
theorem released?_setTransport (environment : Environment) (changed index : TransportId)
    {transport : Transport.Loopback} {more : Nat}
    (grows : transport.releases = (environment.transport changed).releases + more) :
    (environment.setTransport changed transport).released? index
      = (environment.released? index).map (· + if changed = index then more else 0) := by
  unfold released?
  rw [getElem?_setTransport]
  by_cases same : changed = index
  · subst same
    rw [if_pos rfl, if_pos rfl]
    cases found : environment.transports[changed]? with
    | none => rfl
    | some before =>
      have known : (environment.transport changed).releases = before.releases := by
        apply released?_eq_transport
        simp [released?, found]
      simp [grows, known]
  · simp [same, Function.comp_def]

end Environment

namespace Client

variable {κ : Type}

/-- What a step leaves alone that is not part of a client's going out of use. -/
structure Stays (client : Client κ) (environment : Environment) (step : Step κ) : Prop where
  client_eq : step.client.descriptor = client.descriptor ∧ step.client.transport = client.transport
    ∧ step.client.disposed = client.disposed
  hosts : step.environment.hosts = environment.hosts
  released : ∀ index, step.environment.released? index = environment.released? index
  quiet : ∀ effect ∈ step.effects, effect.farewell? = none
  next : step.next.isRetiring = false

variable (client : Client κ) (environment : Environment)

/-! ### Steps that concern no request -/

private theorem stays_of_unchanged (effects : List Effect) {next : Next κ} {after : Environment}
    (transports : after.transports = environment.transports)
    (hosts : after.hosts = environment.hosts)
    (quiet : ∀ effect ∈ effects, effect.farewell? = none) (goesOn : next.isRetiring = false) :
    client.Stays environment ⟨client, after, effects, next⟩ where
  client_eq := ⟨rfl, rfl, rfl⟩
  hosts := hosts
  released := Environment.released?_congr transports
  quiet := quiet
  next := goesOn

private theorem not_retiring_of_isCalm {next : Next κ} (calm : next.isCalm = true) :
    next.isRetiring = false := by
  cases next with
  | goesOn phase => cases phase <;> first | rfl | cases calm
  | callsBack | returned | failed => rfl

private theorem farewell?_of_observes {effect : Effect} (observes : effect.observes = true) :
    effect.farewell? = none := by
  cases effect <;> first | rfl | cases observes

/-- Steps that concern no request leave all of this alone, unless they belong to a dispose. -/
private theorem stays_of_isAside {phase : Phase κ} (isAside : phase.isAside = true)
    (notRetiring : phase.isRetiring = false) :
    client.Stays environment (client.step environment phase) := by
  have sidestep := client.sidestep_step environment isAside
  generalize client.step environment phase = step at sidestep ⊢
  cases sidestep with
  | gone disposed =>
    exact client.stays_of_unchanged environment _ rfl rfl (by simp [Effect.farewell?]) rfl
  | entered live calm | queried calm =>
    exact client.stays_of_unchanged environment _ rfl rfl (by simp [Effect.farewell?])
      (not_retiring_of_isCalm calm)
  | timed read calm =>
    rw [Environment.eq_of_readClock read]
    exact client.stays_of_unchanged environment _ rfl rfl (by simp [Effect.farewell?])
      (not_retiring_of_isCalm calm)
  | looked observes calm =>
    exact client.stays_of_unchanged environment _ rfl rfl
      (by simpa using farewell?_of_observes observes) (not_retiring_of_isCalm calm)
  | @slept phase nap next calm =>
    exact client.stays_of_unchanged environment _ (environment.sleep_transports nap client.clock)
      (by cases client.clock <;> rfl) (by simp [Effect.farewell?]) (not_retiring_of_isCalm calm)
  | signedOff | unhosted | released => cases notRetiring

/-! ### All steps -/

private theorem released?_of_sent {request : Request} {timed : Environment}
    (same : timed.transports = (environment.setTransport client.transport
      ((environment.transport client.transport).send request).2).transports)
    (index : TransportId) : timed.released? index = environment.released? index := by
  have none : ((environment.transport client.transport).send request).2.releases
      = (environment.transport client.transport).releases + 0 :=
    (environment.transport client.transport).send_releases request
  rw [Environment.released?_congr same, environment.released?_setTransport _ _ none]
  simp

/-- A step leaves the use of its client alone, unless it is part of a dispose that gets through. -/
theorem stays_step {phase : Phase κ} (notRetiring : phase.isRetiring = false)
    (late : phase = .dispose → client.disposed = true) :
    client.Stays environment (client.step environment phase) := by
  by_cases isAside : phase.isAside = true
  · exact client.stays_of_isAside environment isAside notRetiring
  have exit := client.exit_step environment phase
  generalize client.step environment phase = step at exit ⊢
  cases exit with
  | gone | full | missed | unmatched | lost | counted | countedBefore | handedOver | cancelled =>
    exact ⟨⟨rfl, rfl, rfl⟩, rfl, fun _ => rfl, by simp [Effect.farewell?], rfl⟩
  | @unsent request callback failure transport live room failed =>
    refine ⟨⟨rfl, rfl, rfl⟩, rfl, ?_, by simp [Effect.farewell?], rfl⟩
    apply client.released?_of_sent environment
    rw [failed]
  | untimed live room sent read | doubled live room sent read
  | stored live room sent read =>
    have transports := Environment.transports_eq_of_readClock read
    have hosts := congrArg Environment.hosts (Environment.eq_of_readClock read)
    refine ⟨⟨rfl, rfl, rfl⟩, hosts, ?_, by simp [Effect.farewell?], rfl⟩
    apply client.released?_of_sent environment
    rw [sent]
    exact transports
  | @matched sequence response entry wakers cells live found filled =>
    refine ⟨⟨rfl, rfl, rfl⟩, rfl, fun _ => rfl, ?_, rfl⟩
    intro effect member
    simp only [List.mem_cons, List.mem_append, List.mem_map, List.not_mem_nil, or_false] at member
    rcases member with rfl | rfl | rfl | ⟨waker, -, rfl⟩ | rfl <;> rfl
  | @pruned _ scope stale live prunes =>
    refine ⟨⟨rfl, rfl, rfl⟩, rfl, fun _ => rfl, ?_, rfl⟩
    intro effect member
    simp only [List.mem_cons, List.mem_append, List.mem_map, mem_pruneReport, List.not_mem_nil,
      or_false] at member
    rcases member with rfl | (⟨row, -, rfl⟩ | ⟨-, rfl | rfl⟩) | rfl <;> rfl
  | retired live =>
    rw [late rfl] at live
    cases live
  | aside aside => exact absurd aside isAside

theorem step_dispose {client : Client κ} (live : client.disposed = false)
    (environment : Environment) :
    client.step environment .dispose
      = ⟨{ client with disposed := true }, environment, [.locked, .unlocked],
          .goesOn (.deregister client.pendingCount)⟩ :=
  whileLive_of_live live environment _

/-- Neither a host nor a transport hears of a client's going before the client is out of use. -/
theorem quiet_step {phase : Phase κ} (notRetiring : phase.isRetiring = false) :
    (client.step environment phase).environment.hosts = environment.hosts
    ∧ (∀ index, (client.step environment phase).environment.released? index
      = environment.released? index)
    ∧ ∀ effect ∈ (client.step environment phase).effects, effect.farewell? = none := by
  by_cases goes : phase = .dispose ∧ client.disposed = false
  · obtain ⟨rfl, live⟩ := goes
    rw [step_dispose live]
    exact ⟨rfl, fun _ => rfl, by simp [Effect.farewell?]⟩
  · have stays := client.stays_step environment notRetiring fun isDispose => by
      simpa [isDispose] using goes
    exact ⟨stays.hosts, stays.released, stays.quiet⟩

/-- A client that signs off looks for its host and goes on, whether the host is there or not. -/
theorem step_deregister (orphaned : Nat) :
    (client.step environment (.deregister orphaned)).client = client
    ∧ (client.step environment (.deregister orphaned)).next = .goesOn (.release orphaned)
    ∧ ∀ known, .sawHost known ∈ (client.step environment (.deregister orphaned)).effects
      ↔ known = (environment.host client.host).isValid := by
  unfold step deregister
  cases (environment.host client.host).isValid <;> simp

/-- Only the first two steps of a dispose leave something of it to be done, and they do not sleep. -/
theorem awake_of_retiring {phase : Phase κ}
    (retires : (client.step environment phase).next.isRetiring = true) :
    (phase = .dispose ∨ ∃ orphaned, phase = .deregister orphaned)
    ∧ ∀ clock nap, .slept clock nap ∉ (client.step environment phase).effects := by
  by_cases goes : phase = .dispose ∧ client.disposed = false
  · obtain ⟨rfl, live⟩ := goes
    rw [step_dispose live]
    exact ⟨Or.inl rfl, by simp⟩
  · by_cases late : phase.isRetiring = true
    · cases phase with
      | deregister orphaned =>
        unfold step deregister
        cases (environment.host client.host).isValid <;> simp
      | release orphaned => cases retires
      | _ => cases late
    · have stays := client.stays_step environment (by simpa using late) fun isDispose => by
        simpa [isDispose] using goes
      rw [stays.next] at retires
      cases retires

end Client

end Correlator
