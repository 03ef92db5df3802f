import Correlator.Proofs.Course.Ledger
import Correlator.Proofs.Session.Run
import Correlator.Proofs.Session.Start

/-!
Contract: what the transports of a session record.

Owns: that each transport records just the requests that its clients sent, in their order, what a submit
takes from its transport that sends nothing, and how many requests were sent, by the counts of the
clients.

Does not own: the same along courses (`Correlator.Proofs.Course.Ledger`).
-/

set_option autoImplicit false

namespace Correlator

namespace Client

variable {κ : Type} {client : Client κ} {environment : Environment} {request : Request}
  {callback : Option κ} {step : Step κ}

/-- What a submit takes from its transport if it sends nothing. -/
structure Withholds (client : Client κ) (environment : Environment) (step : Step κ) : Prop where
  /-- A submit that finds its client disposed of, or with no room left, does not come to the
  transport. -/
  barred : (∃ service, step.next = .returned (.error (.invalidHandle service)))
      ∨ (∃ service limit, step.next = .returned (.error (.capacityExceeded service limit))) →
    step.environment = environment
  /-- A submit that fails to be sent uses up the first failure, and no number. -/
  failed : ∀ service failure, step.next = .returned (.error (.transmit service failure)) →
    ∃ rest, (environment.transport client.transport).failures = failure :: rest
      ∧ step.environment = environment.setTransport client.transport
        { environment.transport client.transport with failures := rest }

theorem Exit.withholds (exit : client.Exit environment (.submit request callback) step) :
    client.Withholds environment step := by
  cases exit with
  | gone disposed begins => exact ⟨fun _ => rfl, by simp⟩
  | full live reached => exact ⟨fun _ => rfl, by simp⟩
  | unsent live room failed =>
    obtain ⟨rest, queued, rfl⟩ := Transport.Loopback.send_eq_error failed
    refine ⟨by simp, ?_⟩
    intro service failure returned
    cases returned
    exact ⟨rest, queued, rfl⟩
  | untimed | doubled | stored => exact ⟨by simp, by simp⟩
  | pruned live prunes => cases prunes
  | aside isAside client_eq cells_eq effects next => cases isAside

/-- A submit that breaks off has sent its request, once. -/
theorem Exit.dispatched_of_failed (exit : client.Exit environment (.submit request callback) step)
    {fault : Fault} (failed : step.next = .failed fault) (index : ClientId) (service : String) :
    ∃ sequence, Turn.dispatched
      ⟨index, service, .submit request callback, step.effects, step.next⟩
        = [(sequence, request)] := by
  cases exit with
  | untimed live room sent read => exact ⟨_, rfl⟩
  | pruned live prunes => cases prunes
  | aside isAside client_eq cells_eq effects next => cases isAside
  | _ => cases failed

end Client

namespace Session.Point

variable {session : Session} {point : Point} {transport : TransportId}

private theorem dispatched_of_breaks (leads : (opening session).Leads point)
    (keeps : point.KeepsToClients) {turn : Turn Program} (member : turn ∈ point.turns)
    (breaks : turn.breaksSubmit = true) :
    ∃ request callback sequence, turn.phase = .submit request callback
      ∧ turn.dispatched = [(sequence, request)] := by
  obtain ⟨earlier, world, -, -, -, made⟩ := leads.turn_made keeps member
  obtain ⟨client, -, equal, -⟩ := World.step?_eq_some made
  unfold Turn.breaksSubmit at breaks
  split at breaks
  next request callback fault phase failed =>
    have exit := client.exit_step earlier.machine.session.world.environment turn.phase
    rw [equal] at failed ⊢
    rw [phase] at exit failed ⊢
    obtain ⟨sequence, one⟩ := exit.dispatched_of_failed failed turn.client client.service
    exact ⟨request, callback, sequence, rfl, one⟩
  next => cases breaks

/-- The ledger of a transport. At every point of a run, whatever clients share the transport and
whatever failures and numbers were queued, it has recorded just the requests of those submits on its
clients that were accepted, that were rejected for their number, or that broke off once they were sent,
in their order. A submit that ends in another way takes a failure from it at most, and only if it is
this failure that it ends with. If no submit broke off, the requests sent are as many as the clients
count as submitted, and those that were rejected for their number. -/
theorem ledger (fresh : session.world.IsFresh) (leads : (opening session).Leads point)
    (keeps : point.KeepsToClients)
    (unused : session.world.environment.sent? transport = some []) :
    let world := point.machine.session.world
    let sent := shared point.turns (world.uses transport) Turn.dispatched
    world.environment.sent? transport = some sent
    ∧ (∀ turn ∈ point.turns, turn.breaksSubmit = true →
      ∃ request callback sequence, turn.phase = .submit request callback
        ∧ turn.dispatched = [(sequence, request)])
    ∧ (∀ index client, point.machine.session.client? index = some client → ∀ request callback,
      client.Withholds world.environment
        (client.step world.environment (.submit request callback)))
    ∧ ((∀ turn ∈ point.turns, world.uses transport turn.client = true →
        turn.breaksSubmit = false) →
      let counted := ∑ index ∈ world.sharing transport, world.submitted index
        + (shared point.turns (world.uses transport) Turn.duplicated).length
      sent.length ≡ counted [MOD UInt64.size]
        ∧ (sent.length < UInt64.size → sent.length = counted)) := by
  intro world sent
  obtain ⟨course, led, mirrors⟩ := leads.mirrors keeps
  have world_eq : course.world = world := mirrors.world
  have users : session.world.uses transport = world.uses transport := by
    funext index
    rw [← led.uses_eq, world_eq]
  refine ⟨?_, ?_, ?_, ?_⟩
  · have recorded := led.sent?_eq transport
    rw [world_eq, unused, users, mirrors.turns] at recorded
    exact recorded
  · intro turn member breaks
    exact dispatched_of_breaks leads keeps member breaks
  · intro index client found request callback
    exact (client.exit_step world.environment _).withholds
  · intro calm
    have length := led.length_dispatched fresh transport
    rw [world_eq, mirrors.turns] at length
    exact length calm

/-- When a session begins, nothing has been sent over any of its transports. -/
theorem sent?_of_start {specs : List ClientSpec} {registries : Pool Discovery}
    (started : start specs registries = .ok session) (below : transport < specs.length) :
    session.world.environment.sent? transport = some [] := by
  unfold start at started
  dsimp only at started
  split at started
  · cases started
  · cases started
    simp [Environment.sent?, below]

/-- A session with two clients on one transport. -/
def pair : Session :=
  { world :=
      { clients := [newcomer "echo" 0, newcomer "time" 0]
        environment := { transports := [{}, {}], tokens := TokenShelf.empty.fresh.2 } }
    shutdown := TokenShelf.empty.fresh.1 }

theorem start_pair :
    start [{ service := "echo", transport := 0 }, { service := "time", transport := 0 }] {}
      = .ok pair := by
  rfl

/-- A point after both clients have sent: one request was not sent, and one rejected for its number. -/
def charged : Point :=
  ((((((opening pair).ask (.submit 0 "first" none)).next.next.next.ask
    (.failNext 0 ⟨.io, "unplugged"⟩)).next.ask (.submit 1 "second" none)).next.next.next.ask
      (.forceNext 0 ⟨1⟩)).next.ask (.submit 0 "third" none)).next.next.next.ask
        (.submit 1 "fourth" none) |>.next.next.next

theorem leads_charged : (opening pair).Leads charged :=
  .next (.next (.next (.ask _ (.next (.next (.next (.ask _ (.next (.ask _ (.next (.next (.next
    (.ask _ (.next (.ask _ (.next (.next (.next (.ask _ .here rfl)))) rfl)) rfl)))) rfl)) rfl))))
      rfl)))

/-- The transport has recorded three requests, two that the clients count and the rejected one. -/
theorem ledger_charged :
    charged.machine.session.world.environment.sent? 0
        = some [(⟨1⟩, "first"), (⟨1⟩, "third"), (⟨2⟩, "fourth")]
      ∧ 3 = ∑ index ∈ charged.machine.session.world.sharing 0,
          charged.machine.session.world.submitted index + 1 := by
  have unused : pair.world.environment.sent? 0 = some [] := sent?_of_start start_pair (by decide)
  obtain ⟨recorded, -, -, length⟩ :=
    ledger (isFresh_of_start start_pair) leads_charged (by decide) unused
  exact ⟨recorded, (length (by decide)).2 (by decide)⟩

end Session.Point

end Correlator
