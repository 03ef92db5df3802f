import Correlator.Proofs.Course.Numbering
import Correlator.Proofs.Session.Direct
import Correlator.Proofs.Session.Ledger
import Correlator.Proofs.Session.Turn

/-!
Contract: the numbers of a session's requests.

Owns: that a transport for which no number was queued numbers the requests of all its clients from one on, what
follows for their pending requests and for their futures, and that the numbers start over after the last one.

Does not own: what steps and courses make of the numbers (`Correlator.Proofs.Course.Numbering`).
-/

set_option autoImplicit false

namespace Correlator.Session

/-- Queues a number for a request over this transport. -/
def Task.forces (transport : TransportId) : Task → Bool
  | .perform (.forceNext queued _) _ => queued == transport
  | _ => false

namespace Point

/-- No number was queued for a request over this transport. -/
def Unforced (point : Point) (transport : TransportId) : Prop :=
  ∀ task ∈ point.done, task.forces transport = false

instance (point : Point) (transport : TransportId) : Decidable (point.Unforced transport) :=
  inferInstanceAs (Decidable (∀ task ∈ point.done, task.forces transport = false))

/-- How the requests over a transport are numbered at a point of a run, by the state of the transport. -/
structure Numbering (point : Point) (transport : TransportId) (loopback : Transport.Loopback) :
    Prop where
  /-- The transport has recorded what the submits of its clients sent. -/
  recorded : loopback.sent
    = shared point.turns (point.machine.session.world.uses transport) Turn.dispatched
  /-- The `i`-th of these requests has the number `i`. -/
  numbers : loopback.sent.map (·.1.number.toNat) = List.range' 1 loopback.sent.length
  /-- A submit that sends nothing takes no number. -/
  unsent : ∀ index client, point.machine.session.client? index = some client →
    ∀ request callback,
      let step := client.step point.machine.session.environment (.submit request callback)
      (∀ sequence, Effect.sent request sequence ∉ step.effects) →
        (step.environment.transports[transport]?).map (·.allocator) = some loopback.allocator
  /-- A number that is pending was handed out before, -/
  pending : ∀ index client, point.machine.session.client? index = some client →
    client.transport = transport → ∀ row ∈ client.table.rows,
      row.1.number.toNat ≤ loopback.sent.length
        ∧ (loopback.sent.length + 1 < UInt64.size → row.1 < loopback.allocator.peek)
  /-- and after the last number the allocator starts over. -/
  startsOver : loopback.sent.length + 1 = UInt64.size → loopback.allocator.peek = ⟨0⟩
  /-- The numbers of accepted requests ascend in the order in which these were submitted. -/
  ascending : (shared point.turns (point.machine.session.world.uses transport)
    Turn.accepted).Pairwise (· < ·)
  /-- No request was rejected for its number. -/
  once : ∀ turn ∈ point.turns, point.machine.session.world.uses transport turn.client = true →
    turn.duplicated = []

section Numbering

variable {session : Session} {point : Point} {transport : TransportId}

theorem Unforced.of_work {task : Task} {agenda : List Task}
    (unforced : (point.work task agenda).Unforced transport) :
    point.Unforced transport ∧ task.forces transport = false :=
  ⟨fun earlier member => unforced earlier (List.mem_append_left _ member),
    unforced task (List.mem_append_right _ (List.mem_singleton.mpr rfl))⟩

/-- A run in which no number is queued keeps a transport numbering from one on. -/
theorem Leads.numbers (leads : (opening session).Leads point) (keeps : point.KeepsToClients)
    (unforced : point.Unforced transport) (numbers : session.world.environment.Numbers transport) :
    point.machine.session.world.environment.Numbers transport := by
  induction leads with
  | here => exact numbers
  | ask op leads idle inductionHypothesis => exact inductionHypothesis keeps unforced
  | @work point task agenda leads first inductionHypothesis =>
    obtain ⟨earlier, calm⟩ := unforced.of_work
    have before := inductionHypothesis keeps.of_work.1 earlier
    have alters := Machine.alters_carryOut { point.machine with agenda } task
    unfold Point.work Point.after
    generalize (Machine.carryOut { point.machine with agenda } task).2 = next at alters
    cases alters with
    | stores cells world_eq =>
      rw [world_eq]
      exact before
    | acts act world_eq asked =>
      rw [world_eq]
      refine before.apply fun sequence forces => ?_
      obtain ⟨own, rfl⟩ := asked transport sequence forces
      simp [Task.forces] at calm
    | steps client phase turn made =>
      obtain ⟨actor, -, -, world_eq⟩ := World.step?_eq_some made
      rw [world_eq]
      exact actor.numbers_step _ before

/-- A transport that has not been used records what the submits of its clients send. -/
theorem Leads.sent_eq (leads : (opening session).Leads point) (keeps : point.KeepsToClients)
    (unused : session.world.environment.transports[transport]? = some {})
    {loopback : Transport.Loopback}
    (found : point.machine.session.environment.transports[transport]? = some loopback) :
    loopback.sent
      = shared point.turns (point.machine.session.world.uses transport) Turn.dispatched := by
  obtain ⟨course, led, mirrors⟩ := leads.mirrors keeps
  have users : session.world.uses transport = point.machine.session.world.uses transport := by
    funext index
    rw [← led.uses_eq, mirrors.world]
  have sent := led.sent?_eq transport
  unfold Environment.sent? at sent
  rw [mirrors.world, unused, users, mirrors.turns,
    show point.machine.session.world.environment.transports[transport]? = some loopback
      from found] at sent
  simpa using sent

/-- What a client has pending, its transport has sent. -/
theorem Leads.sent_of_pending (leads : (opening session).Leads point)
    (keeps : point.KeepsToClients) (fresh : session.world.IsFresh)
    (unused : session.world.environment.transports[transport]? = some {})
    {loopback : Transport.Loopback}
    (found : point.machine.session.environment.transports[transport]? = some loopback)
    {index : ClientId} {client : Client Program}
    (known : point.machine.session.client? index = some client)
    (own : client.transport = transport) {row : Sequence × Pending.Entry Program}
    (member : row ∈ client.table.rows) : row.1 ∈ loopback.sent.map (·.1) := by
  have uses : point.machine.session.world.uses transport index = true := by
    unfold World.uses
    rw [show point.machine.session.world.clients[index]? = some client from known]
    simpa using own
  obtain ⟨course, led, mirrors⟩ := leads.mirrors keeps
  have sent := led.pending_dispatched fresh (mirrors.client? known) uses member
  rw [leads.sent_eq keeps unused found, ← mirrors.turns]
  exact sent

/-- Fresh numbers. However many clients share a transport that has not been used, as long as no number is queued
for it and no more than `2 ^ 64 - 1` requests are sent over it, it numbers them from one on. -/
theorem numbering (fresh : session.world.IsFresh) (leads : (opening session).Leads point)
    (keeps : point.KeepsToClients)
    (unused : session.world.environment.transports[transport]? = some {})
    (unforced : point.Unforced transport) :
    ∃ loopback, point.machine.session.environment.transports[transport]? = some loopback
      ∧ (loopback.sent.length < UInt64.size → point.Numbering transport loopback) := by
  obtain ⟨loopback, found, numbered⟩ :=
    leads.numbers keeps unforced ⟨{}, unused, Transport.Loopback.numbered_unused⟩
  refine ⟨loopback, found, fun few => ?_⟩
  have recorded := leads.sent_eq keeps unused found
  have ascends := numbered.ascending few
  refine ⟨recorded, numbered.toNat_numbers few, ?_, ?_, ?_, ?_, ?_⟩
  · intro index client known request callback step silent
    have exit := client.exit_step point.machine.session.environment (.submit request callback)
    refine (exit.allocator_eq silent transport).trans ?_
    exact congrArg (Option.map (·.allocator)) found
  · intro index client known own row member
    have sent := leads.sent_of_pending keeps fresh unused found known own member
    exact ⟨numbered.toNat_le few sent, fun fewer => numbered.lt_peek fewer sent⟩
  · intro last
    show Sequence.mk loopback.allocator.next = _
    rw [numbered.next, last]
    rfl
  · rw [recorded] at ascends
    exact ascends.sublist (shared_accepted_sublist point.turns _)
  · intro turn member uses
    obtain ⟨course, led, mirrors⟩ := leads.mirrors keeps
    rw [recorded, ← mirrors.turns] at ascends
    refine led.not_duplicated fresh (ascends.imp ?_) (mirrors.turns.symm ▸ member) uses
    rintro left _ below rfl
    exact Sequence.lt_irrefl left below

end Numbering

/-- A point after two clients on one transport have sent; one request failed to be sent. -/
def alternating : Point :=
  ((((opening pair).ask (.submit 0 "first" none)).next.next.next.ask
    (.failNext 0 ⟨.io, "unplugged"⟩)).next.ask (.submit 1 "second" none)).next.next.next.ask
      (.submit 1 "third" none) |>.next.next.next

theorem leads_alternating : (opening pair).Leads alternating :=
  .next (.next (.next (.ask _ (.next (.next (.next (.ask _ (.next (.ask _ (.next (.next (.next
    (.ask _ .here rfl)))) rfl)) rfl)))) rfl)))

/-- The request that failed to be sent has taken no number. -/
theorem numbering_alternating :
    ∃ loopback, alternating.machine.session.environment.transports[0]? = some loopback
      ∧ loopback.sent = [(⟨1⟩, "first"), (⟨2⟩, "third")]
      ∧ alternating.Numbering 0 loopback := by
  obtain ⟨loopback, found, numbers⟩ := numbering (isFresh_of_start start_pair) leads_alternating
    (by decide) (show pair.world.environment.transports[0]? = some ({} : Transport.Loopback) from rfl)
    (by decide)
  have recorded : (some loopback).map (·.sent) = some [(⟨1⟩, "first"), (⟨2⟩, "third")] := by
    rw [← found]
    rfl
  have sent : loopback.sent = [(⟨1⟩, "first"), (⟨2⟩, "third")] := Option.some.inj recorded
  exact ⟨loopback, found, sent, numbers (by rw [sent]; decide)⟩

/-! ### The last number -/

/-- A submit that is accepted changes the clients and the environment as its step does. -/
theorem submit_accepted {point : Point} {index : ClientId} {client : Client Program}
    (found : point.machine.session.client? index = some client) {request : Request}
    {future : Future}
    (accepted : (client.step point.machine.session.environment (.submit request none)).next
      = .returned (.ok (.submitted future))) :
    let step := client.step point.machine.session.environment (.submit request none)
    let later := (point.ask (.submit index request none)).next.next.next
    later.machine.agenda = []
      ∧ later.machine.session.world
        = ⟨point.machine.session.world.clients.set index step.client, step.environment⟩
      ∧ later.done = point.done ++ [.perform (.submit index request none) none,
        .advance index (.submit request none), .finish .submission] := by
  intro step later
  have asked := next_of_ask_submit found request none
  obtain ⟨turn, stepped⟩ := @Machine.step_of_returned
    { session := point.machine.session, agenda := [.finish .submission] } index client found
    (.submit request none) rfl _ accepted
  have made : (point.ask (.submit index request none)).next.next
      = ⟨{ session := { point.machine.session with
              world := ⟨point.machine.session.world.clients.set index step.client,
                step.environment⟩ }
           agenda := [.finish .submission]
           reply := .answered (.ok (.submitted future)) },
          point.done ++ [.perform (.submit index request none) none]
            ++ [.advance index (.submit request none)], point.trail ++ [.turn turn]⟩ := by
    rw [asked]
    show Point.after _ _ (Machine.step _ index _) = _
    rw [stepped]
    rfl
  have finished : later = (point.ask (.submit index request none)).next.next.next := rfl
  rw [finished, made]
  refine ⟨rfl, rfl, ?_⟩
  show _ ++ [_] ++ [_] ++ [_] = _
  simp

/-- A point of a run in which a single client has sent so many requests, of which all are pending. -/
structure Sent (point : Point) (count : Nat) : Prop where
  leads : (opening solo).Leads point
  keeps : point.KeepsToClients
  unforced : point.Unforced 0
  idle : point.machine.agenda = []
  clocks : point.machine.session.environment.clocks = {}
  client : ∃ client, point.machine.session.client? 0 = some client ∧ client.disposed = false
    ∧ client.options = {} ∧ client.transport = 0 ∧ client.clock = .virtual 0
    ∧ client.table.size = count
  transport : ∃ loopback, point.machine.session.environment.transports[0]? = some loopback
    ∧ loopback.failures = [] ∧ loopback.sent.length = count

theorem sent_opening : (opening solo).Sent 0 where
  leads := .here
  keeps := by decide
  unforced := by decide
  idle := rfl
  clocks := rfl
  client := ⟨_, rfl, rfl, rfl, rfl, rfl, rfl⟩
  transport := ⟨_, rfl, rfl, rfl⟩

theorem unused_solo : solo.world.environment.transports[0]? = some ({} : Transport.Loopback) := rfl

theorem Sent.numbered {point : Point} {count : Nat} (sent : point.Sent count)
    {loopback : Transport.Loopback}
    (known : point.machine.session.environment.transports[0]? = some loopback) :
    loopback.Numbered := by
  obtain ⟨same, found, numbered⟩ := sent.leads.numbers sent.keeps sent.unforced
    ⟨{}, unused_solo, Transport.Loopback.numbered_unused⟩
  cases known.symm.trans found
  exact numbered

/-- As long as the numbers suffice, the number of the allocator is beyond all numbers that are pending. -/
theorem Sent.unused {point : Point} {count : Nat} (sent : point.Sent count)
    (few : count + 1 < UInt64.size) {client : Client Program} {loopback : Transport.Loopback}
    (found : point.machine.session.client? 0 = some client) (own : client.transport = 0)
    (known : point.machine.session.environment.transports[0]? = some loopback)
    (length : loopback.sent.length = count) :
    client.table.contains loopback.allocator.peek = false := by
  cases taken : client.table.contains loopback.allocator.peek with
  | false => rfl
  | true =>
    obtain ⟨entry, row⟩ := Pending.Table.contains_iff.mp taken
    have handedOut := sent.leads.sent_of_pending sent.keeps solo_isFresh unused_solo known
      found own row
    exact absurd ((sent.numbered known).lt_peek (length ▸ few) handedOut) (Sequence.lt_irrefl _)

/-- As long as the numbers suffice, another request can be sent. -/
theorem Sent.next {point : Point} {count : Nat} (sent : point.Sent count)
    (few : count + 1 < UInt64.size) :
    ((point.ask (.submit 0 "again" none)).next.next.next).Sent (count + 1) := by
  obtain ⟨client, found, live, unlimited, own, virtual, size⟩ := sent.client
  obtain ⟨loopback, known, willing, length⟩ := sent.transport
  have room : client.reached? = none := by
    unfold Client.reached?
    rw [unlimited]
    rfl
  have loopback_eq : point.machine.session.environment.transport client.transport = loopback := by
    unfold Environment.transport
    rw [own, known]
    rfl
  have sends := (congrArg (·.send "again") loopback_eq).trans
    ((sent.numbered known).send_eq willing "again")
  obtain ⟨now, present⟩ : ∃ now, ({} : VirtualClock).now? = some now := ⟨_, rfl⟩
  have read (changed : Transport.Loopback) :
      (point.machine.session.environment.setTransport client.transport changed).readClock
        client.clock
        = (some now, point.machine.session.environment.setTransport client.transport changed) := by
    have still : (point.machine.session.environment.setTransport client.transport changed).clock 0
        = {} := congrArg (·.get 0) sent.clocks
    unfold Environment.readClock
    rw [virtual]
    dsimp only
    rw [still, present]
  obtain ⟨table, inserted, step_eq⟩ := client.step_submit_of_sent none live room sends (read _)
    (sent.unused few found own known length)
  obtain ⟨idle, world_eq, done_eq⟩ := submit_accepted found (congrArg Step.next step_eq)
  rw [step_eq] at world_eq
  refine ⟨.next (.next (.next (.ask _ sent.leads sent.idle))), ?_, ?_, idle, ?_, ?_, ?_⟩
  · unfold KeepsToClients
    rw [done_eq]
    exact List.forall_mem_append.mpr ⟨sent.keeps, by simp [Task.isDirect]⟩
  · unfold Unforced
    rw [done_eq]
    exact List.forall_mem_append.mpr ⟨sent.unforced, by simp [Task.forces]⟩
  · have same := congrArg (·.environment.clocks) world_eq
    exact same.trans sent.clocks
  · have below := (List.getElem?_eq_some_iff.mp found).1
    have stands := (congrArg (·.clients[0]?) world_eq).trans (List.getElem?_set_self below)
    have grown := Pending.Table.count_insert? inserted fun _ => true
    rw [Pending.Table.count_true, Pending.Table.count_true, if_pos rfl, size] at grown
    exact ⟨_, stands, live, unlimited, own, virtual, grown⟩
  · have replaced (changed : Transport.Loopback) :
        (point.machine.session.environment.setTransport client.transport changed).transports[0]?
          = some changed := by
      rw [Environment.getElem?_setTransport, if_pos own, known]
      rfl
    have shown := (congrArg (·.environment.transports[0]?) world_eq).trans (replaced _)
    refine ⟨_, shown, willing, ?_⟩
    dsimp only
    rw [List.length_append, length]
    rfl

/-- As many requests can be sent as there are numbers. -/
theorem exists_sent (count : Nat) (few : count < UInt64.size) : ∃ point, Sent point count := by
  induction count with
  | zero => exact ⟨_, sent_opening⟩
  | succ count inductionHypothesis =>
    obtain ⟨point, sent⟩ := inductionHypothesis (Nat.lt_of_succ_lt few)
    exact ⟨_, sent.next few⟩

/-- When the last number has been handed out the allocator starts over, and is below what is pending. -/
theorem not_below_spent :
    ¬ ∀ point loopback, (opening solo).Leads point → point.KeepsToClients → point.Unforced 0 →
      point.machine.session.environment.transports[0]? = some loopback →
        loopback.sent.length < UInt64.size →
          ∀ client, point.machine.session.client? 0 = some client →
            ∀ row ∈ client.table.rows, row.1 < loopback.allocator.peek := by
  intro below
  obtain ⟨point, sent⟩ := exists_sent (UInt64.size - 1) (by decide)
  obtain ⟨client, found, -, -, -, -, size⟩ := sent.client
  obtain ⟨loopback, known, -, length⟩ := sent.transport
  have filled : 0 < client.table.rows.length := by
    rw [show client.table.rows.length = UInt64.size - 1 from size]
    decide
  obtain ⟨row, member⟩ := List.exists_mem_of_length_pos filled
  have last := below point loopback sent.leads sent.keeps sent.unforced known
    (by rw [length]; decide) client found row member
  have spent : loopback.allocator.peek = ⟨0⟩ := by
    show Sequence.mk loopback.allocator.next = _
    rw [(sent.numbered known).next, length]
    rfl
  rw [spent] at last
  exact Nat.not_lt_zero _ last

end Point

end Correlator.Session
