import Correlator.Proofs.Course.Ledger
import Correlator.Proofs.Course.Past

/-!
Contract: the numbers of the requests that several clients send over one transport.

Owns: that steps keep a transport numbering from one on, that the requests a client has pending are among those
that were sent, and that no request is rejected for its number as long as no number was sent twice.

Does not own: which numbers a transport hands out (`Correlator.Proofs.Transport.Loopback`), and what it records
(`Correlator.Proofs.Course.Ledger`).
-/

set_option autoImplicit false

namespace Correlator

variable {κ : Type}

namespace Environment

variable {environment after : Environment} {index : TransportId}

/-- There is such a transport, and it numbers from one on. -/
def Numbers (environment : Environment) (index : TransportId) : Prop :=
  ∃ transport, environment.transports[index]? = some transport ∧ transport.Numbered

theorem Numbers.congr (numbers : environment.Numbers index)
    (same : after.transports = environment.transports) : after.Numbers index := by
  unfold Numbers
  rw [same]
  exact numbers

theorem Numbers.setTransport (numbers : environment.Numbers index) (changed : TransportId)
    {transport : Transport.Loopback}
    (keeps : (environment.transport changed).Numbered → transport.Numbered) :
    (environment.setTransport changed transport).Numbers index := by
  obtain ⟨known, found, numbered⟩ := numbers
  unfold Numbers
  rw [getElem?_setTransport, found]
  by_cases same : changed = index
  · subst same
    refine ⟨transport, if_pos rfl, keeps ?_⟩
    unfold Environment.transport
    rw [found]
    exact numbered
  · exact ⟨known, if_neg same, numbered⟩

/-- What happens outside of the clients keeps a transport numbering, unless a number is queued. -/
theorem Numbers.apply (numbers : environment.Numbers index) {act : Outside}
    (unforced : ∀ sequence, act ≠ .forceNext index sequence) :
    (act.apply environment).Numbers index := by
  cases act with
  | failNext changed failure =>
    exact numbers.setTransport changed fun numbered => numbered.congr rfl rfl rfl
  | forceNext changed sequence =>
    have apart : changed ≠ index := fun same => unforced sequence (by rw [same])
    obtain ⟨known, found, numbered⟩ := numbers
    refine ⟨known, ?_, numbered⟩
    show (environment.setTransport changed _).transports[index]? = _
    rw [getElem?_setTransport, if_neg apart, found]
  | passTime span => exact numbers.congr (environment.sleep_transports span .running)
  | _ => exact numbers

end Environment

namespace Client

/-- A step keeps a transport numbering from one on. -/
theorem numbers_step (client : Client κ) {environment : Environment} (phase : Phase κ)
    {index : TransportId} (numbers : environment.Numbers index) :
    (client.step environment phase).environment.Numbers index := by
  cases isAside : phase.isAside with
  | true =>
    rcases client.transports_step environment isAside with same | released
    · exact numbers.congr same
    · have stillNumbers : (environment.setTransport client.transport
          (environment.transport client.transport).release).Numbers index :=
        numbers.setTransport client.transport fun numbered => numbered.congr rfl rfl rfl
      exact stillNumbers.congr released
  | false =>
    have exit := client.exit_step environment phase
    generalize client.step environment phase = step at exit ⊢
    have sending : ∀ request answer transport,
        (environment.transport client.transport).send request = (answer, transport) →
          (environment.setTransport client.transport transport).Numbers index := by
      intro request answer transport sent
      refine numbers.setTransport client.transport fun numbered => ?_
      have after := numbered.send request
      rw [sent] at after
      exact after
    cases exit with
    | unsent live room failed => exact sending _ _ _ failed
    | untimed live room sent read | doubled live room sent read taken
    | stored live room sent read inserted =>
      have same := Environment.transports_eq_of_readClock read
      exact (sending _ _ _ sent).congr same
    | aside aside client_eq cells_eq effects next =>
      rw [aside] at isAside
      cases isAside
    | _ => exact numbers

variable {client : Client κ} {environment : Environment} {phase : Phase κ} {step : Step κ}

/-- A live client with room accepts a request that it has sent under a number that is not pending. -/
theorem step_submit_of_sent {request : Request} (callback : Option κ) {sequence : Sequence}
    {transport : Transport.Loopback} {timed : Environment} {now : Moment}
    (live : client.disposed = false) (room : client.reached? = none)
    (sent : (environment.transport client.transport).send request = (.ok sequence, transport))
    (read : (environment.setTransport client.transport transport).readClock client.clock
      = (some now, timed))
    (unused : client.table.contains sequence = false) :
    ∃ table, client.table.insert? ⟨(environment.cells.fresh sequence).1, callback, now⟩ = some table
      ∧ client.step environment (.submit request callback)
        = ⟨{ client with table }.count .submitted 1,
          { timed with cells := (environment.cells.fresh sequence).2 },
          [.locked, .sent request sequence, .readClock (some now),
            .stored (environment.cells.fresh sequence).1, .counted .submitted 1,
            .logged (.requestSubmitted sequence table.size), .unlocked],
          .returned (.ok (.submitted (environment.cells.fresh sequence).1))⟩ := by
  have exit := client.exit_step environment (.submit request callback)
  generalize client.step environment (.submit request callback) = step at exit ⊢
  cases exit with
  | gone disposed begins => exact absurd (disposed.symm.trans live) (by decide)
  | full live reached => cases reached.symm.trans room
  | unsent live room failed => cases failed.symm.trans sent
  | untimed live room sentNow readNow =>
    cases sentNow.symm.trans sent
    cases readNow.symm.trans read
  | doubled live room sentNow readNow taken =>
    cases sentNow.symm.trans sent
    exact absurd (taken.symm.trans unused) (by decide)
  | stored live room sentNow readNow inserted =>
    cases sentNow.symm.trans sent
    cases readNow.symm.trans read
    exact ⟨_, inserted, rfl⟩
  | pruned live prunes => cases prunes
  | aside isAside client_eq cells_eq effects next => cases isAside

/-- A request is rejected for its number if the number is pending. It has been sent then. -/
theorem Exit.taken_of_duplicated (exit : client.Exit environment phase step) {index : ClientId}
    {service : String} {sequence : Sequence}
    (member : sequence ∈ Turn.duplicated ⟨index, service, phase, step.effects, step.next⟩) :
    client.table.contains sequence = true
      ∧ sequence ∈ (Turn.dispatched ⟨index, service, phase, step.effects, step.next⟩).map (·.1) := by
  cases exit with
  | doubled live room sent read taken =>
    obtain rfl := List.mem_singleton.mp member
    exact ⟨taken, List.mem_singleton.mpr rfl⟩
  | gone disposed begins => cases phase <;> cases member
  | pruned live prunes => cases phase <;> first | cases prunes; done | cases member
  | aside isAside client_eq cells_eq effects next =>
    cases phase <;> first | cases isAside; done | cases member
  | _ => cases member

/-- A submit that sends nothing takes no number. -/
theorem Exit.allocator_eq {request : Request} {callback : Option κ}
    (exit : client.Exit environment (.submit request callback) step)
    (silent : ∀ sequence, Effect.sent request sequence ∉ step.effects) (index : TransportId) :
    (step.environment.transports[index]?).map (·.allocator)
      = (environment.transports[index]?).map (·.allocator) := by
  cases exit with
  | unsent live room failed =>
    obtain ⟨rest, -, rfl⟩ := Transport.Loopback.send_eq_error failed
    dsimp only
    rw [Environment.getElem?_setTransport]
    by_cases same : client.transport = index
    · subst same
      rw [if_pos rfl]
      unfold Environment.transport
      cases environment.transports[client.transport]? <;> rfl
    · rw [if_neg same]
  | untimed | doubled | stored =>
    exact absurd (List.mem_cons_of_mem _ List.mem_cons_self) (silent _)
  | gone | full => rfl
  | pruned live prunes => cases prunes
  | aside isAside client_eq cells_eq effects next => cases isAside

end Client

/-- What a turn accepts, it has sent. -/
theorem Turn.accepted_sublist (turn : Turn κ) :
    turn.accepted.Sublist (turn.dispatched.map (·.1)) := by
  unfold accepted
  split
  next request callback future phase next =>
    unfold dispatched
    rw [phase, next]
    exact List.Sublist.refl _
  · exact List.nil_sublist _

theorem shared_accepted_sublist (turns : List (Turn κ)) (users : ClientId → Bool) :
    (shared turns users Turn.accepted).Sublist ((shared turns users Turn.dispatched).map (·.1)) := by
  unfold shared
  generalize turns.filter (fun turn => users turn.client) = chosen
  induction chosen with
  | nil => exact List.Sublist.refl _
  | cons turn rest inductionHypothesis =>
    rw [List.flatMap_cons, List.flatMap_cons, List.map_append]
    exact turn.accepted_sublist.append inductionHypothesis

namespace Course

variable {world : World κ} {course : Course κ} {users : ClientId → Bool}

/-- What is pending has been sent. -/
theorem Leads.pending_dispatched (leads : (opening world).Leads course) (fresh : world.IsFresh)
    {index : ClientId} {client : Client κ} (found : course.world.clients[index]? = some client)
    (uses : users index = true) {row : Sequence × Pending.Entry κ}
    (member : row ∈ client.table.rows) :
    row.1 ∈ (shared course.turns users Turn.dispatched).map (·.1) := by
  have accepted : row.1 ∈ entered course.turns index Turn.accepted := by
    by_contra unused
    obtain ⟨origin, search, before⟩ := leads.mem_rows (List.nil_append _).symm found member unused
    rw [(fresh origin (List.mem_of_getElem? search)).1] at before
    cases before
  obtain ⟨turn, own, told⟩ := List.mem_flatMap.mp accepted
  obtain ⟨among, same⟩ := List.mem_filter.mp own
  refine (shared_accepted_sublist course.turns users).subset (List.mem_flatMap.mpr ⟨turn, ?_, told⟩)
  exact List.mem_filter.mpr ⟨among, by rw [of_decide_eq_true same, uses]⟩

/-- If no number was sent twice, no request was rejected for its number. -/
theorem Leads.not_duplicated (leads : (opening world).Leads course) (fresh : world.IsFresh)
    (once : ((shared course.turns users Turn.dispatched).map (·.1)).Nodup) {turn : Turn κ}
    (member : turn ∈ course.turns) (uses : users turn.client = true) : turn.duplicated = [] := by
  rw [List.eq_nil_iff_forall_not_mem]
  intro sequence rejected
  obtain ⟨before, later, split⟩ := List.append_of_mem member
  obtain ⟨earlier, front, back, client, led, turns_eq, makes, -⟩ := leads.rewind_opening split
  have exit := client.exit_step earlier.world.environment turn.phase
  have told : sequence
      ∈ (client.turn earlier.world.environment turn.client turn.phase).duplicated := by
    rw [makes.turn_eq]
    exact rejected
  obtain ⟨taken, sent⟩ := exit.taken_of_duplicated told
  obtain ⟨entry, row⟩ := Pending.Table.contains_iff.mp taken
  have sentBefore := led.pending_dispatched fresh makes.found uses row
  have sentNow : sequence ∈ (turn.dispatched).map (·.1) := by
    rw [← makes.turn_eq]
    exact sent
  have parts : shared course.turns users Turn.dispatched
      = shared before users Turn.dispatched
        ++ (turn.dispatched ++ shared later users Turn.dispatched) := by
    unfold shared
    rw [split, List.filter_append, List.flatMap_append, List.filter_cons, if_pos uses,
      List.flatMap_cons]
  rw [parts, List.map_append, List.map_append] at once
  rw [turns_eq] at sentBefore
  exact List.disjoint_of_nodup_append once sentBefore (List.mem_append_left _ sentNow)

end Course

end Correlator
