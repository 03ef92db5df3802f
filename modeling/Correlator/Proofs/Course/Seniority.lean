import Correlator.Proofs.Client.Pruning
import Correlator.Proofs.Client.Refusal
import Correlator.Proofs.Course.Clock
import Correlator.Proofs.Course.Numbering

/-!
Contract: the order of age among the pending requests of a client, against the order of their numbers.

Owns: that requests are filed in the order in which they were submitted as long as their transport numbers them from
one on, that every step keeps them so, whichever client makes it, and that a prune takes rows off the front of such a
table.

Does not own: which numbers a transport hands out (`Correlator.Proofs.Transport.Loopback`), which rows a prune drops
(`Correlator.Proofs.Client.Pruning`), and the runs of a session (`Correlator.Proofs.Session.Seniority`).
-/

set_option autoImplicit false

namespace Correlator

variable {κ : Type}

/-! ### Tables -/

namespace Pending.Table

/-- The further behind a row stands in a table, the later its request was submitted. -/
def AscendsInTime (table : Table κ) : Prop :=
  table.rows.Pairwise fun older younger =>
    older.2.submittedAt.toNanos ≤ younger.2.submittedAt.toNanos

/-- A number that is greater than all others goes behind them. -/
theorem place_eq_append {sequence : Sequence} {entry : Entry κ} {rows : List (Sequence × Entry κ)}
    (greatest : ∀ row ∈ rows, row.1 < sequence) :
    place sequence entry rows = rows ++ [(sequence, entry)] := by
  induction rows with
  | nil => rfl
  | cons row rows inductionHypothesis =>
    obtain ⟨below, others⟩ := List.forall_mem_cons.mp greatest
    have notAbove : ¬ sequence < row.1 := fun above =>
      Sequence.lt_irrefl _ (Sequence.lt_trans above below)
    rw [place, if_neg notAbove, inductionHypothesis others]
    rfl

theorem AscendsInTime.insert? {table grown : Table κ} {entry : Entry κ}
    (ascends : table.AscendsInTime) (inserted : table.insert? entry = some grown)
    (greatest : ∀ row ∈ table.rows, row.1 < entry.sequence)
    (latest : ∀ row ∈ table.rows, row.2.submittedAt.toNanos ≤ entry.submittedAt.toNanos) :
    grown.AscendsInTime := by
  obtain ⟨-, rfl⟩ := insert?_eq_some inserted
  unfold AscendsInTime
  dsimp only
  rw [place_eq_append greatest, List.pairwise_append]
  refine ⟨ascends, List.pairwise_singleton _ _, fun row member last found => ?_⟩
  rw [List.mem_singleton.mp found]
  exact latest row member

/-- A property that goes by age holds of rows at the front, and of no others. -/
theorem AscendsInTime.eq_append {table : Table κ} (ascends : table.AscendsInTime)
    {stale : Sequence × Entry κ → Bool} (byAge : Client.GoesByAge stale) :
    table.rows = table.rows.filter stale ++ table.rows.filter fun row => !stale row := by
  obtain ⟨rows⟩ := table
  unfold AscendsInTime at ascends
  dsimp only at ascends ⊢
  induction rows with
  | nil => rfl
  | cons row rows inductionHypothesis =>
    obtain ⟨eldest, ascends⟩ := List.pairwise_cons.mp ascends
    cases isStale : stale row with
    | true =>
      rw [List.filter_cons_of_pos isStale, List.filter_cons_of_neg (by simp [isStale]), List.cons_append,
        ← inductionHypothesis ascends]
    | false =>
      have none : rows.filter stale = [] := List.filter_eq_nil_iff.mpr fun other member staleToo => by
        cases isStale.symm.trans (byAge row other (eldest other member) staleToo)
      rw [none, List.nil_append] at inductionHypothesis
      rw [List.filter_cons_of_neg (by simp [isStale]), none, List.nil_append,
        List.filter_cons_of_pos (by simp [isStale]), ← inductionHypothesis ascends]

end Pending.Table

/-! ### Clients -/

namespace Client

theorem turnedAway_client (client : Client κ) (environment : Environment) (phase : Phase κ) :
    (client.turnedAway environment phase).client = client := by
  unfold turnedAway lateRefusal
  split
  · split <;> rfl
  · rfl

/-- What a client has pending has numbers under which something was sent and times that have come, and the times go
with the numbers. -/
structure IsRanked (client : Client κ) (environment : Environment)
    (sent : List (Sequence × Request)) : Prop where
  filed : client.table.Filed
  handedOut : ∀ row ∈ client.table.rows, row.1 ∈ sent.map (·.1)
  past : ∀ row ∈ client.table.rows,
    row.2.submittedAt.toNanos ≤ (environment.elapsed client.clock).toNanos
  ascends : client.table.AscendsInTime

variable {client later : Client κ} {environment after : Environment}
  {sent : List (Sequence × Request)} {phase : Phase κ} {step : Step κ}

/-- Requests may leave, time may pass and more may be sent. -/
theorem IsRanked.onward (ranked : client.IsRanked environment sent)
    (fewer : later.table.rows.Sublist client.table.rows) (clock_eq : later.clock = client.clock)
    (precedes : environment.Precedes after) (more : List (Sequence × Request)) :
    later.IsRanked after (sent ++ more) where
  filed :=
    ⟨ranked.filed.ascending.sublist fewer, fun row member => ranked.filed.own row (fewer.subset member)⟩
  handedOut row member := by
    rw [List.map_append]
    exact List.mem_append_left _ (ranked.handedOut row (fewer.subset member))
  past row member := by
    have came := ranked.past row (fewer.subset member)
    have passed := precedes client.clock
    rw [clock_eq]
    omega
  ascends := List.Pairwise.sublist fewer ranked.ascends

/-- Just a submit that is accepted puts a row into the table, under the number that it was sent with. -/
theorem Exit.sublist_or_stored (exit : client.Exit environment phase step) (index : ClientId) :
    step.client.table.rows.Sublist client.table.rows
      ∨ ∃ (entry : Pending.Entry κ) (request : Request) (table : Pending.Table κ)
          (transport : Transport.Loopback),
        (environment.transport client.transport).send request = (.ok entry.sequence, transport)
        ∧ Turn.dispatched ⟨index, client.service, phase, step.effects, step.next⟩
          = [(entry.sequence, request)]
        ∧ entry.submittedAt.toNanos = (step.environment.elapsed client.clock).toNanos
        ∧ client.table.insert? entry = some table
        ∧ step.client = { client with table }.count .submitted 1 := by
  cases exit with
  | stored live room sent read inserted =>
    refine .inr ⟨_, _, _, _, sent, rfl, ?_, inserted, rfl⟩
    rw [Environment.elapsed_with_cells]
    exact Environment.toNanos_of_readClock read
  | lost | matched | cancelled | pruned => exact .inl List.filter_sublist
  | aside isAside client_eq cells_eq effects next =>
    rw [client_eq]
    exact .inl (List.Sublist.refl _)
  | _ => exact .inl (List.Sublist.refl _)

/-- As long as the numbers suffice, a request that is sent gets a greater number than all that were sent before. -/
theorem lt_of_sent (numbers : environment.Numbers client.transport)
    (recorded : environment.sent? client.transport = some sent) {request : Request}
    {sequence : Sequence} {transport : Transport.Loopback}
    (sends : (environment.transport client.transport).send request = (.ok sequence, transport))
    (few : sent.length + 1 < UInt64.size) {earlier : Sequence} (member : earlier ∈ sent.map (·.1)) :
    earlier < sequence := by
  obtain ⟨loopback, found, numbered⟩ := numbers
  unfold Environment.transport at sends
  unfold Environment.sent? at recorded
  rw [found] at sends recorded
  obtain rfl := Option.some.inj recorded
  obtain ⟨willing, -⟩ := Transport.Loopback.send_eq_ok sends
  cases sends.symm.trans (numbered.send_eq willing request)
  exact numbered.lt_peek few member

/-- A step of a client keeps its requests in order, unless more is sent than there are numbers. -/
theorem IsRanked.after_step (ranked : client.IsRanked environment sent)
    (numbers : environment.Numbers client.transport)
    (recorded : environment.sent? client.transport = some sent) (index : ClientId) (phase : Phase κ)
    {dispatched : List (Sequence × Request)}
    (dispatches : Turn.dispatched ⟨index, client.service, phase,
      (client.step environment phase).effects, (client.step environment phase).next⟩ = dispatched)
    (few : (sent ++ dispatched).length < UInt64.size) :
    (client.step environment phase).client.IsRanked (client.step environment phase).environment
      (sent ++ dispatched) := by
  have exit := client.exit_step environment phase
  have precedes := client.precedes_step environment phase
  generalize client.step environment phase = step at exit precedes dispatches ⊢
  rcases exit.sublist_or_stored index with fewer
    | ⟨entry, request, table, transport, sends, told, stamped, inserted, client_eq⟩
  · exact ranked.onward fewer exit.clock_eq precedes dispatched
  · rw [told] at dispatches
    subst dispatches
    have greatest : ∀ row ∈ client.table.rows, row.1 < entry.sequence := fun row member =>
      lt_of_sent numbers recorded sends (by simpa using few) (ranked.handedOut row member)
    have latest : ∀ row ∈ client.table.rows,
        row.2.submittedAt.toNanos ≤ entry.submittedAt.toNanos := fun row member => by
      have came := ranked.past row member
      have passed := precedes client.clock
      omega
    rw [client_eq]
    refine ⟨ranked.filed.insert? inserted, fun row member => ?_, fun row member => ?_,
      ranked.ascends.insert? inserted greatest latest⟩
    · rw [List.map_append]
      rcases (Pending.Table.mem_insert? inserted row).mp member with rfl | old
      · exact List.mem_append_right _ (List.mem_singleton.mpr rfl)
      · exact List.mem_append_left _ (ranked.handedOut row old)
    · show row.2.submittedAt.toNanos ≤ (step.environment.elapsed client.clock).toNanos
      rcases (Pending.Table.mem_insert? inserted row).mp member with rfl | old
      · exact Int.le_of_eq stamped
      · have came := latest row old
        omega

/-- A prune takes rows off the front of a table in order of age, as many as it answers. It takes none where the client
is out of use or the clock is out of range. -/
theorem exists_front (isPrune : phase.isPrune = true) (ascends : client.table.AscendsInTime) :
    ∃ ending front, client.Performs environment phase ending
      ∧ client.table.rows = front ++ ending.client.table.rows
      ∧ (ending.next = .returned (.ok (.count front.length))
        ∨ front = [] ∧ (ending.next = .failed .clockOutOfRange
          ∨ ending.next = .returned (.error (.invalidHandle client.service)))) := by
  cases disposed : client.disposed with
  | true =>
    have opening : phase.isOpening = true := by
      cases phase <;> first | rfl | cases isPrune
    refine ⟨_, [], performs_turnedAway disposed opening, ?_, .inr ⟨rfl, ?_⟩⟩
    · rw [turnedAway_client, List.nil_append]
    · exact (client.turnedAway_next environment phase).symm
  | false =>
    obtain ⟨ending, performs, ends⟩ := exists_drops_goesByAge isPrune disposed
    rcases ends with ⟨failed, -, client_eq⟩ | ⟨stale, drops, byAge⟩
    · exact ⟨ending, [], performs, by rw [client_eq, List.nil_append], .inr ⟨rfl, .inl failed⟩⟩
    · refine ⟨ending, client.table.rows.filter stale, performs, ?_, .inl drops.answer⟩
      rw [drops.client_eq]
      exact ascends.eq_append byAge

end Client

/-! ### Worlds -/

namespace World

variable {world after : World κ} {transport : TransportId}

/-- A transport numbers from one on, and as long as its numbers suffice, what its clients have pending is in order. -/
structure IsRanked (world : World κ) (transport : TransportId) : Prop where
  numbers : world.environment.Numbers transport
  clients : ∀ sent, world.environment.sent? transport = some sent → sent.length < UInt64.size →
    ∀ (index : ClientId) (client : Client κ), world.clients[index]? = some client →
      client.transport = transport → client.IsRanked world.environment sent

theorem isRanked_of_fresh (fresh : world.IsFresh)
    (unused : world.environment.transports[transport]? = some {}) : world.IsRanked transport where
  numbers := ⟨{}, unused, Transport.Loopback.numbered_unused⟩
  clients := by
    intro sent recorded few index client found own
    have empty := (fresh client (List.mem_of_getElem? found)).1
    constructor <;> rw [empty]
    · exact Pending.Table.filed_empty
    · exact List.forall_mem_nil _
    · exact List.forall_mem_nil _
    · exact List.Pairwise.nil

/-- What happens outside of the clients leaves their requests in order, unless a number is queued. -/
theorem IsRanked.outside (ranked : world.IsRanked transport) {environment : Environment}
    (numbers : environment.Numbers transport)
    (sent_eq : environment.sent? transport = world.environment.sent? transport)
    (precedes : world.environment.Precedes environment) :
    IsRanked { world with environment } transport where
  numbers := numbers
  clients := by
    intro sent recorded few index client found own
    have before := ranked.clients sent (sent_eq ▸ recorded) few index client found own
    have onward := before.onward (List.Sublist.refl _) rfl precedes []
    rwa [List.append_nil] at onward

/-- A step of any client keeps the requests of all clients in order. -/
theorem IsRanked.after_step (ranked : world.IsRanked transport) {acting : ClientId} {phase : Phase κ}
    {turn : Turn κ} (made : world.step? acting phase = some (turn, after)) :
    after.IsRanked transport := by
  obtain ⟨actor, foundActor, rfl, rfl⟩ := World.step?_eq_some made
  refine ⟨actor.numbers_step phase ranked.numbers, fun sent recorded few index client found own => ?_⟩
  dsimp only at recorded found ⊢
  rw [actor.sent?_step world.environment phase acting transport] at recorded
  obtain ⟨before, recordedBefore, rfl⟩ := Option.map_eq_some_iff.mp recorded
  have fewBefore : before.length < UInt64.size := by
    rw [List.length_append] at few
    omega
  have rankedBefore := ranked.clients before recordedBefore fewBefore
  rcases (World.getElem?_set_client foundActor).mp found with ⟨rfl, rfl⟩ | ⟨different, old⟩
  · have exit := actor.exit_step world.environment phase
    rw [exit.transport_eq] at own
    subst own
    rw [if_pos rfl] at few ⊢
    exact (rankedBefore _ _ foundActor rfl).after_step ranked.numbers recordedBefore _ phase rfl few
  · exact (rankedBefore _ _ old own).onward (List.Sublist.refl _) rfl (actor.precedes_step _ phase) _

end World

end Correlator
