import Correlator.Proofs.Course.Resolution
import Correlator.Proofs.Session.Conservation
import Correlator.Proofs.Session.LifeCycle

/-!
Contract: that no complete of a run finds its request resolved already.

Owns: what every table promises at each point of a run, and that an entry which a complete takes out is
resolved, counted and called back.

Does not own: the promise along courses (`Correlator.Proofs.Course.Resolution`).
-/

set_option autoImplicit false

namespace Correlator.Session.Point

variable {session : Session} {point : Point}

/-- What becomes of a request whose entry a complete took out of its client's table. -/
structure Settled (point : Point) (client : ClientId) (callback : Option Program) (future : Future)
    (response : Response) : Prop where
  /-- The client had accepted the request, with this callback. -/
  accepted : ∃ turn ∈ point.turns, turn.Accepts client callback future
  /-- The future has the response of the complete. -/
  resolved : point.machine.session.cells.value? future = some response
  /-- The client has counted the request, unless it is just about to. -/
  counted : point.machine.isCounting = false →
    ∃ turn ∈ point.turns, turn.client = client
      ∧ (∃ completed, turn.phase = .countCompleted completed ∧ completed.future = future)
      ∧ Effect.counted .completed 1 ∈ turn.effects
  /-- The callback has run once, unless a complete is in the middle. -/
  called : point.machine.isSettling = false → point.callsOf future = callback.toList

/-- At every point of a run, every response that comes would find its request as it was left. -/
theorem resolvable_of_leads (leads : (opening session).Leads point) (keeps : point.KeepsToClients)
    (fresh : session.world.IsFresh) : point.machine.session.world.Resolvable := by
  obtain ⟨course, led, mirrors⟩ := leads.mirrors keeps
  rw [← mirrors.world]
  exact (led.sound fresh).resolvable

/-- A complete under way is at the head of the agenda. -/
private theorem InOrder.isCounting_of_mem (inOrder : point.InOrder) {index : ClientId}
    {completed : Pending.Completed Program}
    (waiting : (index, .countCompleted completed) ∈ underway point.machine.agenda) :
    point.machine.isCounting = true := by
  by_contra settled
  have nothing := inOrder.uncounted_eq_zero (by simpa using settled) index
  have counts := List.countP_eq_zero.mp nothing _ waiting
  simp [Phase.isCounting] at counts

/-- A complete that took out an entry was followed by the count of the request. -/
private theorem counted_of_taken {course : Course Program}
    (led : (Course.opening session.world).Leads course) (fresh : session.world.IsFresh)
    (mirrors : Mirrors point course) (inOrder : point.InOrder) {turn : Turn Program}
    (member : turn ∈ point.turns) {future : Future}
    (removed : Effect.removed future .completed ∈ turn.effects)
    (settled : point.machine.isCounting = false) :
    ∃ later ∈ point.turns, later.client = turn.client
      ∧ (∃ completed, later.phase = .countCompleted completed ∧ completed.future = future)
      ∧ Effect.counted .completed 1 ∈ later.effects := by
  have made : turn ∈ course.turns := mirrors.turns ▸ member
  obtain ⟨before, known, resolvable, found, equal⟩ := led.stepped fresh made
  have goesOn : ∃ callback, turn.next = .goesOn (.countCompleted ⟨future, callback⟩) := by
    rw [equal] at removed ⊢
    exact (known.exit_step _ _).goesOn_of_taken (resolvable.takesResponses found) removed
  obtain ⟨callback, goesOn⟩ := goesOn
  rcases led.followed made goesOn rfl with waiting | ⟨later, among, client_eq, phase_eq⟩
  · rw [mirrors.underway] at waiting
    rw [inOrder.isCounting_of_mem waiting] at settled
    cases settled
  · refine ⟨later, mirrors.turns ▸ among, client_eq, ⟨_, phase_eq, rfl⟩, ?_⟩
    obtain ⟨world, counter, -, -, counted⟩ := led.stepped fresh among
    rw [counted, phase_eq]
    exact (counter.exit_step world.environment _).counted_of_countCompleted

/-- A turn in which a complete took out an entry is on record as a complete of its request. -/
private theorem completion_of_taken {course : Course Program}
    (led : (Course.opening session.world).Leads course) (fresh : session.world.IsFresh)
    (mirrors : Mirrors point course) {turn : Turn Program} (member : turn ∈ point.turns)
    {future : Future} (removed : Effect.removed future .completed ∈ turn.effects) :
    ∃ response, turn.phase = .complete future.sequence response
      ∧ (turn.client, future.sequence, response) ∈ point.completions future := by
  obtain ⟨before, known, resolvable, found, equal⟩ := led.stepped fresh (mirrors.turns ▸ member)
  have taken : ∃ response, turn.phase = .complete future.sequence response := by
    rw [equal] at removed
    obtain ⟨sequence, response, entry, phase_eq, search, rfl⟩ :=
      (known.exit_step _ _).find?_of_completed removed
    rw [(resolvable.filed _ known found).sequence_of_find? search]
    exact ⟨response, phase_eq⟩
  obtain ⟨response, phase_eq⟩ := taken
  refine ⟨response, phase_eq, List.mem_flatMap.mpr ⟨turn, member, ?_⟩⟩
  unfold Turn.completions
  rw [phase_eq]
  dsimp only
  rw [if_pos removed]
  exact List.mem_singleton.mpr rfl

theorem settled_of_taken (leads : (opening session).Leads point) (keeps : point.KeepsToClients)
    (fresh : session.world.IsFresh) {turn : Turn Program} (member : turn ∈ point.turns)
    {future : Future} (removed : Effect.removed future .completed ∈ turn.effects) :
    ∃ callback response, turn.phase = .complete future.sequence response
      ∧ point.Settled turn.client callback future response := by
  obtain ⟨course, led, mirrors⟩ := leads.mirrors keeps
  have inOrder := leads.inOrder keeps
  obtain ⟨stage, atStage⟩ := (led.sound fresh).staged future
  obtain ⟨response, phase_eq, recorded⟩ := completion_of_taken led fresh mirrors member removed
  -- The complete is on record, so the request is at a stage with just this response.
  rw [completions_eq mirrors atStage led fresh] at recorded
  obtain ⟨⟨client, stored⟩, resolution, same⟩ := List.mem_map.mp recorded
  obtain ⟨rfl, rfl⟩ : client = turn.client ∧ stored = response := by simpa using same
  have resolution := Option.mem_toList.mp resolution
  obtain ⟨callback, submitted⟩ : ∃ callback, (turn.client, .submitted callback) ∈ stage.life := by
    cases stage with
    | settling known callback value | completed known callback value =>
      cases resolution
      exact ⟨callback, List.mem_cons_self⟩
    | unborn | pending | cancelled | pruned => cases resolution
  have value := value?_eq mirrors atStage submitted
  rw [resolution] at value
  refine ⟨callback, stored, phase_eq, ?_⟩
  constructor
  case accepted => exact accepted_of_told mirrors (atStage.life ▸ submitted)
  case resolved => exact value
  case counted =>
    intro settled
    exact counted_of_taken led fresh mirrors inOrder member removed settled
  case called =>
    intro settled
    rw [callsOf_eq mirrors atStage submitted inOrder settled, Cells.isDone_eq, value]
    rfl

/-- No response is stored twice. At every point of a run, the table of every client keeps its entries
under their own numbers, with futures that have no response yet and that no other entry has. So no
operation ever answers that a future was resolved before, and every entry that a complete took out is
resolved, counted and called back. -/
theorem resolution (fresh : session.world.IsFresh) (leads : (opening session).Leads point)
    (keeps : point.KeepsToClients) :
    point.machine.session.world.Resolvable
    ∧ (∀ turn ∈ point.turns, ∀ sequence,
      turn.next ≠ .returned (.error (.doubleResolution sequence)))
    ∧ (∀ turn ∈ point.turns, ∀ future, Effect.removed future .completed ∈ turn.effects →
      ∃ callback response, turn.phase = .complete future.sequence response
        ∧ point.Settled turn.client callback future response)
    ∧ ∀ index client, point.machine.session.client? index = some client →
      point.machine.isCounting = false →
        client.tally.completed = UInt64.ofNat (entered point.turns index Turn.taken).length := by
  obtain ⟨course, led, mirrors⟩ := leads.mirrors keeps
  have sound := led.sound fresh
  refine ⟨mirrors.world ▸ sound.resolvable, ?_, ?_, ?_⟩
  · intro turn member sequence
    obtain ⟨before, known, resolvable, found, equal⟩ :=
      led.stepped fresh (mirrors.turns ▸ member)
    rw [equal]
    exact Client.step_ne_doubleResolution (resolvable.takesResponses found) turn.phase sequence
  · intro turn member future removed
    exact settled_of_taken leads keeps fresh member removed
  · intro index client found settled
    have balanced := led.isBalanced fresh index client (mirrors.client? found)
    have nothing := (leads.inOrder keeps).uncounted_eq_zero settled index
    have completed := balanced.completed
    rw [mirrors.underway, nothing, ← led.entered_taken fresh, mirrors.turns] at completed
    rw [← completed]
    exact (UInt64.add_zero _).symm

/-- The request whose callback is running is settled, and the one that the callback submitted has no
response. -/
theorem resolution_insideCallback :
    let point := insideCallback.next.next
    point.machine.session.world.Resolvable
      ∧ (∃ callback, point.Settled 0 callback ⟨0, ⟨1⟩⟩ "pong")
      ∧ ∃ client, point.machine.session.client? 0 = some client
        ∧ client.table.sequences = [⟨2⟩]
        ∧ client.tally.completed = UInt64.ofNat (entered point.turns 0 Turn.taken).length := by
  obtain ⟨resolvable, -, settled, completed⟩ :=
    resolution solo_isFresh leads_insideCallback.next.next (by decide)
  obtain ⟨callback, response, phase_eq, entitled⟩ :=
    settled _ (List.mem_of_getElem? (i := 1) rfl) ⟨0, ⟨1⟩⟩ (by decide)
  cases phase_eq
  exact ⟨resolvable, ⟨callback, entitled⟩, _, rfl, rfl, completed 0 _ rfl rfl⟩

end Correlator.Session.Point
