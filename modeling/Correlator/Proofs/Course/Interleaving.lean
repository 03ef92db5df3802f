import Correlator.Proofs.Course.Clock
import Correlator.Proofs.Course.Race

/-!
Contract: what any number of threads on shared clients can rely on, whatever the order of their steps.

Owns: the main statement on interleaved operations, put together from races, accounts, clocks and the use
of clients; and schedules, by which single courses are given.

Does not own: the steps that interleave (`Correlator.Client.Operation`). A thread that calls an operation
enters it, and each of its steps is one move of the course.
-/

set_option autoImplicit false

namespace Correlator

variable {κ : Type}

namespace Course

variable {world : World κ} {course : Course κ} {index : ClientId} {callback : Option κ}
  {future : Future} {client : Client κ}

/-! ### The end of a request -/

/-- Where a registered request went: it is pending, or it left the table of its client once. -/
def Accounted (course : Course κ) (index : ClientId) (callback : Option κ) (future : Future) :
    Prop :=
  let departures := course.turns.flatMap fun turn => turn.departures future
  (course.world.Tracks index future callback ∧ departures = [])
    ∨ ((∀ owner stored, ¬ course.world.Tracks owner future stored)
      ∧ ∃ removal, departures = [(index, removal)])

/-- A stage behind a registration tells where the request went. -/
theorem AtStage.accounted {stage : Stage κ} (atStage : course.AtStage future stage)
    (told : (index, .submitted callback) ∈ stage.life) :
    course.Accounted index callback future := by
  have departures := course.departures_eq future
  rw [atStage.life, Stage.select_removal] at departures
  unfold Accounted
  rw [departures]
  have gone : ∀ left, (∀ owner stored, left ≠ Stage.pending owner stored) → stage = left →
      ∀ owner stored, ¬ course.world.Tracks owner future stored := by
    rintro left other rfl owner stored tracked
    exact other owner stored ((atStage.tracks owner stored).mp tracked)
  rcases Stage.of_submitted told with equal | ⟨value, equal⟩ | ⟨value, equal⟩ | equal | equal
  · exact Or.inl ⟨(atStage.tracks index callback).mpr equal, by rw [equal]; rfl⟩
  all_goals
    refine Or.inr ⟨gone _ (by simp) equal, ?_⟩
    rw [equal]
    exact ⟨_, rfl⟩

/-! ### The end of a client -/

/-- How a client is signed off: its transport is released once at most, behind its deregistration, and
only once it is out of use. -/
structure SignsOff (course : Course κ) (index : ClientId) (client : Client κ) : Prop where
  once : (shared course.turns (· = index) Turn.releases).Sublist [client.transport]
  behind : shared course.turns (· = index) Turn.releases ≠ [] →
    client.disposed = true ∧ ∃ orphaned, shared course.turns (· = index) Turn.retiring
      = [.deregister orphaned, .release orphaned]

theorem AtRetirement.signsOff_of_stage {stage : Retirement}
    (atStage : course.AtRetirement index client stage) : course.SignsOff index client := by
  have releases := releases_eq atStage.farewells
  have disposed := atStage.disposed
  have made := atStage.made
  cases stage with
  | inUse | retired orphaned =>
    exact ⟨by rw [releases]; exact List.nil_sublist _, fun some => absurd releases some⟩
  | signedOff orphaned known =>
    have none : shared course.turns (· = index) Turn.releases = [] := by
      rw [releases]
      cases known <;> rfl
    exact ⟨by rw [none]; exact List.nil_sublist _, fun some => absurd none some⟩
  | released orphaned known =>
    have one : shared course.turns (· = index) Turn.releases = [client.transport] := by
      rw [releases]
      cases known <;> rfl
    exact ⟨by rw [one], fun _ => ⟨disposed, orphaned, made⟩⟩

/-! ### All together -/

/-- A prune of stale entries that found its cutoff in one turn and drops entries in another. -/
structure StalePrune (reading pruning : Turn κ) : Prop where
  client_eq : pruning.client = reading.client
  cutoff : ∃ cutoff, reading.phase = .pruneStale ∧ reading.next = .goesOn (.pruneOlder cutoff)
    ∧ pruning.phase = .pruneOlder cutoff

/-- What holds at every point of a course in which any number of operations follow each other step by
step in any order. A registered request leaves its table once at most. Of the deliveries that race on it
one wins at most, and the others that find their client in use are told that nothing is pending. Its
callback starts once at most, behind the delivery that won, and with a future that is done. The counts of
a client add up but for the completed requests that have yet to be counted. Its transport is released
once at most. A prune of stale entries spares what was submitted after it had read the clock. -/
theorem interleaving (fresh : world.IsFresh) (leads : (opening world).Leads course) :
    (∀ registration ∈ course.turns, ∀ index callback future,
      registration.Accepts index callback future → course.Accounted index callback future)
    ∧ (∀ before registration later, course.turns = before ++ registration :: later →
      ∀ index callback future, registration.Accepts index callback future →
        future.sequence ∉ entered later index Turn.accepted →
          course.Race index callback future before registration later)
    ∧ (∀ future,
      ((course.turns.filterMap Turn.handover?).filter (·.1 = future)).length ≤ 1)
    ∧ (∀ index phase turn after future callback, (index, phase) ∈ course.underway →
      course.world.step? index phase = some (turn, after) →
        turn.next = .callsBack future callback → course.Handover index future callback)
    ∧ (∀ index client, course.world.clients[index]? = some client →
      client.tally.submitted
        = client.tally.completed + client.tally.cancelled + client.tally.pruned
          + UInt64.ofNat client.pendingCount + UInt64.ofNat (uncounted course.underway index))
    ∧ (∀ index client, course.world.clients[index]? = some client →
      course.SignsOff index client)
    ∧ (∀ before reading since pruning rest,
      course.turns = before ++ reading :: (since ++ pruning :: rest) →
        StalePrune reading pruning →
          ∀ acceptance ∈ since, ∀ index callback future,
            acceptance.Accepts index callback future →
              Effect.removed future .pruned ∉ pruning.effects) := by
  have sound := leads.sound fresh
  refine ⟨?_, ?_, leads.length_handovers_le fresh, ?_, ?_, ?_, ?_⟩
  · intro registration member index callback future accepts
    obtain ⟨stage, atStage, told⟩ := sound.of_accepts member accepts
    exact atStage.accounted told
  · intro before registration later split index callback future accepts unused
    exact leads.race fresh split accepts unused
  · intro index phase turn after future callback underway made calls
    exact leads.handover fresh underway made calls
  · intro index client found
    exact (leads.isBalanced fresh index client found).tally_eq
  · intro index client found
    obtain ⟨stage, atStage⟩ := leads.retires fresh index client found
    exact atStage.signsOff_of_stage
  · rintro before reading since pruning rest split ⟨own, cutoff, reads, cuts, prunes⟩
      acceptance member index callback future accepts
    exact leads.spares_recent fresh split reads cuts own prunes member accepts

/-! ### Schedules -/

/-- What happens next: an operation begins, the one at a place among those under way makes its next
step, or code outside of the clients acts. -/
inductive Cue (κ : Type) where
  | enter (client : ClientId) (phase : Phase κ)
  | proceed (place : Nat)
  | outside (act : Outside)
deriving Repr

/-- The course after a cue; none if the operation is none that begins, or if there is no such place. -/
def cue? (course : Course κ) : Cue κ → Option (Course κ)
  | .enter client phase =>
    if phase.isOpening then some { course with underway := (client, phase) :: course.underway }
    else none
  | .proceed place =>
    course.underway[place]?.bind fun operation =>
      (course.world.step? operation.1 operation.2).map fun result =>
        ⟨result.2,
          course.underway.take place
            ++ (result.1.next.phase?.map fun phase => (operation.1, phase)).toList
            ++ course.underway.drop (place + 1),
          course.turns ++ [result.1]⟩
  | .outside act =>
    some { course with
      world := { course.world with environment := act.apply course.world.environment } }

/-- The course after one cue upon the other. -/
def schedule? (course : Course κ) (cues : List (Cue κ)) : Option (Course κ) :=
  cues.foldlM cue? course

theorem leads_of_cue? {next : Course κ} {cue : Cue κ} (made : course.cue? cue = some next) :
    course.Leads next := by
  cases cue with
  | enter client phase =>
    dsimp only [cue?] at made
    split at made
    next opening =>
      cases made
      exact .move .here (.enter client phase opening)
    next => cases made
  | proceed place =>
    obtain ⟨⟨client, phase⟩, there, made⟩ := Option.bind_eq_some_iff.mp made
    obtain ⟨⟨turn, world⟩, step, rfl⟩ := Option.map_eq_some_iff.mp made
    obtain ⟨below, equal⟩ := List.getElem?_eq_some_iff.mp there
    refine .move .here (.proceed _ _ client phase turn world ?_ step)
    rw [← equal, ← List.drop_eq_getElem_cons below, List.take_append_drop]
  | outside act =>
    cases made
    exact .move .here (.outside act)

/-- A schedule is a course. -/
theorem leads_of_schedule? {cues : List (Cue κ)} {next : Course κ}
    (made : course.schedule? cues = some next) : course.Leads next := by
  induction cues generalizing course with
  | nil =>
    cases made
    exact .here
  | cons cue rest inductionHypothesis =>
    unfold schedule? at made
    rw [List.foldlM_cons] at made
    obtain ⟨middle, first, rest⟩ := Option.bind_eq_some_iff.mp made
    exact (leads_of_cue? first).trans (inductionHypothesis rest)

/-- A client on a transport of its own. -/
def rink : World Nat :=
  { clients :=
      [{ descriptor := { name := "echo" }, options := { staleAfter := some (.ofMillis 5) },
         transport := 0, registry := 0, host := 0, clock := .virtual 0, shutdown := none }]
    environment := { transports := [{}] } }

theorem rink_isFresh : rink.IsFresh := by
  intro client member
  rw [List.mem_singleton.mp member]
  exact ⟨rfl, rfl, rfl⟩

/-- Two deliveries, a cancellation and a prune race on a request with the callback 7, while a second
request is submitted and the client is put out of use. -/
def contest : List (Cue Nat) :=
  [.enter 0 .dispose, .enter 0 .pruneStale, .enter 0 (.submit "late" none),
    .enter 0 (.cancel ⟨0, ⟨1⟩⟩), .enter 0 (.complete ⟨1⟩ "second"), .enter 0 (.complete ⟨1⟩ "first"),
    .enter 0 (.submit "ping" (some 7)),
    -- the first request is registered, the clock is read, and the second request registered
    .proceed 0, .outside (.advance 0 (.ofMillis 10)), .proceed 4, .proceed 3,
    -- the second delivery wins; the first one, the cancellation and the prune come late
    .proceed 1, .proceed 0, .proceed 1, .proceed 1,
    -- the client goes out of use while the winner has yet to call back
    .proceed 1, .proceed 0, .proceed 1, .proceed 1]

def contested : Course Nat := ((opening rink).schedule? contest).getD (opening rink)

theorem leads_contested : (opening rink).Leads contested :=
  leads_of_schedule? (show (opening rink).schedule? contest = some contested from rfl)

/-- The first request is out of the table once, its callback is about to start, and the second request is
spared by the prune. -/
theorem interleaving_contested :
    ∃ registration later, contested.turns = [] ++ registration :: later
      ∧ registration.Accepts 0 (some 7) ⟨0, ⟨1⟩⟩
      ∧ contested.Accounted 0 (some 7) ⟨0, ⟨1⟩⟩
      ∧ contested.Race 0 (some 7) ⟨0, ⟨1⟩⟩ [] registration later
      ∧ contested.Handover 0 ⟨0, ⟨1⟩⟩ 7
      ∧ (∃ client, contested.world.clients[0]? = some client ∧ contested.SignsOff 0 client
        ∧ client.pendingCount = 1)
      ∧ ∃ pruning ∈ contested.turns, (∃ cutoff, pruning.phase = .pruneOlder cutoff)
        ∧ Effect.removed ⟨1, ⟨2⟩⟩ .pruned ∉ pruning.effects := by
  obtain ⟨accounted, races, -, hands, -, signs, spares⟩ :=
    interleaving rink_isFresh leads_contested
  have first : ∃ registration later, contested.turns = [] ++ registration :: later
      ∧ registration.Accepts 0 (some 7) ⟨0, ⟨1⟩⟩
      ∧ (⟨1⟩ : Sequence) ∉ entered later 0 Turn.accepted :=
    ⟨_, _, rfl, ⟨rfl, rfl, "ping", rfl⟩, by decide⟩
  have second : ∃ reading since pruning rest acceptance,
      contested.turns = contested.turns.take 1 ++ reading :: (since ++ pruning :: rest)
        ∧ StalePrune reading pruning ∧ acceptance ∈ since
        ∧ acceptance.Accepts 0 none ⟨1, ⟨2⟩⟩ :=
    ⟨_, (contested.turns.drop 2).take 4, _, contested.turns.drop 7, _, rfl,
      ⟨rfl, _, rfl, rfl, rfl⟩, List.mem_of_getElem? (i := 0) rfl, rfl, rfl, "late", rfl⟩
  obtain ⟨registration, later, split, accepts, unused⟩ := first
  obtain ⟨reading, since, pruning, rest, acceptance, order, prunes, member, stored⟩ := second
  refine ⟨registration, later, split, accepts, ?_, ?_, ?_, ?_, pruning, ?_, ?_, ?_⟩
  · exact accounted registration (split ▸ List.mem_cons_self) 0 (some 7) _ accepts
  · exact races [] registration later split 0 (some 7) _ accepts unused
  · exact hands 0 (.notify ⟨0, ⟨1⟩⟩ 7) _ _ _ 7 (List.mem_of_getElem? (i := 0) rfl) rfl rfl
  · exact ⟨_, rfl, signs 0 _ rfl, rfl⟩
  · rw [order]
    exact List.mem_append_right _ (List.mem_cons_of_mem _ (List.mem_append_right _
      List.mem_cons_self))
  · obtain ⟨-, cutoff, -, -, cuts⟩ := prunes
    exact ⟨cutoff, cuts⟩
  · exact spares _ reading since pruning rest order prunes acceptance member 0 none _ stored

end Course

end Correlator
