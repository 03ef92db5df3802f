import Correlator.Proofs.Course.Basic

/-!
Contract: a single request in the course of events.

Owns: what turns tell about a request, the stages it goes through, and what each stage says about the
tables, the cells, the turns so far and the operations under way.

Does not own: that every request is always at one of the stages
(`Correlator.Proofs.Course.Soundness`).
-/

set_option autoImplicit false

namespace Correlator

/-- What happens to a request. -/
inductive Milestone (κ : Type) where
  | submitted (callback : Option κ)
  | left (removal : Removal)
  | resolved (value : Response)
  | calledBack (callback : κ)
deriving DecidableEq, Repr

variable {κ : Type}

/-- What an effect tells about a request. -/
def Effect.milestone? : Effect → Option (Future × Milestone κ)
  | .removed future removal => some (future, .left removal)
  | .resolved future value => some (future, .resolved value)
  | _ => none

theorem Effect.milestone?_of_isAside {effect : Effect} (isAside : effect.isAside = true) :
    (effect.milestone? : Option (Future × Milestone κ)) = none := by
  cases effect <;> first | rfl | cases isAside

/-- What a continuation tells about the request of the step before it. -/
def Phase.concluded (phase : Phase κ) (next : Next κ) : List (Future × Milestone κ) :=
  match phase, next with
  | .submit _ callback, .returned (.ok (.submitted future)) => [(future, .submitted callback)]
  | _, .callsBack future callback => [(future, .calledBack callback)]
  | _, _ => []

theorem Phase.concluded_of_isAside (phase : Phase κ) {next : Next κ}
    (isAside : next.isAside = true) : phase.concluded next = [] := by
  unfold Phase.concluded
  split
  · cases isAside
  · cases isAside
  · rfl

/-- What a turn tells about requests. -/
def Turn.milestones (turn : Turn κ) : List (Future × Milestone κ) :=
  turn.effects.filterMap Effect.milestone? ++ turn.phase.concluded turn.next

/-- What a turn tells about one request, with the client that made the turn. -/
def Turn.life (turn : Turn κ) (future : Future) : List (ClientId × Milestone κ) :=
  (turn.milestones.filter (·.1 = future)).map fun event => (turn.client, event.2)

theorem Turn.mem_life {turn : Turn κ} {future : Future} {client : ClientId}
    {milestone : Milestone κ} :
    (client, milestone) ∈ turn.life future ↔
      turn.client = client ∧ (future, milestone) ∈ turn.milestones := by
  unfold Turn.life
  rw [List.mem_map]
  constructor
  · rintro ⟨⟨about, known⟩, member, same⟩
    cases same
    obtain ⟨member, own⟩ := List.mem_filter.mp member
    have own : about = future := of_decide_eq_true own
    exact ⟨rfl, own ▸ member⟩
  · rintro ⟨rfl, member⟩
    exact ⟨_, List.mem_filter.mpr ⟨member, decide_eq_true rfl⟩, rfl⟩

theorem Turn.life_eq_nil {turn : Turn κ} {future : Future}
    (absent : ∀ event ∈ turn.milestones, event.1 ≠ future) : turn.life future = [] := by
  unfold Turn.life
  rw [List.filter_eq_nil_iff.mpr fun event member => by simpa using absent event member]
  rfl

/-- The stages of a request. A complete settles it in several steps. -/
inductive Stage (κ : Type) where
  | unborn
  | pending (client : ClientId) (callback : Option κ)
  | settling (client : ClientId) (callback : Option κ) (value : Response)
  | completed (client : ClientId) (callback : Option κ) (value : Response)
  | cancelled (client : ClientId) (callback : Option κ)
  | pruned (client : ClientId) (callback : Option κ)
deriving DecidableEq, Repr

namespace Stage

def life : Stage κ → List (ClientId × Milestone κ)
  | .unborn => []
  | .pending client callback => [(client, .submitted callback)]
  | .settling client callback value =>
    [(client, .submitted callback), (client, .left .completed), (client, .resolved value)]
  | .completed client callback value =>
    [(client, .submitted callback), (client, .left .completed), (client, .resolved value)]
      ++ (callback.map fun callback => (client, .calledBack callback)).toList
  | .cancelled client callback => [(client, .submitted callback), (client, .left .cancelled)]
  | .pruned client callback => [(client, .submitted callback), (client, .left .pruned)]

/-- What the cell of a request holds at a stage; there is no cell before it is submitted. -/
def cell? : Stage κ → Option (Option Response)
  | .unborn => none
  | .settling _ _ value | .completed _ _ value => some (some value)
  | .pending _ _ | .cancelled _ _ | .pruned _ _ => some none

/-- The completes of a request that are under way at a stage. -/
def completing : Stage κ → List (ClientId × Option κ)
  | .settling client callback _ => [(client, callback)]
  | _ => []

end Stage

/-- The request that a complete is settling, with its callback. -/
def Phase.settles? (future : Future) : Phase κ → Option (Option κ)
  | .countCompleted completed =>
    if completed.future = future then some completed.callback else none
  | .notify notified callback => if notified = future then some (some callback) else none
  | _ => none

theorem Phase.settles?_eq_none {phase : Phase κ} (future : Future)
    (notCompleting : phase.isCompleting = false) : phase.settles? future = none := by
  cases phase <;> first | rfl | cases notCompleting

def completesOf (underway : List (ClientId × Phase κ)) (future : Future) :
    List (ClientId × Option κ) :=
  underway.filterMap fun operation =>
    (operation.2.settles? future).map fun callback => (operation.1, callback)

theorem completesOf_append (front back : List (ClientId × Phase κ)) (future : Future) :
    completesOf (front ++ back) future = completesOf front future ++ completesOf back future :=
  List.filterMap_append

theorem completesOf_eq_nil {phase : Phase κ} (client : ClientId) (future : Future)
    (notCompleting : phase.isCompleting = false) :
    completesOf [(client, phase)] future = [] := by
  simp [completesOf, phase.settles?_eq_none future notCompleting]

/-- The request of a future is pending with a client, with this callback. -/
def World.Tracks (world : World κ) (index : ClientId) (future : Future) (callback : Option κ) :
    Prop :=
  ∃ client : Client κ, world.clients[index]? = some client ∧ client.table.Tracks future callback

namespace Course

def life (course : Course κ) (future : Future) : List (ClientId × Milestone κ) :=
  course.turns.flatMap fun turn => turn.life future

structure AtStage (course : Course κ) (future : Future) (stage : Stage κ) : Prop where
  life : course.life future = stage.life
  tracks : ∀ client callback,
    course.world.Tracks client future callback ↔ stage = .pending client callback
  cell : ∀ value, stage.cell? = some value →
    course.world.environment.cells.Holds future value
  completing : completesOf course.underway future = stage.completing

/-- A course in which every table is in order and every request at one of the stages. -/
structure Sound (course : Course κ) : Prop where
  filed : ∀ (index : ClientId) (client : Client κ),
    course.world.clients[index]? = some client → client.table.Filed
  staged : ∀ future, ∃ stage, course.AtStage future stage

theorem AtStage.carry {course next : Course κ} {future : Future} {stage : Stage κ}
    (atStage : course.AtStage future stage) (life_eq : next.life future = course.life future)
    (tracks_iff : ∀ client callback,
      next.world.Tracks client future callback ↔ course.world.Tracks client future callback)
    (holds : ∀ value, course.world.environment.cells.Holds future value →
      next.world.environment.cells.Holds future value)
    (completing_eq : completesOf next.underway future = completesOf course.underway future) :
    next.AtStage future stage where
  life := life_eq.trans atStage.life
  tracks client callback := (tracks_iff client callback).trans (atStage.tracks client callback)
  cell value known := holds value (atStage.cell value known)
  completing := completing_eq.trans atStage.completing

end Course

end Correlator
