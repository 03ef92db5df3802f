import Correlator.Proofs.Course.Soundness

/-!
Contract: what turns tell of single requests, read off their effects, and how this follows from the
stages of a request.

Owns: the departures of a request, its completions, its handovers to a callback and its submission, for
a turn and for a list of turns.

Does not own: the stages themselves (`Correlator.Proofs.Course.Request`).
-/

set_option autoImplicit false

namespace Correlator

variable {κ : Type}

namespace Turn

/-- How the entry of a request left the table of the client in a turn. -/
def departures (turn : Turn κ) (future : Future) : List (ClientId × Removal) :=
  turn.effects.filterMap fun effect =>
    match effect with
    | .removed left removal => if left = future then some (turn.client, removal) else none
    | _ => none

/-- The complete that took the entry of a request: by which client, for which number, with which
response. -/
def completions (turn : Turn κ) (future : Future) : List (ClientId × Sequence × Response) :=
  match turn.phase with
  | .complete sequence response =>
    if Effect.removed future .completed ∈ turn.effects then [(turn.client, sequence, response)]
    else []
  | _ => []

/-- The responses that a turn stored for a request. -/
def resolutions (turn : Turn κ) (future : Future) : List (ClientId × Response) :=
  turn.effects.filterMap fun effect =>
    match effect with
    | .resolved stored value => if stored = future then some (turn.client, value) else none
    | _ => none

/-- The callback to which a turn hands over, with its future. -/
def handover? (turn : Turn κ) : Option (Future × κ) :=
  match turn.next with
  | .callsBack future callback => some (future, callback)
  | _ => none

/-- A turn of a client accepted a request with this callback. -/
def Accepts (turn : Turn κ) (client : ClientId) (callback : Option κ) (future : Future) : Prop :=
  turn.client = client ∧ turn.next = .returned (.ok (.submitted future))
    ∧ ∃ request, turn.phase = .submit request callback

end Turn

namespace Milestone

/-- What is left of the milestones of one kind. -/
def removal? : Milestone κ → Option Removal
  | .left removal => some removal
  | _ => none

def value? : Milestone κ → Option Response
  | .resolved value => some value
  | _ => none

def callback? : Milestone κ → Option κ
  | .calledBack callback => some callback
  | _ => none

end Milestone

namespace Turn

variable {α : Type}

/-- Milestones of one kind in the life of a request. -/
def select (events : List (ClientId × Milestone κ)) (kind : Milestone κ → Option α) :
    List (ClientId × α) :=
  events.filterMap fun event => (kind event.2).map fun detail => (event.1, detail)

theorem select_life (turn : Turn κ) (future : Future) (kind : Milestone κ → Option α) :
    select (turn.life future) kind
      = turn.milestones.filterMap fun event =>
          if event.1 = future then (kind event.2).map fun detail => (turn.client, detail)
          else none := by
  unfold select life
  rw [List.filterMap_map, List.filterMap_filter]
  refine congrArg (List.filterMap · turn.milestones) (funext fun event => ?_)
  by_cases same : event.1 = future <;> simp [same]

/-- The milestones of a kind that only effects tell of. -/
private theorem select_effects (turn : Turn κ) (future : Future) (kind : Milestone κ → Option α)
    (submitted : ∀ callback, kind (.submitted callback) = none)
    (calledBack : ∀ callback, kind (.calledBack callback) = none) :
    select (turn.life future) kind
      = turn.effects.filterMap fun effect => effect.milestone?.bind fun event =>
          if event.1 = future then (kind event.2).map fun detail => (turn.client, detail)
          else none := by
  have concluded : ((turn.phase.concluded turn.next).filterMap fun event =>
      if event.1 = future then (kind event.2).map fun detail => (turn.client, detail)
      else none) = [] := by
    unfold Phase.concluded
    split <;> simp [submitted, calledBack]
  rw [select_life, milestones, List.filterMap_append, concluded, List.append_nil,
    List.filterMap_filterMap]

theorem departures_eq (turn : Turn κ) (future : Future) :
    turn.departures future = select (turn.life future) Milestone.removal? := by
  rw [turn.select_effects future _ (fun _ => rfl) fun _ => rfl]
  unfold departures
  refine congrArg (List.filterMap · turn.effects) (funext fun effect => ?_)
  cases effect <;> first | rfl | simp [Effect.milestone?, Milestone.removal?]

theorem resolutions_eq (turn : Turn κ) (future : Future) :
    turn.resolutions future = select (turn.life future) Milestone.value? := by
  rw [turn.select_effects future _ (fun _ => rfl) fun _ => rfl]
  unfold resolutions
  refine congrArg (List.filterMap · turn.effects) (funext fun effect => ?_)
  cases effect <;> first | rfl | simp [Effect.milestone?, Milestone.value?]

theorem handover?_eq (turn : Turn κ) (future : Future) :
    select (turn.life future) Milestone.callback?
      = (turn.handover?.toList.filter (·.1 = future)).map fun call => (turn.client, call.2) := by
  have silent : turn.effects.filterMap (fun effect => (effect.milestone?).bind fun event =>
      if event.1 = future then
        (event.2 : Milestone κ).callback?.map fun detail => (turn.client, detail)
      else none) = [] := by
    refine List.filterMap_eq_nil_iff.mpr fun effect _ => ?_
    cases effect <;> first | rfl | simp [Effect.milestone?, Milestone.callback?]
  rw [select_life, milestones, List.filterMap_append, List.filterMap_filterMap, silent,
    List.nil_append]
  unfold Phase.concluded handover?
  split
  next request callback stored phase next =>
    rw [next]
    simp [Milestone.callback?]
  next called callback next =>
    rw [next]
    by_cases same : called = future <;> simp [same, Milestone.callback?]
  next notCalled notSubmitted =>
    split
    next called callback next => exact absurd next (notCalled called callback)
    next => rfl

theorem submitted_mem_milestones (turn : Turn κ) (future : Future) (callback : Option κ) :
    (future, .submitted callback) ∈ turn.milestones ↔
      turn.Accepts turn.client callback future := by
  unfold milestones Accepts
  rw [List.mem_append]
  constructor
  · rintro (told | concluded)
    · obtain ⟨effect, -, told⟩ := List.mem_filterMap.mp told
      cases effect <;> simp [Effect.milestone?] at told
    · unfold Phase.concluded at concluded
      split at concluded
      next request known stored phase next =>
        simp only [List.mem_singleton, Prod.mk.injEq, Milestone.submitted.injEq] at concluded
        obtain ⟨rfl, rfl⟩ := concluded
        exact ⟨rfl, next, request, phase⟩
      next => simp at concluded
      next => cases concluded
  · rintro ⟨-, next, request, phase⟩
    rw [next, phase]
    exact Or.inr (List.mem_singleton.mpr rfl)

end Turn

namespace Client

variable {client : Client κ} {environment : Environment} {phase : Phase κ} {step : Step κ}

private theorem resolutions_eq_nil {turn : Turn κ} (future : Future)
    (silent : ∀ effect ∈ turn.effects, ∀ stored value, effect ≠ .resolved stored value) :
    turn.resolutions future = [] := by
  refine List.filterMap_eq_nil_iff.mpr fun effect member => ?_
  have other := silent effect member
  cases effect with
  | resolved stored value => exact absurd rfl (other stored value)
  | _ => rfl

/-- The responses that a step stores are the ones passed to a complete that took out the request. -/
theorem Exit.completions_eq (exit : client.Exit environment phase step) (filed : client.table.Filed)
    (takes : client.TakesResponses environment) (index : ClientId) (service : String) (future : Future) :
    Turn.completions ⟨index, service, phase, step.effects, step.next⟩ future
      = (Turn.resolutions ⟨index, service, phase, step.effects, step.next⟩ future).map
          fun resolution => (resolution.1, future.sequence, resolution.2) := by
  cases exit with
  | @matched sequence response entry wakers cells live found filled =>
    have resolutions : Turn.resolutions (⟨index, service, .complete sequence response,
        .locked :: .removed entry.future .completed :: .resolved entry.future response
          :: (wakers.map Effect.woke ++ [.unlocked]),
        .goesOn (.countCompleted ⟨entry.future, entry.callback⟩)⟩ : Turn κ) future
          = if entry.future = future then [(index, response)] else [] := by
      unfold Turn.resolutions
      by_cases own : entry.future = future <;> simp [List.filterMap_map, own]
    have number := filed.sequence_of_find? found
    rw [resolutions]
    unfold Turn.completions
    by_cases own : entry.future = future
    · subst own
      simp [number]
    · simp [own, Ne.symm own]
  | lost live found refused => exact absurd refused (takes.ne_error found _ _)
  | aside isAside client_eq cells_eq effects next =>
    rw [resolutions_eq_nil]
    · cases phase <;> first | rfl | cases isAside
    · rintro effect member stored value rfl
      cases effects _ member
  | gone disposed begins =>
    rw [resolutions_eq_nil future (by simp)]
    cases phase <;> rfl
  | pruned live prunes =>
    rw [resolutions_eq_nil]
    · cases phase <;> first | rfl | cases prunes
    · rintro effect member stored value rfl
      simp at member
  | _ => rfl

end Client

/-! ### Along a course -/

theorem Stage.of_submitted {stage : Stage κ} {client : ClientId} {callback : Option κ}
    (member : (client, .submitted callback) ∈ stage.life) :
    stage = .pending client callback ∨ (∃ value, stage = .settling client callback value)
      ∨ (∃ value, stage = .completed client callback value) ∨ stage = .cancelled client callback
      ∨ stage = .pruned client callback := by
  cases stage with
  | completed known knownCallback value =>
    cases knownCallback <;> simp_all [Stage.life]
  | _ => simp_all [Stage.life]

namespace Stage

def departure? : Stage κ → Option (ClientId × Removal)
  | .unborn | .pending _ _ => none
  | .settling client _ _ | .completed client _ _ => some (client, .completed)
  | .cancelled client _ => some (client, .cancelled)
  | .pruned client _ => some (client, .pruned)

def resolution? : Stage κ → Option (ClientId × Response)
  | .settling client _ value | .completed client _ value => some (client, value)
  | _ => none

def handover? : Stage κ → Option (ClientId × κ)
  | .completed client callback _ => callback.map fun callback => (client, callback)
  | _ => none

theorem select_removal (stage : Stage κ) :
    Turn.select stage.life Milestone.removal? = stage.departure?.toList := by
  cases stage with
  | completed client callback value => cases callback <;> rfl
  | _ => rfl

theorem select_value (stage : Stage κ) :
    Turn.select stage.life Milestone.value? = stage.resolution?.toList := by
  cases stage with
  | completed client callback value => cases callback <;> rfl
  | _ => rfl

theorem select_callback (stage : Stage κ) :
    Turn.select stage.life Milestone.callback? = stage.handover?.toList := by
  cases stage with
  | completed client callback value => cases callback <;> rfl
  | _ => rfl

end Stage

namespace Course

variable {course : Course κ} {α : Type}

private theorem select_turns (future : Future) (kind : Milestone κ → Option α) :
    (course.turns.flatMap fun turn => Turn.select (turn.life future) kind)
      = Turn.select (course.life future) kind :=
  List.filterMap_flatMap.symm

theorem departures_eq (future : Future) :
    (course.turns.flatMap fun turn => turn.departures future)
      = Turn.select (course.life future) Milestone.removal? := by
  simp only [Turn.departures_eq, select_turns]

theorem handovers_eq (future : Future) :
    ((course.turns.filterMap Turn.handover?).filter (·.1 = future)).map (·.2)
      = (Turn.select (course.life future) Milestone.callback?).map (·.2) := by
  rw [← select_turns]
  simp only [Turn.handover?_eq]
  generalize course.turns = turns
  induction turns with
  | nil => rfl
  | cons turn rest inductionHypothesis =>
    rw [List.flatMap_cons, List.map_append, ← inductionHypothesis, List.filterMap_cons]
    cases turn.handover? with
    | none => rfl
    | some call =>
      by_cases own : call.1 = future <;> simp [own]

/-- Every response that was stored for a request is the one passed to a complete that took out the
request. -/
theorem Leads.completions_eq {world : World κ} (leads : (opening world).Leads course)
    (fresh : world.IsFresh) (future : Future) :
    (course.turns.flatMap fun turn => turn.completions future)
      = (Turn.select (course.life future) Milestone.value?).map
          fun resolution => (resolution.1, future.sequence, resolution.2) := by
  have each : ∀ turn ∈ course.turns, turn.completions future
      = (Turn.select (turn.life future) Milestone.value?).map
          fun resolution => (resolution.1, future.sequence, resolution.2) := by
    induction leads with
    | here => simp [opening]
    | move leads move inductionHypothesis =>
      cases move with
      | proceed front back index phase turn world split made =>
        intro known member
        rcases List.mem_append.mp member with old | new
        · exact inductionHypothesis known old
        · have sound := leads.sound fresh
          obtain ⟨client, found, rfl, rfl⟩ := World.step?_eq_some made
          rw [List.mem_singleton.mp new, ← Turn.resolutions_eq]
          exact (client.exit_step _ phase).completions_eq (sound.filed index client found)
            (sound.takesResponses found) _ _ _
      | _ => exact inductionHypothesis
  rw [← select_turns, List.map_flatMap]
  exact List.flatMap_congr each

theorem Sound.of_accepts (sound : course.Sound) {turn : Turn κ} (member : turn ∈ course.turns)
    {client : ClientId} {callback : Option κ} {future : Future}
    (accepts : turn.Accepts client callback future) :
    ∃ stage, course.AtStage future stage ∧ (client, .submitted callback) ∈ stage.life := by
  obtain ⟨stage, atStage⟩ := sound.staged future
  refine ⟨stage, atStage, ?_⟩
  rw [← atStage.life]
  have told := (turn.submitted_mem_milestones future callback).mpr ⟨rfl, accepts.2⟩
  exact List.mem_flatMap.mpr ⟨turn, member, Turn.mem_life.mpr ⟨accepts.1, told⟩⟩

end Course

end Correlator
