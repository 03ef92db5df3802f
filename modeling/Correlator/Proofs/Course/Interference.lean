import Correlator.Proofs.Course.History

/-!
Contract: what the turns of some clients leave as it was.

Owns: that a client is changed by its own turns only, that everything that happens to a request happens in
turns of the client that accepted it, and from both that turns of other clients leave a client alone with the
values of all futures that it has given out.

Does not own: which client's turns an operation makes (`Correlator.Proofs.Session.Interference`).
-/

set_option autoImplicit false

namespace Correlator

variable {κ : Type}

/-- All that happens to a request happens in turns of one client. -/
theorem Stage.client_unique (stage : Stage κ) {left right : ClientId × Milestone κ}
    (leftTold : left ∈ stage.life) (rightTold : right ∈ stage.life) : left.1 = right.1 := by
  have single : ∃ client, ∀ event ∈ stage.life, event.1 = client := by
    cases stage with
    | unborn => exact ⟨0, by simp [Stage.life]⟩
    | completed client callback value =>
      refine ⟨client, ?_⟩
      cases callback <;> simp [Stage.life]
    | pending client callback | settling client callback value | cancelled client callback
    | pruned client callback =>
      exact ⟨client, by simp [Stage.life]⟩
  obtain ⟨client, same⟩ := single
  rw [same left leftTold, same right rightTold]

/-- What happened to a request so far decides what its cell holds. -/
theorem Stage.cell?_eq_of_life_eq {stage other : Stage κ} (same : stage.life = other.life) :
    stage.cell? = other.cell? := by
  have decided : ∀ stage : Stage κ, stage.cell? = stage.life.head?.map fun _ =>
      (Turn.select stage.life Milestone.value?).head?.map (·.2) := by
    intro stage
    cases stage <;> rfl
  rw [decided, decided, same]

namespace Course

variable {world : World κ} {start course : Course κ} {later : List (Turn κ)} {index : ClientId}

/-- A client is changed by its own turns only. -/
theorem Leads.untouched (leads : start.Leads course) (split : course.turns = start.turns ++ later)
    (idle : ∀ turn ∈ later, turn.client ≠ index) :
    course.world.clients[index]? = start.world.clients[index]? := by
  induction leads generalizing later with
  | here => rfl
  | @move course next leads move inductionHypothesis =>
    cases move with
    | enter | abandon | outside => exact inductionHypothesis split idle
    | proceed front back acting phase turn world operation made =>
      obtain ⟨earlier, known, rfl⟩ := leads.eq_concat_of_turns_eq split
      obtain ⟨earlierIdle, turnIdle⟩ := List.forall_mem_append.mp idle
      rw [← inductionHypothesis known earlierIdle]
      obtain ⟨client, found, rfl, rfl⟩ := World.step?_eq_some made
      have apart : acting ≠ index := turnIdle _ (List.mem_singleton.mpr rfl)
      exact List.getElem?_set_ne apart

/-- The turns of other clients tell nothing of a request that a client accepted. -/
theorem life_eq_nil_of_idle (sound : course.Sound) (split : course.turns = start.turns ++ later)
    (idle : ∀ turn ∈ later, turn.client ≠ index) {turn : Turn κ} (member : turn ∈ start.turns)
    {callback : Option κ} {future : Future} (accepts : turn.Accepts index callback future) :
    (later.flatMap fun turn => turn.life future) = [] := by
  apply List.flatMap_eq_nil_iff.mpr
  intro other among
  by_contra told
  obtain ⟨event, eventTold⟩ := List.exists_mem_of_ne_nil _ told
  have memberNow : turn ∈ course.turns := split ▸ List.mem_append_left later member
  obtain ⟨stage, atStage, submitted⟩ := sound.of_accepts memberNow accepts
  have inLife : event ∈ stage.life := by
    rw [← atStage.life, Course.life, split]
    exact List.mem_flatMap.mpr ⟨other, List.mem_append_right _ among, eventTold⟩
  have owner : event.1 = index := stage.client_unique inLife submitted
  exact idle other among ((Turn.mem_life.mp eventTold).1.trans owner)

/-- Turns of other clients leave the value of a future as it is. -/
theorem value?_eq_of_idle (soundBefore : start.Sound) (sound : course.Sound)
    (split : course.turns = start.turns ++ later) (idle : ∀ turn ∈ later, turn.client ≠ index)
    {turn : Turn κ} (member : turn ∈ start.turns) {callback : Option κ} {future : Future}
    (accepts : turn.Accepts index callback future) :
    course.world.environment.cells.value? future = start.world.environment.cells.value? future := by
  obtain ⟨before, atBefore, submitted⟩ := soundBefore.of_accepts member accepts
  obtain ⟨stage, atStage⟩ := sound.staged future
  have life_eq : stage.life = before.life := by
    rw [← atStage.life, ← atBefore.life, Course.life, Course.life, split, List.flatMap_append,
      life_eq_nil_of_idle sound split idle member accepts, List.append_nil]
  have cell_eq := Stage.cell?_eq_of_life_eq life_eq
  -- The request was submitted, so it has a cell.
  obtain ⟨value, holds⟩ : ∃ value, before.cell? = some value := by
    cases before with
    | unborn => cases submitted
    | _ => exact ⟨_, rfl⟩
  rw [(atStage.cell value (cell_eq.trans holds)).value?_eq, (atBefore.cell value holds).value?_eq]

/-- Turns of other clients leave a client alone, with the values of all futures that it has given out. -/
theorem Leads.spares_bystander (before : (opening world).Leads start) (fresh : world.IsFresh)
    (leads : start.Leads course) (split : course.turns = start.turns ++ later)
    (idle : ∀ turn ∈ later, turn.client ≠ index) :
    course.world.clients[index]? = start.world.clients[index]?
      ∧ ∀ turn ∈ start.turns, ∀ callback future, turn.Accepts index callback future →
        course.world.environment.cells.value? future
          = start.world.environment.cells.value? future :=
  ⟨leads.untouched split idle, fun _ member _ _ accepts =>
    value?_eq_of_idle (before.sound fresh) ((before.trans leads).sound fresh) split idle member
      accepts⟩

end Course

end Correlator
