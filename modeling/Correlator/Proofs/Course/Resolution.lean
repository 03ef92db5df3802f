import Correlator.Proofs.Client.Setback
import Correlator.Proofs.Course.Accounts
import Correlator.Proofs.Course.History

/-!
Contract: that every response to a pending request can be stored.

Owns: what the tables and cells promise for the completes to come, that every step of a course is made
in a world that keeps this promise, and that what a complete leaves to be done is done or still under
way.

Does not own: the stages of requests from which this follows (`Correlator.Proofs.Course.Soundness`).
-/

set_option autoImplicit false

namespace Correlator

variable {κ : Type}

namespace World

/-- What tables and cells promise for the completes to come. -/
structure Resolvable (world : World κ) : Prop where
  /-- Every entry is under the number of its own future, and no number has two entries. -/
  filed : ∀ (index : ClientId) (client : Client κ), world.clients[index]? = some client →
    client.table.Filed
  /-- No pending request has a response yet. -/
  unresolved : ∀ (index : ClientId) (client : Client κ), world.clients[index]? = some client →
    ∀ row ∈ client.table.rows, world.environment.cells.Holds row.2.future none
  /-- No two entries share a cell, be they in one table or in two. -/
  distinct : ∀ (left right : ClientId) (leftClient rightClient : Client κ),
    world.clients[left]? = some leftClient → world.clients[right]? = some rightClient →
      ∀ leftRow ∈ leftClient.table.rows, ∀ rightRow ∈ rightClient.table.rows,
        leftRow.2.future.cell = rightRow.2.future.cell → left = right ∧ leftRow = rightRow

theorem Resolvable.takesResponses {world : World κ} (resolvable : world.Resolvable)
    {index : ClientId} {client : Client κ} (found : world.clients[index]? = some client) :
    client.TakesResponses world.environment := by
  intro sequence entry response search
  have empty := resolvable.unresolved index client found _ (Pending.Table.mem_of_find? search)
  obtain ⟨filled, fills, -⟩ := empty.resolve response
  exact ⟨_, fills⟩

end World

namespace Turn

/-- The numbers whose entries a complete took out of the table in a turn. -/
def taken (turn : Turn κ) : List Sequence :=
  turn.effects.filterMap fun effect =>
    match effect with
    | .removed future .completed => some future.sequence
    | _ => none

private theorem taken_eq_nil {turn : Turn κ}
    (none : ∀ future, Effect.removed future .completed ∉ turn.effects) : turn.taken = [] := by
  apply List.filterMap_eq_nil_iff.mpr
  intro effect member
  split
  next future => exact absurd member (none future)
  next => rfl

end Turn

namespace Client

variable {client : Client κ} {environment : Environment} {phase : Phase κ} {step : Step κ}

/-- An entry is taken out by a complete in just those turns in which a response is matched. -/
theorem Exit.taken_eq_matched (exit : client.Exit environment phase step)
    (filed : client.table.Filed) (takes : client.TakesResponses environment) (index : ClientId)
    (service : String) :
    Turn.taken ⟨index, service, phase, step.effects, step.next⟩
      = Turn.matched ⟨index, service, phase, step.effects, step.next⟩ := by
  cases exit with
  | @matched sequence response entry wakers cells live found filled =>
    have number := filed.sequence_of_find? found
    simp [Turn.taken, Turn.matched, List.filterMap_map, number]
  | lost live found refused => exact absurd refused (takes.ne_error found _ _)
  | aside isAside client_eq cells_eq effects next =>
    rw [Turn.taken_eq_nil]
    · cases phase <;> first | rfl | cases isAside
    · intro future member
      cases effects _ member
  | gone disposed begins =>
    rw [Turn.taken_eq_nil (by simp)]
    cases phase <;> rfl
  | pruned live prunes =>
    rw [Turn.taken_eq_nil (by simp)]
    cases phase <;> rfl
  | _ => rfl

/-- A complete that takes out an entry stores the response and goes on to count the request. -/
theorem Exit.goesOn_of_taken (exit : client.Exit environment phase step)
    (takes : client.TakesResponses environment) {future : Future}
    (removed : Effect.removed future .completed ∈ step.effects) :
    ∃ callback, step.next = .goesOn (.countCompleted ⟨future, callback⟩) := by
  cases exit with
  | lost live found refused => exact absurd refused (takes.ne_error found _ _)
  | @matched sequence response entry wakers cells live found filled =>
    have own : entry.future = future := by simpa [eq_comm] using removed
    exact ⟨entry.callback, by rw [own]⟩
  | aside isAside client_eq cells_eq effects next => cases effects _ removed
  | _ => simp at removed

theorem Exit.counted_of_countCompleted {completed : Pending.Completed κ}
    (exit : client.Exit environment (.countCompleted completed) step) :
    Effect.counted .completed 1 ∈ step.effects := by
  cases exit with
  | counted | countedBefore => exact List.mem_cons_self
  | gone disposed begins => cases begins
  | pruned live prunes => cases prunes
  | aside isAside client_eq cells_eq effects next => cases isAside

end Client

namespace Course

variable {world : World κ} {course : Course κ}

theorem Sound.resolvable (sound : course.Sound) : course.world.Resolvable where
  filed := sound.filed
  unresolved := by
    intro index client found row member
    have tracked := (sound.filed index client found).tracks_of_mem member
    exact (sound.stage_of_tracks found tracked).cell none rfl
  distinct := by
    intro left right leftClient rightClient leftFound rightFound leftRow leftMember rightRow
      rightMember same
    have leftFiled := sound.filed left leftClient leftFound
    have rightFiled := sound.filed right rightClient rightFound
    have leftStage := sound.stage_of_tracks leftFound (leftFiled.tracks_of_mem leftMember)
    have rightStage := sound.stage_of_tracks rightFound (rightFiled.tracks_of_mem rightMember)
    have future_eq : leftRow.2.future = rightRow.2.future :=
      (leftStage.cell none rfl).future_eq (rightStage.cell none rfl) same
    -- The request is pending with one client only.
    have tracked := rightFiled.tracks_of_mem rightMember
    rw [← future_eq] at tracked
    have pending := (leftStage.tracks right _).mp ⟨rightClient, rightFound, tracked⟩
    obtain ⟨rfl, -⟩ := Stage.pending.inj pending
    cases leftFound.symm.trans rightFound
    refine ⟨rfl, leftFiled.unique leftMember rightMember ?_⟩
    rw [leftFiled.own leftRow leftMember, leftFiled.own rightRow rightMember]
    exact congrArg Future.sequence future_eq

/-- Every turn is the step of a client in a world that keeps the promise. -/
theorem Leads.stepped (leads : (opening world).Leads course) (fresh : world.IsFresh)
    {turn : Turn κ} (member : turn ∈ course.turns) :
    ∃ (before : World κ) (client : Client κ), before.Resolvable
      ∧ before.clients[turn.client]? = some client
      ∧ turn = ⟨turn.client, client.service, turn.phase,
          (client.step before.environment turn.phase).effects,
          (client.step before.environment turn.phase).next⟩ := by
  induction leads with
  | here => cases member
  | @move before after leads move inductionHypothesis =>
    cases move with
    | proceed front back index phase made world split step =>
      rcases List.mem_append.mp member with old | new
      · exact inductionHypothesis old
      · obtain ⟨client, found, rfl, -⟩ := World.step?_eq_some step
        cases List.mem_singleton.mp new
        exact ⟨before.world, client, (leads.sound fresh).resolvable, found, rfl⟩
    | enter | abandon | outside => exact inductionHypothesis member

/-- What a complete leaves to be done has been done, or it is still under way. -/
theorem Leads.followed (leads : (opening world).Leads course) {turn : Turn κ}
    (member : turn ∈ course.turns) {phase : Phase κ} (goesOn : turn.next = .goesOn phase)
    (completing : phase.isCompleting = true) :
    (turn.client, phase) ∈ course.underway
      ∨ ∃ later ∈ course.turns, later.client = turn.client ∧ later.phase = phase := by
  induction leads with
  | here => cases member
  | @move before after leads move inductionHypothesis =>
    cases move with
    | enter index entered opening =>
      rcases inductionHypothesis member with waiting | done
      · exact Or.inl (List.mem_cons_of_mem _ waiting)
      · exact Or.inr done
    | proceed front back index current made world split step =>
      obtain ⟨client, found, equal, -⟩ := World.step?_eq_some step
      rcases List.mem_append.mp member with old | new
      · rcases inductionHypothesis old with waiting | ⟨later, among, same⟩
        · rw [split, List.perm_middle.mem_iff] at waiting
          rcases List.mem_cons.mp waiting with now | stays
          · obtain ⟨rfl, rfl⟩ := Prod.mk.inj now
            refine Or.inr ⟨made, List.mem_append_right _ (List.mem_singleton.mpr rfl), ?_⟩
            rw [equal]
            exact ⟨rfl, rfl⟩
          · exact Or.inl
              (List.mem_append.mpr ((List.mem_append.mp stays).imp_left (List.mem_append_left _)))
        · exact Or.inr ⟨later, List.mem_append_left _ among, same⟩
      · have same := List.mem_singleton.mp new
        subst same
        have owner : turn.client = index := by rw [equal]
        left
        apply List.mem_append_left
        apply List.mem_append_right
        rw [goesOn, owner]
        exact List.mem_singleton.mpr rfl
    | abandon front back index dropped split interruptible =>
      rcases inductionHypothesis member with waiting | done
      · rw [split, List.perm_middle.mem_iff] at waiting
        rcases List.mem_cons.mp waiting with now | stays
        · obtain ⟨-, rfl⟩ := Prod.mk.inj now
          rw [interruptible] at completing
          cases completing
        · exact Or.inl stays
      · exact Or.inr done
    | outside act => exact inductionHypothesis member

/-- The requests that completes took out are the ones whose responses were matched. -/
theorem Leads.entered_taken (leads : (opening world).Leads course) (fresh : world.IsFresh)
    (index : ClientId) :
    entered course.turns index Turn.taken = entered course.turns index Turn.matched := by
  unfold entered
  apply List.flatMap_congr
  intro turn member
  obtain ⟨before, client, resolvable, found, equal⟩ :=
    leads.stepped fresh (List.mem_filter.mp member).1
  rw [equal]
  exact (client.exit_step before.environment turn.phase).taken_eq_matched
    (resolvable.filed _ client found) (resolvable.takesResponses found) turn.client client.service

end Course

end Correlator
