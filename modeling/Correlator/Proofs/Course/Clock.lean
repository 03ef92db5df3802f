import Correlator.Proofs.Client.Clock
import Correlator.Proofs.Course.History
import Correlator.Proofs.Course.Past

/-!
Contract: clocks along courses.

Owns: that no clock is ever put back, that new entries are stamped with times that have come, and that a
prune of stale entries, which reads the clock in a step of its own, spares what was submitted since.

Does not own: what a single step does to the clocks (`Correlator.Proofs.Client.Clock`).
-/

set_option autoImplicit false

namespace Correlator

variable {κ : Type}

theorem Outside.precedes_apply (environment : Environment) (act : Outside) :
    environment.Precedes (act.apply environment) := by
  cases act with
  | advance clock span => exact environment.precedes_setClock clock (Span.toNanos_le_add _ _)
  | passTime span => exact environment.precedes_sleep span .running
  | _ => exact .of_eq rfl rfl

namespace Course

variable {world : World κ} {start course : Course κ} {index : ClientId} {client : Client κ}
  {future : Future}

/-- No clock is ever put back. -/
theorem Leads.precedes (leads : start.Leads course) :
    start.world.environment.Precedes course.world.environment := by
  induction leads with
  | here => exact .refl _
  | @move course next leads move inductionHypothesis =>
    cases move with
    | enter | abandon => exact inductionHypothesis
    | outside act => exact inductionHypothesis.trans (act.precedes_apply _)
    | proceed front back acting phase turn world split made =>
      obtain ⟨actor, found, rfl, rfl⟩ := World.step?_eq_some made
      exact inductionHypothesis.trans (actor.precedes_step _ phase)

/-- What a client has pending it had pending before, or it was submitted since. -/
theorem Leads.stamped (leads : start.Leads course)
    (found : course.world.clients[index]? = some client) :
    ∃ earlier, start.world.clients[index]? = some earlier ∧ client.clock = earlier.clock
      ∧ ∀ row ∈ client.table.rows, row ∈ earlier.table.rows
        ∨ ((start.world.environment.elapsed earlier.clock).toNanos : Int)
          ≤ row.2.submittedAt.toNanos := by
  induction leads generalizing client with
  | here => exact ⟨client, found, rfl, fun _ member => Or.inl member⟩
  | @move course next leads move inductionHypothesis =>
    cases move with
    | enter | abandon | outside => exact inductionHypothesis found
    | proceed front back acting phase turn world split made =>
      obtain ⟨actor, foundActor, rfl, rfl⟩ := World.step?_eq_some made
      rcases (World.getElem?_set_client foundActor).mp found with ⟨rfl, rfl⟩ | ⟨different, old⟩
      · obtain ⟨earlier, foundEarlier, clock_eq, stamped⟩ := inductionHypothesis foundActor
        have exit := actor.exit_step course.world.environment phase
        refine ⟨earlier, foundEarlier, exit.clock_eq.trans clock_eq, fun row member => ?_⟩
        rcases exit.stamped member with old | new
        · exact stamped row old
        · have passed := leads.precedes.trans (actor.precedes_step _ phase) earlier.clock
          rw [clock_eq] at new
          right
          omega
      · exact inductionHypothesis old

/-- A request that is pending is not accepted once more. -/
theorem AtStage.not_accepts_later {known : ClientId} {stored : Option κ}
    (pending : start.AtStage future (.pending known stored)) (sound : course.Sound)
    {since : List (Turn κ)} (turns_eq : course.turns = start.turns ++ since)
    {acceptance : Turn κ} (member : acceptance ∈ since) {callback : Option κ} :
    ¬ acceptance.Accepts index callback future := by
  rintro ⟨-, accepted⟩
  have told := (acceptance.submitted_mem_milestones future callback).mpr ⟨rfl, accepted⟩
  have again : (acceptance.client, .submitted callback)
      ∈ since.flatMap fun turn => turn.life future :=
    List.mem_flatMap.mpr ⟨acceptance, member, Turn.mem_life.mpr ⟨rfl, told⟩⟩
  obtain ⟨stage, atStage⟩ := sound.staged future
  have life := atStage.life
  have before := pending.life
  unfold Course.life at life before
  rw [turns_eq, List.flatMap_append, before] at life
  generalize since.flatMap (fun turn => turn.life future) = later at life again
  cases stage with
  | completed owner called value =>
    cases called <;> (simp [Stage.life] at life; simp [life] at again)
  | _ => simp [Stage.life] at life <;> simp [life] at again

/-- A prune of stale entries drops nothing that was submitted since it read the clock. -/
theorem Leads.spares_recent (leads : (opening world).Leads course) (fresh : world.IsFresh)
    {before since rest : List (Turn κ)} {reading pruning : Turn κ} {cutoff : Moment}
    (split : course.turns = before ++ reading :: (since ++ pruning :: rest))
    (reads : reading.phase = .pruneStale) (cuts : reading.next = .goesOn (.pruneOlder cutoff))
    (own : pruning.client = reading.client) (prunes : pruning.phase = .pruneOlder cutoff)
    {acceptance : Turn κ} (member : acceptance ∈ since) {callback : Option κ}
    (accepts : acceptance.Accepts index callback future) :
    Effect.removed future .pruned ∉ pruning.effects := by
  intro dropped
  obtain ⟨earlier, front, back, reader, led, earlier_turns, reader_makes, onward⟩ :=
    leads.rewind_opening split
  have reaches := led.trans reader_makes.leads_beyond
  obtain ⟨racing, front', back', pruner, onward, racing_turns, pruner_makes, -⟩ :=
    onward.rewind (show course.turns = (earlier.beyond front back reader reading).turns ++ since
      ++ pruning :: rest by simp [split, reader_makes.turns_beyond, earlier_turns])
  -- The dropped row is older than the cutoff, and the cutoff lies before the reading.
  have exit := pruner.exit_step racing.world.environment pruning.phase
  rw [← pruner_makes.effects_eq] at dropped
  rw [prunes] at exit dropped
  obtain ⟨row, inside, rfl, stale⟩ := exit.stale_of_pruned dropped
  have found : (reader.step earlier.world.environment .pruneStale).next
      = .goesOn (.pruneOlder cutoff) := by
    rw [← cuts, ← reader_makes.next_eq, reads]
  have cutoff_le := Client.cutoff_le_elapsed found
  obtain ⟨known, foundKnown, -, stamped⟩ := onward.stamped pruner_makes.found
  rw [own] at foundKnown
  rcases (World.getElem?_set_client reader_makes.found).mp foundKnown with ⟨-, rfl⟩ | ⟨other, -⟩
  · rcases stamped row inside with old | new
    · have sound := reaches.sound fresh
      have pending := sound.stage_of_tracks foundKnown
        ((sound.filed _ _ foundKnown).tracks_of_mem old)
      exact pending.not_accepts_later ((reaches.trans onward).sound fresh) racing_turns member
        accepts
    · have clock_eq := (reader.exit_step earlier.world.environment reading.phase).clock_eq
      rw [clock_eq] at new
      have passed : (earlier.beyond front back reader reading).world.environment
          = (reader.step earlier.world.environment .pruneStale).environment := by
        rw [← reads]
        rfl
      rw [passed] at new
      have younger := Moment.lt_iff_toNanos_lt.mp stale
      omega
  · exact other rfl

end Course

end Correlator
