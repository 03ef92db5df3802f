import Correlator.Proofs.Course.Request

/-!
Contract: the life of requests along every course of fresh clients.

Owns: that every move keeps each table in order and each request at a stage, one lemma for each kind of
change a step can make, and from them the soundness of every course.

Does not own: the counts of clients (`Correlator.Proofs.Course.Accounts`).
-/

set_option autoImplicit false

namespace Correlator

variable {κ : Type}

theorem Stage.of_completing {stage : Stage κ} {front back : List (ClientId × Option κ)}
    {client : ClientId} {callback : Option κ}
    (inside : front ++ (client, callback) :: back = stage.completing) :
    ∃ value, stage = .settling client callback value ∧ front = [] ∧ back = [] := by
  cases stage with
  | settling known knownCallback value =>
    simp only [Stage.completing, List.append_eq_singleton_iff, List.cons.injEq, Prod.mk.injEq,
      reduceCtorEq, and_false, or_false] at inside
    obtain ⟨rfl, ⟨rfl, rfl⟩, rfl⟩ := inside
    exact ⟨value, rfl, rfl, rfl⟩
  | _ => simp [Stage.completing] at inside

namespace Course

/-- The course after a step of an operation under way. -/
def after (course : Course κ) (front back : List (ClientId × Phase κ)) (index : ClientId)
    (service : String) (phase : Phase κ) (step : Step κ) : Course κ :=
  ⟨⟨course.world.clients.set index step.client, step.environment⟩,
    front ++ (step.next.phase?.map fun phase => (index, phase)).toList ++ back,
    course.turns ++ [⟨index, service, phase, step.effects, step.next⟩]⟩

section Steps

variable {course : Course κ} {front back : List (ClientId × Phase κ)} {index : ClientId}
  {client : Client κ} {service : String} {phase : Phase κ} {step : Step κ}

theorem tracks_after (found : course.world.clients[index]? = some client) (other : ClientId)
    (future : Future) (callback : Option κ) :
    (course.after front back index service phase step).world.Tracks other future callback ↔
      (other = index ∧ step.client.table.Tracks future callback)
        ∨ (other ≠ index ∧ course.world.Tracks other future callback) := by
  unfold World.Tracks after
  simp only [World.getElem?_set_client found]
  constructor
  · rintro ⟨known, ⟨same, rfl⟩ | ⟨different, search⟩, tracked⟩
    · exact Or.inl ⟨same, tracked⟩
    · exact Or.inr ⟨different, known, search, tracked⟩
  · rintro (⟨same, tracked⟩ | ⟨different, known, search, tracked⟩)
    · exact ⟨step.client, Or.inl ⟨same, rfl⟩, tracked⟩
    · exact ⟨known, Or.inr ⟨different, search⟩, tracked⟩

theorem tracks_after_iff (found : course.world.clients[index]? = some client) {future : Future}
    (same : ∀ callback, step.client.table.Tracks future callback
      ↔ client.table.Tracks future callback) (other : ClientId) (callback : Option κ) :
    (course.after front back index service phase step).world.Tracks other future callback ↔
      course.world.Tracks other future callback := by
  rw [tracks_after found, same]
  by_cases equal : other = index
  · subst equal
    simp only [true_and, ne_eq, not_true_eq_false, false_and, or_false]
    exact ⟨fun tracked => ⟨client, found, tracked⟩, fun ⟨known, search, tracked⟩ => by
      rw [found] at search
      cases search
      exact tracked⟩
  · simp [equal]

theorem life_after (future : Future) :
    (course.after front back index service phase step).life future
      = course.life future
        ++ Turn.life ⟨index, service, phase, step.effects, step.next⟩ future := by
  simp [after, life]

theorem completesOf_after (future : Future) :
    completesOf (course.after front back index service phase step).underway future
      = completesOf front future
        ++ (completesOf (step.next.phase?.map fun phase => (index, phase)).toList future
          ++ completesOf back future) := by
  simp [after, completesOf_append]

theorem completesOf_split (split : course.underway = front ++ (index, phase) :: back)
    (future : Future) :
    completesOf course.underway future
      = completesOf front future
        ++ (completesOf [(index, phase)] future ++ completesOf back future) := by
  rw [split, List.append_cons front, completesOf_append, completesOf_append, List.append_assoc]

theorem Sound.filed_after (sound : course.Sound)
    (found : course.world.clients[index]? = some client) (filed : step.client.table.Filed) :
    ∀ (other : ClientId) (known : Client κ),
      (course.after front back index service phase step).world.clients[other]? = some known →
        known.table.Filed := by
  intro other known search
  rcases (World.getElem?_set_client found).mp search with ⟨-, rfl⟩ | ⟨-, old⟩
  · exact filed
  · exact sound.filed other known old

/-- A step leaves a request alone: its entry, what its cell holds, what is told of it, and the
completes of it that are under way. -/
structure Spares (course : Course κ) (index : ClientId) (client : Client κ) (service : String)
    (phase : Phase κ) (step : Step κ) (future : Future) : Prop where
  tracks : ∀ callback, step.client.table.Tracks future callback
    ↔ client.table.Tracks future callback
  holds : ∀ value, course.world.environment.cells.Holds future value →
    step.environment.cells.Holds future value
  life : Turn.life ⟨index, service, phase, step.effects, step.next⟩ future = []
  completing : completesOf (step.next.phase?.map fun phase => (index, phase)).toList future
    = completesOf [(index, phase)] future

theorem AtStage.after {future : Future} {stage : Stage κ} (atStage : course.AtStage future stage)
    (found : course.world.clients[index]? = some client)
    (split : course.underway = front ++ (index, phase) :: back)
    (spares : course.Spares index client service phase step future) :
    (course.after front back index service phase step).AtStage future stage := by
  refine atStage.carry ?_ (tracks_after_iff found spares.tracks) spares.holds ?_
  · rw [life_after, spares.life, List.append_nil]
  · rw [completesOf_after, spares.completing, completesOf_split split]

/-- A step keeps a course sound if it brings each request to a stage or leaves it alone. -/
theorem Sound.after_each (sound : course.Sound)
    (found : course.world.clients[index]? = some client)
    (split : course.underway = front ++ (index, phase) :: back)
    (filed : step.client.table.Filed)
    (each : ∀ future,
      (∃ stage, (course.after front back index service phase step).AtStage future stage)
        ∨ course.Spares index client service phase step future) :
    (course.after front back index service phase step).Sound := by
  refine ⟨sound.filed_after found filed, fun future => ?_⟩
  rcases each future with moved | spares
  · exact moved
  · obtain ⟨stage, atStage⟩ := sound.staged future
    exact ⟨stage, atStage.after found split spares⟩

/-- Steps that are about no request keep all requests at their stages. -/
theorem Sound.after_unconcerned (sound : course.Sound)
    (found : course.world.clients[index]? = some client)
    (split : course.underway = front ++ (index, phase) :: back)
    (table_eq : step.client.table = client.table)
    (cells_eq : step.environment.cells = course.world.environment.cells)
    (milestones : (⟨index, service, phase, step.effects, step.next⟩ : Turn κ).milestones = [])
    (completing_eq : ∀ future,
      completesOf (step.next.phase?.map fun phase => (index, phase)).toList future
        = completesOf [(index, phase)] future) :
    (course.after front back index service phase step).Sound := by
  refine sound.after_each found split (table_eq ▸ sound.filed index client found)
    fun future => Or.inr ⟨by simp [table_eq], ?_, ?_, completing_eq future⟩
  · intro value holds
    rw [cells_eq]
    exact holds
  · exact Turn.life_eq_nil (by simp [milestones])

theorem Sound.stage_of_tracks (sound : course.Sound)
    (found : course.world.clients[index]? = some client) {future : Future}
    {callback : Option κ} (tracked : client.table.Tracks future callback) :
    course.AtStage future (.pending index callback) := by
  obtain ⟨stage, atStage⟩ := sound.staged future
  have equal := (atStage.tracks index callback).mp ⟨client, found, tracked⟩
  rw [← equal]
  exact atStage

/-- The entry of a pending request leaves the only table that has it. -/
theorem AtStage.not_tracks_after {future : Future} {callback : Option κ}
    (pending : course.AtStage future (.pending index callback))
    (found : course.world.clients[index]? = some client)
    (gone : ∀ known, ¬ step.client.table.Tracks future known) (other : ClientId)
    (known : Option κ) :
    ¬ (course.after front back index service phase step).world.Tracks other future known := by
  rw [tracks_after found, pending.tracks]
  rintro (⟨-, tracked⟩ | ⟨different, same⟩)
  · exact gone known tracked
  · cases same
    exact different rfl

theorem Sound.unborn_of_not_holds (sound : course.Sound) {future : Future}
    (noCell : ∀ value, ¬ course.world.environment.cells.Holds future value) :
    course.AtStage future .unborn := by
  obtain ⟨stage, atStage⟩ := sound.staged future
  cases stage with
  | unborn => exact atStage
  | pending | settling | completed | cancelled | pruned =>
    exact absurd (atStage.cell _ rfl) (noCell _)

/-! ### Registration -/

theorem Sound.after_stored (sound : course.Sound)
    (found : course.world.clients[index]? = some client)
    {request : Request} {callback : Option κ}
    (split : course.underway = front ++ (index, .submit request callback) :: back)
    {sequence : Sequence} {now : Moment} {table : Pending.Table κ} {timed : Environment}
    {effects : List Effect}
    (inserted : client.table.insert?
      ⟨(course.world.environment.cells.fresh sequence).1, callback, now⟩ = some table)
    (silent : effects.filterMap (Effect.milestone? (κ := κ)) = []) :
    (course.after front back index service (.submit request callback)
      ⟨{ client with table }.count .submitted 1,
        { timed with cells := (course.world.environment.cells.fresh sequence).2 }, effects,
        .returned (.ok (.submitted (course.world.environment.cells.fresh sequence).1))⟩).Sound := by
  have filed := sound.filed index client found
  have milestones : (⟨index, service, .submit request callback, effects,
      .returned (.ok (.submitted (course.world.environment.cells.fresh sequence).1))⟩
      : Turn κ).milestones
        = [((course.world.environment.cells.fresh sequence).1, .submitted callback)] := by
    simp [Turn.milestones, silent, Phase.concluded]
  refine sound.after_each found split (filed.insert? inserted) fun future => ?_
  by_cases new : future = (course.world.environment.cells.fresh sequence).1
  · subst new
    -- The cell was made just now, so its future is at no other stage.
    have unborn := sound.unborn_of_not_holds fun value holds => holds.ne_fresh sequence rfl
    refine Or.inl ⟨.pending index callback, ?_, ?_, ?_, ?_⟩
    · rw [life_after, unborn.life]
      simp [Turn.life, milestones, Stage.life]
    · intro other known
      rw [tracks_after found, unborn.tracks other known]
      change (other = index ∧ table.Tracks _ known) ∨ _ ↔ _
      rw [Pending.Table.tracks_insert? inserted]
      have absent : ¬ client.table.Tracks (course.world.environment.cells.fresh sequence).1 known :=
        fun tracked => by
          have pending := (unborn.tracks index known).mp ⟨client, found, tracked⟩
          cases pending
      simp [absent, eq_comm]
    · intro value known
      cases known
      exact Cells.holds_fresh course.world.environment.cells sequence
    · have before := unborn.completing
      rw [completesOf_split split] at before
      rw [completesOf_after]
      exact before
  · refine Or.inr ⟨?_, fun value holds => holds.fresh sequence, ?_, rfl⟩
    · intro known
      change table.Tracks future known ↔ _
      rw [Pending.Table.tracks_insert? inserted]
      simp [new]
    · exact Turn.life_eq_nil (by simpa [milestones, eq_comm] using new)

/-! ### Completion -/

theorem Sound.resolve_eq (sound : course.Sound)
    (found : course.world.clients[index]? = some client) {sequence : Sequence}
    {entry : Pending.Entry κ} (search : client.table.find? sequence = some entry)
    (response : Response) :
    ∃ filled, course.world.environment.cells.resolve entry.future response
        = .ok ((course.world.environment.cells.cell entry.future).wakers, filled)
      ∧ filled.Holds entry.future (some response)
      ∧ ∀ other held, other ≠ entry.future →
        course.world.environment.cells.Holds other held → filled.Holds other held := by
  have filed := sound.filed index client found
  have pending := sound.stage_of_tracks found (filed.tracks_of_find? search)
  exact (pending.cell none rfl).resolve response

theorem Sound.takesResponses (sound : course.Sound)
    (found : course.world.clients[index]? = some client) :
    client.TakesResponses course.world.environment := by
  intro sequence entry response search
  obtain ⟨filled, fills, -⟩ := sound.resolve_eq found search response
  exact ⟨_, fills⟩

theorem Sound.after_matched (sound : course.Sound)
    (found : course.world.clients[index]? = some client)
    {sequence : Sequence} {response : Response} {entry : Pending.Entry κ}
    (split : course.underway = front ++ (index, .complete sequence response) :: back)
    (search : client.table.find? sequence = some entry) {wakers : List Waker} {cells : Cells}
    (resolved : course.world.environment.cells.resolve entry.future response
      = .ok (wakers, cells)) :
    (course.after front back index service (.complete sequence response)
      ⟨{ client with table := client.table.erase sequence },
        { course.world.environment with cells },
        .locked :: .removed entry.future .completed :: .resolved entry.future response
          :: (wakers.map Effect.woke ++ [.unlocked]),
        .goesOn (.countCompleted ⟨entry.future, entry.callback⟩)⟩).Sound := by
  have filed := sound.filed index client found
  have pending := sound.stage_of_tracks found (filed.tracks_of_find? search)
  obtain ⟨filled, fills, holds, kept⟩ := sound.resolve_eq found search response
  rw [fills] at resolved
  cases resolved
  have gone : client.table.erase sequence
      = ⟨client.table.rows.filter fun row => !(row.1 == sequence)⟩ := rfl
  have milestones : (⟨index, service, .complete sequence response,
      .locked :: .removed entry.future .completed :: .resolved entry.future response
        :: ((course.world.environment.cells.cell entry.future).wakers.map Effect.woke
          ++ [.unlocked]),
      .goesOn (.countCompleted ⟨entry.future, entry.callback⟩)⟩ : Turn κ).milestones
        = [(entry.future, .left .completed), (entry.future, .resolved response)] := by
    have silent : ((course.world.environment.cells.cell entry.future).wakers.map
        Effect.woke).filterMap (Effect.milestone? (κ := κ)) = [] := by
      simp [List.filterMap_map, Effect.milestone?]
    simp [Turn.milestones, List.filterMap_cons, Effect.milestone?, silent, Phase.concluded]
  refine sound.after_each found split (filed.erase sequence) fun future => ?_
  by_cases own : future = entry.future
  · subst own
    refine Or.inl ⟨.settling index entry.callback response, ?_, ?_, ?_, ?_⟩
    · rw [life_after, pending.life]
      simp [Turn.life, milestones, Stage.life]
    · intro other known
      refine iff_of_false (pending.not_tracks_after found (fun callback tracked => ?_) other known)
        (by simp)
      have stays := ((filed.tracks_filter _ _ _).mp tracked).2
      rw [filed.filter_sequence search] at stays
      exact stays (List.mem_singleton.mpr rfl)
    · intro value known
      cases known
      exact holds
    · have before := pending.completing
      rw [completesOf_split split, completesOf_eq_nil index entry.future rfl] at before
      have nothing : completesOf front entry.future = [] ∧ completesOf back entry.future = [] := by
        simpa [Stage.completing] using before
      rw [completesOf_after, nothing.1, nothing.2]
      simp [Next.phase?, completesOf, Phase.settles?, Stage.completing]
  · refine Or.inr ⟨?_, fun value => kept future value own, ?_, ?_⟩
    · intro known
      change (client.table.erase sequence).Tracks future known ↔ _
      rw [gone, filed.tracks_filter, filed.filter_sequence search]
      simp [own]
    · exact Turn.life_eq_nil (by simpa [milestones, eq_comm] using own)
    · simp [Next.phase?, completesOf, Phase.settles?, Ne.symm own]

/-- The last step of a complete: the request counts as completed, and its callback, if it has one,
gets the future. -/
theorem Sound.after_settled (sound : course.Sound)
    (found : course.world.clients[index]? = some client)
    (split : course.underway = front ++ (index, phase) :: back)
    (future : Future) (callback : Option κ)
    (settles : ∀ other, phase.settles? other = if future = other then some callback else none)
    (table_eq : step.client.table = client.table)
    (cells_eq : step.environment.cells = course.world.environment.cells)
    (milestones : (⟨index, service, phase, step.effects, step.next⟩ : Turn κ).milestones
      = (callback.map fun callback => (future, .calledBack callback)).toList)
    (ends : step.next.phase? = none) :
    (course.after front back index service phase step).Sound := by
  refine sound.after_each found split (table_eq ▸ sound.filed index client found) fun other => ?_
  by_cases own : other = future
  · subst own
    obtain ⟨stage, atStage⟩ := sound.staged other
    -- The complete under way tells which stage the request is at.
    have before := atStage.completing
    rw [completesOf_split split] at before
    have inside : completesOf front other ++ (index, callback) :: completesOf back other
        = stage.completing := by
      simpa [completesOf, settles] using before
    obtain ⟨value, rfl, noFront, noBack⟩ := Stage.of_completing inside
    refine Or.inl ⟨.completed index callback value, ?_, ?_, ?_, ?_⟩
    · rw [life_after, atStage.life]
      cases callback <;> simp [Turn.life, milestones, Stage.life]
    · intro known knownCallback
      rw [tracks_after_iff found (by simp [table_eq]), atStage.tracks known knownCallback]
      simp
    · intro held known
      cases known
      change step.environment.cells.Holds other (some value)
      rw [cells_eq]
      exact atStage.cell _ rfl
    · rw [completesOf_after, noFront, noBack, ends]
      rfl
  · refine Or.inr ⟨by simp [table_eq], ?_, ?_, ?_⟩
    · intro value holds
      rw [cells_eq]
      exact holds
    · refine Turn.life_eq_nil ?_
      cases callback <;> simp [milestones, Ne.symm own]
    · simp [ends, completesOf, settles, Ne.symm own]

/-! ### Departure without a response -/

/-- Rows leave a table without being completed: by a cancellation or a prune. -/
theorem Sound.after_departures (sound : course.Sound)
    (found : course.world.clients[index]? = some client)
    (split : course.underway = front ++ (index, phase) :: back)
    (leaves : Sequence × Pending.Entry κ → Bool) (removal : Removal)
    (gone : ClientId → Option κ → Stage κ)
    (gone_life : ∀ client callback,
      (gone client callback).life = [(client, .submitted callback), (client, .left removal)])
    (gone_cell : ∀ client callback, (gone client callback).cell? = some none)
    (gone_completing : ∀ client callback, (gone client callback).completing = [])
    (gone_ne : ∀ client callback other known, gone client callback ≠ .pending other known)
    (table_eq : step.client.table = ⟨client.table.rows.filter fun row => !leaves row⟩)
    (cells_eq : step.environment.cells = course.world.environment.cells)
    (milestones : (⟨index, service, phase, step.effects, step.next⟩ : Turn κ).milestones
      = ((client.table.rows.filter leaves).map fun row => row.2.future).map
          fun future => (future, .left removal))
    (begins : phase.isCompleting = false) (ends : step.next.phase? = none) :
    (course.after front back index service phase step).Sound := by
  have filed := sound.filed index client found
  refine sound.after_each found split (table_eq ▸ filed.filter _) fun future => ?_
  have unsettled : completesOf [(index, phase)] future = [] :=
    completesOf_eq_nil index future begins
  by_cases departs :
      future ∈ (client.table.rows.filter leaves).map fun row => row.2.future
  · obtain ⟨callback, tracked⟩ := Pending.Table.tracks_of_mem_filter filed departs
    have pending := sound.stage_of_tracks found tracked
    -- The futures of the rows are distinct, so the turn tells of this departure once.
    have once : ((client.table.rows.filter leaves).map fun row => row.2.future).filter
        (· = future) = [future] := by
      have distinct : ((client.table.rows.filter leaves).map fun row => row.2.future).Nodup :=
        filed.nodup_futures.sublist (List.filter_sublist.map _)
      rw [List.filter_eq, distinct.count, if_pos departs]
      rfl
    refine Or.inl ⟨gone index callback, ?_, ?_, ?_, ?_⟩
    · rw [life_after, pending.life, gone_life]
      simp only [Turn.life, milestones, List.filter_map, Function.comp_def, once, Stage.life]
      rfl
    · intro other known
      refine iff_of_false (pending.not_tracks_after found (fun callback tracked => ?_) other known)
        (gone_ne index callback other known)
      rw [table_eq, filed.tracks_filter] at tracked
      exact tracked.2 departs
    · intro value known
      rw [gone_cell] at known
      cases known
      change step.environment.cells.Holds future none
      rw [cells_eq]
      exact pending.cell none rfl
    · have before := pending.completing
      rw [completesOf_split split, unsettled] at before
      rw [completesOf_after, ends, gone_completing]
      exact before
  · refine Or.inr ⟨?_, ?_, ?_, ?_⟩
    · intro callback
      rw [table_eq, filed.tracks_filter]
      simp only [departs, not_false_eq_true, and_true]
    · intro value holds
      rw [cells_eq]
      exact holds
    · refine Turn.life_eq_nil fun event member same => departs ?_
      rw [milestones] at member
      obtain ⟨departing, inside, rfl⟩ := List.mem_map.mp member
      exact same ▸ inside
    · rw [ends, unsettled]
      rfl

/-! ### Every step and every move -/

private theorem milestones_silent {effects : List Effect} {next : Next κ}
    (silent : effects.filterMap (Effect.milestone? (κ := κ)) = [])
    (isAside : next.isAside = true) :
    (⟨index, service, phase, effects, next⟩ : Turn κ).milestones = [] := by
  simp [Turn.milestones, silent, phase.concluded_of_isAside isAside]

private theorem completesOf_unconcerned {next : Next κ} (begins : phase.isCompleting = false)
    (goesOn : next.isAside = true) (future : Future) :
    completesOf (next.phase?.map fun phase => (index, phase)).toList future
      = completesOf [(index, phase)] future := by
  rw [completesOf_eq_nil index future begins]
  cases next with
  | goesOn later =>
    exact completesOf_eq_nil index future (by simpa [Next.isAside] using goesOn)
  | _ => rfl

private theorem filterMap_pruned (scope : PruneScope) (rows : List (Sequence × Pending.Entry κ)) :
    (Effect.locked :: (rows.map (fun row => Effect.removed row.2.future .pruned)
        ++ Client.pruneReport scope rows.length ++ [.unlocked])).filterMap
          (Effect.milestone? (κ := κ))
      = (rows.map fun row => row.2.future).map fun future => (future, .left .pruned) := by
  have report : (Client.pruneReport scope rows.length).filterMap
      (Effect.milestone? (κ := κ)) = [] := by
    unfold Client.pruneReport
    split <;> rfl
  simp [List.filterMap_cons, List.filterMap_map, Function.comp_def, Effect.milestone?, report]

theorem Sound.after_step (sound : course.Sound)
    (found : course.world.clients[index]? = some client)
    (split : course.underway = front ++ (index, phase) :: back)
    (exit : client.Exit course.world.environment phase step) :
    (course.after front back index service phase step).Sound := by
  have filed := sound.filed index client found
  cases exit with
  | gone disposed begins =>
    exact sound.after_unconcerned found split rfl rfl (milestones_silent rfl rfl)
      (completesOf_unconcerned begins rfl)
  | full live reached =>
    exact sound.after_unconcerned found split rfl rfl (milestones_silent rfl rfl)
      (completesOf_unconcerned rfl rfl)
  | unsent live room failed =>
    exact sound.after_unconcerned found split rfl rfl (milestones_silent rfl rfl)
      (completesOf_unconcerned rfl rfl)
  | untimed live room sent read | doubled live room sent read taken =>
    have cells_eq := Environment.cells_eq_of_readClock read
    exact sound.after_unconcerned found split rfl cells_eq (milestones_silent rfl rfl)
      (completesOf_unconcerned rfl rfl)
  | stored live room sent read inserted =>
    exact sound.after_stored found split inserted rfl
  | unmatched live absent =>
    exact sound.after_unconcerned found split rfl rfl (milestones_silent rfl rfl)
      (completesOf_unconcerned rfl rfl)
  | lost live search refused =>
    exact absurd refused ((sound.takesResponses found).ne_error search _ _)
  | matched live search resolved => exact sound.after_matched found split search resolved
  | counted =>
    exact sound.after_settled found split _ none (fun _ => rfl) rfl rfl rfl rfl
  | countedBefore =>
    exact sound.after_unconcerned found split rfl rfl (by rfl) fun _ => rfl
  | @handedOver future callback =>
    exact sound.after_settled found split future (some callback) (fun _ => rfl) rfl rfl rfl rfl
  | missed live absent =>
    exact sound.after_unconcerned found split rfl rfl (milestones_silent rfl rfl)
      (completesOf_unconcerned rfl rfl)
  | @cancelled future entry live search =>
    refine sound.after_departures found split (·.1 == future.sequence) .cancelled
      .cancelled (fun _ _ => rfl) (fun _ _ => rfl) (fun _ _ => rfl) (by simp) rfl rfl ?_
      rfl rfl
    rw [filed.filter_sequence search]
    rfl
  | @pruned _ scope stale live prunes =>
    refine sound.after_departures found split stale .pruned
      .pruned (fun _ _ => rfl) (fun _ _ => rfl) (fun _ _ => rfl) (by simp) rfl rfl ?_
      ?_ rfl
    · unfold Turn.milestones
      rw [filterMap_pruned]
      cases phase <;> simp [Phase.concluded]
    · exact Phase.not_completing_of_prunes prunes
  | retired live =>
    exact sound.after_unconcerned found split rfl rfl (milestones_silent rfl rfl)
      (completesOf_unconcerned rfl rfl)
  | aside isAside client_eq cells_eq effects next =>
    refine sound.after_unconcerned found split (congrArg Client.table client_eq) cells_eq
      (milestones_silent ?_ next) (completesOf_unconcerned ?_ next)
    · exact List.filterMap_eq_nil_iff.mpr fun effect member =>
        Effect.milestone?_of_isAside (effects effect member)
    · exact Phase.not_completing_of_isAside isAside

end Steps

/-- Soundness outlives what changes no client, no turn and no complete under way, and keeps what the
cells hold. -/
private theorem Sound.carry {course next : Course κ} (sound : course.Sound)
    (clients_eq : next.world.clients = course.world.clients)
    (turns_eq : next.turns = course.turns)
    (holds : ∀ future value, course.world.environment.cells.Holds future value →
      next.world.environment.cells.Holds future value)
    (completing_eq : ∀ future,
      completesOf next.underway future = completesOf course.underway future) : next.Sound := by
  refine ⟨fun index client found => ?_, fun future => ?_⟩
  · rw [clients_eq] at found
    exact sound.filed index client found
  · obtain ⟨stage, atStage⟩ := sound.staged future
    refine ⟨stage, atStage.carry ?_ ?_ (holds future) (completing_eq future)⟩
    · unfold life
      rw [turns_eq]
    · intro client callback
      unfold World.Tracks
      rw [clients_eq]

theorem Sound.move {course next : Course κ} (sound : course.Sound) (move : Move course next) :
    next.Sound := by
  cases move with
  | enter client phase opening =>
    refine sound.carry rfl rfl (fun _ _ holds => holds) fun future => ?_
    have nothing := completesOf_eq_nil client future (Phase.not_completing_of_opening opening)
    change completesOf ([(client, phase)] ++ course.underway) future = _
    rw [completesOf_append, nothing, List.nil_append]
  | proceed front back client phase turn world split made =>
    obtain ⟨known, found, rfl, rfl⟩ := World.step?_eq_some made
    exact sound.after_step found split (known.exit_step course.world.environment phase)
  | abandon front back client phase split interruptible =>
    refine sound.carry rfl rfl (fun _ _ holds => holds) fun future => ?_
    rw [completesOf_split split, completesOf_eq_nil client future interruptible, List.nil_append,
      completesOf_append]
  | outside act =>
    exact sound.carry rfl rfl (fun _ _ holds => Outside.holds_apply holds act) fun _ => rfl

theorem sound_opening {world : World κ} (fresh : world.IsFresh) : (opening world).Sound := by
  have empty : ∀ (index : ClientId) (client : Client κ),
      world.clients[index]? = some client → client.table = .empty :=
    fun index client found => (fresh client (List.mem_of_getElem? found)).1
  refine ⟨fun index client found => ?_, fun future => ⟨.unborn, rfl, ?_, ?_, rfl⟩⟩
  · rw [empty index client found]
    exact Pending.Table.filed_empty
  · intro index callback
    constructor
    · rintro ⟨client, found, tracked⟩
      rw [empty index client found] at tracked
      exact absurd tracked (Pending.Table.not_tracks_empty future callback)
    · intro impossible
      cases impossible
  · intro value known
    cases known

/-- At every point of a course of fresh clients, the tables are in order and every request is at one
of the stages. -/
theorem Leads.sound {world : World κ} {course : Course κ} (leads : (opening world).Leads course)
    (fresh : world.IsFresh) : course.Sound :=
  leads.keeps (sound_opening fresh) fun _ _ => Sound.move

end Course

end Correlator
