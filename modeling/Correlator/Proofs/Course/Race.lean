import Correlator.Proofs.Course.Past
import Correlator.Proofs.Course.Resolution

/-!
Contract: deliveries that race on one request.

Owns: what each of them comes to, by the turns before it alone; that one of them wins at most and one
succeeds at most; and that the callback starts only behind the one that won.

Does not own: the stages of a request (`Correlator.Proofs.Course.Request`). The operations that race are
steps of any number of operations under way, in any order.
-/

set_option autoImplicit false

namespace Correlator

variable {κ : Type}

namespace Turn

/-- The request whose response a delivery stored in a turn. -/
def won (turn : Turn κ) : List Future :=
  match turn.phase, turn.next with
  | .complete _ _, .goesOn (.countCompleted completed) => [completed.future]
  | _, _ => []

/-- The request whose delivery came to its success in a turn; if it has a callback, then once the
callback has returned. -/
def confirmed (turn : Turn κ) : List Future :=
  match turn.phase, turn.next with
  | .countCompleted completed, .returned (.ok _) => [completed.future]
  | .notify future _, .callsBack _ _ => [future]
  | _, _ => []

/-- What a delivery comes to under the number of a request that its client registered: `before` are the
turns before the delivery, and `since` those of them that came after the registration. -/
structure Receives (delivery : Turn κ) (future : Future) (callback : Option κ)
    (before since : List (Turn κ)) : Prop where
  /-- The client was put out of use. -/
  refused : (∃ turn ∈ before, turn.client = delivery.client ∧ turn.endsUse = true) →
    delivery.next = .returned (.error (.invalidHandle delivery.service))
  /-- Nothing else took the request out. -/
  wins : (∀ turn ∈ before, turn.client = delivery.client → turn.endsUse = false) →
    (since.flatMap fun turn => turn.departures future) = [] →
      delivery.next = .goesOn (.countCompleted ⟨future, callback⟩)
  /-- Something else took the request out. -/
  loses : (∀ turn ∈ before, turn.client = delivery.client → turn.endsUse = false) →
    (since.flatMap fun turn => turn.departures future) ≠ [] →
      delivery.next = .returned (.error (.unmatchedResponse delivery.service future.sequence))

theorem mem_matched {turn : Turn κ} {sequence : Sequence} :
    sequence ∈ turn.matched ↔
      ∃ response phase, turn.phase = .complete sequence response ∧ turn.next = .goesOn phase := by
  unfold matched
  split
  next number response next phase goesOn =>
    rw [List.mem_singleton]
    constructor
    · rintro rfl
      exact ⟨response, next, phase, goesOn⟩
    · rintro ⟨_, _, same, -⟩
      rw [phase] at same
      cases same
      rfl
  next other =>
    refine iff_of_false List.not_mem_nil ?_
    rintro ⟨response, phase, same, goesOn⟩
    exact other _ _ _ same goesOn

theorem length_matched_le (turn : Turn κ) : turn.matched.length ≤ 1 := by
  unfold matched
  split
  · exact Nat.le_refl 1
  · exact Nat.zero_le 1

/-- A delivery that finds something under the number wins the request. -/
theorem Receives.won_eq {delivery : Turn κ} {future : Future} {callback : Option κ}
    {before since : List (Turn κ)} (receives : delivery.Receives future callback before since)
    (found : future.sequence ∈ delivery.matched) : delivery.won = [future] := by
  obtain ⟨response, later, phase, goesOn⟩ := mem_matched.mp found
  have live : ∀ turn ∈ before, turn.client = delivery.client → turn.endsUse = false := by
    intro turn member own
    by_contra ends
    have refused := receives.refused ⟨turn, member, own, by simpa using ends⟩
    rw [goesOn] at refused
    cases refused
  have stays : (since.flatMap fun turn => turn.departures future) = [] := by
    by_contra left
    have loses := receives.loses live left
    rw [goesOn] at loses
    cases loses
  unfold won
  rw [phase, receives.wins live stays]

end Turn

theorem mem_entered {turns : List (Turn κ)} {index : ClientId} {account : Turn κ → List Sequence}
    {sequence : Sequence} :
    sequence ∈ entered turns index account ↔
      ∃ turn ∈ turns, turn.client = index ∧ sequence ∈ account turn := by
  simp [entered, and_assoc]

namespace Client

variable {client : Client κ} {environment : Environment} {phase : Phase κ} {step : Step κ}

/-- The request that a step accepted is pending after it. -/
theorem Exit.tracks_of_accepted {request : Request} {callback : Option κ} {future : Future}
    (exit : client.Exit environment (.submit request callback) step)
    (accepted : step.next = .returned (.ok (.submitted future))) :
    step.client.table.Tracks future callback := by
  cases exit with
  | stored live room sent read inserted =>
    cases accepted
    exact (Pending.Table.tracks_insert? inserted _ _).mpr (Or.inl ⟨rfl, rfl⟩)
  | pruned live prunes => cases prunes
  | aside isAside client_eq cells_eq effects next => cases isAside
  | _ => cases accepted

/-- What a delivery comes to is decided by the entry under its number. -/
theorem Exit.next_of_complete {sequence : Sequence} {response : Response}
    (exit : client.Exit environment (.complete sequence response) step)
    (takes : client.TakesResponses environment) :
    step.next =
      if client.disposed then .returned (.error (.invalidHandle client.service))
      else match client.table.find? sequence with
        | some entry => .goesOn (.countCompleted ⟨entry.future, entry.callback⟩)
        | none => .returned (.error (.unmatchedResponse client.service sequence)) := by
  cases exit with
  | gone disposed begins => simp [disposed]
  | unmatched live absent =>
    have none : client.table.find? sequence = none := Option.not_isSome_iff_eq_none.mp (by
      simpa [Pending.Table.contains] using absent)
    simp [live, none]
  | lost live found refused => exact absurd refused (takes.ne_error found _ _)
  | matched live found filled => simp [live, found]
  | pruned live prunes => cases prunes
  | aside isAside client_eq cells_eq effects next => cases isAside

/-- Only the last step of a complete calls back. -/
theorem Exit.phase_of_callsBack (exit : client.Exit environment phase step) {future : Future}
    {callback : κ} (calls : step.next = .callsBack future callback) :
    phase = .notify future callback := by
  cases exit with
  | handedOver =>
    cases calls
    rfl
  | aside isAside client_eq cells_eq effects next =>
    rw [calls] at next
    cases next
  | _ => cases calls

/-- A step that wins a race adds a complete to those under way, and the success of a complete takes one
away. -/
theorem Exit.confirmed_add (exit : client.Exit environment phase step) (index : ClientId)
    (service : String) (future : Future) :
    (Turn.confirmed ⟨index, service, phase, step.effects, step.next⟩).count future
        + (completesOf (step.next.phase?.map fun phase => (index, phase)).toList future).length
      = (Turn.won ⟨index, service, phase, step.effects, step.next⟩).count future
        + (completesOf [(index, phase)] future).length := by
  cases exit with
  | gone disposed begins =>
    rw [completesOf_eq_nil index future begins]
    cases phase <;> rfl
  | pruned live prunes =>
    rw [completesOf_eq_nil index future (Phase.not_completing_of_prunes prunes)]
    cases phase <;> first | rfl | cases prunes
  | aside isAside client_eq cells_eq effects next =>
    rw [completesOf_eq_nil index future (Phase.not_completing_of_isAside isAside)]
    have calm : completesOf (step.next.phase?.map fun phase => (index, phase)).toList future = [] := by
      cases goesOn : step.next with
      | goesOn later =>
        rw [goesOn] at next
        exact completesOf_eq_nil index future (by simpa [Next.isAside] using next)
      | _ => rfl
    rw [calm]
    cases phase <;> first | rfl | cases isAside
  | @matched sequence response entry =>
    by_cases own : entry.future = future <;>
      simp [Turn.confirmed, Turn.won, Next.phase?, completesOf, Phase.settles?, own]
  | @counted other =>
    by_cases own : other = future <;>
      simp [Turn.confirmed, Turn.won, Next.phase?, completesOf, Phase.settles?, own]
  | @countedBefore other callback =>
    by_cases own : other = future <;>
      simp [Turn.confirmed, Turn.won, Next.phase?, completesOf, Phase.settles?, own]
  | @handedOver other callback =>
    by_cases own : other = future <;>
      simp [Turn.confirmed, Turn.won, Next.phase?, completesOf, Phase.settles?, own]
  | _ => rfl

/-- A delivery that wins takes out the entry. -/
theorem Exit.count_won_le (exit : client.Exit environment phase step) (index : ClientId)
    (service : String) (future : Future) :
    (Turn.won ⟨index, service, phase, step.effects, step.next⟩).count future
      ≤ (Turn.departures ⟨index, service, phase, step.effects, step.next⟩ future).length := by
  cases exit with
  | gone disposed begins => cases phase <;> exact Nat.zero_le _
  | pruned live prunes => cases phase <;> exact Nat.zero_le _
  | aside isAside client_eq cells_eq effects next =>
    cases phase <;> first | exact Nat.zero_le _ | cases isAside
  | @matched sequence response entry =>
    by_cases own : entry.future = future <;> simp [Turn.won, Turn.departures, own]
  | _ => exact Nat.zero_le _

end Client

namespace Course

variable {world : World κ} {course : Course κ} {index : ClientId} {callback : Option κ}
  {future : Future}

/-! ### The winner -/

/-- The deliveries that won a request have come to their success, or they are under way. -/
theorem Leads.confirmed_add (leads : (opening world).Leads course) (future : Future) :
    (course.turns.flatMap Turn.confirmed).count future
        + (completesOf course.underway future).length
      = (course.turns.flatMap Turn.won).count future := by
  induction leads with
  | here => rfl
  | @move course next leads move inductionHypothesis =>
    cases move with
    | enter client phase opening =>
      have nothing := completesOf_eq_nil client future (Phase.not_completing_of_opening opening)
      change _ + (completesOf ([(client, phase)] ++ course.underway) future).length = _
      rw [completesOf_append, nothing, List.nil_append]
      exact inductionHypothesis
    | abandon front back client phase split interruptible =>
      rw [completesOf_split split, completesOf_eq_nil client future interruptible] at inductionHypothesis
      change _ + (completesOf (front ++ back) future).length = _
      rw [completesOf_append]
      exact inductionHypothesis
    | outside act => exact inductionHypothesis
    | proceed front back acting phase turn world split made =>
      obtain ⟨actor, found, rfl, rfl⟩ := World.step?_eq_some made
      have turned := (actor.exit_step course.world.environment phase).confirmed_add acting
        actor.service future
      rw [completesOf_split split] at inductionHypothesis
      simp only [List.flatMap_append, List.flatMap_singleton, List.count_append, completesOf_append,
        List.length_append] at inductionHypothesis ⊢
      omega

theorem Leads.length_departures_le (leads : (opening world).Leads course) (fresh : world.IsFresh)
    (future : Future) : (course.turns.flatMap fun turn => turn.departures future).length ≤ 1 := by
  obtain ⟨stage, atStage⟩ := (leads.sound fresh).staged future
  rw [course.departures_eq future, atStage.life, stage.select_removal]
  exact Option.length_toList_le

theorem count_won_le_of_stepped {turns : List (Turn κ)}
    (stepped : ∀ turn ∈ turns, turn.won.count future ≤ (turn.departures future).length) :
    (turns.flatMap Turn.won).count future
      ≤ (turns.flatMap fun turn => turn.departures future).length := by
  rw [List.count_flatMap, List.length_flatMap]
  exact List.sum_le_sum stepped

/-- At most one delivery wins a request. -/
theorem Leads.count_won_le (leads : (opening world).Leads course) (fresh : world.IsFresh)
    (future : Future) : (course.turns.flatMap Turn.won).count future ≤ 1 := by
  refine Nat.le_trans (count_won_le_of_stepped fun turn member => ?_)
    (leads.length_departures_le fresh future)
  obtain ⟨before, client, -, -, equal⟩ := leads.stepped fresh member
  rw [equal]
  exact (client.exit_step before.environment turn.phase).count_won_le _ _ future

/-! ### Each delivery -/

/-- A course in which a request was registered, and where it stands afterwards. -/
theorem Leads.registered (leads : (opening world).Leads course) (fresh : world.IsFresh)
    {before later : List (Turn κ)} {registration : Turn κ}
    (split : course.turns = before ++ registration :: later)
    (accepts : registration.Accepts index callback future) :
    ∃ start, (opening world).Leads start ∧ start.Leads course
      ∧ start.turns = before ++ [registration]
      ∧ start.AtStage future (.pending index callback) := by
  obtain ⟨earlier, front, back, client, led, turns_eq, makes, onward⟩ :=
    leads.rewind_opening split
  have reaches := led.trans makes.leads_beyond
  refine ⟨_, reaches, onward, ?_, ?_⟩
  · rw [makes.turns_beyond, turns_eq]
  · obtain ⟨rfl, next, request, phase⟩ := accepts
    have exit := client.exit_step earlier.world.environment registration.phase
    have tracked := (phase ▸ exit).tracks_of_accepted (phase ▸ makes.next_eq.trans next)
    refine (reaches.sound fresh).stage_of_tracks
      ((World.getElem?_set_client makes.found).mpr (Or.inl ⟨rfl, rfl⟩)) ?_
    rw [phase]
    exact tracked

/-- How a request left its table since it was registered is how it left at all. -/
private theorem AtStage.departures_since {start : Course κ} {stage : Stage κ}
    (registered : start.AtStage future (.pending index callback))
    (atStage : course.AtStage future stage) {since : List (Turn κ)}
    (turns_eq : course.turns = start.turns ++ since) :
    (since.flatMap fun turn => turn.departures future) = stage.departure?.toList := by
  have all := course.departures_eq future
  have none := start.departures_eq future
  rw [registered.life, Stage.select_removal] at none
  rw [atStage.life, Stage.select_removal, turns_eq, List.flatMap_append, none] at all
  exact all

/-- A request that was registered and did not leave is pending. -/
private theorem AtStage.pending_of_stays {start : Course κ} {stage : Stage κ}
    (registered : start.AtStage future (.pending index callback)) (onward : start.Leads course)
    (atStage : course.AtStage future stage) (stays : stage.departure?.toList = []) :
    stage = .pending index callback := by
  have told : (index, .submitted callback) ∈ stage.life := by
    obtain ⟨later, turns_eq⟩ := onward.turns_eq_append
    have before := registered.life
    rw [← atStage.life, Course.life, turns_eq, List.flatMap_append]
    refine List.mem_append_left _ ?_
    unfold Course.life at before
    rw [before]
    exact List.mem_singleton.mpr rfl
  rcases Stage.of_submitted told with rfl | ⟨value, rfl⟩ | ⟨value, rfl⟩ | rfl | rfl
  · rfl
  all_goals cases stays

/-- Under the number of a registered request there is this request until it leaves, and then nothing, as
long as the number is not registered again. -/
private theorem AtStage.find?_since {start : Course κ} {client : Client κ}
    (registered : start.AtStage future (.pending index callback)) (led : (opening world).Leads start)
    (onward : start.Leads course) (fresh : world.IsFresh) {since : List (Turn κ)}
    (turns_eq : course.turns = start.turns ++ since)
    (unused : future.sequence ∉ entered since index Turn.accepted)
    (found : course.world.clients[index]? = some client) :
    (client.table.find? future.sequence).map (fun entry => (entry.future, entry.callback))
      = if (since.flatMap fun turn => turn.departures future) = [] then some (future, callback)
        else none := by
  have sound := (led.trans onward).sound fresh
  have filed := sound.filed index client found
  -- The entry under the number, if there is one, is the one that was registered.
  have entry_eq : ∀ entry, client.table.find? future.sequence = some entry →
      entry.future = future ∧ entry.callback = callback := by
    intro entry search
    obtain ⟨earlier, foundEarlier, member⟩ := onward.mem_rows turns_eq found
      (Pending.Table.mem_of_find? search) unused
    obtain ⟨known, foundKnown, original, memberKnown, future_eq, callback_eq⟩ :=
      (registered.tracks index callback).mpr rfl
    rw [foundKnown] at foundEarlier
    obtain rfl := Option.some.inj foundEarlier
    have same := ((led.sound fresh).filed index known foundKnown).unique member memberKnown rfl
    cases same
    exact ⟨future_eq, callback_eq⟩
  obtain ⟨stage, atStage⟩ := sound.staged future
  rw [registered.departures_since atStage turns_eq]
  cases search : client.table.find? future.sequence with
  | none =>
    have left : stage.departure?.toList ≠ [] := by
      intro stays
      have pending := registered.pending_of_stays onward atStage stays
      obtain ⟨known, foundKnown, tracked⟩ := (atStage.tracks index callback).mpr pending
      cases found.symm.trans foundKnown
      obtain ⟨entry, present, -⟩ := (filed.tracks_iff future).mp ⟨callback, tracked⟩
      rw [search] at present
      cases present
    simp [left]
  | some entry =>
    obtain ⟨future_eq, callback_eq⟩ := entry_eq entry search
    have tracked := filed.tracks_of_find? search
    rw [future_eq] at tracked
    have pending := (atStage.tracks index entry.callback).mp ⟨client, found, tracked⟩
    simp [pending, Stage.departure?, future_eq, callback_eq]

/-- What a delivery comes to that is made after a registration, as long as its number is not
registered again. -/
theorem Leads.receives (leads : (opening world).Leads course) (fresh : world.IsFresh)
    {before since rest : List (Turn κ)} {registration delivery : Turn κ} {response : Response}
    (split : course.turns = before ++ registration :: (since ++ delivery :: rest))
    (accepts : registration.Accepts delivery.client callback future)
    (phase : delivery.phase = .complete future.sequence response)
    (unused : future.sequence ∉ entered since delivery.client Turn.accepted) :
    delivery.Receives future callback (before ++ registration :: since) since := by
  obtain ⟨start, led, onward, turns_eq, registered⟩ := leads.registered fresh split accepts
  obtain ⟨racing, front, back, client, onward, racing_turns, makes, -⟩ :=
    onward.rewind (show course.turns = start.turns ++ since ++ delivery :: rest by
      simp [split, turns_eq])
  have reaches := led.trans onward
  have history : racing.turns = before ++ registration :: since := by
    rw [racing_turns, turns_eq, List.append_assoc]
    rfl
  have outOfUse := reaches.disposed_iff fresh makes.found
  rw [history] at outOfUse
  have inUse : (∀ turn ∈ before ++ registration :: since, turn.client = delivery.client →
      turn.endsUse = false) → client.disposed = false := by
    intro none
    by_contra disposed
    obtain ⟨turn, member, same, ends⟩ := outOfUse.mp (by simpa using disposed)
    rw [none turn member same] at ends
    cases ends
  have exit := client.exit_step racing.world.environment delivery.phase
  have next := makes.next_eq
  rw [phase] at exit next
  rw [exit.next_of_complete ((reaches.sound fresh).takesResponses makes.found), makes.service_eq]
    at next
  have present := registered.find?_since led onward fresh racing_turns unused makes.found
  constructor
  case refused =>
    intro ended
    rw [← next, if_pos (outOfUse.mpr ended)]
  case wins =>
    intro live stays
    rw [if_pos stays] at present
    obtain ⟨entry, search, equal⟩ := Option.map_eq_some_iff.mp present
    obtain ⟨rfl, rfl⟩ := Prod.mk.inj equal
    rw [← next, inUse live, search]
    rfl
  case loses =>
    intro live left
    rw [if_neg left] at present
    rw [← next, inUse live, Option.map_eq_none_iff.mp present]
    rfl

/-- The deliveries that race on a request of a client; `later` are the turns behind its registration. -/
structure Race (course : Course κ) (index : ClientId) (callback : Option κ) (future : Future)
    (before : List (Turn κ)) (registration : Turn κ) (later : List (Turn κ)) : Prop where
  /-- At most one of them finds the request. -/
  winner : (entered later index Turn.matched).count future.sequence ≤ 1
  /-- At most one of them succeeds. -/
  success : (course.turns.flatMap Turn.confirmed).count future ≤ 1
  each : ∀ since delivery rest response, later = since ++ delivery :: rest →
    delivery.client = index → delivery.phase = .complete future.sequence response →
      delivery.Receives future callback (before ++ registration :: since) since

/-- Deliveries under the number of a registered request race on this request. -/
theorem Leads.race (leads : (opening world).Leads course) (fresh : world.IsFresh)
    {before later : List (Turn κ)} {registration : Turn κ}
    (split : course.turns = before ++ registration :: later)
    (accepts : registration.Accepts index callback future)
    (unused : future.sequence ∉ entered later index Turn.accepted) :
    course.Race index callback future before registration later := by
  have each : ∀ since delivery rest response, later = since ++ delivery :: rest →
      delivery.client = index → delivery.phase = .complete future.sequence response →
        delivery.Receives future callback (before ++ registration :: since) since := by
    rintro since delivery rest response rfl rfl phase
    refine leads.receives fresh split accepts phase fun member => unused ?_
    obtain ⟨turn, among, own, inside⟩ := mem_entered.mp member
    exact mem_entered.mpr ⟨turn, List.mem_append_left _ among, own, inside⟩
  have once := leads.count_won_le fresh future
  have total := leads.confirmed_add future
  refine ⟨?_, by omega, each⟩
  have one : ∀ turn ∈ later.filter (·.client = index),
      turn.matched.count future.sequence ≤ turn.won.count future := by
    intro delivery member
    obtain ⟨inside, own⟩ := List.mem_filter.mp member
    by_cases found : future.sequence ∈ delivery.matched
    · obtain ⟨response, phase, delivers, -⟩ := Turn.mem_matched.mp found
      obtain ⟨since, rest, place⟩ := List.append_of_mem inside
      have receives := each since delivery rest response place (of_decide_eq_true own) delivers
      rw [receives.won_eq found, List.count_singleton_self]
      exact Nat.le_trans List.count_le_length delivery.length_matched_le
    · rw [List.count_eq_zero.mpr found]
      exact Nat.zero_le _
  have among : ((later.filter (·.client = index)).flatMap Turn.won).Sublist
      (course.turns.flatMap Turn.won) := by
    rw [split, List.flatMap_append, List.flatMap_cons]
    have within : ((later.filter (·.client = index)).flatMap Turn.won).Sublist
        (later.flatMap Turn.won) := List.filter_sublist.flatMap _
    exact (within.trans (List.sublist_append_right _ _)).trans (List.sublist_append_right _ _)
  calc (entered later index Turn.matched).count future.sequence
      ≤ ((later.filter (·.client = index)).flatMap Turn.won).count future := by
        unfold entered
        rw [List.count_flatMap, List.count_flatMap]
        exact List.sum_le_sum one
    _ ≤ (course.turns.flatMap Turn.won).count future := among.count_le _
    _ ≤ 1 := once

/-! ### The callback -/

/-- What is so when a callback is about to start with a future. -/
structure Handover (course : Course κ) (index : ClientId) (future : Future) (callback : κ) :
    Prop where
  own : ∃ registration ∈ course.turns, registration.Accepts index (some callback) future
  /-- A delivery won the request, and its response is what the future holds. -/
  won : ∃ delivery ∈ course.turns, ∃ response, delivery.client = index
    ∧ delivery.phase = .complete future.sequence response ∧ delivery.won = [future]
    ∧ course.world.environment.cells.value? future = some response
  /-- No callback started with the future before. -/
  first : (course.turns.filterMap Turn.handover?).filter (·.1 = future) = []

/-- A complete under way that has yet to call back is settling its request. -/
theorem Sound.settling_of_notify (sound : course.Sound) {called : κ}
    (underway : (index, .notify future called) ∈ course.underway) :
    ∃ response, course.AtStage future (.settling index (some called) response) := by
  obtain ⟨stage, atStage⟩ := sound.staged future
  have completing : (index, some called) ∈ stage.completing := by
    rw [← atStage.completing]
    exact List.mem_filterMap.mpr ⟨_, underway, by simp [Phase.settles?]⟩
  cases stage with
  | settling known callback response =>
    cases List.mem_singleton.mp completing
    exact ⟨response, atStage⟩
  | _ => cases completing

/-- The delivery that took out a request which is being settled. -/
private theorem Leads.delivery_of_settling (leads : (opening world).Leads course)
    (fresh : world.IsFresh) {response : Response}
    (settling : course.AtStage future (.settling index callback response)) :
    ∃ delivery ∈ course.turns, delivery.client = index
      ∧ delivery.phase = .complete future.sequence response ∧ delivery.won = [future] := by
  have completions := leads.completions_eq fresh future
  rw [settling.life, Stage.select_value] at completions
  have some : (index, future.sequence, response) ∈
      course.turns.flatMap fun turn => turn.completions future := by
    rw [completions]
    exact List.mem_singleton.mpr rfl
  obtain ⟨delivery, member, told⟩ := List.mem_flatMap.mp some
  refine ⟨delivery, member, ?_⟩
  unfold Turn.completions at told
  split at told
  next sequence stored phase =>
    split at told
    next removed =>
      cases List.mem_singleton.mp told
      obtain ⟨before, client, resolvable, found, equal⟩ := leads.stepped fresh member
      rw [equal] at removed
      obtain ⟨known, next⟩ := (client.exit_step before.environment delivery.phase).goesOn_of_taken
        (resolvable.takesResponses found) removed
      refine ⟨rfl, phase, ?_⟩
      have goesOn : delivery.next = .goesOn (.countCompleted ⟨future, known⟩) := by
        rw [equal]
        exact next
      unfold Turn.won
      rw [phase, goesOn]
    next => cases told
  next => cases told

/-- A callback starts only behind the delivery that won its request, and its future is done then. -/
theorem Leads.handover (leads : (opening world).Leads course) (fresh : world.IsFresh)
    {phase : Phase κ} {turn : Turn κ} {after : World κ} {called : κ}
    (underway : (index, phase) ∈ course.underway)
    (made : course.world.step? index phase = some (turn, after))
    (calls : turn.next = .callsBack future called) : course.Handover index future called := by
  obtain ⟨client, found, rfl, -⟩ := World.step?_eq_some made
  obtain rfl := (client.exit_step course.world.environment phase).phase_of_callsBack calls
  obtain ⟨response, settling⟩ := (leads.sound fresh).settling_of_notify underway
  obtain ⟨delivery, member, own, delivers, won⟩ := leads.delivery_of_settling fresh settling
  refine ⟨?_, ⟨delivery, member, response, own, delivers, won, ?_⟩, ?_⟩
  · have told : (index, .submitted (some called)) ∈ course.life future := by
      rw [settling.life]
      exact List.mem_cons_self
    obtain ⟨registration, among, told⟩ := List.mem_flatMap.mp told
    obtain ⟨rfl, milestone⟩ := Turn.mem_life.mp told
    exact ⟨registration, among, (registration.submitted_mem_milestones _ _).mp milestone⟩
  · exact (settling.cell _ rfl).value?_eq
  · have none := course.handovers_eq future
    rw [settling.life, Stage.select_callback] at none
    exact List.map_eq_nil_iff.mp none

/-- At most one callback starts with a future. -/
theorem Leads.length_handovers_le (leads : (opening world).Leads course) (fresh : world.IsFresh)
    (future : Future) :
    ((course.turns.filterMap Turn.handover?).filter (·.1 = future)).length ≤ 1 := by
  obtain ⟨stage, atStage⟩ := (leads.sound fresh).staged future
  have handovers := congrArg List.length (course.handovers_eq future)
  rw [List.length_map, List.length_map, atStage.life, Stage.select_callback] at handovers
  rw [handovers]
  exact Option.length_toList_le

end Course

end Correlator
