import Correlator.Proofs.Course.Disposal

/-!
Contract: the past of a course, turn by turn.

Owns: that every turn was made in an earlier course, by an operation under way there, and what led from
it to the present; when a client is out of use; and where the entries of a table come from.

Does not own: the turns of single requests (`Correlator.Proofs.Course.History`).
-/

set_option autoImplicit false

namespace Correlator

variable {κ : Type}

namespace Turn

/-- A turn put its client out of use. -/
def endsUse (turn : Turn κ) : Bool :=
  match turn.phase, turn.next with
  | .dispose, .goesOn _ => true
  | _, _ => false

end Turn

namespace Client

variable {client : Client κ} {environment : Environment} {phase : Phase κ} {step : Step κ}

theorem Exit.disposed_iff (exit : client.Exit environment phase step) (index : ClientId)
    (service : String) :
    step.client.disposed = true ↔
      client.disposed = true
        ∨ Turn.endsUse ⟨index, service, phase, step.effects, step.next⟩ = true := by
  cases exit with
  | retired live => exact iff_of_true rfl (Or.inr rfl)
  | gone disposed begins => exact iff_of_true disposed (Or.inl disposed)
  | pruned live prunes =>
    cases phase <;> first | cases prunes; done | simp [Turn.endsUse, afterPrune, Client.count]
  | aside isAside client_eq cells_eq effects next =>
    rw [client_eq]
    cases phase <;> first | cases isAside; done | simp [Turn.endsUse]
  | _ => simp [Turn.endsUse, Client.count]

/-- What is pending after a step was pending before it, or was made pending in it. -/
theorem Exit.mem_rows (exit : client.Exit environment phase step) (index : ClientId)
    (service : String) {row : Sequence × Pending.Entry κ} (member : row ∈ step.client.table.rows) :
    row ∈ client.table.rows
      ∨ row.1 ∈ Turn.accepted ⟨index, service, phase, step.effects, step.next⟩ := by
  cases exit with
  | stored live room sent read inserted =>
    rcases (Pending.Table.mem_insert? inserted row).mp member with rfl | old
    · exact Or.inr (List.mem_singleton.mpr rfl)
    · exact Or.inl old
  | lost | matched | cancelled => exact Or.inl (List.mem_filter.mp member).1
  | pruned live prunes => exact Or.inl (List.mem_filter.mp member).1
  | aside isAside client_eq cells_eq effects next =>
    rw [client_eq] at member
    exact Or.inl member
  | _ => exact Or.inl member

end Client

namespace Course

variable {world : World κ} {start course : Course κ} {front back : List (ClientId × Phase κ)}
  {client : Client κ} {turn : Turn κ}

/-- A turn is the next step of an operation that is under way. -/
structure Makes (course : Course κ) (front back : List (ClientId × Phase κ)) (client : Client κ)
    (turn : Turn κ) : Prop where
  found : course.world.clients[turn.client]? = some client
  split : course.underway = front ++ (turn.client, turn.phase) :: back
  turn_eq : client.turn course.world.environment turn.client turn.phase = turn

/-- The course after a turn that is made in it. -/
def beyond (course : Course κ) (front back : List (ClientId × Phase κ)) (client : Client κ)
    (turn : Turn κ) : Course κ :=
  course.after front back turn.client client.service turn.phase
    (client.step course.world.environment turn.phase)

namespace Makes

theorem effects_eq (makes : course.Makes front back client turn) :
    (client.step course.world.environment turn.phase).effects = turn.effects :=
  congrArg Turn.effects makes.turn_eq

theorem next_eq (makes : course.Makes front back client turn) :
    (client.step course.world.environment turn.phase).next = turn.next :=
  congrArg Turn.next makes.turn_eq

theorem service_eq (makes : course.Makes front back client turn) :
    client.service = turn.service :=
  congrArg Turn.service makes.turn_eq

theorem turns_beyond (makes : course.Makes front back client turn) :
    (course.beyond front back client turn).turns = course.turns ++ [turn] :=
  congrArg (course.turns ++ [·]) makes.turn_eq

theorem leads_beyond (makes : course.Makes front back client turn) :
    course.Leads (course.beyond front back client turn) := by
  refine .move .here (.proceed front back turn.client turn.phase
    (client.turn course.world.environment turn.client turn.phase) _ makes.split ?_)
  unfold World.step?
  rw [makes.found]
  rfl

end Makes

theorem entered_append_own (turns : List (Turn κ)) (client : Client κ) (environment : Environment)
    (index : ClientId) (phase : Phase κ) (account : Turn κ → List Sequence) :
    entered (turns ++ [client.turn environment index phase]) index account
      = entered turns index account ++ account (client.turn environment index phase) := by
  rw [entered_append]
  exact congrArg _ (if_pos rfl)

theorem entered_append_other (turns : List (Turn κ)) {turn : Turn κ} {index : ClientId}
    (different : turn.client ≠ index) (account : Turn κ → List Sequence) :
    entered (turns ++ [turn]) index account = entered turns index account := by
  rw [entered_append, if_neg different, List.append_nil]

/-- Every turn behind the turns of a start was made in a course on the way. -/
theorem Leads.rewind (leads : start.Leads course) {before later : List (Turn κ)}
    (split : course.turns = start.turns ++ before ++ turn :: later) :
    ∃ earlier front back client, start.Leads earlier ∧ earlier.turns = start.turns ++ before
      ∧ earlier.Makes front back client turn
      ∧ (earlier.beyond front back client turn).Leads course := by
  induction leads generalizing later with
  | here =>
    have lengths := congrArg List.length split
    simp only [List.length_append, List.length_cons] at lengths
    omega
  | @move course next leads move inductionHypothesis =>
    cases move with
    | proceed front back index phase made world divided step =>
      obtain ⟨client, found, rfl, rfl⟩ := World.step?_eq_some step
      rcases List.eq_nil_or_concat later with rfl | ⟨rest, last, rfl⟩
      · -- It is the turn made last.
        obtain ⟨same, rfl⟩ := List.append_inj' split rfl |>.imp_right List.singleton_inj.mp
        exact ⟨course, front, back, client, leads, same, ⟨found, divided, rfl⟩, .here⟩
      · rw [List.concat_eq_append, ← List.cons_append, ← List.append_assoc] at split
        obtain ⟨same, -⟩ := List.append_inj' split rfl
        obtain ⟨earlier, front', back', client', led, turns_eq, makes, onward⟩ :=
          inductionHypothesis same
        exact ⟨earlier, front', back', client', led, turns_eq, makes,
          .move onward (.proceed front back index phase _ _ divided step)⟩
    | enter index phase opening =>
      obtain ⟨earlier, front, back, client, led, turns_eq, makes, onward⟩ :=
        inductionHypothesis split
      exact ⟨earlier, front, back, client, led, turns_eq, makes,
        .move onward (.enter index phase opening)⟩
    | abandon front' back' index phase divided interruptible =>
      obtain ⟨earlier, front, back, client, led, turns_eq, makes, onward⟩ :=
        inductionHypothesis split
      exact ⟨earlier, front, back, client, led, turns_eq, makes,
        .move onward (.abandon front' back' index phase divided interruptible)⟩
    | outside act =>
      obtain ⟨earlier, front, back, client, led, turns_eq, makes, onward⟩ :=
        inductionHypothesis split
      exact ⟨earlier, front, back, client, led, turns_eq, makes, .move onward (.outside act)⟩

/-- Every turn of a course of fresh clients was made in an earlier one. -/
theorem Leads.rewind_opening (leads : (opening world).Leads course) {before later : List (Turn κ)}
    (split : course.turns = before ++ turn :: later) :
    ∃ earlier front back client, (opening world).Leads earlier ∧ earlier.turns = before
      ∧ earlier.Makes front back client turn
      ∧ (earlier.beyond front back client turn).Leads course :=
  leads.rewind (show course.turns = (opening world).turns ++ before ++ turn :: later from split)

/-- What is true of a client and the turns since the start, if a client's own turns keep it true whatever the
environment, and turns of other clients leave it true of the same client. -/
theorem Leads.client_induction {motive : List (Turn κ) → Client κ → Prop} {index : ClientId}
    (leads : start.Leads course) {later : List (Turn κ)}
    (turns_eq : course.turns = start.turns ++ later)
    (found : course.world.clients[index]? = some client)
    (initial : ∀ first, start.world.clients[index]? = some first → motive [] first)
    (own : ∀ before (actor : Client κ) environment phase, motive before actor →
      motive (before ++ [actor.turn environment index phase]) (actor.step environment phase).client)
    (others : ∀ before actor (turn : Turn κ), turn.client ≠ index → motive before actor →
      motive (before ++ [turn]) actor) :
    motive later client := by
  induction leads generalizing client later with
  | here =>
    obtain rfl := List.self_eq_append_right.mp turns_eq
    exact initial client found
  | @move course next leads move inductionHypothesis =>
    cases move with
    | enter | abandon | outside => exact inductionHypothesis turns_eq found
    | proceed front back acting phase turn world split made =>
      obtain ⟨before, same, rfl⟩ := leads.eq_concat_of_turns_eq turns_eq
      obtain ⟨actor, foundActor, rfl, rfl⟩ := World.step?_eq_some made
      rcases (World.getElem?_set_client foundActor).mp found with ⟨rfl, rfl⟩ | ⟨different, old⟩
      · exact own before actor _ phase (inductionHypothesis same foundActor)
      · exact others before client _ (Ne.symm different) (inductionHypothesis same old)

/-- A client is out of use if it made a turn that put it out of use, and only then. -/
theorem Leads.disposed_iff (leads : (opening world).Leads course) (fresh : world.IsFresh)
    {index : ClientId} (found : course.world.clients[index]? = some client) :
    client.disposed = true ↔ ∃ turn ∈ course.turns, turn.client = index ∧ turn.endsUse = true := by
  refine leads.client_induction (motive := fun turns client =>
      client.disposed = true ↔ ∃ turn ∈ turns, turn.client = index ∧ turn.endsUse = true)
    (List.nil_append _).symm found ?initial ?own ?others
  case initial =>
    intro first known
    simp [(fresh first (List.mem_of_getElem? known)).2.2]
  case own =>
    intro before actor environment phase inductionHypothesis
    rw [(actor.exit_step environment phase).disposed_iff index actor.service, inductionHypothesis]
    simp [or_and_right, exists_or, Client.turn]
  case others =>
    intro before actor turn different inductionHypothesis
    simp [or_and_right, exists_or, different, inductionHypothesis]

/-- What a client has pending under a number it had pending before, unless it accepted the number
meanwhile. -/
theorem Leads.mem_rows (leads : start.Leads course) {later : List (Turn κ)}
    (turns_eq : course.turns = start.turns ++ later) {index : ClientId}
    (found : course.world.clients[index]? = some client) {row : Sequence × Pending.Entry κ}
    (member : row ∈ client.table.rows) (unused : row.1 ∉ entered later index Turn.accepted) :
    ∃ earlier, start.world.clients[index]? = some earlier ∧ row ∈ earlier.table.rows := by
  refine leads.client_induction (motive := fun turns client => row ∈ client.table.rows →
      row.1 ∉ entered turns index Turn.accepted →
        ∃ earlier, start.world.clients[index]? = some earlier ∧ row ∈ earlier.table.rows)
    turns_eq found ?initial ?own ?others member unused
  case initial => exact fun first known member _ => ⟨first, known, member⟩
  case own =>
    intro before actor environment phase inductionHypothesis member unused
    rw [entered_append_own, List.mem_append, not_or] at unused
    rcases (actor.exit_step environment phase).mem_rows index actor.service member with old | new
    · exact inductionHypothesis old unused.1
    · exact absurd new unused.2
  case others =>
    intro before actor turn different inductionHypothesis member unused
    rw [entered_append_other before different] at unused
    exact inductionHypothesis member unused

end Course

end Correlator
