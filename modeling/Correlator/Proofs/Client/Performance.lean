import Correlator.Proofs.Client.Setback
import Correlator.Proofs.Course.Basic

/-!
Contract: whole operations, from their first step to their end, with nothing in between.

Owns: that every operation other than a wait comes to just one end, and that an operation of any number
of steps that ends in a setback does nothing to any request.

Does not own: what a single step does (`Correlator.Proofs.Client.Setback`), and callbacks, which run once
their operation has come to its end.
-/

set_option autoImplicit false

namespace Correlator

namespace Phase

variable {κ : Type}

/-- The operations that take as long as they are given. -/
def isWait : Phase κ → Bool
  | .wait _ _ => true
  | _ => false

/-- How many steps may follow a step at most; unknown for the steps of waits. -/
def ahead? : Phase κ → Option Nat
  | .submit _ _ | .cancel _ | .pruneAll | .pruneOlder _ | .pruneNothing | .notify _ _ | .release _
  | .probeQuery .answer => some 0
  | .pruneStale | .countCompleted _ | .deregister _ | .probeHost .answer => some 1
  | .complete _ _ | .isAvailable | .dispose => some 2
  | _ => none

theorem ahead?_of_opening {phase : Phase κ} (opening : phase.isOpening = true)
    (brief : phase.isWait = false) : ∃ bound, phase.ahead? = some bound := by
  cases phase with
  | wait timeout token => cases brief
  | submit | complete | cancel | pruneAll | pruneOlder | pruneStale | isAvailable | dispose =>
    exact ⟨_, rfl⟩
  | _ => cases opening

/-- The steps from which on an operation succeeds for certain. -/
def isCertain : Phase κ → Bool
  | .countCompleted _ | .notify _ _ | .deregister _ | .release _ => true
  | _ => false

end Phase

namespace Client

variable {κ : Type}

/-- An operation is carried on from one of its steps to its end. The ending has the effects of all
steps. -/
inductive Performs : Client κ → Environment → Phase κ → Step κ → Prop where
  | ends {client : Client κ} {environment : Environment} {phase : Phase κ}
      (last : (client.step environment phase).next.phase? = none) :
      Performs client environment phase (client.step environment phase)
  | goesOn {client : Client κ} {environment : Environment} {phase later : Phase κ} {ending : Step κ}
      (next : (client.step environment phase).next = .goesOn later)
      (rest : Performs (client.step environment phase).client
        (client.step environment phase).environment later ending) :
      Performs client environment phase
        { ending with effects := (client.step environment phase).effects ++ ending.effects }

theorem performs_of_step {client : Client κ} {environment : Environment} {phase : Phase κ}
    {last : Step κ} (step_eq : client.step environment phase = last)
    (ends : last.next.phase? = none) : client.Performs environment phase last := by
  subst step_eq
  exact .ends ends

theorem performs_of_goesOn {client : Client κ} {environment : Environment} {phase later : Phase κ}
    {first ending : Step κ} (step_eq : client.step environment phase = first)
    (next : first.next = .goesOn later)
    (rest : first.client.Performs first.environment later ending) :
    client.Performs environment phase
      { ending with effects := first.effects ++ ending.effects } := by
  subst step_eq
  exact .goesOn next rest

/-- An operation comes to one end at most. -/
theorem Performs.unique {client : Client κ} {environment : Environment} {phase : Phase κ}
    {left right : Step κ} (first : client.Performs environment phase left)
    (second : client.Performs environment phase right) : left = right := by
  induction first generalizing right with
  | ends last =>
    cases second with
    | ends => rfl
    | goesOn next rest =>
      rw [next] at last
      cases last
  | goesOn next rest inductionHypothesis =>
    cases second with
    | ends last =>
      rw [next] at last
      cases last
    | goesOn same other =>
      rw [next] at same
      cases same
      rw [inductionHypothesis other]

variable {client : Client κ} {environment : Environment} {phase later : Phase κ}

/-! ### Every operation but a wait comes to an end -/

private theorem descends_of_concerned {bound : Nat} (known : phase.ahead? = some bound)
    (concerns : phase.isAside = false)
    (goesOn : (client.step environment phase).next = .goesOn later) :
    ∃ rest, later.ahead? = some rest ∧ rest < bound := by
  have exit := client.exit_step environment phase
  generalize client.step environment phase = step at exit goesOn
  cases exit with
  | matched | retired =>
    cases known
    cases goesOn
    exact ⟨1, rfl, Nat.one_lt_two⟩
  | countedBefore =>
    cases known
    cases goesOn
    exact ⟨0, rfl, Nat.one_pos⟩
  | aside isAside client_eq cells_eq effects next =>
    rw [isAside] at concerns
    cases concerns
  | _ => cases goesOn

private theorem descends_pruneStale
    (goesOn : (client.pruneStale environment).next = .goesOn later) :
    ∃ rest, later.ahead? = some rest ∧ rest < 1 := by
  unfold pruneStale at goesOn
  split at goesOn
  · unfold pruneNothing whileLive at goesOn
    split at goesOn <;> cases goesOn
  · split at goesOn
    · cases goesOn
    · dsimp only at goesOn
      split at goesOn
      all_goals
        cases goesOn
        exact ⟨0, rfl, Nat.one_pos⟩

private theorem descends_probeHost
    (goesOn : (client.probeHost environment .answer).next = .goesOn later) :
    ∃ rest, later.ahead? = some rest ∧ rest < 1 := by
  unfold probeHost at goesOn
  dsimp only at goesOn
  split at goesOn
  · cases goesOn
    exact ⟨0, rfl, Nat.one_pos⟩
  · cases goesOn

/-- Each step leaves fewer steps to come. -/
theorem step_descends {bound : Nat} (known : phase.ahead? = some bound)
    (goesOn : (client.step environment phase).next = .goesOn later) :
    ∃ rest, later.ahead? = some rest ∧ rest < bound := by
  cases isAside : phase.isAside with
  | false => exact descends_of_concerned known isAside goesOn
  | true =>
    cases phase with
    | pruneStale =>
      cases known
      exact descends_pruneStale goesOn
    | probeHost purpose =>
      cases purpose with
      | answer =>
        cases known
        exact descends_probeHost goesOn
      | once | during vigil => cases known
    | probeQuery purpose =>
      cases purpose with
      | answer => cases goesOn
      | once | during vigil => cases known
    | isAvailable =>
      cases known
      unfold step whileLive at goesOn
      dsimp only at goesOn
      split at goesOn
      · cases goesOn
      · cases goesOn
        exact ⟨1, rfl, Nat.one_lt_two⟩
    | pruneNothing =>
      unfold step pruneNothing whileLive at goesOn
      dsimp only at goesOn
      split at goesOn <;> cases goesOn
    | deregister orphaned =>
      cases known
      unfold step deregister at goesOn
      dsimp only at goesOn
      split at goesOn
      all_goals
        cases goesOn
        exact ⟨0, rfl, Nat.one_pos⟩
    | release orphaned => cases goesOn
    | submit | complete | cancel | pruneAll | pruneOlder | dispose | countCompleted | notify =>
      cases isAside
    | _ => cases known

/-- Every operation other than a wait comes to an end. -/
theorem exists_performs {bound : Nat} (known : phase.ahead? = some bound) :
    ∃ ending, client.Performs environment phase ending := by
  induction bound using Nat.strongRecOn generalizing client environment phase with
  | ind bound inductionHypothesis =>
    cases next : (client.step environment phase).next with
    | goesOn later =>
      obtain ⟨rest, fewer, below⟩ := step_descends known next
      obtain ⟨ending, performed⟩ := inductionHypothesis rest below fewer
      exact ⟨_, .goesOn next performed⟩
    | callsBack | returned | failed =>
      refine ⟨_, .ends ?_⟩
      rw [next]
      rfl

/-! ### Setbacks -/

theorem certain_step (certain : phase.isCertain = true) :
    (client.step environment phase).next.setback? = none
      ∧ ∀ later, (client.step environment phase).next = .goesOn later → later.isCertain = true := by
  cases phase with
  | countCompleted completed =>
    obtain ⟨future, callback⟩ := completed
    cases callback with
    | none => exact ⟨rfl, fun later goesOn => by cases goesOn⟩
    | some callback => exact ⟨rfl, fun later goesOn => by cases goesOn; rfl⟩
  | notify future callback => exact ⟨rfl, fun later goesOn => by cases goesOn⟩
  | deregister orphaned =>
    unfold step deregister
    dsimp only
    split
    all_goals exact ⟨rfl, fun later goesOn => by cases goesOn; rfl⟩
  | release orphaned => exact ⟨rfl, fun later goesOn => by cases goesOn⟩
  | _ => cases certain

theorem Performs.succeeds {ending : Step κ} (performs : client.Performs environment phase ending)
    (certain : phase.isCertain = true) : ending.next.setback? = none := by
  induction performs with
  | ends last => exact (certain_step certain).1
  | goesOn next rest inductionHypothesis =>
    exact inductionHypothesis ((certain_step certain).2 _ next)

/-- A step that concerns a request and goes on has succeeded for certain. -/
theorem certain_of_goesOn (concerns : phase.isAside = false)
    (goesOn : (client.step environment phase).next = .goesOn later) : later.isCertain = true := by
  have exit := client.exit_step environment phase
  generalize client.step environment phase = step at exit goesOn
  cases exit with
  | matched | countedBefore | retired =>
    cases goesOn
    rfl
  | aside isAside client_eq cells_eq effects next =>
    rw [isAside] at concerns
    cases concerns
  | _ => cases goesOn

/-- An operation that ends in a setback does nothing to any request, however many steps it took. -/
theorem Performs.setBack {ending : Step κ} (performs : client.Performs environment phase ending)
    (takes : client.TakesResponses environment) {setback : Setback}
    (ends : ending.next.setback? = some setback) : client.SetBack environment ending setback := by
  induction performs with
  | ends last => exact setBack_step takes ends
  | @goesOn client environment phase later ending next rest inductionHypothesis =>
    cases isAside : phase.isAside with
    | false =>
      have succeeds := rest.succeeds (certain_of_goesOn isAside next)
      rw [succeeds] at ends
      cases ends
    | true =>
      obtain ⟨client_eq, spares⟩ : (client.step environment phase).client = client
          ∧ (client.step environment phase).SparesRequests environment := step_of_isAside isAside
      have still : (client.step environment phase).client.TakesResponses
          (client.step environment phase).environment := by
        unfold TakesResponses
        rw [client_eq, spares.cells_eq]
        exact takes
      have setBack := inductionHypothesis still ends
      constructor
      case client_eq => exact client_eq ▸ setBack.client_eq
      case single => exact setBack.single
      case spares =>
        constructor
        case cells_eq => exact setBack.spares.cells_eq.trans spares.cells_eq
        case untouched =>
          intro effect member
          rcases List.mem_append.mp member with before | after
          · exact spares.untouched effect before
          · exact setBack.spares.untouched effect after
        case opened =>
          exact (Effect.closes_append spares.opened ending.effects).trans setBack.spares.opened

end Client

end Correlator
