import Correlator.Proofs.Client.Aside

/-!
Contract: the steps that end an operation without success.

Owns: which setbacks there are, the count that goes up with each, and that a setback touches no request.

Does not own: operations of several steps (`Correlator.Proofs.Client.Performance`).
-/

set_option autoImplicit false

namespace Correlator

/-- The end of an operation that is not a success. -/
inductive Setback where
  /-- The operation answers with an error. -/
  | refused (error : ClientError)
  /-- The operation breaks off without an answer. -/
  | broke (fault : Fault)
deriving Repr

/-- The count that goes up with a setback, if one does. -/
def Setback.counter? : Setback → Option Counter
  | .refused (.unmatchedResponse _ _) => some .unmatched
  | .refused (.transmit _ _) => some .transmitFailures
  | _ => none

def Next.setback? {κ : Type} : Next κ → Option Setback
  | .returned (.error error) => some (.refused error)
  | .failed fault => some (.broke fault)
  | _ => none

/-- Effects on a request: on its entry, on its response, or on the tasks that wait for it. -/
def Effect.touchesRequest : Effect → Bool
  | .stored _ | .removed _ _ | .resolved _ _ | .woke _ => true
  | _ => false

theorem Effect.not_touchesRequest_of_isAside {effect : Effect} (isAside : effect.isAside = true) :
    effect.touchesRequest = false := by
  cases effect <;> first | rfl | cases isAside

/-- The steps that concern no request do not prune. -/
theorem Phase.prunes?_of_isAside {κ : Type} {phase : Phase κ} (isAside : phase.isAside = true) :
    phase.prunes? = none := by
  cases phase <;> first | rfl | cases isAside

/-- A step does nothing to any request, and keeps no table closed. -/
structure Step.SparesRequests {κ : Type} (environment : Environment) (step : Step κ) : Prop where
  cells_eq : step.environment.cells = environment.cells
  untouched : ∀ effect ∈ step.effects, effect.touchesRequest = false
  opened : Effect.closes step.effects = false

namespace Client

variable {κ : Type}

/-- The client once a setback is counted. -/
def after (client : Client κ) (setback : Setback) : Client κ :=
  match setback.counter? with
  | some counter => client.count counter 1
  | none => client

theorem after_of_counter?_eq_none (client : Client κ) {setback : Setback}
    (uncounted : setback.counter? = none) : client.after setback = client := by
  unfold after
  rw [uncounted]

/-- What a step comes to that ends in a setback. -/
structure SetBack (client : Client κ) (environment : Environment) (step : Step κ)
    (setback : Setback) : Prop where
  client_eq : step.client = client.after setback
  spares : step.SparesRequests environment
  /-- No response was stored twice. -/
  single : ∀ sequence, setback ≠ .refused (.doubleResolution sequence)

variable {client : Client κ} {environment : Environment} {phase : Phase κ}

/-- A step that concerns no request changes its client neither. -/
theorem step_of_isAside (isAside : phase.isAside = true) :
    (client.step environment phase).client = client
      ∧ (client.step environment phase).SparesRequests environment := by
  have opened := (client.unobtrusive_step environment isAside).opened
  have exit := client.exit_step environment phase
  generalize client.step environment phase = step at exit opened
  cases exit with
  | gone disposed begins => exact ⟨rfl, rfl, by simp [Effect.touchesRequest], opened⟩
  | aside isAside client_eq cells_eq effects next =>
    refine ⟨client_eq, cells_eq, ?_, opened⟩
    intro effect member
    exact Effect.not_touchesRequest_of_isAside (effects effect member)
  | pruned live prunes =>
    rw [Phase.prunes?_of_isAside isAside] at prunes
    cases prunes
  | _ => cases isAside

private theorem setBack_of_isAside (isAside : phase.isAside = true) {setback : Setback}
    (ends : (client.step environment phase).next.setback? = some setback) :
    client.SetBack environment (client.step environment phase) setback := by
  obtain ⟨client_eq, spares⟩ : (client.step environment phase).client = client
      ∧ (client.step environment phase).SparesRequests environment := step_of_isAside isAside
  have refusal := (client.unobtrusive_step environment isAside).error
  have uncounted : setback.counter? = none
      ∧ ∀ sequence, setback ≠ .refused (.doubleResolution sequence) := by
    unfold Next.setback? at ends
    split at ends
    next error returned =>
      cases ends
      rw [refusal error returned]
      exact ⟨rfl, by simp⟩
    next fault failed =>
      cases ends
      exact ⟨rfl, by simp⟩
    next => cases ends
  exact ⟨client_eq.trans (client.after_of_counter?_eq_none uncounted.1).symm, spares, uncounted.2⟩

/-- Whatever step ends in a setback, it does nothing to any request. -/
theorem setBack_step (takes : client.TakesResponses environment) {setback : Setback}
    (ends : (client.step environment phase).next.setback? = some setback) :
    client.SetBack environment (client.step environment phase) setback := by
  cases isAside : phase.isAside with
  | true => exact setBack_of_isAside isAside ends
  | false =>
    have exit := client.exit_step environment phase
    generalize client.step environment phase = step at exit ends
    cases exit with
    | gone | full | unsent | unmatched =>
      cases ends
      exact ⟨rfl, ⟨rfl, by simp [Effect.touchesRequest], rfl⟩, by simp⟩
    | untimed live room sent read | doubled live room sent read taken =>
      cases ends
      have cells_eq := Environment.cells_eq_of_readClock read
      exact ⟨rfl, ⟨cells_eq, by simp [Effect.touchesRequest], rfl⟩, by simp⟩
    | lost live found refused => exact absurd refused (takes.ne_error found _ _)
    | aside aside client_eq cells_eq effects next =>
      rw [aside] at isAside
      cases isAside
    | stored | matched | counted | countedBefore | handedOver | missed | cancelled | pruned
    | retired => cases ends

/-- The setback of a stored response does not occur while pending requests take responses. -/
theorem step_ne_doubleResolution (takes : client.TakesResponses environment) (phase : Phase κ)
    (sequence : Sequence) :
    (client.step environment phase).next ≠ .returned (.error (.doubleResolution sequence)) := by
  intro returned
  have ends : (client.step environment phase).next.setback?
      = some (.refused (.doubleResolution sequence)) := by
    rw [returned]
    rfl
  exact (setBack_step takes ends).single sequence rfl

end Client

end Correlator
