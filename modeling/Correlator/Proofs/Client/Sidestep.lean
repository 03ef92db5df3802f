import Correlator.Client.Operation

/-!
Contract: the steps of a client that concern no request.

Owns: which steps these are, and the ways in which they end: each is a look at something, with a single effect
and at most one change to the environment, and says whether and how the operation goes on.

Does not own: the steps on requests (`Correlator.Proofs.Client.Exit`).
-/

set_option autoImplicit false

namespace Correlator

variable {κ : Type}

/-- The steps that concern neither pending requests nor counts nor cells, nor the use of a
client. -/
def Phase.isAside : Phase κ → Bool
  | .submit _ _ | .complete _ _ | .cancel _ | .pruneAll | .pruneOlder _ | .dispose
  | .countCompleted _ | .notify _ _ => false
  | _ => true

/-- Effects that tell what was seen, and nothing else. -/
def Effect.observes : Effect → Bool
  | .sawHost _ | .sawToken _ | .logged _ => true
  | _ => false

/-- Continuations with a further look or with a prune, answers that are neither futures nor errors, and breaks. -/
def Next.isCalm : Next κ → Bool
  | .goesOn (.pruneOlder _) | .goesOn .pruneNothing | .goesOn .waitOnce
  | .goesOn (.waitBegin _ _) | .goesOn (.waitShutdown _) | .goesOn (.waitToken _)
  | .goesOn (.waitHost _) | .goesOn (.waitBudget _ _) | .goesOn (.waitSleep _ _)
  | .goesOn (.waitReport _ _) | .goesOn (.probeLive _) | .goesOn (.probeHost _)
  | .goesOn (.probeQuery _) | .failed _ => true
  | .returned (.ok (.submitted _)) => false
  | .returned (.ok _) => true
  | _ => false

theorem Next.ne_error_of_isCalm {next : Next κ} (calm : next.isCalm = true) (error : ClientError) :
    next ≠ .returned (.error error) := by
  rintro rfl
  cases calm

namespace Client

/-- The ways in which a step ends that concerns no request. -/
inductive Sidestep (client : Client κ) (environment : Environment) : Phase κ → Step κ → Prop where
  /-- The client is disposed of. -/
  | gone {phase : Phase κ} (disposed : client.disposed = true) :
      Sidestep client environment phase
        ⟨client, environment, [.locked, .unlocked],
          .returned (.error (.invalidHandle client.service))⟩
  /-- The client is in use. -/
  | entered {phase : Phase κ} {next : Next κ} (live : client.disposed = false)
      (calm : next.isCalm = true) :
      Sidestep client environment phase ⟨client, environment, [.locked, .unlocked], next⟩
  /-- The clock was read, or it was out of range. -/
  | timed {phase : Phase κ} {now : Option Moment} {timed : Environment} {next : Next κ}
      (read : environment.readClock client.clock = (now, timed)) (calm : next.isCalm = true) :
      Sidestep client environment phase ⟨client, timed, [.readClock now], next⟩
  | looked {phase : Phase κ} {effect : Effect} {next : Next κ} (observes : effect.observes = true)
      (calm : next.isCalm = true) :
      Sidestep client environment phase ⟨client, environment, [effect], next⟩
  /-- The registry was asked. -/
  | queried {phase : Phase κ} {available : Bool} {registry : Discovery} {next : Next κ}
      (calm : next.isCalm = true) :
      Sidestep client environment phase
        ⟨client, environment.setRegistry client.registry registry, [.queried available], next⟩
  | slept {phase : Phase κ} {nap : Span} {next : Next κ} (calm : next.isCalm = true) :
      Sidestep client environment phase
        ⟨client, environment.sleep nap client.clock, [.slept client.clock nap], next⟩
  | signedOff {orphaned : Nat} :
      Sidestep client environment (.deregister orphaned)
        ⟨client, environment.deregister client.host client.service,
          [.sawHost true, .deregistered client.service], .goesOn (.release orphaned)⟩
  /-- There is no host to sign off from. -/
  | unhosted {orphaned : Nat} :
      Sidestep client environment (.deregister orphaned)
        ⟨client, environment, [.sawHost false, .logged .hostGone], .goesOn (.release orphaned)⟩
  | released {orphaned : Nat} {reports : List Effect}
      (observe : ∀ effect ∈ reports, effect.observes = true) :
      Sidestep client environment (.release orphaned)
        ⟨client, environment.setTransport client.transport
            (environment.transport client.transport).release,
          .released client.transport :: reports, .returned (.ok .done)⟩

variable (client : Client κ) (environment : Environment)

private theorem sidestep_whileLive {phase : Phase κ} {next : Next κ} (calm : next.isCalm = true) :
    Sidestep client environment phase
      (client.whileLive environment ⟨client, environment, [], next⟩) := by
  unfold whileLive
  cases disposed : client.disposed with
  | true => exact .gone disposed
  | false => exact .entered disposed calm

private theorem sidestep_pruneStale :
    Sidestep client environment .pruneStale (client.pruneStale environment) := by
  unfold pruneStale
  split
  · exact client.sidestep_whileLive environment rfl
  · split
    next timed read => exact .timed read rfl
    next now timed read =>
      refine .timed read ?_
      split <;> rfl

private theorem sidestep_waitBegin (timeout : Option Span) (token : Option Token) :
    Sidestep client environment (.waitBegin timeout token)
      (client.waitBegin environment timeout token) := by
  unfold waitBegin
  split
  next timed read => exact .timed read rfl
  next started timed read => exact .timed read rfl

private theorem sidestep_waitFlag {phase : Phase κ} (token : Option Token) {later : Phase κ}
    (calm : (Next.goesOn later).isCalm = true) :
    Sidestep client environment phase (client.waitFlag environment token later) := by
  refine .looked rfl ?_
  split
  · rfl
  · exact calm

private theorem sidestep_waitHost (vigil : Vigil) :
    Sidestep client environment (.waitHost vigil) (client.waitHost environment vigil) := by
  refine .looked rfl ?_
  split
  · split <;> rfl
  · rfl

private theorem sidestep_waitBudget (vigil : Vigil) (timeout : Span) :
    Sidestep client environment (.waitBudget vigil timeout)
      (client.waitBudget environment vigil timeout) := by
  unfold waitBudget
  split
  next timed read => exact .timed read rfl
  next now timed read =>
    refine .timed read ?_
    split <;> rfl

private theorem isCalm_conclude (available : Bool) (purpose : Purpose) :
    (Purpose.conclude available purpose : Next κ).isCalm = true := by
  cases purpose with
  | answer | once => rfl
  | during vigil => cases available <;> rfl

private theorem sidestep_probeHost (purpose : Purpose) :
    Sidestep client environment (.probeHost purpose) (client.probeHost environment purpose) := by
  refine .looked rfl ?_
  split
  · rfl
  · exact isCalm_conclude false purpose

private theorem sidestep_deregister (orphaned : Nat) :
    Sidestep client environment (.deregister orphaned) (client.deregister environment orphaned) := by
  unfold deregister
  split
  · exact .signedOff
  · exact .unhosted

private theorem sidestep_release (orphaned : Nat) :
    Sidestep client environment (.release orphaned) (client.release environment orphaned) := by
  refine .released ?_
  split <;> simp [Effect.observes]

/-- A step that concerns no request ends in one of the listed ways. -/
theorem sidestep_step {phase : Phase κ} (isAside : phase.isAside = true) :
    Sidestep client environment phase (client.step environment phase) := by
  cases phase with
  | submit | complete | cancel | pruneAll | pruneOlder | dispose | countCompleted | notify =>
    cases isAside
  | pruneStale => exact client.sidestep_pruneStale environment
  | isAvailable | pruneNothing | probeLive => exact client.sidestep_whileLive environment rfl
  | wait timeout token =>
    refine client.sidestep_whileLive environment ?_
    split <;> rfl
  | waitOnce =>
    refine .looked rfl ?_
    split <;> rfl
  | waitBegin timeout token => exact client.sidestep_waitBegin environment timeout token
  | waitShutdown vigil => exact client.sidestep_waitFlag environment client.shutdown rfl
  | waitToken vigil => exact client.sidestep_waitFlag environment vigil.token rfl
  | waitHost vigil => exact client.sidestep_waitHost environment vigil
  | waitBudget vigil timeout => exact client.sidestep_waitBudget environment vigil timeout
  | waitSleep vigil nap => exact .slept rfl
  | waitReport vigil nap => exact .looked rfl rfl
  | probeHost purpose => exact client.sidestep_probeHost environment purpose
  | probeQuery purpose => exact .queried (isCalm_conclude _ purpose)
  | deregister orphaned => exact client.sidestep_deregister environment orphaned
  | release orphaned => exact client.sidestep_release environment orphaned

end Client

end Correlator
