import Mathlib.Algebra.BigOperators.Group.Finset.Piecewise
import Mathlib.Algebra.Order.BigOperators.Group.Finset
import Mathlib.Data.Nat.ModEq
import Correlator.Proofs.Course.Accounts
import Correlator.Proofs.Client.Aside
import Correlator.Proofs.Transport.Loopback

/-!
Contract: what transports record, against what the turns of their clients tell.

Owns: the requests that a turn handed to its transport, read off its outcome; that each transport records
just these, in their order; and how many there are, against the counts of the clients.

Does not own: what sending does to a transport (`Correlator.Proofs.Transport.Loopback`).
-/

set_option autoImplicit false

namespace Correlator

variable {κ : Type}

namespace Turn

/-- The requests that were sent in a turn: the request of a submit that was accepted, or rejected for its
number, or that broke off once it was sent. -/
def dispatched (turn : Turn κ) : List (Sequence × Request) :=
  match turn.phase, turn.next with
  | .submit request _, .returned (.ok (.submitted future)) => [(future.sequence, request)]
  | .submit request _, .returned (.error (.duplicateSequence _ sequence)) => [(sequence, request)]
  | .submit _ _, .failed _ =>
    turn.effects.filterMap fun effect =>
      match effect with
      | .sent request sequence => some (sequence, request)
      | _ => none
  | _, _ => []

/-- The numbers for which requests were rejected in a turn. -/
def duplicated (turn : Turn κ) : List Sequence :=
  match turn.phase, turn.next with
  | .submit _ _, .returned (.error (.duplicateSequence _ sequence)) => [sequence]
  | _, _ => []

/-- A submit broke off in a turn. -/
def breaksSubmit (turn : Turn κ) : Bool :=
  match turn.phase, turn.next with
  | .submit _ _, .failed _ => true
  | _, _ => false

theorem dispatched_of_isAside {turn : Turn κ} (isAside : turn.phase.isAside = true) :
    turn.dispatched = [] := by
  unfold dispatched
  split
  all_goals first | rfl | next phase _ => rw [phase] at isAside; cases isAside

theorem length_dispatched {turn : Turn κ} (calm : turn.breaksSubmit = false) :
    turn.dispatched.length = turn.accepted.length + turn.duplicated.length := by
  unfold breaksSubmit at calm
  unfold dispatched accepted duplicated
  cases phase : turn.phase with
  | submit request callback =>
    cases next : turn.next with
    | failed fault =>
      rw [phase, next] at calm
      cases calm
    | goesOn | callsBack => rfl
    | returned result =>
      cases result with
      | ok answer => cases answer <;> rfl
      | error error => cases error <;> rfl
  | _ => rfl

end Turn

namespace Client

variable {client : Client κ} {environment : Environment} {phase : Phase κ} {step : Step κ}

/-- No step moves a client to another transport. -/
theorem Exit.transport_eq (exit : client.Exit environment phase step) :
    step.client.transport = client.transport := by
  cases exit with
  | aside isAside client_eq cells_eq effects next => rw [client_eq]
  | _ => rfl

/-- A request that is sent shows in the record of its client's transport, and nowhere else. -/
private theorem sent?_of_sent {request : Request} {sequence : Sequence}
    {transport : Transport.Loopback} {timed : Environment}
    (sent : (environment.transport client.transport).send request = (.ok sequence, transport))
    (same : timed.transports = (environment.setTransport client.transport transport).transports)
    (index : TransportId) :
    timed.sent? index = (environment.sent? index).map
      (· ++ if client.transport = index then [(sequence, request)] else []) := by
  obtain ⟨-, -, recorded⟩ := Transport.Loopback.send_eq_ok sent
  rw [Environment.sent?_congr same, Environment.sent?_setTransport]
  by_cases own : client.transport = index
  · rw [if_pos own, if_pos own, recorded]
    cases known : environment.sent? index with
    | none => rfl
    | some log =>
      rw [own, Environment.sent?_eq_transport known]
      rfl
  · rw [if_neg own, if_neg own]
    simp

private theorem sent?_of_quiet {before after : Environment} {index : TransportId} {own : Prop}
    [Decidable own] {dispatched : List (Sequence × Request)} (nothing : dispatched = [])
    (same : after.sent? index = before.sent? index) :
    after.sent? index = (before.sent? index).map (· ++ if own then dispatched else []) := by
  rw [same, nothing]
  simp

/-- A step adds to the record of its client's transport what its turn dispatches. -/
theorem sent?_step (client : Client κ) (environment : Environment) (phase : Phase κ)
    (index : ClientId) (transport : TransportId) :
    (client.step environment phase).environment.sent? transport
      = (environment.sent? transport).map
          (· ++ if client.transport = transport then
            Turn.dispatched ⟨index, client.service, phase,
              (client.step environment phase).effects, (client.step environment phase).next⟩
            else []) := by
  cases isAside : phase.isAside with
  | true =>
    apply sent?_of_quiet (Turn.dispatched_of_isAside isAside)
    exact (client.unobtrusive_step environment isAside).sent transport
  | false =>
    have exit := client.exit_step environment phase
    generalize client.step environment phase = step at exit ⊢
    cases exit with
    | gone disposed begins =>
      refine sent?_of_quiet ?_ rfl
      cases phase <;> rfl
    | unsent live room failed =>
      obtain ⟨rest, -, rfl⟩ := Transport.Loopback.send_eq_error failed
      apply sent?_of_quiet rfl
      exact environment.sent?_setTransport_of_silent client.transport transport rfl
    | untimed live room sent read | doubled live room sent read taken
    | stored live room sent read inserted =>
      exact sent?_of_sent sent (Environment.transports_eq_of_readClock read) transport
    | pruned live prunes =>
      refine sent?_of_quiet ?_ rfl
      cases phase <;> rfl
    | aside aside client_eq cells_eq effects next =>
      rw [aside] at isAside
      cases isAside
    | full | unmatched | lost | matched | counted | countedBefore | handedOver | missed | cancelled
    | retired => exact sent?_of_quiet rfl rfl

end Client

namespace World

/-- A client sends its requests over a transport. -/
def uses (world : World κ) (transport : TransportId) (index : ClientId) : Bool :=
  (world.clients[index]?).any (·.transport == transport)

/-- The clients that share a transport. -/
def sharing (world : World κ) (transport : TransportId) : Finset ClientId :=
  (Finset.range world.clients.length).filter fun index => world.uses transport index = true

/-- The count of the accepted requests of a client. -/
def submitted (world : World κ) (index : ClientId) : Nat :=
  ((world.clients[index]?).map (·.tally.submitted.toNat)).getD 0

theorem mem_sharing {world : World κ} {transport : TransportId} {index : ClientId} :
    index ∈ world.sharing transport ↔ world.uses transport index = true := by
  unfold sharing
  rw [Finset.mem_filter, Finset.mem_range]
  constructor
  · exact And.right
  · intro used
    refine ⟨?_, used⟩
    by_contra outside
    have none : world.clients[index]? = none := List.getElem?_eq_none (Nat.le_of_not_lt outside)
    unfold uses at used
    rw [none] at used
    cases used

/-- What can be told of the clients stays the same if it stays the same for the one that changes. -/
theorem any_set {world : World κ} {acting : ClientId} {client replacement : Client κ}
    (found : world.clients[acting]? = some client) {test : Client κ → Bool}
    (same : test replacement = test client) (index : ClientId) :
    ((world.clients.set acting replacement)[index]?).any test
      = (world.clients[index]?).any test := by
  have below := (List.getElem?_eq_some_iff.mp found).1
  by_cases own : acting = index
  · subst own
    rw [List.getElem?_set_self below, found]
    exact same
  · rw [List.getElem?_set_ne own]

end World

/-- What the turns of certain clients entered into an account, in the order of the turns. -/
def shared {α : Type} (turns : List (Turn κ)) (users : ClientId → Bool)
    (account : Turn κ → List α) : List α :=
  (turns.filter fun turn => users turn.client).flatMap account

theorem shared_append {α : Type} (turns : List (Turn κ)) (turn : Turn κ)
    (users : ClientId → Bool) (account : Turn κ → List α) :
    shared (turns ++ [turn]) users account
      = shared turns users account ++ if users turn.client = true then account turn else [] := by
  by_cases own : users turn.client = true <;> simp [shared, List.filter_append, own]

/-- What clients that share a transport entered is what each of them entered, taken together. -/
theorem length_shared {α : Type} (world : World κ) (transport : TransportId)
    (turns : List (Turn κ)) (account : Turn κ → List α) :
    (shared turns (world.uses transport) account).length
      = ∑ index ∈ world.sharing transport, (shared turns (· = index) account).length := by
  induction turns using List.reverseRecOn with
  | nil => simp [shared]
  | append_singleton turns turn inductionHypothesis =>
    have each : ∀ index, (shared (turns ++ [turn]) (· = index) account).length
        = (shared turns (· = index) account).length
          + if turn.client = index then (account turn).length else 0 := by
      intro index
      rw [shared_append, List.length_append]
      by_cases own : turn.client = index <;> simp [own]
    rw [shared_append, List.length_append, inductionHypothesis, Finset.sum_congr rfl fun index _ =>
      each index, Finset.sum_add_distrib, Finset.sum_ite_eq]
    simp only [World.mem_sharing]
    by_cases own : world.uses transport turn.client = true <;> simp [own]

/-- Without broken submits, a request is dispatched if it is accepted or rejected for its number. -/
theorem length_shared_dispatched {turns : List (Turn κ)} {users : ClientId → Bool}
    (calm : ∀ turn ∈ turns, users turn.client = true → turn.breaksSubmit = false) :
    (shared turns users Turn.dispatched).length
      = (shared turns users Turn.accepted).length + (shared turns users Turn.duplicated).length := by
  induction turns using List.reverseRecOn with
  | nil => rfl
  | append_singleton turns turn inductionHypothesis =>
    have before := inductionHypothesis fun earlier member =>
      calm earlier (List.mem_append_left _ member)
    simp only [shared_append, List.length_append, before]
    by_cases own : users turn.client = true
    · have last := Turn.length_dispatched
        (calm turn (List.mem_append_right _ (List.mem_singleton.mpr rfl)) own)
      simp only [own, if_true, last]
      omega
    · simp [own]

/-- What happens outside of the clients sends nothing. -/
theorem Outside.sent?_apply (environment : Environment) (act : Outside)
    (transport : TransportId) :
    (act.apply environment).sent? transport = environment.sent? transport := by
  cases act with
  | failNext changed | forceNext changed =>
    exact environment.sent?_setTransport_of_silent changed transport rfl
  | passTime span => exact Environment.sent?_congr (environment.sleep_transports span .running) _
  | _ => rfl

namespace Course

variable {world : World κ} {course : Course κ}

/-- What no step changes about its client stays the same for every client. -/
theorem Leads.any_eq {start : Course κ} (leads : start.Leads course) {test : Client κ → Bool}
    (steady : ∀ (client : Client κ) environment phase,
      test (client.step environment phase).client = test client) (index : ClientId) :
    (course.world.clients[index]?).any test = (start.world.clients[index]?).any test := by
  induction leads with
  | here => rfl
  | @move course next leads move inductionHypothesis =>
    cases move with
    | proceed front back acting phase turn after split made =>
      obtain ⟨client, found, -, rfl⟩ := World.step?_eq_some made
      rw [← inductionHypothesis]
      exact World.any_set found (steady client course.world.environment phase) index
    | enter | abandon | outside => exact inductionHypothesis

/-- The users of a transport stay the same. -/
theorem Leads.uses_eq (leads : (opening world).Leads course) (transport : TransportId)
    (index : ClientId) : course.world.uses transport index = world.uses transport index :=
  leads.any_eq (fun client environment phase =>
    congrArg (· == transport) (client.exit_step environment phase).transport_eq) index

/-- A transport records what its clients dispatch, behind what it recorded before. -/
theorem Leads.sent?_eq (leads : (opening world).Leads course) (transport : TransportId) :
    course.world.environment.sent? transport
      = (world.environment.sent? transport).map
          (· ++ shared course.turns (world.uses transport) Turn.dispatched) := by
  induction leads with
  | here => simp [opening, shared]
  | @move course next leads move inductionHypothesis =>
    cases move with
    | proceed front back acting phase turn after split made =>
      obtain ⟨client, found, rfl, rfl⟩ := World.step?_eq_some made
      have own : (client.transport = transport) = (world.uses transport acting = true) := by
        rw [← leads.uses_eq]
        simp [World.uses, found]
      show (client.step course.world.environment phase).environment.sent? transport = _
      rw [client.sent?_step course.world.environment phase acting transport, inductionHypothesis,
        Option.map_map]
      refine congrArg (Option.map · _) (funext fun log => ?_)
      simp only [shared_append, own, Function.comp_apply, List.append_assoc]
    | outside act =>
      show (act.apply course.world.environment).sent? transport = _
      rw [act.sent?_apply]
      exact inductionHypothesis
    | enter | abandon => exact inductionHypothesis

/-- The count of a client's accepted requests wraps. -/
theorem Leads.submitted_eq (leads : (opening world).Leads course) (fresh : world.IsFresh)
    {transport : TransportId} {index : ClientId}
    (shares : index ∈ course.world.sharing transport) :
    course.world.submitted index
      = (entered course.turns index Turn.accepted).length % UInt64.size := by
  have used := World.mem_sharing.mp shares
  unfold World.uses at used
  cases found : course.world.clients[index]? with
  | none =>
    rw [found] at used
    cases used
  | some client =>
    have balanced := leads.isBalanced fresh index client found
    unfold World.submitted
    rw [found]
    show client.tally.submitted.toNat = _
    rw [balanced.submitted]
    exact UInt64.toNat_ofNat'

/-- How many requests were sent, by the counts of the clients, if no submit broke off. The counts wrap;
the number is exact as long as it is in their range. -/
theorem Leads.length_dispatched (leads : (opening world).Leads course) (fresh : world.IsFresh)
    (transport : TransportId)
    (calm : ∀ turn ∈ course.turns, course.world.uses transport turn.client = true →
      turn.breaksSubmit = false) :
    let sent := (shared course.turns (course.world.uses transport) Turn.dispatched).length
    let counted := ∑ index ∈ course.world.sharing transport, course.world.submitted index
      + (shared course.turns (course.world.uses transport) Turn.duplicated).length
    sent ≡ counted [MOD UInt64.size] ∧ (sent < UInt64.size → sent = counted) := by
  intro sent counted
  have total : sent = ∑ index ∈ course.world.sharing transport,
        (entered course.turns index Turn.accepted).length
      + (shared course.turns (course.world.uses transport) Turn.duplicated).length := by
    have accepted := length_shared course.world transport course.turns Turn.accepted
    unfold shared at accepted
    unfold entered
    rw [← accepted]
    exact length_shared_dispatched calm
  have wrapped : ∑ index ∈ course.world.sharing transport, course.world.submitted index
      = ∑ index ∈ course.world.sharing transport,
          (entered course.turns index Turn.accepted).length % UInt64.size :=
    Finset.sum_congr rfl fun index shares => leads.submitted_eq fresh shares
  constructor
  · rw [total]
    apply Nat.ModEq.add_right
    unfold Nat.ModEq
    rw [wrapped]
    exact Finset.sum_nat_mod _ _ _
  · intro small
    rw [total]
    apply congrArg (· + _)
    apply Finset.sum_congr rfl
    intro index shares
    have among : (entered course.turns index Turn.accepted).length
        ≤ ∑ other ∈ course.world.sharing transport,
          (entered course.turns other Turn.accepted).length :=
      Finset.single_le_sum
        (f := fun other => (entered course.turns other Turn.accepted).length)
        (fun _ _ => Nat.zero_le _) shares
    have one : (entered course.turns index Turn.accepted).length ≤ sent := by
      rw [total]
      exact Nat.le_add_right_of_le among
    rw [leads.submitted_eq fresh shares, Nat.mod_eq_of_lt (Nat.lt_of_le_of_lt one small)]

end Course

end Correlator
