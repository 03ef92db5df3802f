import Correlator.Proofs.Client.Delivery
import Correlator.Proofs.Session.Atomicity
import Correlator.Proofs.Session.Resolution

/-!
Contract: responses and cancellations that the user of a session passes on to a client.

Owns: which operations they are, what each replies, and that their order does not matter as long as they
are for different numbers.

Does not own: what a delivery does to a client (`Correlator.Proofs.Client.Delivery`).
-/

set_option autoImplicit false

namespace Correlator.Session

/-- The future that the user means by a reference; outside of callbacks there is no own future. -/
def future? (session : Session) : FutureRef → Option Future
  | .recorded index => session.futures[index]?
  | .own => none

/-- The number that the user means by a target. -/
def number? (session : Session) : Target → Option Sequence
  | .number sequence => some sequence
  | .future reference => (session.future? reference).map (·.sequence)

/-- The delivery to a client that an operation is, if it is one. -/
def delivery? (session : Session) (index : ClientId) : Op → Option Delivery
  | .complete client target response =>
    if client = index then (session.number? target).map (Delivery.complete · response) else none
  | .cancel client reference =>
    if client = index then (session.future? reference).map Delivery.cancel else none
  | _ => none

/-- The session with another client in the place of one, and another environment. -/
def replace (session : Session) (index : ClientId) (state : Client Program × Environment) :
    Session :=
  { session with world := ⟨session.world.clients.set index state.1, state.2⟩ }

variable {session : Session} {index : ClientId} {client : Client Program}
  {delivery : Delivery} {op : Op}

theorem client?_replace (found : session.client? index = some client)
    (state : Client Program × Environment) :
    (session.replace index state).client? index = some state.1 :=
  List.getElem?_set_self (List.getElem?_eq_some_iff.mp found).1

theorem replace_self (found : session.client? index = some client) :
    session.replace index (client, session.environment) = session := by
  obtain ⟨below, rfl⟩ := List.getElem?_eq_some_iff.mp found
  unfold replace
  rw [List.set_getElem_self below]
  rfl

theorem replace_replace (session : Session) (index : ClientId)
    (first second : Client Program × Environment) :
    (session.replace index first).replace index second = session.replace index second := by
  unfold replace
  rw [List.set_set]

private theorem withFuture_eq {machine : Machine} {reference : FutureRef} {future : Future}
    (known : machine.session.future? reference = some future) (body : Future → Machine.Result) :
    machine.withFuture none reference body = body future := by
  cases reference with
  | recorded position =>
    have search : machine.session.futures[position]? = some future := known
    unfold Machine.withFuture
    dsimp only
    rw [search]
  | own => cases known

private theorem withTarget_eq {machine : Machine} {target : Target} {sequence : Sequence}
    (known : machine.session.number? target = some sequence) (body : Sequence → Machine.Result) :
    machine.withTarget none target body = body sequence := by
  cases target with
  | number given =>
    cases known
    rfl
  | future reference =>
    obtain ⟨future, search, rfl⟩ := Option.map_eq_some_iff.mp known
    exact withFuture_eq search _

private theorem call_eq (found : session.client? index = some client) (phase : Phase Program) :
    Machine.call { session, agenda := [] } index phase none
      = ([], { session, agenda := [.advance index phase] }) := by
  unfold Machine.call
  rw [found]
  rfl

/-- A delivery calls its client. -/
theorem carryOut_delivery (found : session.client? index = some client)
    (means : session.delivery? index op = some delivery) :
    Machine.carryOut { session, agenda := [] } (.perform op none)
      = ([], { session, agenda := [.advance index delivery.phase] }) := by
  cases op with
  | complete caller target response =>
    have means : (if caller = index then (session.number? target).map (Delivery.complete · response)
      else none) = some delivery := means
    by_cases own : caller = index
    · subst own
      rw [if_pos rfl] at means
      obtain ⟨sequence, known, rfl⟩ := Option.map_eq_some_iff.mp means
      exact (withTarget_eq known _).trans (call_eq found _)
    · rw [if_neg own] at means
      cases means
  | cancel caller reference =>
    have means : (if caller = index then (session.future? reference).map Delivery.cancel
      else none) = some delivery := means
    by_cases own : caller = index
    · subst own
      rw [if_pos rfl] at means
      obtain ⟨future, known, rfl⟩ := Option.map_eq_some_iff.mp means
      exact (withFuture_eq known _).trans (call_eq found _)
    · rw [if_neg own] at means
      cases means
  | _ => cases means

/-- A delivery is performed as its receipt says. -/
private theorem performs_delivery (found : session.client? index = some client)
    (ready : client.Ready session.environment) (silent : client.Silent delivery)
    (means : session.delivery? index op = some delivery) :
    ∃ report, session.Performs op report
      ∧ report.reply = .answered (client.receipt delivery).answer
      ∧ report.session = session.replace index (client.deliver session.environment delivery) := by
  obtain ⟨effects, performs⟩ := ready.performs silent
  have called := carryOut_delivery found means
  have first : Machine.agenda { session, agenda := [.advance index delivery.phase] }
      = [.advance index delivery.phase] := rfl
  obtain ⟨trail, finish, runs, stepped, alone⟩ :=
    Machine.runs_performed first rfl found rfl performs
  have whole : Machine.Runs { session, agenda := [.perform op none] } ([] ++ trail) finish :=
    .of_carryOut rfl called runs
  refine ⟨⟨finish.reply, trail, finish.session⟩,
    performs_iff.mpr ⟨finish, ⟨whole, stepped.agenda_eq⟩, rfl, rfl⟩, stepped.reply_eq _ rfl, ?_⟩
  show finish.session = _
  rw [alone, stepped.world_eq]
  rfl

/-- Deliveries for different numbers reply what each of them alone would have. -/
private theorem performsAll_deliveries {ops : List Op} {deliveries : List Delivery}
    (found : session.client? index = some client) (ready : client.Ready session.environment)
    (apart : (deliveries.map Delivery.number).Nodup)
    (silent : ∀ delivery ∈ deliveries, client.Silent delivery)
    (means : ops.map (session.delivery? index) = deliveries.map some) :
    ∃ reports, session.PerformsAll ops reports
        (session.replace index (client.deliverAll session.environment deliveries))
      ∧ reports.map Report.reply
        = deliveries.map fun delivery => .answered (client.receipt delivery).answer := by
  induction deliveries generalizing session client ops with
  | nil =>
    obtain rfl : ops = [] := by simpa using means
    rw [show client.deliverAll session.environment [] = (client, session.environment) from rfl,
      replace_self found]
    exact ⟨[], .nil session, rfl⟩
  | cons delivery rest inductionHypothesis =>
    obtain ⟨op, later, rfl, means, remaining⟩ := List.map_eq_cons_iff.mp means
    obtain ⟨distinct, apart⟩ := List.nodup_cons.mp apart
    have different : ∀ other ∈ rest, other.number ≠ delivery.number := by
      intro other member same
      exact distinct (same ▸ List.mem_map_of_mem member)
    have known := silent delivery List.mem_cons_self
    obtain ⟨report, performs, reply, session_eq⟩ := performs_delivery found ready known means
    have after := client?_replace found (client.deliver session.environment delivery)
    have stillSilent : ∀ other ∈ rest,
        (client.deliver session.environment delivery).1.Silent other := fun other member =>
      (silent other (List.mem_cons_of_mem _ member)).deliver (different other member)
    obtain ⟨reports, performed, replies⟩ :=
      inductionHypothesis after (ready.deliver delivery) apart stillSilent remaining
    rw [replace_replace] at performed
    refine ⟨report :: reports, .cons performs ?_, ?_⟩
    · rw [session_eq]
      exact performed
    · rw [List.map_cons, List.map_cons, reply, replies]
      apply congrArg
      apply List.map_congr_left
      intro other member
      rw [Client.receipt_deliver (different other member)]

namespace Point

variable {point : Point}

/-- The order of deliveries does not matter. At every point of a run, let deliveries come for a client in
use, for different numbers, and let the requests that are pending under these numbers have no callbacks.
In whatever order the user asks for them, each is answered what it would be alone, and they leave the
same behind. -/
theorem delivery_order (fresh : session.world.IsFresh) (leads : (opening session).Leads point)
    (keeps : point.KeepsToClients) (found : point.machine.session.client? index = some client)
    (live : client.disposed = false) {deliveries : List Delivery}
    (apart : (deliveries.map Delivery.number).Nodup)
    (silent : ∀ delivery ∈ deliveries, client.Silent delivery) :
    ∀ ops order, deliveries.Perm order →
      ops.map (point.machine.session.delivery? index) = order.map some →
        ∃ reports,
          point.machine.session.PerformsAll ops reports (point.machine.session.replace index
            (client.deliverAll point.machine.session.environment deliveries))
          ∧ reports.map Report.reply
            = order.map fun delivery => .answered (client.receipt delivery).answer := by
  intro ops order permutation means
  have resolvable := resolvable_of_leads leads keeps fresh
  have ready : client.Ready point.machine.session.environment :=
    ⟨live, resolvable.filed index client found, resolvable.unresolved index client found⟩
  have moved : (order.map Delivery.number).Nodup :=
    (permutation.map Delivery.number).nodup_iff.mp apart
  rw [ready.deliverAll_eq_of_perm permutation apart]
  apply performsAll_deliveries found ready moved _ means
  intro delivery member
  exact silent delivery (permutation.mem_iff.mpr member)

/-- A point after two requests. -/
def expectant : Point :=
  ((((opening solo).ask (.submit 0 "first" none)).next.next.next.ask
    (.submit 0 "second" none)).next.next.next)

theorem leads_expectant : (opening solo).Leads expectant :=
  .next (.next (.next (.ask _ (.next (.next (.next (.ask _ .here rfl)))) rfl)))

/-- There a response to the second request, the cancellation of the first one and a response to none
reply and leave the same in two orders. -/
theorem delivery_order_expectant :
    ∃ final,
      (∃ reports, expectant.machine.session.PerformsAll
          [.complete 0 (.number ⟨2⟩) "done", .cancel 0 (.recorded 0),
            .complete 0 (.number ⟨9⟩) "lost"] reports final
        ∧ reports.map Report.reply = [.answered (.ok .done), .answered (.ok (.flag true)),
          .answered (.error (.unmatchedResponse "echo" ⟨9⟩))])
      ∧ ∃ reports, expectant.machine.session.PerformsAll
          [.complete 0 (.number ⟨9⟩) "lost", .cancel 0 (.recorded 0),
            .complete 0 (.future (.recorded 1)) "done"] reports final
        ∧ reports.map Report.reply = [.answered (.error (.unmatchedResponse "echo" ⟨9⟩)),
          .answered (.ok (.flag true)), .answered (.ok .done)] := by
  obtain ⟨client, found⟩ : ∃ client, expectant.machine.session.client? 0 = some client := ⟨_, rfl⟩
  have silent : ∀ row ∈ client.table.rows, row.2.callback = none := by
    cases found
    decide
  have anyOrder := delivery_order solo_isFresh leads_expectant (by decide) found
    (by cases found; rfl)
    (show ([.complete ⟨2⟩ "done", .cancel ⟨0, ⟨1⟩⟩, .complete ⟨9⟩ "lost"].map
      Delivery.number).Nodup by decide)
    (fun delivery _ entry search => silent _ (Pending.Table.mem_of_find? search))
  cases found
  refine ⟨_, anyOrder _ _ (.refl _) rfl, anyOrder _ _ (List.reverse_perm _).symm rfl⟩

end Point

end Correlator.Session
