import Correlator.Proofs.Client.Performance
import Correlator.Proofs.Response.Cell

/-!
Contract: responses and cancellations that come to a client, one after the other.

Owns: what each of them is answered and leaves behind, and that those for different numbers do not depend
on the order in which they come.

Does not own: requests with callbacks, and how a session passes deliveries on to its clients
(`Correlator.Proofs.Session.Delivery`).
-/

set_option autoImplicit false

namespace Correlator

/-- The response to a request, or its cancellation. -/
inductive Delivery where
  | complete (sequence : Sequence) (response : Response)
  | cancel (future : Future)
deriving DecidableEq, Repr

namespace Delivery

/-- The number of the request. -/
def number : Delivery → Sequence
  | .complete sequence _ => sequence
  | .cancel future => future.sequence

def phase {κ : Type} : Delivery → Phase κ
  | .complete sequence response => .complete sequence response
  | .cancel future => .cancel future

end Delivery

/-- What comes of a delivery: the answer, what the client counts, and the future that gets a response. -/
structure Receipt where
  answer : Except ClientError Answer
  counter? : Option Counter
  filled? : Option (Future × Response)

namespace Pending.Table

variable {κ : Type} {table : Table κ} {sequence other : Sequence}

/-- The entry under a number stays when another number is erased. -/
theorem find?_erase (different : other ≠ sequence) :
    (table.erase sequence).find? other = table.find? other := by
  unfold find? erase
  rw [List.find?_filter]
  apply congrArg fun property => (table.rows.find? property).map (·.2)
  funext row
  by_cases own : row.1 = other
  · simp [own, different]
  · simp [own]

theorem erase_of_absent (absent : table.find? sequence = none) : table.erase sequence = table := by
  unfold erase
  rw [List.filter_eq_self.mpr]
  intro row member
  unfold find? at absent
  have none := List.find?_eq_none.mp (Option.map_eq_none_iff.mp absent) row member
  simpa using none

theorem erase_comm (table : Table κ) (sequence other : Sequence) :
    (table.erase sequence).erase other = (table.erase other).erase sequence := by
  unfold erase
  rw [List.filter_filter, List.filter_filter]
  simp only [Bool.and_comm]

end Pending.Table

theorem Tally.add_comm (tally : Tally) (first second : Counter) (amount more : UInt64) :
    (tally.add amount first).add more second = (tally.add more second).add amount first := by
  cases first <;> cases second <;> simp [Tally.add, UInt64.add_assoc, UInt64.add_comm amount more]

namespace Cells

/-- Stores a response in an empty cell. -/
def fill (cells : Cells) (future : Future) (response : Response) : Cells :=
  cells.set future.cell ⟨future.sequence, some response, []⟩

variable {cells : Cells} {future other : Future}

theorem Holds.resolve_eq_fill (holds : cells.Holds future none) (response : Response) :
    cells.resolve future response
      = .ok ((cells.cell future).wakers, cells.fill future response) := by
  obtain ⟨cell, found, sequence, empty⟩ := holds
  simp [Cells.resolve, Cells.cell, found, Cell.resolve?, empty, fill, sequence]

theorem Holds.fill {held : Option Response} (holds : cells.Holds other held)
    (different : future.cell ≠ other.cell) (response : Response) :
    (cells.fill future response).Holds other held := by
  obtain ⟨cell, found, same⟩ := holds
  refine ⟨cell, ?_, same⟩
  unfold Cells.fill
  rw [List.getElem?_set_ne different]
  exact found

theorem fill_comm (different : future.cell ≠ other.cell) (response answer : Response) :
    (cells.fill future response).fill other answer
      = (cells.fill other answer).fill future response :=
  List.set_comm _ _ different

end Cells

namespace Receipt

def tally (receipt : Receipt) (tally : Tally) : Tally :=
  receipt.counter?.elim tally (tally.add 1)

def cells (receipt : Receipt) (cells : Cells) : Cells :=
  receipt.filled?.elim cells fun filled => cells.fill filled.1 filled.2

theorem tally_comm (first second : Receipt) (tally : Tally) :
    second.tally (first.tally tally) = first.tally (second.tally tally) := by
  unfold Receipt.tally
  cases first.counter? with
  | none => rfl
  | some counter =>
    cases second.counter? with
    | none => rfl
    | some other => exact tally.add_comm counter other 1 1

theorem cells_comm {first second : Receipt}
    (apart : ∀ left right, first.filled? = some left → second.filled? = some right →
      left.1.cell ≠ right.1.cell) (cells : Cells) :
    second.cells (first.cells cells) = first.cells (second.cells cells) := by
  unfold Receipt.cells
  cases left : first.filled? with
  | none => rfl
  | some filled =>
    cases right : second.filled? with
    | none => rfl
    | some other => exact Cells.fill_comm (apart filled other left right) filled.2 other.2

end Receipt

namespace Client

variable {κ : Type}

/-- What comes of a delivery, by what is pending under its number. -/
def receipt (client : Client κ) (delivery : Delivery) : Receipt :=
  match delivery, client.table.find? delivery.number with
  | .complete sequence _, none =>
    ⟨.error (.unmatchedResponse client.service sequence), some .unmatched, none⟩
  | .complete _ response, some entry =>
    ⟨.ok .done, some .completed, some (entry.future, response)⟩
  | .cancel _, none => ⟨.ok (.flag false), none, none⟩
  | .cancel _, some _ => ⟨.ok (.flag true), some .cancelled, none⟩

/-- A client and its environment after a delivery. -/
def deliver (client : Client κ) (environment : Environment) (delivery : Delivery) :
    Client κ × Environment :=
  ({ client with
      table := client.table.erase delivery.number
      tally := (client.receipt delivery).tally client.tally },
    { environment with cells := (client.receipt delivery).cells environment.cells })

/-- A client in use, whose pending requests have no response yet. -/
structure Ready (client : Client κ) (environment : Environment) : Prop where
  live : client.disposed = false
  filed : client.table.Filed
  empty : ∀ row ∈ client.table.rows, environment.cells.Holds row.2.future none

/-- The request of a delivery, if it is pending, has no callback. -/
def Silent (client : Client κ) (delivery : Delivery) : Prop :=
  ∀ entry, client.table.find? delivery.number = some entry → entry.callback = none

variable {client : Client κ} {environment : Environment} {delivery other : Delivery}

/-! ### One delivery -/

theorem find?_deliver (different : other.number ≠ delivery.number) :
    (client.deliver environment delivery).1.table.find? other.number
      = client.table.find? other.number :=
  Pending.Table.find?_erase different

/-- What comes of a delivery does not depend on deliveries for other numbers. -/
theorem receipt_deliver (different : other.number ≠ delivery.number) :
    (client.deliver environment delivery).1.receipt other = client.receipt other := by
  unfold receipt
  rw [find?_deliver different]
  rfl

theorem Silent.deliver (silent : client.Silent other) (different : other.number ≠ delivery.number) :
    (client.deliver environment delivery).1.Silent other := by
  intro entry found
  rw [find?_deliver different] at found
  exact silent entry found

/-- The future that a delivery fills is the one pending under its number. -/
theorem find?_of_filled {future : Future} {response : Response}
    (filled : (client.receipt delivery).filled? = some (future, response)) :
    ∃ entry, client.table.find? delivery.number = some entry ∧ entry.future = future := by
  unfold receipt at filled
  cases delivery with
  | complete sequence answer =>
    cases found : client.table.find? sequence with
    | none => simp [Delivery.number, found] at filled
    | some entry =>
      simp only [Delivery.number, found, Option.some.injEq, Prod.mk.injEq] at filled
      exact ⟨entry, found, filled.1⟩
  | cancel cancelled =>
    cases found : client.table.find? cancelled.sequence with
    | none | some => simp [Delivery.number, found] at filled

namespace Ready

/-- Requests under different numbers have different cells. -/
theorem cell_ne (ready : client.Ready environment) {left right : Sequence × Pending.Entry κ}
    (leftMember : left ∈ client.table.rows) (rightMember : right ∈ client.table.rows)
    (different : left.1 ≠ right.1) : left.2.future.cell ≠ right.2.future.cell := by
  intro same
  have equal := (ready.empty left leftMember).future_eq (ready.empty right rightMember) same
  apply different
  rw [ready.filed.own left leftMember, ready.filed.own right rightMember]
  exact congrArg Future.sequence equal

theorem deliver (ready : client.Ready environment) (delivery : Delivery) :
    (client.deliver environment delivery).1.Ready (client.deliver environment delivery).2 where
  live := ready.live
  filed := ready.filed.erase delivery.number
  empty := by
    intro row member
    obtain ⟨inside, other⟩ := List.mem_filter.mp member
    have holds := ready.empty row inside
    unfold Client.deliver Receipt.cells
    cases filled : (client.receipt delivery).filled? with
    | none => exact holds
    | some pair =>
      obtain ⟨future, response⟩ := pair
      obtain ⟨entry, found, rfl⟩ := find?_of_filled filled
      have stored := Pending.Table.mem_of_find? found
      apply holds.fill
      exact ready.cell_ne stored inside (Ne.symm (by simpa using other))

/-- A response to a pending request is stored, and then counted. -/
theorem step_complete (ready : client.Ready environment) {sequence : Sequence}
    {entry : Pending.Entry κ} (found : client.table.find? sequence = some entry)
    (response : Response) :
    client.step environment (.complete sequence response)
      = ⟨{ client with table := client.table.erase sequence },
          { environment with cells := environment.cells.fill entry.future response },
          .locked :: .removed entry.future .completed :: .resolved entry.future response
            :: ((environment.cells.cell entry.future).wakers.map Effect.woke ++ [.unlocked]),
          .goesOn (.countCompleted ⟨entry.future, entry.callback⟩)⟩ := by
  have empty := ready.empty _ (Pending.Table.mem_of_find? found)
  have removed : client.table.remove? sequence = some (entry, client.table.erase sequence) := by
    unfold Pending.Table.remove?
    rw [found]
    rfl
  show client.whileLive environment (client.complete environment sequence response) = _
  rw [whileLive_of_live ready.live]
  unfold complete Pending.Entry.resolve
  rw [removed]
  dsimp only
  rw [empty.resolve_eq_fill]
  rfl

private theorem performs_complete (ready : client.Ready environment) {sequence : Sequence}
    {response : Response} (silent : client.Silent (.complete sequence response)) :
    ∃ effects, client.Performs environment (.complete sequence response)
      ⟨(client.deliver environment (.complete sequence response)).1,
        (client.deliver environment (.complete sequence response)).2, effects,
        .returned (client.receipt (.complete sequence response)).answer⟩ := by
  unfold Client.deliver Client.receipt
  simp only [Delivery.number]
  cases found : client.table.find? sequence with
  | some entry =>
    have step_eq := ready.step_complete found response
    rw [silent entry found] at step_eq
    exact ⟨_, performs_of_goesOn step_eq rfl (performs_of_step rfl rfl)⟩
  | none =>
    rw [Pending.Table.erase_of_absent found]
    have step_eq : client.step environment (.complete sequence response)
        = ⟨client.count .unmatched 1, environment,
            [.locked, .counted .unmatched 1, .logged (.responseUnmatched sequence), .unlocked],
            .returned (.error (.unmatchedResponse client.service sequence))⟩ := by
      show client.whileLive environment (client.complete environment sequence response) = _
      rw [whileLive_of_live ready.live]
      unfold complete Pending.Table.remove?
      rw [found]
      rfl
    exact ⟨_, performs_of_step step_eq rfl⟩

private theorem performs_cancel (ready : client.Ready environment) (future : Future) :
    ∃ effects, client.Performs environment (.cancel future)
      ⟨(client.deliver environment (.cancel future)).1,
        (client.deliver environment (.cancel future)).2, effects,
        .returned (client.receipt (.cancel future)).answer⟩ := by
  have exit := client.exit_step environment (.cancel future)
  unfold Client.deliver Client.receipt
  simp only [Delivery.number]
  generalize step_eq : client.step environment (.cancel future) = step at exit
  cases exit with
  | gone disposed begins =>
    rw [ready.live] at disposed
    cases disposed
  | missed live absent =>
    have none : client.table.find? future.sequence = none := by
      simpa [Pending.Table.contains] using absent
    rw [none, Pending.Table.erase_of_absent none]
    exact ⟨_, performs_of_step step_eq rfl⟩
  | cancelled live found =>
    rw [found]
    exact ⟨_, performs_of_step step_eq rfl⟩
  | pruned live prunes => cases prunes
  | aside isAside client_eq cells_eq effects next => cases isAside

/-- A delivery is performed as its receipt says. -/
theorem performs (ready : client.Ready environment) (silent : client.Silent delivery) :
    ∃ effects, client.Performs environment delivery.phase
      ⟨(client.deliver environment delivery).1, (client.deliver environment delivery).2, effects,
        .returned (client.receipt delivery).answer⟩ := by
  cases delivery with
  | complete sequence response => exact ready.performs_complete silent
  | cancel future => exact ready.performs_cancel future

/-- What two deliveries for different numbers leave behind, by what comes of each of them alone. -/
private theorem deliver_deliver (client : Client κ) (environment : Environment)
    (different : other.number ≠ delivery.number) :
    (client.deliver environment delivery).1.deliver (client.deliver environment delivery).2 other
      = ({ client with
            table := (client.table.erase delivery.number).erase other.number
            tally := (client.receipt other).tally ((client.receipt delivery).tally client.tally) },
          { environment with
            cells := (client.receipt other).cells
              ((client.receipt delivery).cells environment.cells) }) := by
  have later : (client.deliver environment delivery).1.receipt other = client.receipt other :=
    receipt_deliver different
  unfold Client.deliver at later ⊢
  rw [later]

/-- Two deliveries for different numbers leave the same behind in either order. -/
theorem deliver_comm (ready : client.Ready environment)
    (different : delivery.number ≠ other.number) :
    (client.deliver environment delivery).1.deliver (client.deliver environment delivery).2 other
      = (client.deliver environment other).1.deliver (client.deliver environment other).2
          delivery := by
  have apart : ∀ left right, (client.receipt delivery).filled? = some left →
      (client.receipt other).filled? = some right → left.1.cell ≠ right.1.cell := by
    intro left right leftFilled rightFilled
    obtain ⟨entry, found, own⟩ := find?_of_filled leftFilled
    obtain ⟨another, search, same⟩ := find?_of_filled rightFilled
    rw [← own, ← same]
    exact ready.cell_ne (Pending.Table.mem_of_find? found) (Pending.Table.mem_of_find? search)
      different
  rw [deliver_deliver client environment different.symm, deliver_deliver client environment different,
    Pending.Table.erase_comm, Receipt.tally_comm, Receipt.cells_comm apart]

end Ready

/-! ### Many deliveries -/

/-- A client and its environment after deliveries, one after the other. -/
def deliverAll (client : Client κ) (environment : Environment) :
    List Delivery → Client κ × Environment
  | [] => (client, environment)
  | delivery :: rest =>
    (client.deliver environment delivery).1.deliverAll (client.deliver environment delivery).2 rest

/-- Deliveries for different numbers leave the same behind in every order. -/
theorem Ready.deliverAll_eq_of_perm {deliveries order : List Delivery}
    (permutation : deliveries.Perm order) (ready : client.Ready environment)
    (apart : (deliveries.map Delivery.number).Nodup) :
    client.deliverAll environment deliveries = client.deliverAll environment order := by
  induction permutation generalizing client environment with
  | nil => rfl
  | cons delivery _ inductionHypothesis =>
    exact inductionHypothesis (ready.deliver delivery) (List.nodup_cons.mp apart).2
  | swap first second rest =>
    have different : second.number ≠ first.number := by
      intro same
      simp [same] at apart
    unfold deliverAll
    unfold deliverAll
    rw [ready.deliver_comm different]
  | trans first second firstHypothesis secondHypothesis =>
    have moved := (first.map Delivery.number).nodup_iff.mp apart
    exact (firstHypothesis ready apart).trans (secondHypothesis ready moved)

end Client

end Correlator
