import Correlator.Proofs.Concourse.Account

/-!
Contract: cells in a concourse.

Owns: that every move does one thing to the cells at most, that the deeds tell what each cell has lived through, and
that only attempts that succeed wake tasks.

Does not own: the shape of such a history (`Correlator.Proofs.Response.History`).
-/

set_option autoImplicit false

namespace Correlator

namespace Concourse

variable {κ : Type} {world : World κ} {start concourse next : Concourse κ}

/-- Entries are made only for cells that there are. -/
def IsGrounded (concourse : Concourse κ) : Prop :=
  ∀ future ∈ concourse.made, future.cell < concourse.cells.length

/-- What the deeds so far were to cells. -/
def record (concourse : Concourse κ) : List (CellId × Cell.Event) :=
  concourse.deeds.flatMap fun deed => deed.event?.toList

/-- What one cell has lived through. -/
def eventsOf (concourse : Concourse κ) (id : CellId) : List Cell.Event :=
  Cells.eventsOf id concourse.record

/-- The entries there are were made. -/
theorem IsBalanced.mem_made (balanced : concourse.IsBalanced) {future : Future}
    (member : future ∈ concourse.stock) : future ∈ concourse.made := by
  have account := balanced fun known => decide (known = future)
  have there : 0 < concourse.stock.countP fun known => decide (known = future) :=
    List.countP_pos_iff.mpr ⟨future, member, decide_eq_true rfl⟩
  obtain ⟨known, inside, same⟩ := List.countP_pos_iff.mp (Nat.lt_of_lt_of_le there
    (Nat.le_of_add_right_le account))
  exact of_decide_eq_true same ▸ inside

theorem mem_stock_of_entry {entry : Pending.Entry κ} (member : entry ∈ concourse.entries) :
    entry.future ∈ concourse.stock := by
  unfold stock
  have listed : entry.future ∈ concourse.entries.map (·.future) := List.mem_map_of_mem member
  exact List.mem_append_left _ (List.mem_append_right _ listed)

theorem mem_stock_of_row {client : Client κ} (member : client ∈ concourse.world.clients)
    {row : Sequence × Pending.Entry κ} (inside : row ∈ client.table.rows) :
    row.2.future ∈ concourse.stock := by
  unfold stock
  have listed : row.2.future ∈ client.table.rows.map (·.2.future) := List.mem_map_of_mem inside
  exact List.mem_append_left _ (List.mem_append_left _ (List.mem_flatMap.mpr ⟨client, member, listed⟩))

/-- A move does one deed at most, and to the cells it does what the deed says. -/
theorem Move.change (move : Move concourse next) (balanced : concourse.IsBalanced)
    (grounded : concourse.IsGrounded) :
    ∃ done : Option (Deed κ), next.deeds = concourse.deeds ++ done.toList
      ∧ concourse.cells.Change (done.bind Deed.event?) next.cells := by
  have silent : ∀ other : Concourse κ, other.deeds = concourse.deeds →
      concourse.cells.Change none other.cells →
      ∃ done : Option (Deed κ), other.deeds = concourse.deeds ++ done.toList
        ∧ concourse.cells.Change (done.bind Deed.event?) other.cells := by
    intro other deeds_eq change
    exact ⟨none, deeds_eq.trans (List.append_nil _).symm, change⟩
  have known : ∀ entry ∈ concourse.entries, entry.future.cell < concourse.cells.length :=
    fun entry member => grounded _ (balanced.mem_made (mem_stock_of_entry member))
  cases move with
  | proceed front back client phase turn world split made =>
    obtain ⟨actor, found, rfl, rfl⟩ := World.step?_eq_some made
    have exit := actor.exit_step concourse.world.environment phase
    refine ⟨some (.turned _), rfl, exit.change client actor.service fun row inside => ?_⟩
    exact grounded _ (balanced.mem_made (mem_stock_of_row (List.mem_of_getElem? found) inside))
  | outside act pollsNot =>
    refine silent _ rfl ?_
    have same : (act.apply concourse.world.environment).cells = concourse.cells := by
      cases act with
      | poll future waker => exact absurd rfl (pollsNot future waker)
      | passTime span => exact Environment.sleep_cells _ _ _
      | _ => rfl
    show concourse.cells.Change none (act.apply concourse.world.environment).cells
    rw [same]
    exact .still
  | poll future waker known => exact ⟨some (.polled _ _ _), rfl, .polled future waker known⟩
  | fresh sequence => exact silent _ rfl (.made sequence)
  | make entry known => exact ⟨some (.made entry), rfl, .still⟩
  | resolve front back entry value wakers completed cells entries_eq filled =>
    have inside := known entry (by rw [entries_eq]; simp)
    refine ⟨some (.attempted _), rfl, ?_⟩
    unfold Pending.Entry.resolve at filled
    split at filled
    next tasks after fills =>
      cases filled
      exact .filled inside fills
    next => cases filled
  | refuse front back entry value error entries_eq refused =>
    have inside := known entry (by rw [entries_eq]; simp)
    refine ⟨some (.attempted _), rfl, ?_⟩
    unfold Pending.Entry.resolve at refused
    split at refused
    next => cases refused
    next refuses =>
      cases refused
      exact .refused inside refuses
  | notify front back completed => exact ⟨some (.notified completed), rfl, .still⟩
  | _ => exact silent _ rfl .still

/-- What a move makes entries for are cells that there are then. -/
theorem Move.isGrounded (move : Move concourse next) (grounded : concourse.IsGrounded)
    (longer : concourse.cells.length ≤ next.cells.length) : next.IsGrounded := by
  have old : ∀ future ∈ concourse.made, future.cell < next.cells.length :=
    fun future member => Nat.lt_of_lt_of_le (grounded future member) longer
  have more : ∀ deed : Deed κ, next.deeds = concourse.deeds ++ [deed] →
      (∀ future ∈ deed.makes, future.cell < next.cells.length) → next.IsGrounded := by
    intro deed deeds_eq new future member
    unfold made at member
    rw [deeds_eq, List.flatMap_append, List.flatMap_singleton] at member
    exact (List.mem_append.mp member).elim (old future) (new future)
  cases move with
  | proceed front back client phase turn world split made =>
    obtain ⟨actor, found, rfl, rfl⟩ := World.step?_eq_some made
    exact more _ rfl ((actor.exit_step concourse.world.environment phase).stored_lt client
      actor.service)
  | make entry known =>
    exact more _ rfl fun future member => List.mem_singleton.mp member ▸ known
  | poll | resolve | refuse | notify => exact more _ rfl fun future member => by cases member
  | _ => exact old

/-- A concourse in which the deeds tell all that there is to tell. -/
structure IsOnRecord (concourse : Concourse κ) : Prop where
  balanced : concourse.IsBalanced
  grounded : concourse.IsGrounded
  traced : concourse.cells.Traced concourse.record

theorem Move.isOnRecord (move : Move concourse next) (onRecord : concourse.IsOnRecord) :
    next.IsOnRecord := by
  obtain ⟨done, deeds_eq, change⟩ := move.change onRecord.balanced onRecord.grounded
  refine ⟨move.isBalanced onRecord.balanced,
    move.isGrounded onRecord.grounded change.length_le, ?_⟩
  have recorded : next.record = concourse.record ++ (done.bind Deed.event?).toList := by
    unfold record
    rw [deeds_eq, List.flatMap_append]
    cases done <;> simp
  rw [recorded]
  exact onRecord.traced.change change

/-- Where nothing has happened and no cell has been made, all is on record. -/
theorem isOnRecord_opening (fresh : world.IsFresh) (noCells : world.environment.cells = []) :
    (opening world).IsOnRecord := by
  constructor
  case balanced =>
    intro chosen
    have empty : (opening world).stock = [] := by
      unfold stock
      rw [List.flatMap_eq_nil_iff.mpr fun client member => by
        rw [(fresh client member).1]
        rfl]
      rfl
    rw [empty]
    exact Nat.le_refl _
  case grounded => exact fun future member => by cases member
  case traced =>
    show Cells.Traced world.environment.cells []
    rw [noCells]
    exact Cells.traced_nil

theorem Leads.isOnRecord (leads : start.Leads concourse) (onRecord : start.IsOnRecord) :
    concourse.IsOnRecord :=
  leads.keeps onRecord fun _ _ kept move => move.isOnRecord kept

/-- A cell stays, with its number and with the response that it holds. -/
theorem Leads.holds (leads : start.Leads concourse) (onRecord : start.IsOnRecord) {id : CellId}
    {cell : Cell} (found : start.cells[id]? = some cell) :
    ∃ later, concourse.cells[id]? = some later ∧ later.sequence = cell.sequence
      ∧ ∀ value, cell.value = some value → later.value = some value := by
  induction leads with
  | here => exact ⟨cell, found, rfl, fun _ same => same⟩
  | @move middle next leads move inductionHypothesis =>
    obtain ⟨before, search, sequence_eq, held⟩ := inductionHypothesis
    have kept := leads.isOnRecord onRecord
    obtain ⟨done, -, change⟩ := move.change kept.balanced kept.grounded
    obtain ⟨later, foundLater, same, stays⟩ := change.keeps search
    exact ⟨later, foundLater, same.trans sequence_eq, fun value known => stays value (held value known)⟩

/-- Only attempts that succeed wake tasks. -/
theorem Leads.woken_eq (leads : (opening world).Leads concourse) :
    ∀ deed ∈ concourse.deeds, deed.woken = (deed.attempt?.map Attempt.wakers).getD [] := by
  induction leads with
  | here => exact fun deed member => by cases member
  | @move middle next leads move inductionHypothesis =>
    have more : ∀ deed : Deed κ, next.deeds = middle.deeds ++ [deed] →
        deed.woken = (deed.attempt?.map Attempt.wakers).getD [] →
        ∀ deed ∈ next.deeds, deed.woken = (deed.attempt?.map Attempt.wakers).getD [] := by
      intro deed deeds_eq same other member
      rw [deeds_eq] at member
      rcases List.mem_append.mp member with old | new
      · exact inductionHypothesis other old
      · rw [List.mem_singleton.mp new]
        exact same
    cases move with
    | proceed front back client phase turn world split made =>
      obtain ⟨actor, found, rfl, rfl⟩ := World.step?_eq_some made
      exact more _ rfl ((actor.exit_step middle.world.environment phase).woken_eq client
        actor.service)
    | make | poll | resolve | refuse | notify => exact more _ rfl rfl
    | _ => exact inductionHypothesis

end Concourse

end Correlator
