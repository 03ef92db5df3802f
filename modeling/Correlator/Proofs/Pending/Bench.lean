import Correlator.Pending.Bench
import Correlator.Proofs.Concourse.Cell

/-!
Contract: pending requests handled one by one, as concourses without clients.

Owns: that whatever is done with the entries at hand is done by moves of a concourse with the same cells, entries,
table and completed requests.

Does not own: what holds in a concourse (`Correlator.Proofs.Concourse.Assignment`).
-/

set_option autoImplicit false

namespace Correlator.Pending.Bench

variable {bench next : Bench} {concourse : Concourse Nat} {action : Action} {outcome : Outcome}

/-- What is in the slot that is emptied leaves what there is in all slots. -/
private theorem perm_of_emptied {α : Type} {slots : List (Option α)} {slot : Nat} {held : α}
    (found : slots[slot]?.join = some held) :
    (slots.filterMap id).Perm (held :: (slots.set slot none).filterMap id) := by
  induction slots generalizing slot with
  | nil => cases found
  | cons first rest inductionHypothesis =>
    cases slot with
    | zero =>
      cases first with
      | none => cases found
      | some known =>
        cases found
        exact .refl _
    | succ slot =>
      have later := @inductionHypothesis slot found
      cases first with
      | none => exact later
      | some known => exact (later.cons known).trans (.swap held known _)

/-- What is listed up to its order can be taken out. -/
private theorem exists_split_of_perm {α : Type} {listed rest : List α} {held : α}
    (perm : listed.Perm (held :: rest)) :
    ∃ front back, listed = front ++ held :: back ∧ (front ++ back).Perm rest := by
  obtain ⟨front, back, rfl⟩ := List.append_of_mem (perm.symm.subset List.mem_cons_self)
  exact ⟨front, back, rfl, (List.perm_middle.symm.trans perm).cons_inv⟩

private theorem perm_concat {α : Type} {listed : List α} {held : List (Option α)}
    (perm : listed.Perm (held.filterMap id)) (new : α) :
    (new :: listed).Perm ((held ++ [some new]).filterMap id) := by
  rw [List.filterMap_append]
  exact (perm.cons new).trans (List.perm_append_singleton new _).symm

private theorem length_of_resolve {cells after : Cells} {future : Future} {value : Response}
    {wakers : List Waker} (fills : cells.resolve future value = .ok (wakers, after)) :
    after.length = cells.length := by
  unfold Cells.resolve at fills
  dsimp only at fills
  split at fills
  · cases fills
    exact List.length_set
  · cases fills

/-- A concourse with one table has the same cells, entries, rows and completed requests as a bench. -/
structure Matches (bench : Bench) (concourse : Concourse Nat) : Prop where
  cells : concourse.cells = bench.cells
  entries : concourse.entries.Perm (bench.slots.filterMap id)
  tables : concourse.tables = [bench.table]
  completed : concourse.completed.Perm (bench.completed.filterMap id)
  known : ∀ future ∈ bench.futures, future.cell < bench.cells.length

namespace Matches

/-- An entry is made for a future with a cell. -/
private theorem enter (matched : bench.Matches concourse) {future : Future}
    (known : future.cell < bench.cells.length) (submittedAt : Moment) (hasCallback : Bool) :
    ∃ later, concourse.Leads later
      ∧ (bench.enter future submittedAt hasCallback).2.Matches later := by
  have below : future.cell < concourse.cells.length := matched.cells ▸ known
  exact ⟨_, .move .here (.make ⟨future, _, submittedAt⟩ below), matched.cells,
    perm_concat matched.entries _, matched.tables, matched.completed, matched.known⟩

/-- Rows of the table are dropped. -/
private theorem thin (matched : bench.Matches concourse) (stays : Sequence × Entry Nat → Bool) :
    ∃ later, concourse.Leads later
      ∧ Matches { bench with table := ⟨bench.table.rows.filter stays⟩ } later := by
  refine ⟨_, .move .here (.thin [] [] bench.table stays matched.tables), ?_⟩
  exact ⟨matched.cells, matched.entries, rfl, matched.completed, matched.known⟩

private theorem insert (matched : bench.Matches concourse) {slot : Nat} {entry : Entry Nat}
    (held : bench.entry? slot = some entry) {table : Table Nat}
    (inserted : bench.table.insert? entry = some table) :
    ∃ later, concourse.Leads later ∧ Matches { bench.emptySlot slot with table } later := by
  obtain ⟨front, back, entries_eq, rest⟩ :=
    exists_split_of_perm (matched.entries.trans (perm_of_emptied held))
  refine ⟨_, .move .here (.insert front back [] [] entry bench.table table entries_eq
    matched.tables inserted), ?_⟩
  exact ⟨matched.cells, rest, rfl, matched.completed, matched.known⟩

private theorem remove (matched : bench.Matches concourse) {sequence : Sequence}
    {entry : Entry Nat} {table : Table Nat}
    (removed : bench.table.remove? sequence = some (entry, table)) :
    ∃ later, concourse.Leads later ∧ Matches { bench.lay entry with table } later := by
  refine ⟨_, .move .here (.take [] [] sequence entry bench.table table matched.tables removed), ?_⟩
  exact ⟨matched.cells, perm_concat matched.entries entry, rfl, matched.completed, matched.known⟩

private theorem resolve (matched : bench.Matches concourse) {slot : Nat} {entry : Entry Nat}
    (held : bench.entry? slot = some entry) {value : Response} {wakers : List Waker}
    {completed : Completed Nat} {cells : Cells}
    (filled : entry.resolve bench.cells value = .ok (wakers, completed, cells)) :
    ∃ later, concourse.Leads later
      ∧ Matches { bench.emptySlot slot with
          cells, completed := bench.completed ++ [some completed] } later := by
  obtain ⟨front, back, entries_eq, rest⟩ :=
    exists_split_of_perm (matched.entries.trans (perm_of_emptied held))
  have fills : entry.resolve concourse.cells value = .ok (wakers, completed, cells) :=
    matched.cells ▸ filled
  refine ⟨_, .move .here (.resolve front back entry value wakers completed cells entries_eq fills),
    rfl, rest, matched.tables, perm_concat matched.completed completed, fun future member => ?_⟩
  have below := matched.known future member
  unfold Entry.resolve at filled
  split at filled
  next stored =>
    cases filled
    exact Nat.lt_of_lt_of_eq below (length_of_resolve stored).symm
  next => cases filled

private theorem refuse (matched : bench.Matches concourse) {slot : Nat} {entry : Entry Nat}
    (held : bench.entry? slot = some entry) {value : Response} {error : ClientError}
    (refused : entry.resolve bench.cells value = .error error) :
    ∃ later, concourse.Leads later ∧ (bench.emptySlot slot).Matches later := by
  obtain ⟨front, back, entries_eq, rest⟩ :=
    exists_split_of_perm (matched.entries.trans (perm_of_emptied held))
  have refuses : entry.resolve concourse.cells value = .error error := matched.cells ▸ refused
  refine ⟨_, .move .here (.refuse front back entry value error entries_eq refuses), ?_⟩
  exact ⟨matched.cells, rest, matched.tables, matched.completed, matched.known⟩

/-- Whatever is done, a concourse does it too. -/
theorem act (matched : bench.Matches concourse) (acted : bench.act? action = some (outcome, next)) :
    ∃ later, concourse.Leads later ∧ next.Matches later := by
  cases action with
  | enter sequence submittedAt hasCallback =>
    cases acted
    have made : concourse.Leads _ := .move .here (.fresh sequence)
    have longer : (bench.cells.fresh sequence).2.length = bench.cells.length + 1 :=
      List.length_append
    have below : (bench.cells.fresh sequence).1.cell < (bench.cells.fresh sequence).2.length :=
      Nat.lt_of_lt_of_eq (Nat.lt_succ_self _) longer.symm
    have furnished : Matches
        { bench with
          cells := (bench.cells.fresh sequence).2
          futures := bench.futures ++ [(bench.cells.fresh sequence).1] }
        (concourse.withCells (concourse.cells.fresh sequence).2) := by
      refine ⟨congrArg (fun cells => (Cells.fresh cells sequence).2) matched.cells, matched.entries,
        matched.tables, matched.completed, fun future member => ?_⟩
      rcases List.mem_append.mp member with old | new
      · exact Nat.lt_of_lt_of_eq (Nat.lt_succ_of_lt (matched.known future old)) longer.symm
      · exact List.mem_singleton.mp new ▸ below
    obtain ⟨later, leads, onward⟩ := furnished.enter below submittedAt hasCallback
    exact ⟨later, made.trans leads, onward⟩
  | enterAgain future submittedAt hasCallback =>
    obtain ⟨known, found, same⟩ := Option.map_eq_some_iff.mp acted
    cases same
    exact matched.enter (matched.known known (List.mem_of_getElem? found)) submittedAt hasCallback
  | insert slot =>
    obtain ⟨entry, held, same⟩ := Option.map_eq_some_iff.mp acted
    split at same
    next table inserted =>
      cases same
      exact matched.insert held inserted
    next =>
      cases same
      exact ⟨concourse, .here, matched⟩
  | remove sequence =>
    unfold act? at acted
    dsimp only at acted
    split at acted
    next entry table removed =>
      cases acted
      exact matched.remove removed
    next =>
      cases acted
      exact ⟨concourse, .here, matched⟩
  | clear =>
    cases acted
    obtain ⟨later, leads, onward⟩ := matched.thin fun _ => false
    rw [List.filter_false] at onward
    exact ⟨later, leads, onward⟩
  | removeBefore cutoff =>
    cases acted
    exact matched.thin _
  | resolve slot value =>
    obtain ⟨entry, held, same⟩ := Option.map_eq_some_iff.mp acted
    dsimp only at same
    split at same
    next wakers completed cells filled =>
      cases same
      exact matched.resolve held filled
    next error refused =>
      cases same
      exact matched.refuse held refused
  | notify index =>
    obtain ⟨completed, held, same⟩ := Option.map_eq_some_iff.mp acted
    cases same
    obtain ⟨front, back, completed_eq, rest⟩ :=
      exists_split_of_perm (matched.completed.trans (perm_of_emptied held))
    refine ⟨_, .move .here (.notify front back completed completed_eq), ?_⟩
    exact ⟨matched.cells, matched.entries, matched.tables, rest, matched.known⟩

end Matches

/-- Does one thing after the other. -/
def acts? (bench : Bench) (actions : List Action) : Option Bench :=
  actions.foldlM (fun bench action => (bench.act? action).map Prod.snd) bench

theorem Matches.acts (matched : bench.Matches concourse) {actions : List Action}
    (acted : bench.acts? actions = some next) :
    ∃ later, concourse.Leads later ∧ next.Matches later := by
  unfold acts? at acted
  induction actions generalizing bench concourse with
  | nil =>
    cases acted
    exact ⟨concourse, .here, matched⟩
  | cons action rest inductionHypothesis =>
    rw [List.foldlM_cons] at acted
    obtain ⟨middle, first, acted⟩ := Option.bind_eq_some_iff.mp acted
    obtain ⟨⟨outcome, known⟩, made, rfl⟩ := Option.map_eq_some_iff.mp first
    obtain ⟨between, led, matched⟩ := matched.act made
    obtain ⟨later, leads, onward⟩ := inductionHypothesis matched acted
    exact ⟨later, led.trans leads, onward⟩

/-- Whatever is done with entries, one thing after the other, a concourse without clients does it too. -/
theorem matched_of_acts {actions : List Action} (acted : acts? {} actions = some bench) :
    ∃ concourse, (Concourse.opening ({} : World Nat)).Leads concourse ∧ bench.Matches concourse := by
  have furnished : Matches {} { Concourse.opening ({} : World Nat) with tables := [] ++ [.empty] } :=
    ⟨rfl, .refl _, rfl, .refl _, fun future member => by cases member⟩
  obtain ⟨concourse, leads, matched⟩ := furnished.acts acted
  have furnish : (Concourse.opening ({} : World Nat)).Leads _ := .move .here .furnish
  exact ⟨concourse, furnish.trans leads, matched⟩

/-- Each cell has lived through attempts to complete its request, of which the first alone succeeds. -/
theorem cells_traced_of_acts {actions : List Action} (acted : acts? {} actions = some bench) :
    ∃ record, bench.cells.Traced record := by
  obtain ⟨concourse, leads, matched⟩ := matched_of_acts acted
  have fresh : ({} : World Nat).IsFresh := fun client member => by cases member
  have traced := (leads.isOnRecord (Concourse.isOnRecord_opening fresh rfl)).traced
  rw [matched.cells] at traced
  exact ⟨concourse.record, traced⟩

end Correlator.Pending.Bench
