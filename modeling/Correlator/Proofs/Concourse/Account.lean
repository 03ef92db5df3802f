import Correlator.Proofs.Concourse.Basic

/-!
Contract: the accounts of entries and of callbacks in a concourse.

Owns: that each attempt uses up an entry, so that there are never more attempts than entries that were made; and
that each callback that runs was set free by an attempt that succeeded, and runs once for it.

Does not own: which attempts succeed (`Correlator.Proofs.Concourse.Cell`).
-/

set_option autoImplicit false

namespace Correlator

namespace Concourse

variable {κ : Type} {concourse next : Concourse κ}

/-! ### Entries -/

/-- The futures of all entries there are, in the clients' tables and outside of them. -/
def stock (concourse : Concourse κ) : List Future :=
  (concourse.world.clients.flatMap fun client => client.table.rows.map (·.2.future))
    ++ concourse.entries.map (·.future)
    ++ concourse.tables.flatMap fun table => table.rows.map (·.2.future)

/-- The futures of all entries that were ever made. -/
def made (concourse : Concourse κ) : List Future := concourse.deeds.flatMap Deed.makes

/-- The futures of all entries that were used up by attempts. -/
def spent (concourse : Concourse κ) : List Future := concourse.deeds.flatMap Deed.spends

/-- For any futures, the entries there are and those that were used up come to no more than were made. -/
def IsBalanced (concourse : Concourse κ) : Prop :=
  ∀ chosen : Future → Bool,
    concourse.stock.countP chosen + concourse.spent.countP chosen ≤ concourse.made.countP chosen

theorem countP_stock (concourse : Concourse κ) (chosen : Future → Bool) :
    concourse.stock.countP chosen
      = (concourse.world.clients.flatMap fun client => client.table.rows.map (·.2.future)).countP chosen
        + concourse.entries.countP (fun entry => chosen entry.future)
        + (concourse.tables.flatMap fun table => table.rows.map (·.2.future)).countP chosen := by
  unfold stock
  rw [List.countP_append, List.countP_append, List.countP_map]
  rfl

private theorem countP_futures (table : Pending.Table κ) (chosen : Future → Bool) :
    (table.rows.map (·.2.future)).countP chosen = table.count fun row => chosen row.2.future := by
  rw [List.countP_map]
  rfl

/-- What the replacement of one part makes of a count over all parts. -/
private theorem countP_flatMap_set {α β : Type} {parts : List α} {index : Nat} {old : α}
    (found : parts[index]? = some old) (new : α) (listed : α → List β) (chosen : β → Bool) :
    ((parts.set index new).flatMap listed).countP chosen + (listed old).countP chosen
      = (parts.flatMap listed).countP chosen + (listed new).countP chosen := by
  induction parts generalizing index with
  | nil => simp at found
  | cons first rest inductionHypothesis =>
    cases index with
    | zero =>
      cases found
      simp only [List.set_cons_zero, List.flatMap_cons, List.countP_append]
      omega
    | succ index =>
      have later := @inductionHypothesis index (by simpa using found)
      simp only [List.set_cons_succ, List.flatMap_cons, List.countP_append]
      omega

/-- A move makes entries, and uses up entries, as what is done by it says. -/
theorem Move.stock_le (move : Move concourse next) :
    ∃ done, next.deeds = concourse.deeds ++ done ∧ ∀ chosen : Future → Bool,
      next.stock.countP chosen + (done.flatMap Deed.spends).countP chosen
        ≤ concourse.stock.countP chosen + (done.flatMap Deed.makes).countP chosen := by
  have silent : ∀ other : Concourse κ, other.deeds = concourse.deeds →
      (∀ chosen : Future → Bool, other.stock.countP chosen ≤ concourse.stock.countP chosen) →
      ∃ done, other.deeds = concourse.deeds ++ done ∧ ∀ chosen : Future → Bool,
        other.stock.countP chosen + (done.flatMap Deed.spends).countP chosen
          ≤ concourse.stock.countP chosen + (done.flatMap Deed.makes).countP chosen :=
    fun other deeds_eq fewer => ⟨[], deeds_eq.trans (List.append_nil _).symm, fewer⟩
  cases move with
  | proceed front back client phase turn world split made =>
    obtain ⟨actor, found, rfl, rfl⟩ := World.step?_eq_some made
    refine ⟨[.turned _], rfl, fun chosen => ?_⟩
    have rows := (actor.exit_step concourse.world.environment phase).rows_le client actor.service
      chosen
    have parts := countP_flatMap_set found (actor.step concourse.world.environment phase).client
      (fun client => client.table.rows.map (·.2.future)) chosen
    rw [countP_futures, countP_futures] at parts
    rw [countP_stock, countP_stock, List.flatMap_singleton, List.flatMap_singleton]
    simp only [did, Deed.spends, Deed.attempt?, Deed.makes]
    omega
  | make entry known =>
    refine ⟨[.made entry], rfl, fun chosen => ?_⟩
    rw [countP_stock, countP_stock, List.flatMap_singleton, List.flatMap_singleton]
    simp only [did, Deed.spends, Deed.attempt?, Deed.makes, Option.map_none, Option.toList_none,
      List.countP_nil, List.countP_cons]
    omega
  | furnish =>
    refine silent _ rfl fun chosen => ?_
    rw [countP_stock, countP_stock]
    simp [Pending.Table.empty]
  | insert front back before after entry table grown entries_eq tables_eq inserted =>
    refine silent _ rfl fun chosen => ?_
    have rows := Pending.Table.count_insert? inserted fun row => chosen row.2.future
    dsimp only at rows
    rw [countP_stock, countP_stock, entries_eq, tables_eq]
    simp only [List.flatMap_append, List.flatMap_cons, List.countP_append, List.countP_cons,
      countP_futures]
    omega
  | take before after sequence entry table rest tables_eq removed =>
    refine silent _ rfl fun chosen => ?_
    obtain ⟨found, rfl⟩ := Pending.Table.remove?_eq_some removed
    have rows := Pending.Table.count_erase_le found fun row => chosen row.2.future
    dsimp only at rows
    rw [countP_stock, countP_stock, tables_eq]
    simp only [List.flatMap_append, List.flatMap_cons, List.countP_append, List.countP_cons,
      countP_futures]
    omega
  | thin before after table stays tables_eq =>
    refine silent _ rfl fun chosen => ?_
    have rows : ((table.rows.filter stays).map (·.2.future)).countP chosen
        ≤ (table.rows.map (·.2.future)).countP chosen :=
      (List.filter_sublist.map _).countP_le
    rw [countP_stock, countP_stock, tables_eq]
    simp only [List.flatMap_append, List.flatMap_cons, List.countP_append]
    omega
  | discard front back entry entries_eq =>
    refine silent _ rfl fun chosen => ?_
    rw [countP_stock, countP_stock, entries_eq]
    simp only [List.countP_append, List.countP_cons]
    omega
  | resolve front back entry value wakers completed cells entries_eq filled =>
    refine ⟨[.attempted _], rfl, fun chosen => ?_⟩
    rw [countP_stock, countP_stock, entries_eq, List.flatMap_singleton, List.flatMap_singleton]
    simp only [did, withCells, Deed.spends, Deed.attempt?, Deed.makes, Option.map_some,
      Option.toList_some, List.countP_nil, List.countP_cons, List.countP_append]
    omega
  | refuse front back entry value error entries_eq refused =>
    refine ⟨[.attempted _], rfl, fun chosen => ?_⟩
    rw [countP_stock, countP_stock, entries_eq, List.flatMap_singleton, List.flatMap_singleton]
    simp only [did, Deed.spends, Deed.attempt?, Deed.makes, Option.map_some,
      Option.toList_some, List.countP_nil, List.countP_cons, List.countP_append]
    omega
  | notify front back completed completed_eq =>
    exact ⟨[.notified completed], rfl, fun chosen => Nat.le_refl _⟩
  | poll future waker known => exact ⟨[.polled _ _ _], rfl, fun chosen => Nat.le_refl _⟩
  | _ => exact silent _ rfl fun chosen => Nat.le_refl _

/-- Each attempt used up an entry that had been made. -/
theorem Move.isBalanced (move : Move concourse next) (balanced : concourse.IsBalanced) :
    next.IsBalanced := by
  intro chosen
  obtain ⟨done, deeds_eq, stock_le⟩ := move.stock_le
  have account := balanced chosen
  have change := stock_le chosen
  unfold made spent at account ⊢
  rw [deeds_eq, List.flatMap_append, List.flatMap_append, List.countP_append, List.countP_append]
  omega

/-! ### Callbacks -/

/-- The callbacks that ran, each with its future. -/
def ran (concourse : Concourse κ) : List (Future × κ) :=
  concourse.deeds.flatMap fun deed => deed.call?.toList

/-- The callbacks that attempts left to be run. -/
def freed (concourse : Concourse κ) : List (Future × κ) :=
  concourse.deeds.flatMap fun deed => deed.frees?.toList

/-- The callbacks that have yet to run. -/
def due (concourse : Concourse κ) : List (Future × κ) :=
  (concourse.underway.flatMap fun operation => operation.2.due?.toList)
    ++ concourse.completed.flatMap fun completed => completed.call?.toList

/-- A callback that runs was due, and one that comes due was left to be run by an attempt that succeeded. -/
theorem Move.due_le (move : Move concourse next) :
    ∃ done, next.deeds = concourse.deeds ++ done ∧ ∀ chosen : Future × κ → Bool,
      (done.flatMap fun deed => deed.call?.toList).countP chosen + next.due.countP chosen
        ≤ concourse.due.countP chosen
          + (done.flatMap fun deed => deed.frees?.toList).countP chosen := by
  have silent : ∀ other : Concourse κ, other.deeds = concourse.deeds →
      (∀ chosen : Future × κ → Bool, other.due.countP chosen ≤ concourse.due.countP chosen) →
      ∃ done, other.deeds = concourse.deeds ++ done ∧ ∀ chosen : Future × κ → Bool,
        (done.flatMap fun deed => deed.call?.toList).countP chosen + other.due.countP chosen
          ≤ concourse.due.countP chosen
            + (done.flatMap fun deed => deed.frees?.toList).countP chosen :=
    fun other deeds_eq fewer =>
      ⟨[], deeds_eq.trans (List.append_nil _).symm, fun chosen => by simpa using fewer chosen⟩
  cases move with
  | enter client phase opening =>
    refine silent _ rfl fun chosen => ?_
    have nothing := Phase.due?_eq_none (Phase.not_completing_of_opening opening)
    unfold due
    simp [nothing]
  | proceed front back client phase turn world split made =>
    obtain ⟨actor, found, rfl, rfl⟩ := World.step?_eq_some made
    refine ⟨[.turned _], rfl, fun chosen => ?_⟩
    have calls := congrArg (List.countP chosen)
      ((actor.exit_step concourse.world.environment phase).calls_eq client actor.service)
    have resumed : ∀ later : Option (Phase κ),
        ((later.map fun phase => (client, phase)).toList.flatMap fun operation =>
          operation.2.due?.toList) = (later.bind Phase.due?).toList := by
      intro later
      cases later with
      | none => rfl
      | some phase => exact List.flatMap_singleton _ _
    rw [List.countP_append, List.countP_append] at calls
    rw [List.flatMap_singleton, List.flatMap_singleton]
    unfold due
    rw [split]
    simp only [did, List.flatMap_append, List.flatMap_cons, List.countP_append, resumed, Deed.call?,
      Deed.frees?, Deed.attempt?]
    omega
  | abandon front back client phase split =>
    refine silent _ rfl fun chosen => ?_
    unfold due
    rw [split]
    simp only [List.flatMap_append, List.flatMap_cons, List.countP_append]
    omega
  | resolve front back entry value wakers completed cells entries_eq filled =>
    refine ⟨[.attempted _], rfl, fun chosen => ?_⟩
    have own : completed.future = entry.future := by
      unfold Pending.Entry.resolve at filled
      split at filled
      · cases filled
        rfl
      · cases filled
    have freed : (Deed.attempted ⟨entry.future, value, .ok (wakers, completed.callback)⟩).frees?
        = completed.call? := by
      rw [← own]
      rfl
    rw [List.flatMap_singleton, List.flatMap_singleton, freed]
    unfold due
    simp only [did, withCells, List.flatMap_cons, List.countP_append, Deed.call?,
      Option.toList_none, List.countP_nil]
    omega
  | refuse front back entry value error entries_eq refused =>
    exact ⟨[.attempted _], rfl, fun chosen => Nat.le_of_eq (Nat.add_comm _ _)⟩
  | notify front back completed completed_eq =>
    refine ⟨[.notified completed], rfl, fun chosen => ?_⟩
    rw [List.flatMap_singleton, List.flatMap_singleton]
    unfold due
    rw [completed_eq]
    simp only [did, List.flatMap_append, List.flatMap_cons, List.countP_append, Deed.call?]
    omega
  | forget front back completed completed_eq =>
    refine silent _ rfl fun chosen => ?_
    unfold due
    rw [completed_eq]
    simp only [List.flatMap_append, List.flatMap_cons, List.countP_append]
    omega
  | make entry known => exact ⟨[.made entry], rfl, fun chosen => Nat.le_of_eq (Nat.add_comm _ _)⟩
  | poll future waker known =>
    exact ⟨[.polled _ _ _], rfl, fun chosen => Nat.le_of_eq (Nat.add_comm _ _)⟩
  | _ => exact silent _ rfl fun chosen => Nat.le_refl _

/-- What ran and what is due was left to be run, once for each time. -/
theorem Leads.ran_le {world : World κ} (leads : (opening world).Leads concourse)
    (chosen : Future × κ → Bool) :
    concourse.ran.countP chosen + concourse.due.countP chosen ≤ concourse.freed.countP chosen := by
  induction leads with
  | here => exact Nat.le_refl _
  | move _ move inductionHypothesis =>
    obtain ⟨done, deeds_eq, due_le⟩ := move.due_le
    have change := due_le chosen
    unfold ran freed at inductionHypothesis ⊢
    rw [deeds_eq, List.flatMap_append, List.flatMap_append, List.countP_append, List.countP_append]
    omega

end Concourse

end Correlator
