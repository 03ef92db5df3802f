import Correlator.Proofs.Client.Exit

/-!
Contract: clients some of whose pending requests have lost their callbacks.

Owns: that such a client makes the same steps, as long as it completes none of these requests.

Does not own: the running of callbacks (`Correlator.Session.Machine`).
-/

set_option autoImplicit false

namespace Correlator

variable {κ : Type} (muted : Future → Bool)

namespace Pending

/-- An entry without its callback, if its future is muted. -/
def Entry.mute (entry : Entry κ) : Entry κ :=
  { entry with callback := if muted entry.future then none else entry.callback }

theorem Entry.mute_of_not_muted {muted : Future → Bool} {entry : Entry κ}
    (heard : muted entry.future = false) : entry.mute muted = entry := by
  unfold mute
  rw [heard]
  rfl

namespace Table

def mute (table : Table κ) : Table κ := ⟨table.rows.map fun row => (row.1, row.2.mute muted)⟩

variable (table : Table κ) (sequence : Sequence)

@[simp] theorem size_mute : (table.mute muted).size = table.size := List.length_map _

@[simp] theorem sequences_mute : (table.mute muted).sequences = table.sequences := by
  unfold sequences mute
  rw [List.map_map]
  rfl

@[simp] theorem find?_mute :
    (table.mute muted).find? sequence = (table.find? sequence).map (Entry.mute muted) := by
  unfold find? mute
  rw [List.find?_map, Option.map_map, Option.map_map]
  rfl

@[simp] theorem contains_mute : (table.mute muted).contains sequence = table.contains sequence := by
  unfold contains
  rw [find?_mute, Option.isSome_map]

@[simp] theorem describe_mute : (table.mute muted).describe = table.describe := by
  unfold describe
  rw [sequences_mute]

theorem erase_mute : (table.mute muted).erase sequence = (table.erase sequence).mute muted := by
  unfold erase mute
  rw [List.filter_map]
  rfl

theorem since_mute (cutoff : Moment) :
    (table.mute muted).since cutoff = (table.since cutoff).mute muted := by
  unfold since mute
  rw [List.filter_map]
  rfl

theorem remove?_mute : (table.mute muted).remove? sequence
    = (table.remove? sequence).map fun removed => (removed.1.mute muted, removed.2.mute muted) := by
  unfold remove?
  rw [find?_mute, erase_mute, Option.map_map, Option.map_map]
  rfl

theorem mute_eq_self {muted : Future → Bool} {table : Table κ}
    (heard : ∀ row ∈ table.rows, muted row.2.future = false) : table.mute muted = table := by
  have same : ∀ row ∈ table.rows, (row.1, row.2.mute muted) = row := by
    intro row member
    rw [Entry.mute_of_not_muted (heard row member)]
  exact congrArg Table.mk ((List.map_congr_left same).trans (List.map_id' _))

variable {table} in
theorem Filed.mute (filed : table.Filed) : (table.mute muted).Filed where
  ascending := List.pairwise_map.mpr filed.ascending
  own := by
    intro row member
    obtain ⟨original, inside, rfl⟩ := List.mem_map.mp member
    exact filed.own original inside

private theorem place_mute (entry : Entry κ) (rows : List (Sequence × Entry κ)) :
    place sequence (entry.mute muted) (rows.map fun row => (row.1, row.2.mute muted))
      = (place sequence entry rows).map fun row => (row.1, row.2.mute muted) := by
  induction rows with
  | nil => rfl
  | cons row rows inductionHypothesis =>
    by_cases before : sequence < row.1
    · simp [place, before]
    · simp [place, before, inductionHypothesis]

theorem insert?_mute (entry : Entry κ) : (table.mute muted).insert? (entry.mute muted)
    = (table.insert? entry).map (Table.mute muted) := by
  unfold insert?
  rw [show (entry.mute muted).sequence = entry.sequence from rfl, contains_mute]
  by_cases taken : table.contains entry.sequence
  · rw [if_pos taken, if_pos taken]
    rfl
  · rw [if_neg taken, if_neg taken]
    exact congrArg (fun rows => some (⟨rows⟩ : Table κ)) (place_mute muted _ entry table.rows)

end Table

end Pending

namespace Client

def mute (client : Client κ) : Client κ := { client with table := client.table.mute muted }

variable (client : Client κ)

@[simp] theorem mute_table : (client.mute muted).table = client.table.mute muted := rfl

@[simp] theorem mute_service : (client.mute muted).service = client.service := rfl

@[simp] theorem mute_options : (client.mute muted).options = client.options := rfl

@[simp] theorem mute_transport : (client.mute muted).transport = client.transport := rfl

@[simp] theorem mute_host : (client.mute muted).host = client.host := rfl

@[simp] theorem mute_clock : (client.mute muted).clock = client.clock := rfl

@[simp] theorem mute_disposed : (client.mute muted).disposed = client.disposed := rfl

@[simp] theorem pendingCount_mute : (client.mute muted).pendingCount = client.pendingCount :=
  client.table.size_mute muted

@[simp] theorem reached?_mute : (client.mute muted).reached? = client.reached? := by
  unfold reached?
  rw [pendingCount_mute, mute_options]

@[simp] theorem describe_mute : (client.mute muted).describe = client.describe := by
  unfold describe
  rw [mute_table, Pending.Table.describe_mute, mute_service, mute_disposed]

variable {client} in
theorem mute_eq_self {muted : Future → Bool}
    (heard : ∀ row ∈ client.table.rows, muted row.2.future = false) : client.mute muted = client := by
  unfold mute
  rw [Pending.Table.mute_eq_self heard]

end Client

/-- The step of a client some of whose callbacks are muted. -/
def Step.mute (step : Step κ) : Step κ := { step with client := step.client.mute muted }

namespace Client

/-- A step neither completes a request whose future is muted nor submits one. A client that is disposed
of completes none. -/
def Heeds (client : Client κ) (environment : Environment) : Phase κ → Prop
  | .submit _ _ => ∀ sequence, muted (environment.cells.fresh sequence).1 = false
  | .complete sequence _ => client.disposed = false →
    ∀ entry, client.table.find? sequence = some entry → muted entry.future = false
  | _ => True

variable {muted} {client : Client κ} {environment : Environment}

theorem whileLive_mute {body silent : Step κ}
    (same : client.disposed = false → silent = body.mute muted) :
    (client.mute muted).whileLive environment silent
      = (client.whileLive environment body).mute muted := by
  unfold whileLive
  rw [mute_disposed]
  by_cases disposed : client.disposed = true
  · rw [if_pos disposed, if_pos disposed]
    rfl
  · rw [if_neg disposed, if_neg disposed]
    rw [same (eq_false_of_ne_true disposed)]
    rfl

/-- A request that comes without its callback makes the same step as the request with it. -/
theorem submit_mute (request : Request) {callback silent : Option κ}
    (same : ∀ sequence, silent
      = if muted (environment.cells.fresh sequence).1 then none else callback) :
    (client.mute muted).submit environment request silent
      = (client.submit environment request callback).mute muted := by
  unfold submit
  rw [reached?_mute, mute_transport, mute_clock, mute_table]
  cases client.reached? with
  | some limit => rfl
  | none =>
    rcases (environment.transport client.transport).send request with
      ⟨failure | number, transport⟩
    · rfl
    dsimp only
    cases read : (environment.setTransport client.transport transport).readClock client.clock with
    | mk reading later =>
      cases reading with
      | none => rfl
      | some now =>
        dsimp only
        rw [Environment.cells_eq_of_readClock read, Environment.setTransport_cells]
        have entry_eq : (⟨(environment.cells.fresh number).1, silent, now⟩ : Pending.Entry κ)
            = Pending.Entry.mute muted ⟨(environment.cells.fresh number).1, callback, now⟩ := by
          rw [same number]
          rfl
        rw [entry_eq, Pending.Table.insert?_mute]
        cases client.table.insert? ⟨(environment.cells.fresh number).1, callback, now⟩ with
        | none => rfl
        | some table =>
          dsimp only [Option.map_some]
          rw [Pending.Table.size_mute]
          rfl

private theorem complete_mute {sequence : Sequence} (response : Response)
    (heard : ∀ entry, client.table.find? sequence = some entry → muted entry.future = false) :
    (client.mute muted).complete environment sequence response
      = (client.complete environment sequence response).mute muted := by
  unfold complete
  rw [mute_table, Pending.Table.remove?_mute]
  cases removed : client.table.remove? sequence with
  | none => rfl
  | some pair =>
    obtain ⟨entry, table⟩ := pair
    obtain ⟨found, -⟩ := Pending.Table.remove?_eq_some removed
    rw [Option.map_some, Pending.Entry.mute_of_not_muted (heard entry found)]
    dsimp only
    cases entry.resolve environment.cells response with
    | error error => rfl
    | ok resolved => rfl

private theorem cancel_mute (future : Future) :
    (client.mute muted).cancel environment future
      = (client.cancel environment future).mute muted := by
  unfold cancel
  rw [mute_table, Pending.Table.remove?_mute]
  cases client.table.remove? future.sequence with
  | none => rfl
  | some pair => rfl

private theorem pruned_mute (scope : PruneScope) (dropped : List (Sequence × Pending.Entry κ))
    (removed : Nat) (table : Pending.Table κ) :
    (client.mute muted).pruned environment scope
        (dropped.map fun row => (row.1, row.2.mute muted)) removed (table.mute muted)
      = (client.pruned environment scope dropped removed table).mute muted := by
  unfold pruned
  rw [List.map_map]
  by_cases none : removed = 0
  · rw [if_pos none, if_pos none]
    rfl
  · rw [if_neg none, if_neg none]
    rfl

private theorem pruneAll_mute : (client.mute muted).pruneAll environment
    = (client.pruneAll environment).mute muted :=
  (congrArg (fun removed => (client.mute muted).pruned environment .all
    (client.mute muted).table.rows removed .empty) (client.table.size_mute muted)).trans
    (pruned_mute .all client.table.rows client.table.size .empty)

private theorem pruneOlder_mute (cutoff : Moment) :
    (client.mute muted).pruneOlder environment cutoff
      = (client.pruneOlder environment cutoff).mute muted := by
  unfold pruneOlder Pending.Table.removeBefore
  rw [mute_table, Pending.Table.since_mute, Pending.Table.size_mute, Pending.Table.size_mute]
  dsimp only
  rw [← pruned_mute]
  unfold Pending.Table.mute
  rw [List.filter_map]
  rfl

private theorem pruneStale_mute : (client.mute muted).pruneStale environment
    = (client.pruneStale environment).mute muted := by
  unfold pruneStale
  rw [mute_options, mute_clock]
  cases client.options.staleAfter with
  | none => exact whileLive_mute fun _ => rfl
  | some threshold => rcases environment.readClock client.clock with ⟨now | now, timed⟩ <;> rfl

private theorem dispose_mute : (client.mute muted).dispose environment
    = (client.dispose environment).mute muted := by
  unfold dispose
  rw [pendingCount_mute]
  rfl

private theorem deregister_mute (orphaned : Nat) :
    (client.mute muted).deregister environment orphaned
      = (client.deregister environment orphaned).mute muted := by
  unfold deregister
  rw [mute_host]
  by_cases valid : (environment.host client.host).isValid = true
  · rw [if_pos valid, if_pos valid]
    rfl
  · rw [if_neg valid, if_neg valid]
    rfl

private theorem waitBegin_mute (timeout : Option Span) (token : Option Token) :
    (client.mute muted).waitBegin environment timeout token
      = (client.waitBegin environment timeout token).mute muted := by
  unfold waitBegin
  rw [mute_clock]
  rcases environment.readClock client.clock with ⟨now | now, timed⟩ <;> rfl

private theorem waitBudget_mute (vigil : Vigil) (timeout : Span) :
    (client.mute muted).waitBudget environment vigil timeout
      = (client.waitBudget environment vigil timeout).mute muted := by
  unfold waitBudget
  rw [mute_clock]
  rcases environment.readClock client.clock with ⟨now | now, timed⟩ <;> rfl

/-- A client some of whose callbacks are muted makes the same steps as the client itself, as long as it
neither completes nor submits their requests. -/
theorem step_mute {phase : Phase κ} (heeds : client.Heeds muted environment phase) :
    (client.mute muted).step environment phase = (client.step environment phase).mute muted := by
  cases phase with
  | submit request callback =>
    apply whileLive_mute
    intro _
    apply submit_mute
    intro sequence
    rw [heeds sequence]
    rfl
  | complete sequence response => exact whileLive_mute fun live => complete_mute response (heeds live)
  | cancel future => exact whileLive_mute fun _ => cancel_mute future
  | pruneAll => exact whileLive_mute fun _ => pruneAll_mute
  | pruneOlder cutoff => exact whileLive_mute fun _ => pruneOlder_mute cutoff
  | pruneStale => exact pruneStale_mute
  | isAvailable | wait timeout token | probeLive purpose | pruneNothing => exact whileLive_mute fun _ => rfl
  | dispose => exact whileLive_mute fun _ => dispose_mute
  | waitBegin timeout token => exact waitBegin_mute timeout token
  | waitBudget vigil timeout => exact waitBudget_mute vigil timeout
  | deregister orphaned => exact deregister_mute orphaned
  -- No other step looks at the table.
  | _ => rfl

end Client

end Correlator
