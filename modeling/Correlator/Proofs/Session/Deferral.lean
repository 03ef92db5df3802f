import Correlator.Proofs.Session.Delivery
import Correlator.Proofs.Session.Nesting

/-!
Contract: the completion of a request with a callback, against a completion without it that the callback's
operations follow.

Owns: that the two leave the same behind, with the same replies and the same reports in the same order, as
long as nothing breaks off.

Does not own: how the session came to be without the callback (`Correlator.Proofs.Session.Twins`).
-/

set_option autoImplicit false

namespace Correlator.Session

/-- The reports in a trail, of whatever thread. -/
def Trail.notices (trail : Trail) : List LogEntry := trail.turns.flatMap LogEntry.ofTurn

theorem Trail.notices_append (front back : Trail) :
    Trail.notices (front ++ back) = Trail.notices front ++ Trail.notices back := by
  unfold notices turns
  rw [List.filterMap_append, List.flatMap_append]

theorem notices_nestings {program : Program} {reports : List Report}
    (same : program.length = reports.length) :
    Trail.notices (nestings program reports) = reports.flatMap fun report => report.trail.notices := by
  induction program generalizing reports with
  | nil =>
    rw [List.eq_nil_of_length_eq_zero same.symm]
    rfl
  | cons op program inductionHypothesis =>
    cases reports with
    | nil => cases same
    | cons report reports =>
      show Trail.notices (report.trail ++ ([.nested op report.reply] ++ nestings program reports)) = _
      rw [Trail.notices_append, Trail.notices_append, inductionHypothesis (Nat.succ.inj same)]
      rfl

/-- Only the callback of one future is muted. No two requests have futures on one cell. -/
def only (future : Future) : Future → Bool := fun other => decide (other.cell = future.cell)

/-- A report on a completion with a callback's program in it tells the same as a report on a completion
without it, and reports on the program's operations behind it. -/
structure Unfolds (program : Program) (sequence : Sequence) (response : Response)
    (report first : Report) (reports : List Report) : Prop where
  answers : report.reply = .answered (.ok .done) ∧ first.reply = .answered (.ok .done)
  /-- What happens, and the replies to the program's operations. -/
  trail : ∃ completion : Trail, completion.events = first.trail.events
    ∧ report.trail
      = completion ++ .calledBack sequence (some response) :: nestings program reports
  /-- What is reported on the way. -/
  notices : report.trail.notices
    = first.trail.notices ++ reports.flatMap fun report => report.trail.notices

theorem Unfolds.of_trail {program : Program} {sequence : Sequence} {response : Response}
    {report first : Report} {reports : List Report}
    (answers : report.reply = .answered (.ok .done) ∧ first.reply = .answered (.ok .done))
    {completion : Trail} (events : completion.events = first.trail.events)
    (notices : completion.notices = first.trail.notices)
    (trail : report.trail
      = completion ++ .calledBack sequence (some response) :: nestings program reports)
    (same : program.length = reports.length) :
    Unfolds program sequence response report first reports := by
  refine ⟨answers, ⟨completion, events, trail⟩, ?_⟩
  rw [trail, Trail.notices_append, notices]
  exact congrArg (first.trail.notices ++ ·) (notices_nestings same)

namespace Machine

variable {session : Session} {index : ClientId} {client : Client Program}

/-- A machine makes a turn, outside of waits. -/
theorem runs_turn (found : session.client? index = some client) {phase : Phase Program}
    (steady : ∀ purpose, phase ≠ .probeQuery purpose) {after : Client Program}
    {environment : Environment} {effects : List Effect} {next : Next Program}
    (steps : client.step session.environment phase = ⟨after, environment, effects, next⟩)
    (rest : List Task) :
    Machine.Runs { session, agenda := .advance index phase :: rest }
      ([.turn ⟨index, client.service, phase, effects, next⟩] ++ [])
      (resume { session := session.replace index (after, environment), agenda := rest } index
        next) := by
  have made : session.world.step? index phase
      = some (⟨index, client.service, phase, effects, next⟩,
        ⟨session.world.clients.set index after, environment⟩) := by
    rw [World.step?_of_found (show session.world.clients[index]? = some client from found),
      show client.step session.world.environment phase = _ from steps]
  have stepped : Machine.step { session, agenda := rest } index phase
      = ([.turn ⟨index, client.service, phase, effects, next⟩],
        resume { session := session.replace index (after, environment), agenda := rest } index
          next) := by
    rw [step_eq made]
    unfold proceed
    dsimp only
    -- No wait is under way whose programs would follow a sleep.
    rw [afterSleep_of_hooks (by cases next <;> rfl), ite_self]
    rfl
  refine .of_carryOut rfl ?_ (.here _)
  cases phase with
  | probeQuery purpose => exact absurd rfl (steady purpose)
  | _ => exact stepped

/-- A response to a request that is pending under a number is stored. -/
private theorem runs_taken (found : session.client? index = some client)
    (ready : client.Ready session.environment) {sequence : Sequence} {entry : Pending.Entry Program}
    (pending : client.table.find? sequence = some entry) {target : Target}
    (known : session.number? target = some sequence) (response : Response) :
    ∃ trail : Trail,
      trail.events = (session.environment.cells.cell entry.future).wakers.map Event.woke
      ∧ trail.notices = []
      ∧ Machine.Runs { session, agenda := [.perform (.complete index target response) none] } trail
        { session := session.replace index ({ client with table := client.table.erase sequence },
            { session.environment with
              cells := session.environment.cells.fill entry.future response })
          agenda := [.advance index (.countCompleted ⟨entry.future, entry.callback⟩)] } := by
  have means : session.delivery? index (.complete index target response)
      = some (.complete sequence response) := by
    show (if index = index then (session.number? target).map (Delivery.complete · response)
      else none) = _
    rw [if_pos rfl, known]
    rfl
  have begun : Machine.Runs
      { session, agenda := [.perform (.complete index target response) none] } ([] ++ [])
      { session, agenda := [.advance index (.complete sequence response)] } :=
    .of_carryOut rfl (carryOut_delivery found means) (.here _)
  have turned := runs_turn found (by simp) (ready.step_complete pending response) []
  refine ⟨_, ?_, ?_, begun.trans turned⟩
  · show ([Effect.locked, .removed entry.future .completed, .resolved entry.future response]
        ++ ((session.environment.cells.cell entry.future).wakers.map Effect.woke
          ++ [Effect.unlocked])).filterMap Event.ofEffect? ++ [] = _
    rw [List.append_nil, List.filterMap_append, List.filterMap_append, List.filterMap_map]
    have wakes : Event.ofEffect? ∘ Effect.woke = some ∘ Event.woke := rfl
    rw [wakes, List.filterMap_eq_map]
    exact List.append_nil _
  · simp [Trail.notices, Trail.turns, LogEntry.ofTurn]

/-- A completed request is counted. -/
private theorem runs_counted (found : session.client? index = some client) (future : Future)
    (callback : Option Program) {next : Next Program}
    (next_eq : (client.countCompleted session.environment ⟨future, callback⟩).next = next) :
    ∃ trail : Trail, trail.events = []
      ∧ trail.notices = [⟨client.service, .responseCorrelated future.sequence⟩]
      ∧ Machine.Runs { session, agenda := [.advance index (.countCompleted ⟨future, callback⟩)] }
        trail
        (resume
          { session := session.replace index (client.count .completed 1, session.environment),
            agenda := [] } index next) := by
  subst next_eq
  exact ⟨_, rfl, rfl, runs_turn found (by simp) rfl []⟩

/-- The callback of a completed request runs. -/
private theorem runs_notified (found : session.client? index = some client) (future : Future)
    (callback : Program) :
    ∃ trail : Trail, trail.events = [] ∧ trail.notices = []
      ∧ Machine.Runs { session, agenda := [.advance index (.notify future callback)] }
        (trail ++ [.calledBack future.sequence (session.cells.value? future)])
        { session, agenda := tasks callback (some future) ++ [.reply (.answered (.ok .done))] } := by
  have turned := runs_turn found (by simp)
    (show client.step session.environment (.notify future callback) = ⟨_, _, _, _⟩ from rfl) []
  rw [replace_self found] at turned
  have called : Machine.Runs
      { session, agenda := [.callBack future callback, .reply (.answered (.ok .done))] }
      ([.calledBack future.sequence (session.cells.value? future)] ++ [])
      { session, agenda := tasks callback (some future) ++ [.reply (.answered (.ok .done))] } :=
    .of_carryOut rfl rfl (.here _)
  exact ⟨_, rfl, rfl, turned.trans called⟩

/-- What a completion leaves of its client and the environment. -/
private theorem deliver_eq {sequence : Sequence} {entry : Pending.Entry Program}
    (pending : client.table.find? sequence = some entry) (environment : Environment)
    (response : Response) :
    client.deliver environment (.complete sequence response)
      = (Client.count { client with table := client.table.erase sequence } .completed 1,
          { environment with cells := environment.cells.fill entry.future response }) := by
  unfold Client.deliver Client.receipt Delivery.number
  dsimp only
  rw [pending]
  rfl

section Completion

variable (found : session.client? index = some client) (ready : client.Ready session.environment)
  {sequence : Sequence} {entry : Pending.Entry Program}
  (pending : client.table.find? sequence = some entry) {target : Target}
  (known : session.number? target = some sequence) (response : Response)

include found ready pending known

/-- A request without a callback is completed. -/
theorem performs_complete (uncalled : entry.callback = none) :
    ∃ trail : Trail,
      trail.events = (session.environment.cells.cell entry.future).wakers.map Event.woke
      ∧ trail.notices = [⟨client.service, .responseCorrelated entry.future.sequence⟩]
      ∧ session.Performs (.complete index target response) ⟨.answered (.ok .done), trail,
          session.replace index
            (client.deliver session.environment (.complete sequence response))⟩ := by
  obtain ⟨begun, wakes, silent, takes⟩ := runs_taken found ready pending known response
  obtain ⟨counted, quiet, told, counts⟩ := runs_counted (client?_replace found
    ({ client with table := client.table.erase sequence }, { session.environment with
      cells := session.environment.cells.fill entry.future response })) entry.future none
    (show _ = Next.returned (.ok .done) from rfl)
  rw [uncalled] at takes
  rw [replace_replace] at counts
  rw [deliver_eq pending]
  refine ⟨begun ++ counted, ?_, ?_, performs_iff.mpr ⟨_, ⟨takes.trans counts, rfl⟩, rfl, rfl⟩⟩
  · unfold Trail.events at *
    rw [List.flatMap_append, wakes, quiet, List.append_nil]
  · rw [Trail.notices_append, silent, told]
    rfl

/-- A request with a callback is completed, and the callback's program is next. -/
theorem runs_complete {program : Program} (called : entry.callback = some program) :
    ∃ completion : Trail,
      completion.events = (session.environment.cells.cell entry.future).wakers.map Event.woke
      ∧ completion.notices = [⟨client.service, .responseCorrelated entry.future.sequence⟩]
      ∧ Machine.Runs { session, agenda := [.perform (.complete index target response) none] }
        (completion ++ [.calledBack entry.future.sequence (some response)])
        { session := session.replace index
            (client.deliver session.environment (.complete sequence response))
          agenda := tasks program (some entry.future) ++ [.reply (.answered (.ok .done))] } := by
  obtain ⟨begun, wakes, silent, takes⟩ := runs_taken found ready pending known response
  obtain ⟨counted, quiet, told, counts⟩ := runs_counted (client?_replace found
    ({ client with table := client.table.erase sequence }, { session.environment with
      cells := session.environment.cells.fill entry.future response })) entry.future (some program)
    (show _ = Next.goesOn (.notify entry.future program) from rfl)
  rw [called] at takes
  rw [replace_replace] at counts
  obtain ⟨last, hushed, mute, notified⟩ := runs_notified (client?_replace found
    (client.deliver session.environment (.complete sequence response))) entry.future program
  have stored : (session.environment.cells.fill entry.future response).value? entry.future
      = some response := by
    have empty := ready.empty _ (Pending.Table.mem_of_find? pending)
    obtain ⟨filled, resolved, holds, -⟩ := empty.resolve response
    rw [empty.resolve_eq_fill] at resolved
    cases resolved
    exact holds.value?_eq
  rw [deliver_eq pending] at notified ⊢
  have value : Session.cells (session.replace index
      (Client.count { client with table := client.table.erase sequence } .completed 1,
        { session.environment with
          cells := session.environment.cells.fill entry.future response }))
      = session.environment.cells.fill entry.future response := rfl
  rw [value, stored] at notified
  refine ⟨begun ++ (counted ++ last), ?_, ?_, ?_⟩
  · unfold Trail.events at *
    rw [List.flatMap_append, List.flatMap_append, wakes, quiet, hushed, List.append_nil,
      List.append_nil]
  · rw [Trail.notices_append, Trail.notices_append, silent, told, mute]
    rfl
  · have all := takes.trans (counts.trans notified)
    rw [← List.append_assoc, ← List.append_assoc] at all
    rw [← List.append_assoc]
    exact all

end Completion

end Machine

/-! ### The session without the callback -/

section Muted

variable {session : Session} (resolvable : session.world.Resolvable) {index : ClientId}
  {client : Client Program} (found : session.client? index = some client) {sequence : Sequence}
  {entry : Pending.Entry Program} (pending : client.table.find? sequence = some entry)

include resolvable found pending

/-- No other entry has a future on the cell of a pending request. -/
private theorem eq_of_cell_eq {other : ClientId} {known : Client Program}
    (search : session.client? other = some known) {row : Sequence × Pending.Entry Program}
    (member : row ∈ known.table.rows) (same : row.2.future.cell = entry.future.cell) :
    index = other ∧ row.1 = sequence := by
  obtain ⟨own, rows⟩ := resolvable.distinct index other client known found search _
    (Pending.Table.mem_of_find? pending) row member same.symm
  exact ⟨own, congrArg Prod.fst rows.symm⟩

private theorem mute_replace (state : Client Program × Environment) :
    (session.mute (only entry.future)).replace index state = session.replace index state := by
  have clients : (session.world.clients.map (Client.mute (only entry.future))).set index state.1
      = session.world.clients.set index state.1 := by
    apply List.ext_getElem?
    intro other
    by_cases own : index = other
    · subst own
      have below := (List.getElem?_eq_some_iff.mp found).1
      rw [List.getElem?_set_self below, List.getElem?_set_self (by rwa [List.length_map])]
    · rw [List.getElem?_set_ne own, List.getElem?_set_ne own, List.getElem?_map]
      cases search : session.world.clients[other]? with
      | none => rfl
      | some known =>
        rw [Option.map_some, Client.mute_eq_self]
        intro row member
        apply decide_eq_false
        intro same
        exact own (eq_of_cell_eq resolvable found pending search member same).1
  exact congrArg (fun clients => { session with world := ⟨clients, state.2⟩ }) clients

private theorem deliver_mute (environment : Environment) (response : Response) :
    (client.mute (only entry.future)).deliver environment (.complete sequence response)
      = client.deliver environment (.complete sequence response) := by
  have search : (client.mute (only entry.future)).table.find? sequence
      = some (entry.mute (only entry.future)) := by
    rw [Client.mute_table, Pending.Table.find?_mute, pending]
    rfl
  have table : (client.mute (only entry.future)).table.erase sequence
      = client.table.erase sequence := by
    rw [Client.mute_table, Pending.Table.erase_mute, Pending.Table.mute_eq_self]
    intro row member
    obtain ⟨inside, other⟩ := List.mem_filter.mp member
    apply decide_eq_false
    intro same
    have own := (eq_of_cell_eq resolvable found pending found inside same).2
    simp [own] at other
  rw [Machine.deliver_eq search, Machine.deliver_eq pending, table]
  rfl

omit pending in
private theorem ready_mute (live : client.disposed = false) :
    (client.mute (only entry.future)).Ready session.environment where
  live := live
  filed := (resolvable.filed index client found).mute _
  empty := by
    intro row member
    obtain ⟨original, inside, rfl⟩ := List.mem_map.mp member
    exact resolvable.unresolved index client found original inside

/-- A request whose callback is muted is completed. -/
private theorem performs_muted (live : client.disposed = false) {target : Target}
    (known : session.number? target = some sequence) (response : Response) :
    ∃ trail : Trail,
      trail.events = (session.environment.cells.cell entry.future).wakers.map Event.woke
      ∧ trail.notices = [⟨client.service, .responseCorrelated sequence⟩]
      ∧ (session.mute (only entry.future)).Performs (.complete index target response)
        ⟨.answered (.ok .done), trail,
          session.replace index
            (client.deliver session.environment (.complete sequence response))⟩ := by
  have search : (client.mute (only entry.future)).table.find? sequence
      = some (entry.mute (only entry.future)) := by
    rw [Client.mute_table, Pending.Table.find?_mute, pending]
    rfl
  have foundMuted : (session.mute (only entry.future)).client? index
      = some (client.mute (only entry.future)) := by
    rw [client?_mute, found]
    rfl
  have uncalled : (entry.mute (only entry.future)).callback = none :=
    if_pos (decide_eq_true rfl)
  obtain ⟨trail, wakes, told, performs⟩ := Machine.performs_complete foundMuted
    (ready_mute resolvable found live) search
    (show (session.mute (only entry.future)).number? target = some sequence from known) response
    uncalled
  have same := deliver_mute resolvable found pending session.environment response
  have own := (resolvable.filed index client found).sequence_of_find? pending
  rw [mute_replace resolvable found pending] at performs
  refine ⟨trail, wakes, ?_, ?_⟩
  · rw [told, ← own]
    rfl
  · rw [← same]
    exact performs

/-- What the completion of a request with a callback comes to, the completion without the callback comes
to, with the program's operations behind it. -/
theorem unfolds_of_performs (live : client.disposed = false) {program : Program}
    (called : entry.callback = some program) {position : Nat}
    (held : session.futures[position]? = some entry.future) {target : Target}
    (known : session.number? target = some sequence) {response : Response} {report : Report}
    (performs : session.Performs (.complete index target response) report)
    (whole : report.reply.isBroken = false) :
    ∃ first reports,
      (session.mute (only entry.future)).Performs (.complete index target response) first
      ∧ first.session.PerformsAll (program.map (Op.located position)) reports report.session
      ∧ (∀ later ∈ reports, later.reply.isBroken = false)
      ∧ Unfolds program sequence response report first reports := by
  have ready : client.Ready session.environment :=
    ⟨live, resolvable.filed index client found, resolvable.unresolved index client found⟩
  obtain ⟨finish, finishes, reply_eq, session_eq⟩ := performs_iff.mp performs
  obtain ⟨completion, wakes, told, completes⟩ :=
    Machine.runs_complete found ready pending known response called
  obtain ⟨later, split, onward⟩ := finishes.after completes
  have heldAfter : (session.replace index (client.deliver session.environment
      (.complete sequence response))).futures[position]? = some entry.future := held
  obtain ⟨reports, final, answer, last, performsAll, allWhole, nested, ends⟩ :=
    Machine.finishes_program heldAfter onward (by rwa [reply_eq])
  obtain ⟨trail, silentWakes, silentTold, first⟩ :=
    performs_muted resolvable found pending live known response
  obtain ⟨none, rfl, ended⟩ := ends.rest (Machine.advance?_of_agenda rfl)
  obtain ⟨rfl, rfl⟩ := ended.1.of_agenda_eq_nil rfl
  have own := (resolvable.filed index client found).sequence_of_find? pending
  rw [own] at told split
  have final_eq : final = report.session := session_eq
  subst final_eq
  refine ⟨_, reports, first, performsAll, allWhole,
    .of_trail ⟨reply_eq.symm, rfl⟩ (wakes.trans silentWakes.symm) (told.trans silentTold.symm) ?_ ?_⟩
  · rw [split, nested, List.append_assoc, List.append_nil]
    rfl
  · rw [← performsAll.length_eq, List.length_map]

/-- The other way round: what the completion without the callback comes to, with the program's operations
behind it, the completion with the callback comes to. -/
theorem performs_of_unfolded (live : client.disposed = false) {program : Program}
    (called : entry.callback = some program) {position : Nat}
    (held : session.futures[position]? = some entry.future) {target : Target}
    (known : session.number? target = some sequence) {response : Response} {first : Report}
    {reports : List Report} {final : Session}
    (performs : (session.mute (only entry.future)).Performs (.complete index target response) first)
    (later : first.session.PerformsAll (program.map (Op.located position)) reports final)
    (whole : ∀ report ∈ reports, report.reply.isBroken = false) :
    ∃ report, session.Performs (.complete index target response) report
      ∧ report.session = final ∧ Unfolds program sequence response report first reports := by
  have ready : client.Ready session.environment :=
    ⟨live, resolvable.filed index client found, resolvable.unresolved index client found⟩
  obtain ⟨silent, silentWakes, silentTold, muted⟩ :=
    performs_muted resolvable found pending live known response
  obtain rfl := performs.unique muted
  obtain ⟨completion, wakes, told, completes⟩ :=
    Machine.runs_complete found ready pending known response called
  have heldAfter : (session.replace index (client.deliver session.environment
      (.complete sequence response))).futures[position]? = some entry.future := held
  obtain ⟨answer, calls⟩ := Machine.runs_program later heldAfter whole
    [.reply (.answered (.ok .done))] .nothing
  have replies : Machine.Runs
      { session := final, agenda := [.reply (.answered (.ok .done))], reply := answer } ([] ++ [])
      { session := final, agenda := [], reply := .answered (.ok .done) } :=
    .of_carryOut rfl rfl (.here _)
  have own := (resolvable.filed index client found).sequence_of_find? pending
  rw [own] at told completes
  refine ⟨⟨.answered (.ok .done), _, final⟩,
    performs_iff.mpr ⟨_, ⟨completes.trans (calls.trans replies), rfl⟩, rfl, rfl⟩, rfl,
    .of_trail ⟨rfl, rfl⟩ (wakes.trans silentWakes.symm) (told.trans silentTold.symm) ?_ ?_⟩
  · rw [List.append_assoc, List.append_nil, List.append_nil]
    rfl
  · rw [← later.length_eq, List.length_map]

end Muted

end Correlator.Session
