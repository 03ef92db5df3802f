import Correlator.Proofs.Course.Past

/-!
Contract: the limit on the pending requests of a client.

Owns: when a submit is refused for the number of pending requests and that it then does nothing else, that the
limit is kept along every course, and that an entry that was taken out leaves room for another.

Does not own: the accounts from which the number of pending requests follows (`Correlator.Proofs.Course.Accounts`).
-/

set_option autoImplicit false

namespace Correlator

variable {κ : Type}

/-- A submit ends because as many requests are pending as the client allows. -/
def Next.exceedsCapacity : Next κ → Bool
  | .returned (.error (.capacityExceeded _ _)) => true
  | _ => false

/-- A turn answers that it took out at least one entry: a complete that goes on to count its request, a cancel
that was in time, or a prune that found something. -/
def Turn.frees (turn : Turn κ) : Bool :=
  match turn.phase, turn.next with
  | .complete _ _, .goesOn _ => true
  | .cancel _, .returned (.ok (.flag removed)) => removed
  | .pruneAll, .returned (.ok (.count removed))
  | .pruneOlder _, .returned (.ok (.count removed)) => removed != 0
  | _, _ => false

namespace Client

/-- No more requests are pending than the options allow. -/
def WithinLimit (client : Client κ) : Prop :=
  ∀ limit, client.options.maxPending = some limit → client.pendingCount ≤ limit

variable {client : Client κ} {environment : Environment} {phase : Phase κ} {step : Step κ}

theorem reached?_eq_some_iff {limit : Nat} :
    client.reached? = some limit
      ↔ client.options.maxPending = some limit ∧ limit ≤ client.pendingCount := by
  unfold reached?
  rw [Option.filter_eq_some_iff, decide_eq_true_iff]

theorem WithinLimit.reached?_iff (within : client.WithinLimit) {limit : Nat}
    (allowed : client.options.maxPending = some limit) :
    (∃ known, client.reached? = some known) ↔ client.pendingCount = limit := by
  constructor
  · rintro ⟨known, reached⟩
    obtain ⟨alsoAllowed, full⟩ := reached?_eq_some_iff.mp reached
    cases allowed.symm.trans alsoAllowed
    exact Nat.le_antisymm (within limit allowed) full
  · intro full
    exact ⟨limit, reached?_eq_some_iff.mpr ⟨allowed, full.ge⟩⟩

/-! ### One step -/

/-- A submit is refused for the number of pending requests by a live client that has come to its limit. -/
theorem Exit.exceedsCapacity_iff {request : Request} {callback : Option κ}
    (exit : client.Exit environment (.submit request callback) step) :
    step.next.exceedsCapacity = true
      ↔ client.disposed = false ∧ ∃ limit, client.reached? = some limit := by
  cases exit with
  | gone disposed begins => simp [Next.exceedsCapacity, disposed]
  | full live reached => exact iff_of_true rfl ⟨live, _, reached⟩
  | unsent live room | untimed live room | doubled live room | stored live room =>
    simp [Next.exceedsCapacity, room]
  | pruned live prunes => cases prunes
  | aside isAside client_eq cells_eq effects next => cases isAside

theorem Exit.admits_of_room {request : Request} {callback : Option κ}
    (exit : client.Exit environment (.submit request callback) step)
    (room : client.reached? = none) : step.next.exceedsCapacity = false := by
  cases exceeds : step.next.exceedsCapacity with
  | false => rfl
  | true =>
    obtain ⟨-, limit, reached⟩ := exit.exceedsCapacity_iff.mp exceeds
    rw [room] at reached
    cases reached

/-- A refusal for the number of pending requests asks neither transport nor clock, and changes nothing. -/
theorem Exit.eq_of_reached {request : Request} {callback : Option κ}
    (exit : client.Exit environment (.submit request callback) step) {limit : Nat}
    (live : client.disposed = false) (reached : client.reached? = some limit) :
    step = ⟨client, environment, [.locked, .logged (.capacityReached limit), .unlocked],
      .returned (.error (.capacityExceeded client.service limit))⟩ := by
  cases exit with
  | gone disposed begins =>
    rw [live] at disposed
    cases disposed
  | full live known =>
    rw [reached] at known
    cases known
    rfl
  | unsent live room | untimed live room | doubled live room | stored live room =>
    rw [reached] at room
    cases room
  | pruned live prunes => cases prunes
  | aside isAside client_eq cells_eq effects next => cases isAside

theorem Exit.options_eq (exit : client.Exit environment phase step) :
    step.client.options = client.options := by
  cases exit with
  | aside isAside client_eq cells_eq effects next => rw [client_eq]
  | _ => rfl

/-- More requests are pending after a step only if it accepted one, and only if there was room for it. -/
theorem Exit.pendingCount_le_or_accepted (exit : client.Exit environment phase step)
    (index : ClientId) (service : String) :
    step.client.pendingCount ≤ client.pendingCount
      ∨ Turn.accepted ⟨index, service, phase, step.effects, step.next⟩ ≠ []
        ∧ client.reached? = none ∧ step.client.pendingCount = client.pendingCount + 1 := by
  cases exit with
  | stored live room sent read inserted =>
    have grown := Pending.Table.count_insert? inserted fun _ => true
    rw [Pending.Table.count_true, Pending.Table.count_true, if_pos rfl] at grown
    exact .inr ⟨List.cons_ne_nil _ _, room, grown⟩
  | lost | matched | cancelled | pruned => exact .inl (List.length_filter_le _ _)
  | aside isAside client_eq cells_eq effects next =>
    rw [client_eq]
    exact .inl (Nat.le_refl _)
  | _ => exact .inl (Nat.le_refl _)

/-- A step that answers that it took out an entry leaves fewer requests pending. -/
theorem Exit.pendingCount_lt (exit : client.Exit environment phase step) {index : ClientId}
    {service : String}
    (frees : Turn.frees ⟨index, service, phase, step.effects, step.next⟩ = true) :
    step.client.pendingCount < client.pendingCount := by
  have erased : ∀ sequence entry, client.table.find? sequence = some entry →
      (client.table.erase sequence).size < client.table.size := by
    intro sequence entry found
    exact List.length_filter_lt_length_iff_exists.mpr
      ⟨(sequence, entry), Pending.Table.mem_of_find? found, by simp⟩
  cases exit with
  | matched live found filled | cancelled live found => exact erased _ _ found
  | @pruned _ scope stale live prunes =>
    have some : (client.table.rows.filter stale).length ≠ 0 := by
      cases phase <;> first | cases prunes; done | simpa [Turn.frees] using frees
    obtain ⟨row, member⟩ := List.exists_mem_of_length_pos (Nat.pos_of_ne_zero some)
    obtain ⟨inside, isStale⟩ := List.mem_filter.mp member
    exact List.length_filter_lt_length_iff_exists.mpr ⟨row, inside, by simp [isStale]⟩
  | gone disposed begins => cases phase <;> cases frees
  | aside isAside client_eq cells_eq effects next =>
    cases phase <;> first | cases isAside; done | cases frees
  | _ => cases frees

theorem Exit.withinLimit (exit : client.Exit environment phase step)
    (within : client.WithinLimit) : step.client.WithinLimit := by
  intro limit allowed
  rw [exit.options_eq] at allowed
  have before := within limit allowed
  rcases exit.pendingCount_le_or_accepted 0 client.service with fewer | ⟨-, room, grown⟩
  · exact fewer.trans before
  · have below : ¬ limit ≤ client.pendingCount := by
      intro reached
      rw [reached?_eq_some_iff.mpr ⟨allowed, reached⟩] at room
      cases room
    omega

end Client

/-! ### A whole course -/

namespace Course

variable {world : World κ} {start course : Course κ} {index : ClientId} {client : Client κ}

/-- The options of a client never change. -/
theorem Leads.options_eq (leads : start.Leads course) {earlier : Client κ}
    (foundEarlier : start.world.clients[index]? = some earlier)
    (found : course.world.clients[index]? = some client) : client.options = earlier.options := by
  obtain ⟨later, split⟩ := leads.turns_eq_append
  refine leads.client_induction (motive := fun _ client => client.options = earlier.options)
    split found ?initial ?own ?others
  case initial =>
    intro first known
    cases foundEarlier.symm.trans known
    rfl
  case own =>
    intro before actor environment phase same
    exact (actor.exit_step environment phase).options_eq.trans same
  case others => exact fun before actor turn different same => same

/-- Every client keeps to its limit. -/
theorem Leads.withinLimit (leads : (opening world).Leads course) (fresh : world.IsFresh)
    (found : course.world.clients[index]? = some client) : client.WithinLimit := by
  refine leads.client_induction (motive := fun _ client => client.WithinLimit)
    (List.nil_append _).symm found ?initial ?own ?others
  case initial =>
    intro first known limit allowed
    rw [Client.pendingCount, (fresh first (List.mem_of_getElem? known)).1]
    exact Nat.zero_le limit
  case own =>
    intro before actor environment phase within
    exact (actor.exit_step environment phase).withinLimit within
  case others => exact fun before actor turn different within => within

/-- As long as a client accepts nothing, no more of its requests are pending than before. -/
theorem Leads.pendingCount_le (leads : start.Leads course) {later : List (Turn κ)}
    (split : course.turns = start.turns ++ later) (refuses : entered later index Turn.accepted = [])
    {earlier : Client κ} (foundEarlier : start.world.clients[index]? = some earlier)
    (found : course.world.clients[index]? = some client) :
    client.pendingCount ≤ earlier.pendingCount := by
  refine leads.client_induction (motive := fun turns client =>
      entered turns index Turn.accepted = [] → client.pendingCount ≤ earlier.pendingCount)
    split found ?initial ?own ?others refuses
  case initial =>
    intro first known _
    cases foundEarlier.symm.trans known
    exact Nat.le_refl _
  case own =>
    intro before actor environment phase inductionHypothesis refuses
    rw [entered_append_own, List.append_eq_nil_iff] at refuses
    have exit := actor.exit_step environment phase
    rcases exit.pendingCount_le_or_accepted index actor.service with fewer | ⟨accepts, -⟩
    · exact fewer.trans (inductionHypothesis refuses.1)
    · exact absurd refuses.2 accepts
  case others =>
    intro before actor turn different inductionHypothesis refuses
    rw [entered_append_other before different] at refuses
    exact inductionHypothesis refuses

/-- Since a client answered that it took out an entry, it has room for a request until it accepts one. -/
theorem Leads.room_of_frees (leads : (opening world).Leads course) (fresh : world.IsFresh)
    {before later : List (Turn κ)} {turn : Turn κ} (split : course.turns = before ++ turn :: later)
    (frees : turn.frees = true) (refuses : entered later turn.client Turn.accepted = [])
    (found : course.world.clients[turn.client]? = some client) : client.reached? = none := by
  obtain ⟨earlier, front, back, actor, led, turns_eq, makes, onward⟩ := leads.rewind_opening split
  have freed : (actor.turn earlier.world.environment turn.client turn.phase).frees = true := by
    rw [makes.turn_eq]
    exact frees
  have fewer := (actor.exit_step earlier.world.environment turn.phase).pendingCount_lt freed
  have split' : course.turns = (earlier.beyond front back actor turn).turns ++ later := by
    rw [makes.turns_beyond, turns_eq, split, List.append_assoc, List.singleton_append]
  have stillFewer := onward.pendingCount_le split' refuses
    ((World.getElem?_set_client makes.found).mpr (.inl ⟨rfl, rfl⟩)) found
  have options_eq := (makes.leads_beyond.trans onward).options_eq makes.found found
  cases reached : client.reached? with
  | none => rfl
  | some limit =>
    obtain ⟨allowed, full⟩ := Client.reached?_eq_some_iff.mp reached
    rw [options_eq] at allowed
    have within := led.withinLimit fresh makes.found limit allowed
    exact absurd (full.trans stillFewer) (Nat.not_le.mpr (Nat.lt_of_lt_of_le fewer within))

end Course

end Correlator
