import Mathlib.Data.List.Induction
import Correlator.Proofs.Time.Clock

/-!
Contract: virtual clocks along all that is done through the handles on them.

Owns: what is asked of clocks, what these calls alone tell about which handles share a clock and how it was moved, and
that every handle shows just what the motions of its clock come to.

Does not own: what motions do to a single clock (`Correlator.Proofs.Time.Clock`).
-/

set_option autoImplicit false

namespace Correlator.ClockShelf

/-- What is asked of clocks: to move one through a handle, to take a further handle on one, to make one. -/
inductive Call where
  | move (handle : Nat) (motion : Motion)
  | share (handle : Nat)
  | fresh
deriving DecidableEq, Repr

/-- A call through a handle that has not been made does nothing. -/
def perform (shelf : ClockShelf) : Call → ClockShelf
  | .move handle motion => shelf.move handle motion
  | .share handle => ((shelf.share handle).map (·.2)).getD shelf
  | .fresh => shelf.fresh.2

/-- The clocks after calls that follow each other, the first of them to a single clock at the origin. -/
def run (calls : List Call) : ClockShelf := calls.foldl perform initial

theorem run_concat (calls : List Call) (call : Call) :
    run (calls ++ [call]) = (run calls).perform call := by
  unfold run
  rw [List.foldl_append]
  rfl

/-! ### What the calls say by themselves -/

/-- An account of calls that does without any clock. A clock is named by the first handle on it. -/
structure Logbook where
  /-- The clock of each handle. -/
  clocks : List Nat := [0]
  /-- All motions so far, each with the clock that was to move. -/
  motions : List (Nat × Motion) := []
deriving DecidableEq, Repr

namespace Logbook

def record (logbook : Logbook) : Call → Logbook
  | .move handle motion =>
    match logbook.clocks[handle]? with
    | some clock => { logbook with motions := logbook.motions ++ [(clock, motion)] }
    | none => logbook
  | .share handle =>
    match logbook.clocks[handle]? with
    | some clock => { logbook with clocks := logbook.clocks ++ [clock] }
    | none => logbook
  | .fresh => { logbook with clocks := logbook.clocks ++ [logbook.clocks.length] }

def ofCalls (calls : List Call) : Logbook := calls.foldl record {}

/-- The motions of a clock, through whichever handle they were made. -/
def motionsOf (logbook : Logbook) (clock : Nat) : List Motion :=
  (logbook.motions.filter (·.1 == clock)).map (·.2)

variable {logbook : Logbook} {shelf : ClockShelf} {handle clock : Nat}

theorem record_move (made : logbook.clocks[handle]? = some clock) (motion : Motion) :
    logbook.record (.move handle motion)
      = { logbook with motions := logbook.motions ++ [(clock, motion)] } := by
  simp only [record, made]

theorem record_share (made : logbook.clocks[handle]? = some clock) :
    logbook.record (.share handle) = { logbook with clocks := logbook.clocks ++ [clock] } := by
  simp only [record, made]

theorem record_move_of_unmade (unmade : logbook.clocks[handle]? = none) (motion : Motion) :
    logbook.record (.move handle motion) = logbook := by
  simp only [record, unmade]

theorem record_share_of_unmade (unmade : logbook.clocks[handle]? = none) :
    logbook.record (.share handle) = logbook := by
  simp only [record, unmade]

theorem ofCalls_concat (calls : List Call) (call : Call) :
    ofCalls (calls ++ [call]) = (ofCalls calls).record call := by
  unfold ofCalls
  rw [List.foldl_append]
  rfl

theorem motionsOf_concat (logbook : Logbook) (moved : Nat) (motion : Motion) :
    motionsOf { logbook with motions := logbook.motions ++ [(moved, motion)] } clock
      = logbook.motionsOf clock ++ if moved = clock then [motion] else [] := by
  unfold motionsOf
  rw [List.filter_append, List.map_append]
  by_cases same : moved = clock <;> simp [same]

/-! ### Accounts grow -/

theorem prefix_record (logbook : Logbook) (call : Call) :
    logbook.clocks <+: (logbook.record call).clocks
      ∧ logbook.motions <+: (logbook.record call).motions := by
  cases call with
  | fresh => exact ⟨List.prefix_append _ _, List.prefix_refl _⟩
  | move handle motion =>
    cases made : logbook.clocks[handle]? with
    | none =>
      rw [record_move_of_unmade made]
      exact ⟨List.prefix_refl _, List.prefix_refl _⟩
    | some clock =>
      rw [record_move made]
      exact ⟨List.prefix_refl _, List.prefix_append _ _⟩
  | share handle =>
    cases made : logbook.clocks[handle]? with
    | none =>
      rw [record_share_of_unmade made]
      exact ⟨List.prefix_refl _, List.prefix_refl _⟩
    | some clock =>
      rw [record_share made]
      exact ⟨List.prefix_append _ _, List.prefix_refl _⟩

theorem prefix_ofCalls (calls later : List Call) :
    (ofCalls calls).clocks <+: (ofCalls (calls ++ later)).clocks
      ∧ (ofCalls calls).motions <+: (ofCalls (calls ++ later)).motions := by
  induction later using List.reverseRecOn with
  | nil =>
    rw [List.append_nil]
    exact ⟨List.prefix_refl _, List.prefix_refl _⟩
  | append_singleton later call inductionHypothesis =>
    obtain ⟨clocks, motions⟩ := prefix_record (ofCalls (calls ++ later)) call
    rw [← List.append_assoc, ofCalls_concat]
    exact ⟨inductionHypothesis.1.trans clocks, inductionHypothesis.2.trans motions⟩

/-- A handle stays on its clock. -/
theorem clocks_append {calls : List Call} (made : (ofCalls calls).clocks[handle]? = some clock)
    (later : List Call) : (ofCalls (calls ++ later)).clocks[handle]? = some clock := by
  obtain ⟨more, grown⟩ := (prefix_ofCalls calls later).1
  rw [← grown, List.getElem?_append_left (List.getElem?_eq_some_iff.mp made).1]
  exact made

theorem prefix_motionsOf (calls later : List Call) (clock : Nat) :
    (ofCalls calls).motionsOf clock <+: (ofCalls (calls ++ later)).motionsOf clock :=
  ((prefix_ofCalls calls later).2.filter _).map _

/-- A clock is given no motion by a call that moves none of its handles, -/
theorem motionsOf_record_of_spared {call : Call}
    (spared : ∀ moved motion, call = .move moved motion → logbook.clocks[moved]? ≠ some clock) :
    (logbook.record call).motionsOf clock = logbook.motionsOf clock := by
  cases call with
  | fresh => rfl
  | share handle =>
    cases made : logbook.clocks[handle]? with
    | none => rw [record_share_of_unmade made]
    | some shared =>
      rw [record_share made]
      rfl
  | move handle motion =>
    cases made : logbook.clocks[handle]? with
    | none => rw [record_move_of_unmade made]
    | some moved =>
      have different : moved ≠ clock := fun same => spared handle motion rfl (same ▸ made)
      rw [record_move made, motionsOf_concat, if_neg different, List.append_nil]

/-- and by none of the calls that follow each other. -/
theorem motionsOf_append_of_spared (calls later : List Call)
    (spared : ∀ moved motion, Call.move moved motion ∈ later →
      (ofCalls (calls ++ later)).clocks[moved]? ≠ some clock) :
    (ofCalls (calls ++ later)).motionsOf clock = (ofCalls calls).motionsOf clock := by
  induction later using List.reverseRecOn with
  | nil => rw [List.append_nil]
  | append_singleton later call inductionHypothesis =>
    rw [← List.append_assoc] at spared ⊢
    rw [ofCalls_concat, motionsOf_record_of_spared, inductionHypothesis]
    · intro moved motion member made
      exact spared moved motion (List.mem_append_left _ member) (clocks_append made [call])
    · rintro moved motion rfl made
      exact spared moved motion (List.mem_append_right _ (List.mem_singleton_self _))
        (clocks_append made [_])

/-! ### The clocks of an account -/

/-- The clocks of a shelf are those of an account, each at a place of its own and moved by its motions. -/
structure Describes (logbook : Logbook) (shelf : ClockShelf) (place : Nat → Nat) : Prop where
  handles_eq : shelf.handles = logbook.clocks.map place
  /-- A name is that of a handle, -/
  named : ∀ clock ∈ logbook.clocks, clock < logbook.clocks.length
  /-- and only clocks move. -/
  moved : ∀ item ∈ logbook.motions, item.1 ∈ logbook.clocks
  apart : ∀ left ∈ logbook.clocks, ∀ right ∈ logbook.clocks, place left = place right → left = right
  shown : ∀ clock ∈ logbook.clocks,
    shelf.clocks[place clock]? = some (({} : VirtualClock).after (logbook.motionsOf clock))

theorem describes_initial : ({} : Logbook).Describes initial id where
  handles_eq := rfl
  named := by simp
  moved := by simp
  apart := fun _ _ _ _ same => same
  shown := fun clock member => by
    rw [List.mem_singleton.mp member]
    rfl

namespace Describes

variable {place : Nat → Nat} (describes : logbook.Describes shelf place)

include describes

theorem getElem?_handles (handle : Nat) :
    shelf.handles[handle]? = (logbook.clocks[handle]?).map place := by
  rw [describes.handles_eq, List.getElem?_map]

theorem clock?_eq (made : logbook.clocks[handle]? = some clock) :
    shelf.clock? handle = some (({} : VirtualClock).after (logbook.motionsOf clock)) := by
  unfold clock?
  rw [describes.getElem?_handles, made]
  exact describes.shown clock (List.mem_of_getElem? made)

theorem share_eq (made : logbook.clocks[handle]? = some clock) :
    shelf.share handle
      = some (logbook.clocks.length, { shelf with handles := shelf.handles ++ [place clock] }) := by
  unfold ClockShelf.share
  rw [describes.getElem?_handles, made, describes.handles_eq, List.length_map]
  rfl

theorem move (handle : Nat) (motion : Motion) :
    (logbook.record (.move handle motion)).Describes (shelf.move handle motion) place := by
  have reached := describes.getElem?_handles handle
  cases made : logbook.clocks[handle]? with
  | none =>
    rw [made, Option.map_none] at reached
    rw [record_move_of_unmade made]
    simp only [ClockShelf.move, reached]
    exact describes
  | some moved =>
    rw [made, Option.map_some] at reached
    rw [record_move made]
    simp only [ClockShelf.move, reached]
    have known := List.mem_of_getElem? made
    refine ⟨describes.handles_eq, describes.named, fun item listed => ?_, describes.apart,
      fun clock listed => ?_⟩
    · rcases List.mem_append.mp listed with old | new
      · exact describes.moved item old
      · cases List.mem_singleton.mp new
        exact known
    · rw [motionsOf_concat, List.getElem?_modify, describes.shown clock listed]
      by_cases same : moved = clock
      · rw [if_pos same, VirtualClock.after_append]
        exact congrArg some (if_pos (congrArg place same))
      · have elsewhere : place moved ≠ place clock := fun shared =>
          same (describes.apart moved known clock listed shared)
        rw [if_neg same, List.append_nil]
        exact congrArg some (if_neg elsewhere)

theorem share (handle : Nat) :
    (logbook.record (.share handle)).Describes (shelf.perform (.share handle)) place := by
  cases made : logbook.clocks[handle]? with
  | none =>
    have unreached := describes.getElem?_handles handle
    rw [made, Option.map_none] at unreached
    rw [record_share_of_unmade made]
    simp only [perform, ClockShelf.share, unreached]
    exact describes
  | some shared =>
    have old : ∀ clock ∈ logbook.clocks ++ [shared], clock ∈ logbook.clocks := by
      intro clock listed
      rcases List.mem_append.mp listed with old | new
      · exact old
      · cases List.mem_singleton.mp new
        exact List.mem_of_getElem? made
    rw [record_share made]
    simp only [perform, describes.share_eq made]
    refine ⟨?_, fun clock listed => ?_, fun item listed => ?_, fun left first right second => ?_,
      fun clock listed => ?_⟩
    · change shelf.handles ++ [place shared] = _
      rw [describes.handles_eq, List.map_append]
      rfl
    · rw [List.length_append]
      exact Nat.lt_add_right _ (describes.named clock (old clock listed))
    · exact List.mem_append_left _ (describes.moved item listed)
    · exact describes.apart left (old left first) right (old right second)
    · exact describes.shown clock (old clock listed)

/-- A new clock has no motions, since its name was not that of a handle before. -/
theorem motionsOf_length : logbook.motionsOf logbook.clocks.length = [] := by
  unfold motionsOf
  rw [List.map_eq_nil_iff, List.filter_eq_nil_iff]
  intro item listed same
  have old := describes.named item.1 (describes.moved item listed)
  rw [beq_iff_eq] at same
  omega

theorem fresh :
    (logbook.record .fresh).Describes (shelf.perform .fresh)
      (Function.update place logbook.clocks.length shelf.clocks.length) := by
  have old : ∀ clock ∈ logbook.clocks,
      Function.update place logbook.clocks.length shelf.clocks.length clock = place clock :=
    fun clock listed => Function.update_of_ne (Nat.ne_of_lt (describes.named clock listed)) _ _
  have new : Function.update place logbook.clocks.length shelf.clocks.length logbook.clocks.length
      = shelf.clocks.length := Function.update_self _ _ _
  have below : ∀ clock ∈ logbook.clocks, place clock < shelf.clocks.length := fun clock listed =>
    (List.getElem?_eq_some_iff.mp (describes.shown clock listed)).1
  refine ⟨?_, fun clock listed => ?_, fun item listed => ?_,
    fun left first right second shared => ?_, fun clock listed => ?_⟩
  · change shelf.handles ++ [shelf.clocks.length] = List.map _ (logbook.clocks ++ [_])
    rw [describes.handles_eq, List.map_append, List.map_congr_left old, List.map_singleton, new]
  · change clock < (logbook.clocks ++ [_]).length
    rw [List.length_append]
    rcases List.mem_append.mp listed with older | newer
    · exact Nat.lt_add_right _ (describes.named clock older)
    · cases List.mem_singleton.mp newer
      exact Nat.lt_add_one _
  · exact List.mem_append_left _ (describes.moved item listed)
  · rcases List.mem_append.mp first with olderLeft | newerLeft
    · rcases List.mem_append.mp second with olderRight | newerRight
      · rw [old left olderLeft, old right olderRight] at shared
        exact describes.apart left olderLeft right olderRight shared
      · cases List.mem_singleton.mp newerRight
        rw [old left olderLeft, new] at shared
        exact absurd shared (Nat.ne_of_lt (below left olderLeft))
    · cases List.mem_singleton.mp newerLeft
      rcases List.mem_append.mp second with olderRight | newerRight
      · rw [old right olderRight, new] at shared
        exact absurd shared.symm (Nat.ne_of_lt (below right olderRight))
      · exact (List.mem_singleton.mp newerRight).symm
  · rcases List.mem_append.mp listed with older | newer
    · rw [old clock older]
      exact (List.getElem?_append_left (below clock older)).trans (describes.shown clock older)
    · cases List.mem_singleton.mp newer
      rw [new]
      change (shelf.clocks ++ [({} : VirtualClock)])[shelf.clocks.length]?
        = some (({} : VirtualClock).after (logbook.motionsOf logbook.clocks.length))
      rw [describes.motionsOf_length, List.getElem?_concat_length]
      rfl

end Describes

theorem exists_describes_run (calls : List Call) :
    ∃ place, (ofCalls calls).Describes (run calls) place := by
  induction calls using List.reverseRecOn with
  | nil => exact ⟨id, describes_initial⟩
  | append_singleton calls call inductionHypothesis =>
    obtain ⟨place, describes⟩ := inductionHypothesis
    rw [ofCalls_concat, run_concat]
    cases call with
    | move handle motion => exact ⟨place, describes.move handle motion⟩
    | share handle => exact ⟨place, describes.share handle⟩
    | fresh => exact ⟨_, describes.fresh⟩

/-- Each handle shows what the motions of its clock come to. -/
theorem clock?_run {calls : List Call} (made : (ofCalls calls).clocks[handle]? = some clock) :
    (run calls).clock? handle = some (({} : VirtualClock).after ((ofCalls calls).motionsOf clock)) := by
  obtain ⟨place, describes⟩ := exists_describes_run calls
  exact describes.clock?_eq made

/-- A further handle is given the next number, and shows the same. -/
theorem share_run {calls : List Call} (made : (ofCalls calls).clocks[handle]? = some clock) :
    ∃ shared, (run calls).share handle = some ((ofCalls calls).clocks.length, shared)
      ∧ shared.clock? (ofCalls calls).clocks.length
        = some (({} : VirtualClock).after ((ofCalls calls).motionsOf clock)) := by
  obtain ⟨place, describes⟩ := exists_describes_run calls
  have shared := describes.share handle
  rw [record_share made] at shared
  simp only [perform, describes.share_eq made] at shared
  exact ⟨_, describes.share_eq made, shared.clock?_eq List.getElem?_concat_length⟩

/-- A handle on a new clock is given the next number, and shows that nothing has moved it. -/
theorem fresh_run (calls : List Call) :
    ∃ grown, (run calls).fresh = ((ofCalls calls).clocks.length, grown)
      ∧ grown.clock? (ofCalls calls).clocks.length = some ({} : VirtualClock) := by
  obtain ⟨place, describes⟩ := exists_describes_run calls
  have number : (run calls).handles.length = (ofCalls calls).clocks.length := by
    rw [describes.handles_eq, List.length_map]
  have unmoved : ((ofCalls calls).record .fresh).motionsOf (ofCalls calls).clocks.length = [] :=
    describes.motionsOf_length
  have shown := describes.fresh.clock?_eq
    (show ((ofCalls calls).record .fresh).clocks[(ofCalls calls).clocks.length]?
      = some (ofCalls calls).clocks.length from List.getElem?_concat_length)
  rw [unmoved] at shown
  exact ⟨_, congrArg (·, (run calls).fresh.2) number, shown⟩

end Logbook

/-! ### Time through handles -/

/-- What a handle on a clock shows after calls. -/
structure KeepsTime (calls : List Call) (handle clock : Nat) (shown : VirtualClock) : Prop where
  clock?_eq : (run calls).clock? handle = some shown
  /-- The time elapsed is the exact sum of all lengths by which the clock was moved, through any of its handles, or
  the longest length if the sum is beyond it. -/
  elapsed : shown.elapsed.toNanos
    = min (Motion.total ((Logbook.ofCalls calls).motionsOf clock)) Span.longest.toNanos
  /-- The sleeps are counted, from zero again after `2 ^ 64` of them. -/
  sleeps : shown.sleeps.toNat
    = ((Logbook.ofCalls calls).motionsOf clock).countP Motion.isSleep % UInt64.size
  /-- Their order counts for nothing: by whichever calls a clock is given the same motions, it comes to the same. -/
  order : ∀ others other own, (Logbook.ofCalls others).clocks[other]? = some own →
    ((Logbook.ofCalls others).motionsOf own).Perm ((Logbook.ofCalls calls).motionsOf clock) →
      (run others).clock? other = some shown
  /-- A further handle is on the same clock. -/
  share : ∃ shared, (run calls).share handle = some ((Logbook.ofCalls calls).clocks.length, shared)
    ∧ shared.clock? (Logbook.ofCalls calls).clocks.length = some shown
  /-- A new clock begins at its origin, whatever the others show. -/
  fresh : ∃ grown, (run calls).fresh = ((Logbook.ofCalls calls).clocks.length, grown)
    ∧ grown.clock? (Logbook.ofCalls calls).clocks.length = some ({} : VirtualClock)
  /-- Later on no handle on the clock shows less time, nor an earlier point if it shows one, wherever the clock
  began. -/
  onward : ∀ later other, (Logbook.ofCalls (calls ++ later)).clocks[other]? = some clock →
    ∃ moved, (run (calls ++ later)).clock? other = some moved ∧ shown.elapsed ≤ moved.elapsed
      ∧ ∀ start before now, shown.nowFrom? start = some before → moved.nowFrom? start = some now →
        ¬ now < before
  /-- Other clocks, old and new, may be moved meanwhile: this one then stays as it is. -/
  apart : ∀ later other, (Logbook.ofCalls (calls ++ later)).clocks[other]? = some clock →
    (∀ moved motion, Call.move moved motion ∈ later →
      (Logbook.ofCalls (calls ++ later)).clocks[moved]? ≠ some clock) →
        (run (calls ++ later)).clock? other = some shown

/-- Virtual time is a capped sum. Whatever is done with clocks through any handles on them, each handle shows the
sum of the lengths by which its own clock was moved, cut off at the longest length, and how many of these motions were
sleeps. So the order of the motions counts for nothing, time never goes back, and no clock heeds what is done with
another. -/
theorem timekeeping {calls : List Call} {handle clock : Nat}
    (made : (Logbook.ofCalls calls).clocks[handle]? = some clock) :
    ∃ shown, KeepsTime calls handle clock shown := by
  refine ⟨_, Logbook.clock?_run made, ?elapsed, ?sleeps, ?order, Logbook.share_run made,
    Logbook.fresh_run calls, ?onward, ?apart⟩
  case elapsed =>
    rw [VirtualClock.toNanos_elapsed_after]
    exact congrArg (min · _) (Nat.zero_add _)
  case sleeps =>
    rw [VirtualClock.sleeps_after, UInt64.zero_add]
    rfl
  case order =>
    intro others other own made permuted
    rw [Logbook.clock?_run made, VirtualClock.after_eq_of_perm permuted]
  case onward =>
    intro later other stays
    -- The motions up to now are the first of those in the longer run.
    obtain ⟨more, grown⟩ := Logbook.prefix_motionsOf calls later clock
    have risen := VirtualClock.elapsed_le_after
      (({} : VirtualClock).after ((Logbook.ofCalls calls).motionsOf clock)) more
    rw [← VirtualClock.after_append, grown] at risen
    exact ⟨_, Logbook.clock?_run stays, risen, fun start before now first second =>
      VirtualClock.not_lt_of_nowFrom? risen first second⟩
  case apart =>
    intro later other stays spared
    rw [Logbook.clock?_run stays, Logbook.motionsOf_append_of_spared calls later spared]

/-- A clock with two handles is moved past a full second through both, and another one past the longest length. -/
def overrun : List Call :=
  [.move 0 (.advance (.ofMillis 600)), .share 0, .fresh, .move 2 (.sleep .longest),
    .move 1 (.sleep (.ofMillis 700)), .move 2 (.advance (.ofMillis 1))]

theorem timekeeping_overrun :
    (Logbook.ofCalls overrun).clocks = [0, 0, 2]
      ∧ KeepsTime overrun 1 0 ⟨⟨1, 300000000, by decide, by decide⟩, 1⟩
      ∧ KeepsTime overrun 2 2 ⟨.longest, 1⟩ := by
  obtain ⟨shown, keeps⟩ := timekeeping (show (Logbook.ofCalls overrun).clocks[1]? = some 0 from rfl)
  obtain ⟨capped, full⟩ := timekeeping (show (Logbook.ofCalls overrun).clocks[2]? = some 2 from rfl)
  cases Option.some.inj (keeps.clock?_eq.symm.trans
    (show (run overrun).clock? 1 = some ⟨⟨1, 300000000, by decide, by decide⟩, 1⟩ by decide))
  cases Option.some.inj (full.clock?_eq.symm.trans
    (show (run overrun).clock? 2 = some ⟨.longest, 1⟩ by decide))
  exact ⟨rfl, keeps, full⟩

end Correlator.ClockShelf
