import Mathlib.Data.List.Basic
import Correlator.Options.Basic
import Correlator.Proofs.Time.Span

/-!
Contract: written settings, taken one after the other.

Owns: which values fit a setting, what settings are once a list of values has been taken for them, in whatever
order, and which settings are in range as options.

Does not own: the notations that values are read from (`Correlator.Proofs.Options.Datum`,
`Correlator.Proofs.Options.Agreement`).
-/

set_option autoImplicit false

namespace Correlator.Options

/-! ### Single settings -/

namespace Field

theorem name_injective {left right : Field} (same : left.name = right.name) : left = right := by
  cases left <;> cases right <;> first | rfl | exact absurd same (by decide)

theorem ofName?_name (field : Field) : ofName? field.name = some field := by
  cases field <;> decide

/-- A setting is found by its name, and by no other. -/
theorem ofName?_eq_some_iff {name : String} {field : Field} :
    ofName? name = some field ↔ name = field.name := by
  constructor
  · intro found
    have same := List.find?_some found
    exact (eq_of_beq same).symm
  · rintro rfl
    exact field.ofName?_name

/-- The value that a shape stands for, which is none where the setting is given as absent; nothing where the shape
does not fit the setting. -/
def reads? (field : Field) : Shape → Option (Option UInt64)
  | .number (.natural value) => some (some value)
  | .absent => if field.isOptional then some none else none
  | _ => none

/-- A setting can be without a value just if it is optional. -/
def Allows (field : Field) (value : Option UInt64) : Prop := value = none → field.isOptional = true

theorem allows_of_reads? {field : Field} {shape : Shape} {value : Option UInt64}
    (reads : field.reads? shape = some value) : field.Allows value := by
  rintro rfl
  unfold reads? at reads
  split at reads
  · cases reads
  · split at reads
    next optional => exact optional
    next => cases reads
  · cases reads

/-- What is wrong with a setting that is zero. -/
def flaw : Field → String
  | .pollInterval => "poll interval must be positive"
  | .staleAfter => "stale-after threshold must be positive"
  | .maxPending => "max pending must be at least 1"

end Field

namespace Settings

/-- The value of a setting. -/
def get (settings : Settings) : Field → Option UInt64
  | .pollInterval => some settings.pollInterval
  | .staleAfter => settings.staleAfter
  | .maxPending => settings.maxPending

theorem ext_get {left right : Settings} (same : ∀ field, left.get field = right.get field) :
    left = right := by
  have poll : left.pollInterval = right.pollInterval := Option.some.inj (same .pollInterval)
  have stale : left.staleAfter = right.staleAfter := same .staleAfter
  have pending : left.maxPending = right.maxPending := same .maxPending
  cases left
  cases right
  simp only at poll stale pending
  rw [poll, stale, pending]

/-- The settings of which some are given, with the defaults for the others. -/
def ofGiven (given : Field → Option UInt64) : Settings where
  pollInterval := (given .pollInterval).getD 10
  staleAfter := given .staleAfter
  maxPending := given .maxPending

theorem get_ofGiven (given : Field → Option UInt64) (field : Field) :
    (ofGiven given).get field = (given field).or (({} : Settings).get field) := by
  cases field with
  | pollInterval =>
    show some ((given .pollInterval).getD 10) = _
    cases given .pollInterval <;> rfl
  | staleAfter | maxPending => exact Option.or_none.symm

/-- Gives a setting a value, or takes it back to none. -/
def put (settings : Settings) (taken : Field × Option UInt64) : Settings :=
  match taken.2 with
  | some value => settings.set value taken.1
  | none => settings.unset taken.1

/-- A value is taken just if it fits. -/
theorem accept_eq_ok_iff {settings next : Settings} {field : Field} {shape : Shape} :
    settings.accept field shape = .ok next
      ↔ ∃ value, field.reads? shape = some value ∧ next = settings.put (field, value) := by
  cases shape with
  | number value =>
    cases value <;> simp [accept, Field.reads?, put, eq_comm]
  | absent =>
    by_cases optional : field.isOptional = true
    · simp [accept, Field.reads?, put, optional, eq_comm]
    · simp [accept, Field.reads?, optional]
  | _ => simp [accept, Field.reads?]

/-- A setting has the value that it was given last, and the others are as before. -/
theorem get_put (settings : Settings) {field : Field} {value : Option UInt64}
    (allows : field.Allows value) (other : Field) :
    (settings.put (field, value)).get other
      = if other = field then value else settings.get other := by
  cases value with
  | some value => cases field <;> cases other <;> rfl
  | none =>
    cases field with
    | pollInterval => cases allows rfl
    | _ => cases other <;> rfl

/-! ### Many settings -/

/-- Where no name is listed twice, a value is found just if it is listed. -/
theorem lookup_eq_some_iff_mem {α β : Type} [BEq α] [LawfulBEq α] {listed : List (α × β)}
    (once : (listed.map (·.1)).Nodup) {name : α} {value : β} :
    listed.lookup name = some value ↔ (name, value) ∈ listed := by
  induction listed with
  | nil => simp
  | cons head tail inductionHypothesis =>
    obtain ⟨unrepeated, once⟩ := List.nodup_cons.mp once
    rw [List.lookup_cons, List.mem_cons]
    by_cases same : name = head.1
    · subst same
      have absent : (head.1, value) ∉ tail := fun member =>
        unrepeated (List.mem_map.mpr ⟨_, member, rfl⟩)
      rw [beq_self_eq_true]
      simp [absent, Prod.ext_iff, eq_comm]
    · rw [beq_eq_false_iff_ne.mpr same]
      simp [inductionHypothesis once, Prod.ext_iff, same]

/-- If no setting is given twice, each has the value that it was given, and the others are as before. -/
theorem get_foldl_put {taken : List (Field × Option UInt64)} (once : (taken.map (·.1)).Nodup)
    (allows : ∀ part ∈ taken, part.1.Allows part.2) (settings : Settings) (field : Field) :
    (taken.foldl put settings).get field = (taken.lookup field).getD (settings.get field) := by
  induction taken generalizing settings with
  | nil => rfl
  | cons part rest inductionHypothesis =>
    obtain ⟨own, value⟩ := part
    obtain ⟨unrepeated, once⟩ := List.nodup_cons.mp once
    rw [List.foldl_cons, inductionHypothesis once fun part member =>
        allows part (List.mem_cons_of_mem _ member),
      settings.get_put (allows _ List.mem_cons_self), List.lookup_cons]
    by_cases same : field = own
    · subst same
      have absent : rest.lookup field = none := List.lookup_eq_none_iff.mpr fun part member =>
        bne_iff_ne.mpr fun same => unrepeated (List.mem_map.mpr ⟨part, member, same.symm⟩)
      rw [absent, if_pos rfl, beq_self_eq_true]
      rfl
    · rw [if_neg same, beq_eq_false_iff_ne.mpr same]

section Parts

variable {α ε : Type} {accept : Settings → α → Except ε Settings}
  {read? : α → Option (Field × Option UInt64)}

/-- Parts are taken one after the other just if each of them fits. -/
theorem foldlM_eq_ok_iff
    (heeds : ∀ settings part next, accept settings part = .ok next
      ↔ ∃ taken, read? part = some taken ∧ next = settings.put taken)
    {settings last : Settings} {parts : List α} :
    parts.foldlM accept settings = .ok last
      ↔ (∀ part ∈ parts, (read? part).isSome = true)
        ∧ last = (parts.filterMap read?).foldl put settings := by
  induction parts generalizing settings with
  | nil => exact ⟨fun same => ⟨by simp, (Except.ok.inj same).symm⟩, fun given => by rw [given.2]; rfl⟩
  | cons part rest inductionHypothesis =>
    rw [List.foldlM_cons]
    cases made : accept settings part with
    | error mismatch =>
      have unread : read? part = none := by
        cases read : read? part with
        | none => rfl
        | some taken => cases made.symm.trans ((heeds _ _ _).mpr ⟨taken, read, rfl⟩)
      simp [unread, bind, Except.bind]
    | ok next =>
      obtain ⟨taken, read, rfl⟩ := (heeds _ _ _).mp made
      rw [show (Except.ok (settings.put taken) >>= fun next => rest.foldlM accept next)
        = rest.foldlM accept (settings.put taken) from rfl, inductionHypothesis,
        List.filterMap_cons_some read, List.foldl_cons, List.forall_mem_cons, read]
      simp

end Parts

/-! ### From settings to options -/

/-- The options that settings stand for, in range or not. -/
def options (settings : Settings) : Options where
  pollInterval := .ofMillis settings.pollInterval
  staleAfter := settings.staleAfter.map .ofMillis
  maxPending := settings.maxPending.map (·.toNat)

end Settings

/-- The first option out of range is the first setting that is zero. -/
theorem flaw?_options (settings : Settings) :
    settings.options.flaw?
      = (Field.all.find? fun field => settings.get field == some 0).map Field.flaw := by
  have stale : (settings.options.staleAfter.any (·.isZero)) = (settings.staleAfter == some 0) := by
    show (settings.staleAfter.map Span.ofMillis).any _ = _
    cases settings.staleAfter with
    | none => rfl
    | some value => exact Span.isZero_ofMillis value
  have pending : (settings.options.maxPending == some 0) = (settings.maxPending == some 0) := by
    show (settings.maxPending.map _ == _) = _
    cases settings.maxPending with
    | none => rfl
    | some value =>
      rw [Option.map_some, Bool.eq_iff_iff, beq_iff_eq, beq_iff_eq, Option.some_inj, Option.some_inj,
        ← UInt64.toNat_inj]
      rfl
  have poll : settings.options.pollInterval.isZero = (some settings.pollInterval == some 0) :=
    Span.isZero_ofMillis settings.pollInterval
  unfold flaw?
  rw [poll, stale, pending]
  simp only [Field.all, List.find?_cons, List.find?_nil, Settings.get]
  cases some settings.pollInterval == some 0 <;> cases settings.staleAfter == some 0 <;>
    cases settings.maxPending == some 0 <;> rfl

theorem ofSettings_eq_map (settings : Settings) :
    ofSettings settings = settings.options.validate.map fun _ => settings.options := by
  have checked : ∀ outcome, settings.options.validate = outcome →
      ofSettings settings = outcome.map fun _ => settings.options := by
    intro outcome made
    unfold Settings.options at made
    unfold ofSettings
    dsimp only
    rw [made]
    cases outcome <;> rfl
  exact checked _ rfl

/-- Settings are refused for the first of them that is zero. -/
theorem ofSettings_eq (settings : Settings) :
    ofSettings settings
      = match Field.all.find? fun field => settings.get field == some 0 with
        | some field => .error (.invalidConfig field.flaw)
        | none => .ok settings.options := by
  rw [ofSettings_eq_map]
  unfold validate
  rw [flaw?_options]
  cases Field.all.find? fun field => settings.get field == some 0 <;> rfl

/-- Settings are in range just if none is zero. -/
theorem validate_options_eq_ok_iff (settings : Settings) :
    settings.options.validate = .ok () ↔ ∀ field, settings.get field ≠ some 0 := by
  have inRange : settings.options.validate = .ok () ↔ settings.options.flaw? = none := by
    unfold validate
    cases settings.options.flaw? <;> simp
  rw [inRange, flaw?_options, Option.map_eq_none_iff, List.find?_eq_none]
  simp only [beq_iff_eq]
  exact ⟨fun each field => each field (by cases field <;> decide), fun each field _ => each field⟩

theorem ofSettings_eq_ok_iff {settings : Settings} {options : Options} :
    ofSettings settings = .ok options
      ↔ (∀ field, settings.get field ≠ some 0) ∧ options = settings.options := by
  rw [ofSettings_eq_map, ← validate_options_eq_ok_iff]
  cases settings.options.validate <;> simp [Except.map, eq_comm]

end Correlator.Options
