import Mathlib.Data.List.Nodup
import Correlator.Options.Document
import Correlator.Proofs.Options.Datum
import Correlator.Proofs.Toml.Lines

/-!
Contract: the four ways to write options, and that they agree.

Owns: settings as they are to be written, their text, their record, their list and the options that are built up for
them step by step, what comes of them, and that each of the four comes to this.

Does not own: how a text becomes a table (`Correlator.Proofs.Toml.Lines`), and which trees of plain data are read
(`Correlator.Proofs.Options.Datum`).
-/

set_option autoImplicit false

namespace Correlator.Options

open Toml (IsPlainPair Lists)

/-- Settings in the order in which they are written, each of them at most once, with numbers that a document can
write. -/
structure Written where
  lines : List (Field × UInt64)
  once : (lines.map (·.1)).Nodup
  inRange : ∀ line ∈ lines, line.2.toNat < 0x8000000000000000

/-- Options with one more of them set. -/
def give (options : Options) (line : Field × UInt64) : Options :=
  match line.1 with
  | .pollInterval => options.withPollInterval (.ofMillis line.2)
  | .staleAfter => options.withStaleAfter (.ofMillis line.2)
  | .maxPending => options.withMaxPending line.2.toNat

/-- What is found under a name is still found once all names are replaced by others, one by one. -/
theorem lookup_map {name : Type} [BEq name] [LawfulBEq name] {α : Type} {rename : Field → name}
    (injective : ∀ {left right}, rename left = rename right → left = right) (change : UInt64 → α)
    (lines : List (Field × UInt64)) (field : Field) :
    (lines.map fun line => (rename line.1, change line.2)).lookup (rename field)
      = (lines.lookup field).map change := by
  induction lines with
  | nil => rfl
  | cons line lines inductionHypothesis =>
    have same : (rename field == rename line.1) = (field == line.1) := by
      rw [Bool.eq_iff_iff, beq_iff_eq, beq_iff_eq]
      exact ⟨injective, congrArg rename⟩
    rw [List.map_cons, List.lookup_cons, List.lookup_cons, same, inductionHypothesis]
    cases field == line.1 <;> rfl

namespace Written

/-- The number that is written for a setting. -/
def value? (written : Written) (field : Field) : Option UInt64 := written.lines.lookup field

/-! ### The four ways -/

/-- The document with a line for each setting, the last of which may be closed. -/
def document (written : Written) (closed : Bool) : String :=
  Toml.page (written.lines.map fun line => (line.1.name, line.2.toNat)) closed

/-- The record of the settings under their names. -/
def record (written : Written) : Datum :=
  .record (written.lines.map fun line => (line.1.name, .number (.natural line.2)))

/-- The list of all settings, with the default interval or null for those that are not given. -/
def list (written : Written) : Datum :=
  .list
    [.number (.natural ((written.value? .pollInterval).getD 10)),
      (written.value? .staleAfter).elim .null fun value => .number (.natural value),
      (written.value? .maxPending).elim .null fun value => .number (.natural value)]

/-- The default options with one setting after the other. -/
def built (written : Written) : Options := written.lines.foldl give {}

/-! ### What comes of them -/

/-- The options that are written, with the defaults for what is not given. -/
def options (written : Written) : Options where
  pollInterval := .ofMillis ((written.value? .pollInterval).getD 10)
  staleAfter := (written.value? .staleAfter).map .ofMillis
  maxPending := (written.value? .maxPending).map (·.toNat)

/-- The options, or what is wrong with the first setting that is written as zero. -/
def outcome (written : Written) : Except ClientError Options :=
  match Field.all.find? fun field => written.value? field == some 0 with
  | some field => .error (.invalidConfig field.flaw)
  | none => .ok written.options

/-- The settings that are written, with the defaults for what is not given. -/
def settings (written : Written) : Settings := .ofGiven written.value?

variable (written : Written)

theorem outcome_eq : written.outcome = ofSettings written.settings := by
  have zero : (fun field => written.settings.get field == some 0)
      = fun field => written.value? field == some 0 := by
    funext field
    unfold settings
    rw [Settings.get_ofGiven]
    cases written.value? field with
    | some value => rfl
    | none => cases field <;> decide
  rw [ofSettings_eq, zero]
  rfl

/-- Taken one after the other, in whatever order, the lines come to the settings. -/
theorem foldl_set :
    written.lines.foldl (fun settings line => settings.set line.2 line.1) {} = written.settings := by
  have puts : written.lines.foldl (fun settings line => settings.set line.2 line.1) {}
      = (written.lines.map fun line => (line.1, some line.2)).foldl Settings.put {} := by
    rw [List.foldl_map]
    rfl
  have once : ((written.lines.map fun line => (line.1, some line.2)).map (·.1)).Nodup := by
    rw [List.map_map]
    exact written.once
  have allows : ∀ part ∈ written.lines.map fun line => (line.1, some line.2), part.1.Allows part.2 := by
    intro part member
    obtain ⟨line, -, rfl⟩ := List.mem_map.mp member
    intro absent
    cases absent
  have found : ∀ field, (written.lines.map fun line => (line.1, some line.2)).lookup field
      = (written.value? field).map some :=
    lookup_map id some written.lines
  rw [puts]
  refine Settings.ext_get fun field => ?_
  unfold settings
  rw [Settings.get_foldl_put once allows, found, Settings.get_ofGiven]
  cases written.value? field <;> rfl

/-- The order of the lines makes no difference. -/
theorem outcome_eq_of_perm {left right : Written} (perm : left.lines.Perm right.lines) :
    left.outcome = right.outcome := by
  have same : left.value? = right.value? := by
    funext field
    refine Option.ext fun value => ?_
    exact (Settings.lookup_eq_some_iff_mem left.once).trans
      (perm.mem_iff.trans (Settings.lookup_eq_some_iff_mem right.once).symm)
  unfold outcome options
  rw [same]

/-! ### The document -/

/-- A line of a document is taken as the number for its setting. -/
theorem acceptPart_eq {line : Field × UInt64} {part : Toml.Key × Toml.Node}
    (lists : Lists (line.1.name, line.2.toNat) part) (settings : Settings) :
    settings.acceptPart part = .ok (settings.set line.2 line.1) := by
  obtain ⟨named, mark, given⟩ := lists
  have number : Numeral.ofInt line.2.toNat = .natural line.2 := by
    unfold Numeral.ofInt
    rw [if_pos (Int.natCast_nonneg _), Int.toNat_natCast, UInt64.ofNat_toNat]
  have accepted : settings.accept line.1 (.ofNode part.2) = .ok (settings.set line.2 line.1) := by
    rw [given, show Shape.ofNode (.scalar mark (.integer line.2.toNat)) = .number (.ofInt line.2.toNat) from rfl,
      number]
    rfl
  unfold Settings.acceptPart
  rw [Field.ofName?_eq_some_iff.mpr named]
  dsimp only
  rw [accepted]

theorem foldlM_acceptPart {lines : List (Field × UInt64)} {parts : List (Toml.Key × Toml.Node)}
    (listed : List.Forall₂ Lists (lines.map fun line => (line.1.name, line.2.toNat)) parts)
    (settings : Settings) :
    parts.foldlM Settings.acceptPart settings
      = .ok (lines.foldl (fun settings line => settings.set line.2 line.1) settings) := by
  induction lines generalizing parts settings with
  | nil =>
    cases listed
    rfl
  | cons line lines inductionHypothesis =>
    cases listed with
    | cons lists listed =>
      rw [List.foldlM_cons, acceptPart_eq lists]
      exact inductionHypothesis listed _

theorem isBareName_name (field : Field) : Toml.IsBareName field.name where
  nonempty := by
    cases field <;> decide
  bare := by
    have all : field.name.toList.all Toml.isBare = true := by
      cases field <;> rfl
    exact List.all_eq_true.mp all

theorem nodup_names : (written.lines.map fun line => line.1.name).Nodup := by
  have names := written.once.map fun _ _ => Field.name_injective
  rw [List.map_map] at names
  exact names

theorem ofDocument_document (closed : Bool) :
    ofDocument (written.document closed) = written.outcome := by
  have plain : ∀ pair ∈ written.lines.map fun line => (line.1.name, line.2.toNat), IsPlainPair pair := by
    intro pair member
    obtain ⟨line, listed, rfl⟩ := List.mem_map.mp member
    exact ⟨isBareName_name line.1, written.inRange line listed⟩
  have once : ((written.lines.map fun line => (line.1.name, line.2.toNat)).map (·.1)).Nodup := by
    rw [List.map_map]
    exact written.nodup_names
  obtain ⟨table, read, listed⟩ := Toml.exists_ofChars?_page plain once closed
  unfold ofDocument document
  dsimp only
  rw [read]
  dsimp only
  rw [foldlM_acceptPart listed, foldl_set, outcome_eq]

/-! ### The trees of plain data -/

/-- A tree that has just what is written comes to the same. -/
theorem ofDatum_eq {datum : Datum} (distinct : datum.HasDistinctNames) (formed : datum.IsFormed)
    (readable : datum.IsReadable) (same : datum.settings = written.settings) :
    ofDatum datum = written.outcome.mapError ClientError.message := by
  have read : Settings.ofDatum datum = .ok written.settings :=
    (Settings.ofDatum_eq_ok_iff distinct).mpr ⟨formed, readable, same.symm⟩
  unfold ofDatum
  rw [read, outcome_eq]
  dsimp only
  cases ofSettings written.settings <;> rfl

theorem written?_record (field : Field) :
    written.record.written? field = (written.value? field).map fun value => .number (.natural value) :=
  lookup_map Field.name_injective (fun value => Datum.number (.natural value)) written.lines field

theorem ofDatum_record : ofDatum written.record = written.outcome.mapError ClientError.message := by
  refine written.ofDatum_eq ?_ ?_ ?_ ?_
  · show ((written.lines.map _).map _).Nodup
    rw [List.map_map]
    exact written.nodup_names
  · intro part member
    obtain ⟨line, -, rfl⟩ := List.mem_map.mp member
    exact ⟨line.1, rfl⟩
  · intro field item own
    rw [written?_record] at own
    obtain ⟨value, -, rfl⟩ := Option.map_eq_some_iff.mp own
    rfl
  · refine congrArg Settings.ofGiven (funext fun field => ?_)
    unfold Datum.integer?
    rw [written?_record]
    cases written.value? field <;> rfl

theorem ofDatum_list : ofDatum written.list = written.outcome.mapError ClientError.message := by
  refine written.ofDatum_eq trivial (Nat.le_refl 3) ?_ (Settings.ext_get fun field => ?_)
  · intro field item own
    cases field with
    | pollInterval =>
      cases own
      rfl
    | staleAfter =>
      cases own
      cases written.value? .staleAfter <;> rfl
    | maxPending =>
      cases own
      cases written.value? .maxPending <;> rfl
  · unfold list
    cases field with
    | pollInterval => rfl
    | staleAfter =>
      show Datum.integer? (.list [_, _, _]) .staleAfter = written.value? .staleAfter
      cases written.value? .staleAfter <;> rfl
    | maxPending =>
      show Datum.integer? (.list [_, _, _]) .maxPending = written.value? .maxPending
      cases written.value? .maxPending <;> rfl

/-! ### The options built up -/

theorem options_give (settings : Settings) (line : Field × UInt64) :
    settings.options.give line = (settings.set line.2 line.1).options := by
  obtain ⟨field, value⟩ := line
  cases field <;> rfl

theorem built_eq : written.built = written.settings.options := by
  rw [← foldl_set]
  show written.lines.foldl give (Settings.options {}) = _
  exact List.foldl_hom Settings.options options_give

theorem map_validate_built :
    (written.built.validate.map fun _ => written.built) = written.outcome := by
  rw [built_eq, outcome_eq, ofSettings_eq_map]

/-- All ways to write the same options agree. Settings that are written as the lines of a document, as a record, as a
list or by one change of the default options after the other come to the same: to the options with the defaults for
what is not given if none of them is zero, and otherwise to what is wrong with the first that is, of the interval, the
threshold and the limit; from a tree of plain data, to its message. The order in which they are written makes no
difference. -/
theorem agreement :
    (∀ closed, ofDocument (written.document closed) = written.outcome)
      ∧ ofDatum written.record = written.outcome.mapError ClientError.message
      ∧ ofDatum written.list = written.outcome.mapError ClientError.message
      ∧ (written.built.validate.map fun _ => written.built) = written.outcome
      ∧ ∀ other : Written, written.lines.Perm other.lines → other.outcome = written.outcome :=
  ⟨written.ofDocument_document, written.ofDatum_record, written.ofDatum_list, written.map_validate_built,
    fun _ perm => (outcome_eq_of_perm perm).symm⟩

/-- Settings with the limit first, and two of them zero. -/
def shuffled : Written where
  lines := [(.maxPending, 0), (.pollInterval, 25), (.staleAfter, 0)]
  once := by decide
  inRange := by decide

/-- In each of the four ways, and in whatever order, what counts is the first setting that is zero, not the first
line. -/
theorem agreement_shuffled :
    shuffled.document true = "max_pending = 0\npoll_interval_ms = 25\nstale_after_ms = 0\n"
      ∧ ofDocument (shuffled.document true)
        = .error (.invalidConfig "stale-after threshold must be positive")
      ∧ ofDatum shuffled.record
        = .error "invalid client configuration: stale-after threshold must be positive"
      ∧ ofDatum shuffled.list
        = .error "invalid client configuration: stale-after threshold must be positive"
      ∧ shuffled.built.validate
        = .error (.invalidConfig "stale-after threshold must be positive")
      ∧ ∀ other : Written, shuffled.lines.Perm other.lines →
        other.outcome = .error (.invalidConfig "stale-after threshold must be positive") := by
  obtain ⟨document, record, list, built, reordered⟩ := shuffled.agreement
  have flawed : shuffled.outcome
      = .error (.invalidConfig "stale-after threshold must be positive") := rfl
  rw [flawed] at document record list built reordered
  refine ⟨by decide, document true, record, list, ?_, reordered⟩
  cases validated : shuffled.built.validate with
  | error error =>
    rw [validated] at built
    exact congrArg Except.error (Except.error.inj built)
  | ok =>
    rw [validated] at built
    cases built

end Written

end Correlator.Options
