import Correlator.Options.Datum
import Correlator.Proofs.Options.Settings

/-!
Contract: which trees of plain data are options, and which options they are.

Owns: what a tree writes for each setting, the form that written options have, and that just the trees of this
form are read, as the options that they stand for.

Does not own: the other ways to write options (`Correlator.Proofs.Options.Agreement`).
-/

set_option autoImplicit false

namespace Correlator

open Options (Field Settings Shape)

/-! ### The form -/

/-- Where a setting stands in a list of values. -/
def Options.Field.position : Field → Nat
  | .pollInterval => 0
  | .staleAfter => 1
  | .maxPending => 2

/-- What is accepted for a setting: a positive word, or null if the setting is optional. -/
def Options.Field.Admits (field : Field) : Datum → Prop
  | .number (.natural value) => 0 < value.toNat
  | .null => field.isOptional = true
  | _ => False

namespace Datum

/-- The names of a record are pairwise distinct. -/
def HasDistinctNames : Datum → Prop
  | .record fields => (fields.map (·.1)).Nodup
  | _ => True

/-- What is written for a setting: in a record under its name, in a list at its position. -/
def written? (datum : Datum) (field : Field) : Option Datum :=
  match datum with
  | .record fields => fields.lookup field.name
  | .list items => items[field.position]?
  | _ => none

/-- A record in which all names are those of settings, or a list of at most three items. -/
def IsFormed : Datum → Prop
  | .record fields => ∀ part ∈ fields, ∃ field : Field, part.1 = field.name
  | .list items => items.length ≤ 3
  | _ => False

/-- The form of written options. -/
structure Fits (datum : Datum) : Prop where
  formed : datum.IsFormed
  admitted : ∀ field item, datum.written? field = some item → field.Admits item

/-- The number that is written for a setting. -/
def integer? (datum : Datum) (field : Field) : Option UInt64 :=
  match datum.written? field with
  | some (.number (.natural value)) => some value
  | _ => none

/-- Options are what is written: numbers are milliseconds or the limit, and what is not given has its default. -/
structure StandsFor (datum : Datum) (options : Options) : Prop where
  pollInterval : options.pollInterval.toNanos
    = (datum.integer? .pollInterval).elim 10 (·.toNat) * 1000000
  staleAfter : options.staleAfter.map Span.toNanos
    = (datum.integer? .staleAfter).map fun value => value.toNat * 1000000
  maxPending : options.maxPending = (datum.integer? .maxPending).map (·.toNat)

/-- The settings that a tree writes. -/
def settings (datum : Datum) : Settings := .ofGiven datum.integer?

theorem standsFor_options (datum : Datum) : datum.StandsFor datum.settings.options where
  pollInterval := by
    show (Span.ofMillis ((datum.integer? .pollInterval).getD 10)).toNanos = _
    rw [Span.toNanos_ofMillis]
    cases datum.integer? .pollInterval <;> rfl
  staleAfter := by
    show ((datum.integer? .staleAfter).map Span.ofMillis).map Span.toNanos = _
    cases datum.integer? .staleAfter with
    | none => rfl
    | some value => exact congrArg some (Span.toNanos_ofMillis value)
  maxPending := rfl

/-- What is written for a setting fits it. -/
def IsReadable (datum : Datum) : Prop :=
  ∀ field item, datum.written? field = some item → (field.reads? (.ofDatum item)).isSome = true

theorem integer?_of_reads? {datum item : Datum} {field : Field} {value : Option UInt64}
    (written : datum.written? field = some item) (reads : field.reads? (.ofDatum item) = some value) :
    datum.integer? field = value := by
  unfold integer?
  rw [written]
  cases item with
  | number numeral =>
    cases numeral with
    | natural => cases reads; rfl
    | negative | real => cases reads
  | null =>
    unfold Options.Field.reads? Options.Shape.ofDatum at reads
    dsimp only at reads
    split at reads <;> cases reads
    rfl
  | _ => cases reads

/-- A setting that is not written has its default, -/
theorem get_settings_of_unwritten {datum : Datum} {field : Field}
    (unwritten : datum.written? field = none) :
    datum.settings.get field = ({} : Settings).get field := by
  unfold settings
  rw [Settings.get_ofGiven, show datum.integer? field = none by unfold integer?; rw [unwritten]]
  rfl

/-- and one that is written has what is written for it. -/
theorem get_settings_of_reads? {datum item : Datum} {field : Field} {value : Option UInt64}
    (written : datum.written? field = some item) (reads : field.reads? (.ofDatum item) = some value) :
    datum.settings.get field = value := by
  unfold settings
  rw [Settings.get_ofGiven, integer?_of_reads? written reads]
  cases value with
  | some value => rfl
  | none =>
    have optional := Options.Field.allows_of_reads? reads rfl
    cases field with
    | pollInterval => cases optional
    | _ => rfl

end Datum

namespace Options.Settings

variable {datum : Datum}

/-- If what is taken is what the tree writes, the settings are those of the tree. -/
theorem foldl_put_eq {taken : List (Field × Option UInt64)} (once : (taken.map (·.1)).Nodup)
    (own : ∀ field value, (field, value) ∈ taken
      ↔ ∃ item, datum.written? field = some item ∧ field.reads? (.ofDatum item) = some value)
    (readable : datum.IsReadable) : taken.foldl put {} = datum.settings := by
  have allows : ∀ part ∈ taken, part.1.Allows part.2 := fun part member => by
    obtain ⟨item, -, reads⟩ := (own part.1 part.2).mp member
    exact Field.allows_of_reads? reads
  refine ext_get fun field => ?_
  rw [get_foldl_put once allows]
  cases written : datum.written? field with
  | none =>
    have absent : taken.lookup field = none := by
      rw [Option.eq_none_iff_forall_ne_some]
      intro value found
      obtain ⟨item, listed, -⟩ := (own field value).mp ((lookup_eq_some_iff_mem once).mp found)
      cases written.symm.trans listed
    rw [absent, Datum.get_settings_of_unwritten written, Option.getD_none]
  | some item =>
    obtain ⟨value, reads⟩ := Option.isSome_iff_exists.mp (readable field item written)
    have found := (lookup_eq_some_iff_mem once).mpr ((own field value).mpr ⟨item, written, reads⟩)
    rw [found, Datum.get_settings_of_reads? written reads, Option.getD_some]

/-- Parts that are what the tree writes are taken just if what it writes fits, and come to its settings. -/
theorem foldlM_eq_ok_iff_readable {α ε : Type} {accept : Settings → α → Except ε Settings}
    {read? : α → Option (Field × Option UInt64)} {parts : List α} {formed : Prop}
    (heeds : ∀ settings part next, accept settings part = .ok next
      ↔ ∃ taken, read? part = some taken ∧ next = settings.put taken)
    (once : ((parts.filterMap read?).map (·.1)).Nodup)
    (own : ∀ field value, (field, value) ∈ parts.filterMap read?
      ↔ ∃ item, datum.written? field = some item ∧ field.reads? (.ofDatum item) = some value)
    (fits : (∀ part ∈ parts, (read? part).isSome = true) ↔ formed ∧ datum.IsReadable)
    {settings : Settings} :
    parts.foldlM accept {} = .ok settings
      ↔ formed ∧ datum.IsReadable ∧ settings = datum.settings := by
  rw [foldlM_eq_ok_iff heeds, fits, and_assoc]
  exact and_congr_right fun _ => and_congr_right fun readable => by
    rw [foldl_put_eq once own readable]

/-! ### Records -/

/-- A value that a record has under a name, for the setting of this name. -/
def readNamed? (part : String × Datum) : Option (Field × Option UInt64) :=
  (Field.ofName? part.1).bind fun field => (field.reads? (.ofDatum part.2)).map (field, ·)

theorem readNamed?_eq_some_iff {part : String × Datum} {taken : Field × Option UInt64} :
    readNamed? part = some taken
      ↔ part.1 = taken.1.name ∧ taken.1.reads? (.ofDatum part.2) = some taken.2 := by
  unfold readNamed?
  constructor
  · intro read
    obtain ⟨field, named, read⟩ := Option.bind_eq_some_iff.mp read
    obtain ⟨value, reads, rfl⟩ := Option.map_eq_some_iff.mp read
    exact ⟨Field.ofName?_eq_some_iff.mp named, reads⟩
  · rintro ⟨named, reads⟩
    rw [Field.ofName?_eq_some_iff.mpr named, Option.bind_some, reads]
    rfl

theorem acceptNamed_eq_ok_iff (settings : Settings) (part : String × Datum) (next : Settings) :
    settings.acceptNamed part = .ok next
      ↔ ∃ taken, readNamed? part = some taken ∧ next = settings.put taken := by
  unfold acceptNamed readNamed?
  cases Field.ofName? part.1 with
  | none => simp
  | some field =>
    dsimp only
    rw [accept_eq_ok_iff]
    simp

theorem ofRecord_eq_ok_iff {fields : List (String × Datum)} (distinct : (fields.map (·.1)).Nodup)
    {settings : Settings} :
    ofRecord fields = .ok settings
      ↔ (Datum.record fields).IsFormed ∧ (Datum.record fields).IsReadable
        ∧ settings = (Datum.record fields).settings := by
  unfold ofRecord
  generalize order : fields.mergeSort (fun left right => !(right.1 < left.1)) = sorted
  have perm : sorted.Perm fields := order ▸ List.mergeSort_perm fields _
  have listed : ∀ {field : Field} {item : Datum}, (Datum.record fields).written? field = some item
      ↔ (field.name, item) ∈ sorted := fun {field item} =>
    (lookup_eq_some_iff_mem distinct).trans perm.mem_iff.symm
  have fits : (∀ part ∈ sorted, (readNamed? part).isSome = true)
      ↔ (Datum.record fields).IsFormed ∧ (Datum.record fields).IsReadable := by
    constructor
    · intro read
      refine ⟨fun part member => ?_, fun field item written => ?_⟩
      · obtain ⟨taken, own⟩ := Option.isSome_iff_exists.mp (read part (perm.mem_iff.mpr member))
        exact ⟨taken.1, (readNamed?_eq_some_iff.mp own).1⟩
      · obtain ⟨taken, own⟩ := Option.isSome_iff_exists.mp (read _ (listed.mp written))
        obtain ⟨named, reads⟩ := readNamed?_eq_some_iff.mp own
        rw [Field.name_injective named, reads]
        rfl
    · rintro ⟨formed, readable⟩ part member
      obtain ⟨field, named⟩ := formed part (perm.mem_iff.mp member)
      have written : (Datum.record fields).written? field = some part.2 :=
        listed.mpr (named ▸ member)
      obtain ⟨value, reads⟩ := Option.isSome_iff_exists.mp (readable field part.2 written)
      have own : readNamed? part = some (field, value) := readNamed?_eq_some_iff.mpr ⟨named, reads⟩
      rw [own]
      rfl
  have once : ((sorted.filterMap readNamed?).map (·.1)).Nodup := by
    have names : sorted.Pairwise fun left right => left.1 ≠ right.1 :=
      List.pairwise_map.mp ((perm.map Prod.fst).nodup_iff.mpr distinct)
    refine List.pairwise_map.mpr (names.filterMap _ fun left right different one read two reads => ?_)
    rintro same
    refine different ?_
    rw [(readNamed?_eq_some_iff.mp read).1, (readNamed?_eq_some_iff.mp reads).1, same]
  have own : ∀ field value, (field, value) ∈ sorted.filterMap readNamed?
      ↔ ∃ item, (Datum.record fields).written? field = some item
        ∧ field.reads? (.ofDatum item) = some value := by
    intro field value
    rw [List.mem_filterMap]
    constructor
    · rintro ⟨part, member, read⟩
      obtain ⟨named, reads⟩ := readNamed?_eq_some_iff.mp read
      exact ⟨part.2, listed.mpr (named ▸ member), reads⟩
    · rintro ⟨item, written, reads⟩
      exact ⟨_, listed.mp written, readNamed?_eq_some_iff.mpr ⟨rfl, reads⟩⟩
  exact foldlM_eq_ok_iff_readable acceptNamed_eq_ok_iff once own fits

/-! ### Lists -/

/-- A value at the position of a setting. -/
def readPlaced? (part : Field × Datum) : Option (Field × Option UInt64) :=
  (part.1.reads? (.ofDatum part.2)).map (part.1, ·)

def acceptPlaced (settings : Settings) (part : Field × Datum) : Except Mismatch Settings :=
  settings.accept part.1 (.ofDatum part.2)

theorem acceptPlaced_eq_ok_iff (settings : Settings) (part : Field × Datum) (next : Settings) :
    settings.acceptPlaced part = .ok next
      ↔ ∃ taken, readPlaced? part = some taken ∧ next = settings.put taken := by
  unfold readPlaced? acceptPlaced
  rw [accept_eq_ok_iff]
  simp

theorem mem_zip_all {items : List Datum} {field : Field} {item : Datum} :
    (field, item) ∈ Field.all.zip items ↔ (Datum.list items).written? field = some item := by
  show (field, item) ∈ List.zip [.pollInterval, .staleAfter, .maxPending] items
    ↔ items[field.position]? = some item
  rcases items with _ | ⟨first, _ | ⟨second, _ | ⟨third, rest⟩⟩⟩ <;>
    cases field <;> simp [Field.position, eq_comm]

theorem foldlM_acceptPlaced_eq_ok_iff {items : List Datum} {settings : Settings} :
    (Field.all.zip items).foldlM acceptPlaced {} = .ok settings
      ↔ (Datum.list items).IsReadable ∧ settings = (Datum.list items).settings := by
  have own : ∀ field value, (field, value) ∈ (Field.all.zip items).filterMap readPlaced?
      ↔ ∃ item, (Datum.list items).written? field = some item
        ∧ field.reads? (.ofDatum item) = some value := by
    intro field value
    rw [List.mem_filterMap]
    constructor
    · rintro ⟨part, member, read⟩
      obtain ⟨known, reads, same⟩ := Option.map_eq_some_iff.mp read
      cases same
      exact ⟨part.2, mem_zip_all.mp member, reads⟩
    · rintro ⟨item, written, reads⟩
      refine ⟨_, mem_zip_all.mpr written, ?_⟩
      unfold readPlaced?
      rw [reads]
      rfl
  have once : (((Field.all.zip items).filterMap readPlaced?).map (·.1)).Nodup := by
    have distinct : (Field.all.zip items).Pairwise fun left right => left.1 ≠ right.1 := by
      rcases items with _ | ⟨first, _ | ⟨second, _ | ⟨third, rest⟩⟩⟩ <;> simp [Field.all]
    refine List.pairwise_map.mpr (distinct.filterMap _ fun left right apart one read two reads => ?_)
    obtain ⟨_, -, rfl⟩ := Option.map_eq_some_iff.mp read
    obtain ⟨_, -, rfl⟩ := Option.map_eq_some_iff.mp reads
    exact apart
  have fits : (∀ part ∈ Field.all.zip items, (readPlaced? part).isSome = true)
      ↔ True ∧ (Datum.list items).IsReadable := by
    unfold readPlaced?
    simp only [Option.isSome_map, true_and]
    exact ⟨fun read field item written => read _ (mem_zip_all.mpr written),
      fun readable part member => readable _ _ (mem_zip_all.mp member)⟩
  rw [foldlM_eq_ok_iff_readable acceptPlaced_eq_ok_iff once own fits, true_and]

theorem ofList_eq_ok_iff {items : List Datum} {settings : Settings} :
    ofList items = .ok settings
      ↔ (Datum.list items).IsFormed ∧ (Datum.list items).IsReadable
        ∧ settings = (Datum.list items).settings := by
  have unfolded : ofList items = (Field.all.zip items).foldlM acceptPlaced {} >>= fun settings =>
      if 3 < items.length then .error (.surplus items.length) else .ok settings := rfl
  rw [unfolded, ← foldlM_acceptPlaced_eq_ok_iff]
  show _ ↔ items.length ≤ 3 ∧ _
  cases (Field.all.zip items).foldlM acceptPlaced {} with
  | error mismatch => simp [bind, Except.bind]
  | ok taken =>
    show (if 3 < items.length then Except.error _ else Except.ok taken) = _ ↔ _
    split
    next surplus => simp [Nat.not_le.mpr surplus]
    next few => simp [Nat.not_lt.mp few]

/-- A tree is read just if it has the form of settings and all that it writes fits. -/
theorem ofDatum_eq_ok_iff (distinct : datum.HasDistinctNames) {settings : Settings} :
    ofDatum datum = .ok settings
      ↔ datum.IsFormed ∧ datum.IsReadable ∧ settings = datum.settings := by
  cases datum with
  | record fields => exact ofRecord_eq_ok_iff distinct
  | list items => exact ofList_eq_ok_iff
  | null | boolean | number | text =>
    constructor
    · intro read
      cases read
    · intro given
      exact given.1.elim

end Options.Settings

namespace Datum

variable {datum : Datum}

/-- What is admitted for a setting is what fits it and is not zero. -/
theorem admits_iff {item : Datum} {field : Field} :
    field.Admits item
      ↔ ∃ value, field.reads? (.ofDatum item) = some value ∧ value ≠ some 0 := by
  cases item with
  | number numeral =>
    cases numeral with
    | natural value =>
      have positive : 0 < value.toNat ↔ value ≠ 0 := by
        rw [Nat.pos_iff_ne_zero, ne_eq, ne_eq, ← UInt64.toNat_inj]
        rfl
      simp [Field.Admits, Field.reads?, Shape.ofDatum, positive]
    | negative | real => simp [Field.Admits, Field.reads?, Shape.ofDatum]
  | null => simp [Field.Admits, Field.reads?, Shape.ofDatum]
  | _ => simp [Field.Admits, Field.reads?, Shape.ofDatum]

/-- A tree fits just if it can be read and none of its settings is zero. -/
theorem fits_iff :
    datum.Fits ↔ datum.IsFormed ∧ datum.IsReadable ∧ ∀ field, datum.settings.get field ≠ some 0 := by
  constructor
  · rintro ⟨formed, admitted⟩
    refine ⟨formed, fun field item written => ?_, fun field => ?_⟩
    · obtain ⟨value, reads, -⟩ := admits_iff.mp (admitted field item written)
      rw [reads]
      rfl
    · cases written : datum.written? field with
      | none =>
        rw [get_settings_of_unwritten written]
        cases field <;> decide
      | some item =>
        obtain ⟨value, reads, positive⟩ := admits_iff.mp (admitted field item written)
        rw [get_settings_of_reads? written reads]
        exact positive
  · rintro ⟨formed, readable, positive⟩
    refine ⟨formed, fun field item written => ?_⟩
    obtain ⟨value, reads⟩ := Option.isSome_iff_exists.mp (readable field item written)
    exact admits_iff.mpr ⟨value, reads, get_settings_of_reads? written reads ▸ positive field⟩

end Datum

namespace Options

theorem ofDatum_eq_ok_iff {datum : Datum} (distinct : datum.HasDistinctNames) {options : Options} :
    ofDatum datum = .ok options ↔ datum.Fits ∧ options = datum.settings.options := by
  have both : ofDatum datum = .ok options
      ↔ ∃ settings, Settings.ofDatum datum = .ok settings ∧ ofSettings settings = .ok options := by
    unfold ofDatum
    cases Settings.ofDatum datum with
    | error mismatch => simp
    | ok settings =>
      dsimp only
      cases made : ofSettings settings <;> simp [made]
  rw [both, Datum.fits_iff]
  simp only [Settings.ofDatum_eq_ok_iff distinct, ofSettings_eq_ok_iff]
  constructor
  · rintro ⟨settings, ⟨formed, readable, rfl⟩, positive, same⟩
    exact ⟨⟨formed, readable, positive⟩, same⟩
  · rintro ⟨⟨formed, readable, positive⟩, same⟩
    exact ⟨_, ⟨formed, readable, rfl⟩, positive, same⟩

/-- The decoder accepts exactly its format. A tree of plain data is read as options just if it is a record in which
all names are those of settings, or a list of at most three items, and what it has for a setting is a positive word,
or null for one that is optional. The options are then those that it stands for, to the millisecond and with the
defaults for what is not given, and they are in range. -/
theorem decoding {datum : Datum} (distinct : datum.HasDistinctNames) :
    ((∃ options, ofDatum datum = .ok options) ↔ datum.Fits)
      ∧ ∀ options, ofDatum datum = .ok options →
        datum.StandsFor options ∧ options.validate = .ok () := by
  refine ⟨?_, fun options read => ?_⟩
  · simp only [ofDatum_eq_ok_iff distinct, exists_and_left, exists_eq, and_true]
  · obtain ⟨fits, rfl⟩ := (ofDatum_eq_ok_iff distinct).mp read
    exact ⟨datum.standsFor_options,
      (validate_options_eq_ok_iff _).mpr (Datum.fits_iff.mp fits).2.2⟩

/-- A record that leaves the threshold open before it gives the interval. -/
def disordered : Datum :=
  .record [("stale_after_ms", .null), ("poll_interval_ms", .number (.natural 25))]

theorem fits_disordered : disordered.Fits where
  formed := by
    intro part member
    rcases member with _ | ⟨_, _ | ⟨_, member⟩⟩
    · exact ⟨.staleAfter, rfl⟩
    · exact ⟨.pollInterval, rfl⟩
    · cases member
  admitted := by
    intro field item written
    cases field with
    | pollInterval =>
      cases written
      exact Nat.succ_pos 24
    | staleAfter =>
      cases written
      rfl
    | maxPending => cases written

theorem decoding_disordered :
    disordered.HasDistinctNames
      ∧ ∃ options, ofDatum disordered = .ok options ∧ disordered.StandsFor options
        ∧ options.pollInterval.toNanos = 25000000 ∧ options.validate = .ok () := by
  have distinct : disordered.HasDistinctNames := by
    show ["stale_after_ms", "poll_interval_ms"].Nodup
    decide
  obtain ⟨options, read⟩ := (decoding distinct).1.mpr fits_disordered
  obtain ⟨stands, valid⟩ := (decoding distinct).2 options read
  exact ⟨distinct, options, read, stands, stands.pollInterval, valid⟩

end Options

end Correlator
