import Mathlib.Data.List.Basic
import Correlator.Pending.Table

/-!
Contract: what the operations of a pending table do to its rows.

Owns: the filing order of a table and its preservation, membership after each operation, and the
counts of rows with a given property before and after each operation.

Does not own: which operation a client performs when (`Correlator.Proofs.Client.Exit`).
-/

set_option autoImplicit false

namespace Correlator

namespace Sequence

theorem lt_irrefl (sequence : Sequence) : ¬ sequence < sequence :=
  UInt64.lt_irrefl sequence.number

theorem lt_trans {first second third : Sequence} (low : first < second) (high : second < third) :
    first < third :=
  UInt64.lt_trans low high

theorem eq_or_lt_of_not_lt {left right : Sequence} (notBelow : ¬ left < right) :
    right = left ∨ right < left := by
  rcases UInt64.lt_or_eq_of_le (UInt64.not_lt.mp notBelow) with below | equal
  · exact Or.inr below
  · left
    cases left
    cases right
    exact congrArg Sequence.mk equal

end Sequence

namespace Pending.Table

variable {κ : Type}

/-- A table in order: the numbers ascend strictly, and every entry is under its own number. -/
structure Filed (table : Table κ) : Prop where
  ascending : table.rows.Pairwise fun left right => left.1 < right.1
  own : ∀ row ∈ table.rows, row.1 = row.2.sequence

def count (table : Table κ) (property : Sequence × Entry κ → Bool) : Nat :=
  table.rows.countP property

theorem count_true (table : Table κ) : table.count (fun _ => true) = table.size := by
  simp [count, size]

/-! ### The empty table -/

theorem filed_empty : (empty : Table κ).Filed :=
  ⟨List.Pairwise.nil, by simp [empty]⟩

theorem count_empty (property : Sequence × Entry κ → Bool) :
    (empty : Table κ).count property = 0 := rfl

/-! ### Looking up -/

theorem mem_of_find? {table : Table κ} {sequence : Sequence} {entry : Entry κ}
    (found : table.find? sequence = some entry) : (sequence, entry) ∈ table.rows := by
  unfold find? at found
  obtain ⟨row, search, rfl⟩ := Option.map_eq_some_iff.mp found
  have same : row.1 = sequence := by simpa using List.find?_some search
  have member := List.mem_of_find?_eq_some search
  rw [← same]
  exact member

/-- In a table in order no number has two entries. -/
theorem Filed.unique {table : Table κ} (filed : table.Filed) {left right : Sequence × Entry κ}
    (leftMember : left ∈ table.rows) (rightMember : right ∈ table.rows)
    (same : left.1 = right.1) : left = right := by
  refine List.Pairwise.forall_of_forall_of_flip (R := fun left right => left.1 = right.1 → left = right)
    (fun row _ _ => rfl) (filed.ascending.imp ?_) (filed.ascending.imp ?_) leftMember rightMember same
  · intro left right below equal
    rw [equal] at below
    exact absurd below (Sequence.lt_irrefl _)
  · intro left right below equal
    rw [equal] at below
    exact absurd below (Sequence.lt_irrefl _)

theorem find?_eq_some_iff {table : Table κ} (filed : table.Filed) {sequence : Sequence}
    {entry : Entry κ} :
    table.find? sequence = some entry ↔ (sequence, entry) ∈ table.rows := by
  refine ⟨mem_of_find?, fun member => ?_⟩
  cases search : table.rows.find? (·.1 == sequence) with
  | none =>
    have other := List.find?_eq_none.mp search _ member
    simp at other
  | some row =>
    have same : row.1 = sequence := by simpa using List.find?_some search
    have equal := filed.unique (List.mem_of_find?_eq_some search) member same
    simp [find?, search, equal]

theorem contains_of_find? {table : Table κ} {sequence : Sequence} {entry : Entry κ}
    (found : table.find? sequence = some entry) : table.contains sequence = true :=
  Option.isSome_iff_exists.mpr ⟨entry, found⟩

theorem contains_iff {table : Table κ} {sequence : Sequence} :
    table.contains sequence = true ↔ ∃ entry, (sequence, entry) ∈ table.rows := by
  constructor
  · intro contained
    obtain ⟨entry, found⟩ := Option.isSome_iff_exists.mp contained
    exact ⟨entry, mem_of_find? found⟩
  · rintro ⟨entry, member⟩
    unfold contains find?
    rw [Option.isSome_map, List.find?_isSome]
    exact ⟨(sequence, entry), member, by simp⟩

theorem Filed.sequence_of_find? {table : Table κ} (filed : table.Filed) {sequence : Sequence}
    {entry : Entry κ} (found : table.find? sequence = some entry) :
    entry.future.sequence = sequence :=
  (filed.own _ (mem_of_find? found)).symm

theorem Filed.count_sequence {table : Table κ} (filed : table.Filed) (sequence : Sequence) :
    table.count (·.1 == sequence) = if table.contains sequence then 1 else 0 := by
  have atMostOne : table.count (·.1 == sequence) ≤ 1 := by
    have unique : (table.rows.filter (·.1 == sequence)).Pairwise fun left right => left.1 < right.1 :=
      filed.ascending.sublist List.filter_sublist
    have equal : ∀ row ∈ table.rows.filter (·.1 == sequence), row.1 = sequence := by
      intro row member
      simpa using (List.mem_filter.mp member).2
    unfold count
    rw [List.countP_eq_length_filter]
    match rows : table.rows.filter (·.1 == sequence) with
    | [] => simp [rows]
    | [_] => simp [rows]
    | first :: second :: _ =>
      -- Two rows under one number do not ascend.
      rw [rows] at unique equal
      have below := (List.pairwise_cons.mp unique).1 second (by simp)
      rw [equal first (by simp), equal second (by simp)] at below
      exact absurd below (Sequence.lt_irrefl _)
  by_cases contained : table.contains sequence = true
  · obtain ⟨entry, member⟩ := contains_iff.mp contained
    have positive : 0 < table.count (·.1 == sequence) :=
      List.countP_pos_iff.mpr ⟨_, member, by simp⟩
    rw [if_pos contained]
    omega
  · rw [if_neg contained]
    refine List.countP_eq_zero.mpr fun row member same => contained (contains_iff.mpr ⟨row.2, ?_⟩)
    have equal : row.1 = sequence := by simpa using same
    rw [← equal]
    exact member

/-! ### Putting in -/

theorem mem_place {sequence : Sequence} {entry : Entry κ} {rows : List (Sequence × Entry κ)}
    {row : Sequence × Entry κ} :
    row ∈ place sequence entry rows ↔ row = (sequence, entry) ∨ row ∈ rows := by
  induction rows with
  | nil => simp [place]
  | cons head tail inductionHypothesis =>
    unfold place
    split
    · simp
    · simp only [List.mem_cons, inductionHypothesis]
      tauto

theorem countP_place (property : Sequence × Entry κ → Bool) (sequence : Sequence)
    (entry : Entry κ) (rows : List (Sequence × Entry κ)) :
    (place sequence entry rows).countP property
      = rows.countP property + if property (sequence, entry) then 1 else 0 := by
  induction rows with
  | nil => simp [place, List.countP_cons]
  | cons head tail inductionHypothesis =>
    unfold place
    split
    · rw [List.countP_cons]
    · rw [List.countP_cons, List.countP_cons, inductionHypothesis]
      omega

private theorem pairwise_place {sequence : Sequence} {entry : Entry κ}
    {rows : List (Sequence × Entry κ)}
    (ascending : rows.Pairwise fun left right => left.1 < right.1)
    (absent : ∀ row ∈ rows, row.1 ≠ sequence) :
    (place sequence entry rows).Pairwise fun left right => left.1 < right.1 := by
  induction rows with
  | nil => simp [place]
  | cons head tail inductionHypothesis =>
    obtain ⟨headBelow, tailAscending⟩ := List.pairwise_cons.mp ascending
    unfold place
    split
    next below =>
      refine List.pairwise_cons.mpr ⟨?_, ascending⟩
      intro row member
      rcases List.mem_cons.mp member with rfl | inTail
      · exact below
      · exact Sequence.lt_trans below (headBelow row inTail)
    next notBelow =>
      have headSmaller : head.1 < sequence :=
        (Sequence.eq_or_lt_of_not_lt notBelow).resolve_left (absent head (by simp))
      refine List.pairwise_cons.mpr
        ⟨?_, inductionHypothesis tailAscending fun row member => absent row (by simp [member])⟩
      intro row member
      rcases mem_place.mp member with rfl | inTail
      · exact headSmaller
      · exact headBelow row inTail

theorem insert?_eq_some {table grown : Table κ} {entry : Entry κ}
    (inserted : table.insert? entry = some grown) :
    table.contains entry.sequence = false ∧ grown = ⟨place entry.sequence entry table.rows⟩ := by
  unfold insert? at inserted
  split at inserted
  · cases inserted
  next free => exact ⟨by simpa using free, (Option.some.inj inserted).symm⟩

theorem insert?_eq_none {table : Table κ} {entry : Entry κ} :
    table.insert? entry = none ↔ table.contains entry.sequence = true := by
  unfold insert?
  split
  next taken => simp [taken]
  next free => simpa using free

theorem mem_insert? {table grown : Table κ} {entry : Entry κ}
    (inserted : table.insert? entry = some grown) (row : Sequence × Entry κ) :
    row ∈ grown.rows ↔ row = (entry.sequence, entry) ∨ row ∈ table.rows := by
  obtain ⟨-, rfl⟩ := insert?_eq_some inserted
  exact mem_place

theorem count_insert? {table grown : Table κ} {entry : Entry κ}
    (inserted : table.insert? entry = some grown) (property : Sequence × Entry κ → Bool) :
    grown.count property
      = table.count property + if property (entry.sequence, entry) then 1 else 0 := by
  obtain ⟨-, rfl⟩ := insert?_eq_some inserted
  exact countP_place property entry.sequence entry table.rows

theorem Filed.insert? {table grown : Table κ} (filed : table.Filed) {entry : Entry κ}
    (inserted : table.insert? entry = some grown) : grown.Filed := by
  obtain ⟨free, rfl⟩ := insert?_eq_some inserted
  constructor
  · refine pairwise_place filed.ascending fun row member same => ?_
    have contained : table.contains entry.sequence = true :=
      contains_iff.mpr ⟨row.2, same ▸ member⟩
    rw [free] at contained
    cases contained
  · intro row member
    rcases mem_place.mp member with rfl | old
    · rfl
    · exact filed.own row old

/-! ### Taking out -/

theorem remove?_eq_some {table rest : Table κ} {sequence : Sequence} {entry : Entry κ}
    (removed : table.remove? sequence = some (entry, rest)) :
    table.find? sequence = some entry ∧ rest = table.erase sequence := by
  unfold remove? at removed
  obtain ⟨found, search, equal⟩ := Option.map_eq_some_iff.mp removed
  cases equal
  exact ⟨search, rfl⟩

theorem remove?_eq_none {table : Table κ} {sequence : Sequence} :
    table.remove? sequence = none ↔ table.contains sequence = false := by
  simp [remove?, contains]

theorem Filed.filter {table : Table κ} (filed : table.Filed)
    (property : Sequence × Entry κ → Bool) :
    (⟨table.rows.filter property⟩ : Table κ).Filed :=
  ⟨filed.ascending.sublist List.filter_sublist,
    fun row member => filed.own row (List.mem_filter.mp member).1⟩

theorem Filed.erase {table : Table κ} (filed : table.Filed) (sequence : Sequence) :
    (table.erase sequence).Filed :=
  filed.filter _

/-- The rows that stay and the rows that go make up all rows. -/
theorem countP_filter_add (rows : List (Sequence × Entry κ))
    (leaves property : Sequence × Entry κ → Bool) :
    (rows.filter fun row => !leaves row).countP property + (rows.filter leaves).countP property
      = rows.countP property := by
  induction rows with
  | nil => rfl
  | cons head tail inductionHypothesis =>
    by_cases goes : leaves head = true <;> simp [List.countP_cons, goes] <;> omega

theorem Filed.filter_sequence {table : Table κ} (filed : table.Filed) {sequence : Sequence}
    {entry : Entry κ} (found : table.find? sequence = some entry) :
    table.rows.filter (·.1 == sequence) = [(sequence, entry)] := by
  have member := mem_of_find? found
  have one : (table.rows.filter (·.1 == sequence)).length = 1 := by
    rw [← List.countP_eq_length_filter]
    have counted := filed.count_sequence sequence
    rw [contains_iff.mpr ⟨entry, member⟩] at counted
    exact counted
  obtain ⟨row, only⟩ := List.length_eq_one_iff.mp one
  have inside : (sequence, entry) ∈ table.rows.filter (·.1 == sequence) :=
    List.mem_filter.mpr ⟨member, by simp⟩
  rw [only, List.mem_singleton] at inside
  rw [only, inside]

theorem Filed.count_erase {table : Table κ} (filed : table.Filed) {sequence : Sequence}
    {entry : Entry κ} (found : table.find? sequence = some entry)
    (property : Sequence × Entry κ → Bool) :
    (table.erase sequence).count property + (if property (sequence, entry) then 1 else 0)
      = table.count property := by
  have parts := countP_filter_add table.rows (·.1 == sequence) property
  rw [filed.filter_sequence found] at parts
  simpa [count, Table.erase, bne, List.countP_cons] using parts

/-- To take an entry out makes the rows fewer by its row at least. -/
theorem count_erase_le {table : Table κ} {sequence : Sequence} {entry : Entry κ}
    (found : table.find? sequence = some entry) (property : Sequence × Entry κ → Bool) :
    (table.erase sequence).count property + (if property (sequence, entry) then 1 else 0)
      ≤ table.count property := by
  have parts := countP_filter_add table.rows (·.1 == sequence) property
  have inside : (sequence, entry) ∈ table.rows.filter (·.1 == sequence) :=
    List.mem_filter.mpr ⟨mem_of_find? found, by simp⟩
  have gone : (if property (sequence, entry) then 1 else 0)
      ≤ (table.rows.filter (·.1 == sequence)).countP property := by
    split
    next holds => exact List.countP_pos_iff.mpr ⟨_, inside, holds⟩
    next => exact Nat.zero_le _
  have rest : (table.erase sequence).count property
      = (table.rows.filter fun row => !(row.1 == sequence)).countP property := rfl
  have all : table.count property = table.rows.countP property := rfl
  omega

theorem count_filter_le (table : Table κ) (stays property : Sequence × Entry κ → Bool) :
    count ⟨table.rows.filter stays⟩ property ≤ table.count property :=
  List.Sublist.countP_le List.filter_sublist

/-! ### The futures of a table -/

/-- The entry of a future is in the table, with this callback. -/
def Tracks (table : Table κ) (future : Future) (callback : Option κ) : Prop :=
  ∃ entry, (future.sequence, entry) ∈ table.rows ∧ entry.future = future
    ∧ entry.callback = callback

theorem not_tracks_empty (future : Future) (callback : Option κ) :
    ¬ (empty : Table κ).Tracks future callback := by
  rintro ⟨entry, member, -⟩
  cases member

theorem tracks_insert? {table grown : Table κ} {entry : Entry κ}
    (inserted : table.insert? entry = some grown) (future : Future) (callback : Option κ) :
    grown.Tracks future callback ↔
      (future = entry.future ∧ callback = entry.callback) ∨ table.Tracks future callback := by
  unfold Tracks
  simp only [mem_insert? inserted]
  constructor
  · rintro ⟨found, equal | old, rfl, rfl⟩
    · have same : found = entry := congrArg Prod.snd equal
      subst same
      exact Or.inl ⟨rfl, rfl⟩
    · exact Or.inr ⟨found, old, rfl, rfl⟩
  · rintro (⟨rfl, rfl⟩ | ⟨found, old, rfl, rfl⟩)
    · exact ⟨entry, Or.inl rfl, rfl, rfl⟩
    · exact ⟨found, Or.inr old, rfl, rfl⟩

theorem Filed.tracks_of_mem {table : Table κ} (filed : table.Filed) {row : Sequence × Entry κ}
    (member : row ∈ table.rows) : table.Tracks row.2.future row.2.callback := by
  have key : row.1 = row.2.future.sequence := filed.own row member
  refine ⟨row.2, ?_, rfl, rfl⟩
  rw [← key]
  exact member

theorem Filed.tracks_of_find? {table : Table κ} (filed : table.Filed) {sequence : Sequence}
    {entry : Entry κ} (found : table.find? sequence = some entry) :
    table.Tracks entry.future entry.callback :=
  filed.tracks_of_mem (mem_of_find? found)

theorem Filed.tracks_iff {table : Table κ} (filed : table.Filed) (future : Future) :
    (∃ callback, table.Tracks future callback) ↔
      ∃ entry, table.find? future.sequence = some entry ∧ entry.future = future := by
  constructor
  · rintro ⟨callback, entry, member, own, -⟩
    exact ⟨entry, (find?_eq_some_iff filed).mpr member, own⟩
  · rintro ⟨entry, found, own⟩
    exact ⟨entry.callback, entry, mem_of_find? found, own, rfl⟩

/-- In a table in order a number determines the future that is pending under it. -/
theorem Filed.future_eq {table : Table κ} (filed : table.Filed) {left right : Future}
    (leftTracked : ∃ callback, table.Tracks left callback)
    (rightTracked : ∃ callback, table.Tracks right callback)
    (same : left.sequence = right.sequence) : left = right := by
  obtain ⟨leftEntry, leftFound, rfl⟩ := (filed.tracks_iff left).mp leftTracked
  obtain ⟨rightEntry, rightFound, rfl⟩ := (filed.tracks_iff right).mp rightTracked
  rw [same, rightFound] at leftFound
  cases leftFound
  rfl

theorem Filed.nodup_futures {table : Table κ} (filed : table.Filed) :
    (table.rows.map fun row => row.2.future).Nodup := by
  have distinct : table.rows.Pairwise fun left right => left.2.future ≠ right.2.future := by
    refine List.Pairwise.imp_of_mem ?_ filed.ascending
    intro left right leftMember rightMember below same
    have equal : left.1 = right.1 := by
      rw [filed.own left leftMember, filed.own right rightMember]
      exact congrArg Future.sequence same
    rw [equal] at below
    exact Sequence.lt_irrefl _ below
  exact List.pairwise_map.mpr distinct

theorem Filed.tracks_filter {table : Table κ} (filed : table.Filed)
    (leaves : Sequence × Entry κ → Bool) (future : Future) (callback : Option κ) :
    (⟨table.rows.filter fun row => !leaves row⟩ : Table κ).Tracks future callback ↔
      table.Tracks future callback
        ∧ future ∉ (table.rows.filter leaves).map fun row => row.2.future := by
  constructor
  · rintro ⟨entry, kept, rfl, same⟩
    obtain ⟨member, stays⟩ := List.mem_filter.mp kept
    refine ⟨⟨entry, member, rfl, same⟩, fun gone => ?_⟩
    obtain ⟨row, goes, equal⟩ := List.mem_map.mp gone
    obtain ⟨rowMember, rowLeaves⟩ := List.mem_filter.mp goes
    have key : row.1 = entry.future.sequence := by
      rw [filed.own row rowMember]
      exact congrArg Future.sequence equal
    rw [filed.unique rowMember member key] at rowLeaves
    rw [rowLeaves] at stays
    cases stays
  · rintro ⟨⟨entry, member, rfl, same⟩, stays⟩
    refine ⟨entry, List.mem_filter.mpr ⟨member, ?_⟩, rfl, same⟩
    cases goes : leaves (entry.future.sequence, entry) with
    | false => rfl
    | true =>
      exact absurd (List.mem_map.mpr ⟨_, List.mem_filter.mpr ⟨member, goes⟩, rfl⟩) stays

theorem tracks_of_mem_filter {table : Table κ} (filed : table.Filed)
    {leaves : Sequence × Entry κ → Bool} {future : Future}
    (goes : future ∈ (table.rows.filter leaves).map fun row => row.2.future) :
    ∃ callback, table.Tracks future callback := by
  obtain ⟨row, member, rfl⟩ := List.mem_map.mp goes
  exact ⟨row.2.callback, filed.tracks_of_mem (List.mem_filter.mp member).1⟩

end Pending.Table

end Correlator
