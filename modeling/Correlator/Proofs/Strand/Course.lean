import Correlator.Proofs.Strand.Basic

/-!
Contract: the strands that make up a course.

Owns: that every operation of a course is a strand, with the rest of the course as what happens around it.

Does not own: what the steps of an operation come to (`Correlator.Proofs.Strand.Budget` and its neighbours).
-/

set_option autoImplicit false

namespace Correlator

theorem Next.eq_goesOn_of_phase? {κ : Type} {next : Next κ} {phase : Phase κ}
    (onward : next.phase? = some phase) : next = .goesOn phase := by
  cases next <;> cases onward
  rfl

namespace Course

variable {κ : Type} {start : World κ} {course next : Course κ} {index : ClientId} {strand : Strand κ}

/-- A strand is an operation of a course: it began with a first step in a world that the course came to, is
now in the world of the course, and made its turns in the course. -/
structure Runs (start : World κ) (course : Course κ) (index : ClientId) (strand : Strand κ) : Prop where
  begun : ∃ origin first, start.Becomes origin ∧ first.isOpening = true
    ∧ (Strand.opening origin index first).Leads strand
  world_eq : strand.world = course.world
  turns : strand.turns.Sublist course.turns

/-- The operations under way are strands that go on, and each turn is the last one of a strand. -/
structure Woven (start : World κ) (course : Course κ) : Prop where
  becomes : start.Becomes course.world
  underway : ∀ index phase, (index, phase) ∈ course.underway →
    ∃ strand, course.Runs start index strand ∧ strand.next = .goesOn phase
  turns : ∀ turn ∈ course.turns, ∃ strand before, course.Runs start turn.client strand
    ∧ strand.turns = before ++ [turn] ∧ strand.next = turn.next

/-- A strand stays an operation of the course while other things happen. -/
theorem Runs.carry (runs : course.Runs start index strand)
    (becomes : course.world.Becomes next.world) (more : course.turns.Sublist next.turns) :
    next.Runs start index { strand with world := next.world } := by
  obtain ⟨⟨origin, first, begins, opening, leads⟩, world_eq, turns⟩ := runs
  exact ⟨⟨origin, first, begins, opening, leads.carry (world_eq ▸ becomes)⟩, rfl, turns.trans more⟩

/-- A strand makes the next step of the course. -/
theorem Runs.advance (runs : course.Runs start index strand) {phase : Phase κ}
    (goesOn : strand.next = .goesOn phase) {turn : Turn κ} {after : World κ}
    (made : course.world.step? index phase = some (turn, after))
    (underway : List (ClientId × Phase κ)) :
    Runs start ⟨after, underway, course.turns ++ [turn]⟩ index
      ⟨after, index, turn.next, strand.turns ++ [turn]⟩ := by
  obtain ⟨⟨origin, first, begins, opening, leads⟩, world_eq, turns⟩ := runs
  have advances : strand.advance? = some ⟨after, index, turn.next, strand.turns ++ [turn]⟩ := by
    unfold Strand.advance?
    rw [goesOn, world_eq, show strand.client = index from leads.client_eq]
    dsimp only
    rw [made]
    rfl
  exact ⟨⟨origin, first, begins, opening, leads.advance advances⟩, rfl, turns.append (.refl _)⟩

/-- What a move does not concern stays as it was. -/
theorem Woven.carry (woven : course.Woven start) (next : Course κ)
    (becomes : course.world.Becomes next.world) (more : course.turns.Sublist next.turns) :
    start.Becomes next.world
      ∧ (∀ index phase, (index, phase) ∈ course.underway →
        ∃ strand, next.Runs start index strand ∧ strand.next = .goesOn phase)
      ∧ ∀ turn ∈ course.turns, ∃ strand before, next.Runs start turn.client strand
        ∧ strand.turns = before ++ [turn] ∧ strand.next = turn.next := by
  refine ⟨woven.becomes.trans becomes, fun index phase member => ?_, fun turn member => ?_⟩
  · obtain ⟨strand, runs, goesOn⟩ := woven.underway index phase member
    exact ⟨_, runs.carry becomes more, goesOn⟩
  · obtain ⟨strand, before, runs, last, next_eq⟩ := woven.turns turn member
    exact ⟨_, before, runs.carry becomes more, last, next_eq⟩

/-- Every operation of a course is a strand, and the rest of the course is what happens around it. -/
theorem Leads.woven (leads : (opening start).Leads course) : course.Woven start := by
  have initial : (opening start).Woven start :=
    ⟨.refl, by rintro index phase ⟨⟩, by rintro turn ⟨⟩⟩
  refine leads.keeps initial fun course next woven move => ?_
  cases move with
  | enter client phase opening =>
    obtain ⟨becomes, underway, turns⟩ := woven.carry
      { course with underway := (client, phase) :: course.underway } .refl (.refl _)
    refine ⟨becomes, fun index known member => ?_, turns⟩
    rcases List.mem_cons.mp member with same | earlier
    · cases same
      exact ⟨.opening course.world client phase,
        ⟨⟨course.world, phase, becomes, opening, .here⟩, rfl, List.nil_sublist _⟩, rfl⟩
    · exact underway index known earlier
  | abandon front back client phase split =>
    obtain ⟨becomes, underway, turns⟩ := woven.carry
      { course with underway := front ++ back } .refl (.refl _)
    refine ⟨becomes, fun index known member => underway index known ?_, turns⟩
    rw [split]
    exact (List.mem_append.mp member).elim (List.mem_append_left _)
      fun later => List.mem_append_right _ (List.mem_cons_of_mem _ later)
  | outside act =>
    obtain ⟨becomes, underway, turns⟩ := woven.carry { course with
      world := { course.world with environment := act.apply course.world.environment } }
      (.single (.act act)) (.refl _)
    exact ⟨becomes, underway, turns⟩
  | proceed front back client phase turn world split made =>
    let stepped : Course κ := ⟨world, front ++ (turn.next.phase?.map fun phase => (client, phase)).toList
      ++ back, course.turns ++ [turn]⟩
    obtain ⟨becomes, underway, turns⟩ := woven.carry stepped (.single (.step client phase turn made))
      (List.sublist_append_left _ _)
    obtain ⟨strand, runs, goesOn⟩ := woven.underway client phase
      (split ▸ List.mem_append_right _ List.mem_cons_self)
    have advanced : stepped.Runs start client ⟨world, client, turn.next, strand.turns ++ [turn]⟩ :=
      runs.advance goesOn made _
    have client_eq : turn.client = client := by
      obtain ⟨actor, -, rfl, -⟩ := World.step?_eq_some made
      rfl
    refine ⟨becomes, fun index known member => ?_, fun old member => ?_⟩
    · rw [split] at underway
      rcases List.mem_append.mp member with sooner | later
      · rcases List.mem_append.mp sooner with earlier | now
        · exact underway index known (List.mem_append_left _ earlier)
        · obtain ⟨phase, onward, same⟩ := Option.map_eq_some_iff.mp (Option.mem_toList.mp now)
          cases same
          exact ⟨_, advanced, Next.eq_goesOn_of_phase? onward⟩
      · exact underway index known (List.mem_append_right _ (List.mem_cons_of_mem _ later))
    · rcases List.mem_append.mp member with earlier | now
      · exact turns old earlier
      · cases List.mem_singleton.mp now
        exact ⟨_, strand.turns, client_eq ▸ advanced, rfl, rfl⟩

end Course

end Correlator
