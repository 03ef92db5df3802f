import Correlator.Proofs.Client.Waiting
import Correlator.Proofs.Strand.Basic

/-!
Contract: waits that may take time, while anything may happen around them.

Owns: the induction over the steps of a wait, that a wait goes on with its own steps, how many steps it
makes for each of its naps, and that it changes nothing but the clock and the registry.

Does not own: how long the naps are (`Correlator.Proofs.Strand.Budget`), and what ends a wait
(`Correlator.Proofs.Strand.Interruption`).
-/

set_option autoImplicit false

namespace Correlator

variable {κ : Type}

/-- The place of a step in a wait. After the last place, a wait goes on with the one where it looks at the
token of its client. -/
def Phase.place : Phase κ → Nat
  | .waitBegin _ _ => 1
  | .waitShutdown _ => 2
  | .waitToken _ => 3
  | .waitHost _ => 4
  | .waitBudget _ _ => 5
  | .waitSleep _ _ => 6
  | .waitReport _ _ => 7
  | .probeLive _ => 8
  | .probeHost _ => 9
  | .probeQuery _ => 10
  | _ => 0

theorem Phase.place_le (phase : Phase κ) : phase.place ≤ 10 := by
  cases phase <;> simp [place]

/-- A wait under way, in the steps that belong to one. -/
def Phase.vigil? : Phase κ → Option Vigil
  | .waitShutdown vigil | .waitToken vigil | .waitHost vigil | .waitBudget vigil _ | .waitSleep vigil _
  | .waitReport vigil _ | .probeLive (.during vigil) | .probeHost (.during vigil)
  | .probeQuery (.during vigil) => some vigil
  | _ => none

/-- So many turns a wait may have made at its place, with so many naps. A nap is taken at the sixth place. -/
def Next.Paced (turns naps : Nat) : Next κ → Prop
  | .goesOn phase =>
    if phase.place ≤ 6 then turns ≤ phase.place + 9 * naps else turns + 9 ≤ phase.place + 9 * naps
  | _ => turns ≤ 11 + 9 * naps

/-- Each turn with a property comes directly behind one to which it is related. -/
def Turn.Preceded (turns : List (Turn κ)) (property : Turn κ → Prop)
    (related : Turn κ → Turn κ → Prop) : Prop :=
  ∀ before turn rest, turns = before ++ turn :: rest → property turn →
    ∃ front previous, before = front ++ [previous] ∧ related previous turn

theorem Turn.Preceded.concat {turns : List (Turn κ)} {property : Turn κ → Prop}
    {related : Turn κ → Turn κ → Prop} (preceded : Preceded turns property related) {last : Turn κ}
    (now : property last → ∃ front previous, turns = front ++ [previous] ∧ related previous last) :
    Preceded (turns ++ [last]) property related := by
  intro before turn rest split holds
  rcases List.eq_nil_or_concat rest with rfl | ⟨front, final, rfl⟩
  · obtain ⟨rfl, same⟩ := List.append_inj' split rfl
    cases List.singleton_inj.mp same
    exact now holds
  · rw [List.concat_eq_append, ← List.cons_append, ← List.append_assoc] at split
    exact preceded before turn front (List.append_inj' split rfl).1 holds

theorem Turn.Preceded.imp {turns : List (Turn κ)} {property : Turn κ → Prop}
    {related weaker : Turn κ → Turn κ → Prop} (preceded : Preceded turns property related)
    (weakens : ∀ previous turn, related previous turn → weaker previous turn) :
    Preceded turns property weaker := by
  intro before turn rest split holds
  obtain ⟨front, previous, before_eq, isRelated⟩ := preceded before turn rest split holds
  exact ⟨front, previous, before_eq, weakens previous turn isRelated⟩

theorem Turn.preceded_nil (property : Turn κ → Prop) (related : Turn κ → Turn κ → Prop) :
    Preceded [] property related := by
  intro before turn rest split
  simp at split

/-- The order of the steps of a wait: one place after the other, except that a wait without limit leaves out
the fifth place, and that a wait begins anew with the second one once it has asked the registry or missed
the host. -/
def Phase.Succeeds (phase later : Phase κ) : Prop :=
  later.place = phase.place + 1 ∨ phase.place = 4 ∧ later.place = 6
    ∨ 9 ≤ phase.place ∧ later.place = 2

namespace Client

variable {actor : Client κ} {environment : Environment} {phase : Phase κ} {step : Step κ}

theorem Await.succeeds (await : actor.Await environment phase step) {later : Phase κ}
    (goesOn : step.next = .goesOn later) : phase.Succeeds later := by
  cases await <;> cases goesOn <;> simp [Phase.Succeeds, Phase.place]

/-- A nap is taken at the sixth place, and nowhere else. -/
theorem Await.length_naps (await : actor.Await environment phase step) :
    (step.effects.filterMap Effect.nap?).length = if phase.place = 6 then 1 else 0 := by
  cases await <;> rfl

/-- The registry is asked at the tenth place, and nowhere else. -/
theorem Await.length_answers (await : actor.Await environment phase step) :
    (step.effects.filterMap Effect.answer?).length = if phase.place = 10 then 1 else 0 := by
  cases await <;> rfl

theorem Await.paced (await : actor.Await environment phase step) {turns naps : Nat}
    (paced : (Next.goesOn phase).Paced turns naps) :
    step.next.Paced (turns + 1) (naps + if phase.place = 6 then 1 else 0) := by
  have last := phase.place_le
  unfold Next.Paced at paced ⊢
  split
  next later goesOn =>
    have succeeds := await.succeeds goesOn
    unfold Phase.Succeeds at succeeds
    grind
  next => grind

/-- The first reading of a wait is the one that it begins with. -/
theorem Await.readings_head? (await : actor.Await environment phase step) {readings : List Moment}
    (head : readings.head? = phase.vigil?.map Vigil.started) {later : Phase κ}
    (goesOn : step.next = .goesOn later) :
    (readings ++ step.effects.filterMap Effect.reading?).head?
      = later.vigil?.map Vigil.started := by
  rw [List.head?_append, head]
  cases await <;> cases goesOn <;> rfl

/-- A change that keeps to the registry and the clock of a client. -/
structure Confined (client : Client κ) (before after : Environment) : Prop where
  others : after = { before with
    registries := after.registries
    clocks := after.clocks
    realTime := after.realTime }
  registries : ∀ registry ≠ client.registry, after.registry registry = before.registry registry
  clocks : ∀ clock, client.clock ≠ .virtual clock → after.clock clock = before.clock clock
  realTime : client.clock ≠ .running → after.realTime = before.realTime

theorem Confined.refl (client : Client κ) (environment : Environment) :
    client.Confined environment environment :=
  ⟨rfl, fun _ _ => rfl, fun _ _ => rfl, fun _ => rfl⟩

private theorem confined_of_readClock {timed : Environment} {now : Option Moment}
    (read : environment.readClock actor.clock = (now, timed)) : actor.Confined environment timed := by
  have timed_eq := Environment.eq_of_readClock read
  refine ⟨?_, fun registry _ => ?_, fun clock _ => ?_, fun virtual => ?_⟩
  · rw [timed_eq]
  · exact congrArg (·.registry registry) timed_eq
  · exact congrArg (·.clock clock) timed_eq
  · cases clock : actor.clock with
    | virtual index =>
      rw [clock] at read
      obtain ⟨-, rfl⟩ := Prod.mk.inj read
      rfl
    | running => exact absurd clock virtual

private theorem confined_sleep (nap : Span) :
    actor.Confined environment (environment.sleep nap actor.clock) := by
  cases own : actor.clock with
  | virtual index =>
    refine ⟨rfl, fun _ _ => rfl, fun clock other => ?_, fun _ => rfl⟩
    refine (environment.clock_setClock index clock _).trans (if_neg fun same => other ?_)
    rw [own, same]
  | running => exact ⟨rfl, fun _ _ => rfl, fun _ _ => rfl, fun virtual => absurd own virtual⟩

private theorem confined_setRegistry (registry : Discovery) :
    actor.Confined environment (environment.setRegistry actor.registry registry) where
  others := rfl
  registries _ other := (environment.registry_setRegistry _ _ registry).trans (if_neg (Ne.symm other))
  clocks _ _ := rfl
  realTime _ := rfl

theorem Confined.of_endures {before after : Environment} (confined : actor.Confined before after)
    {client : Client κ} (endures : client.Endures actor) : client.Confined before after where
  others := confined.others
  registries registry other := confined.registries registry (endures.registry_eq ▸ other)
  clocks clock other := confined.clocks clock (endures.clock_eq ▸ other)
  realTime virtual := confined.realTime (endures.clock_eq ▸ virtual)

/-- A wait changes nothing but the clock and the registry of its client. -/
theorem Await.confined (await : actor.Await environment phase step) :
    actor.Confined environment step.environment := by
  cases await with
  | unbegun read | begun read | lost read | expired read | granted read =>
    exact confined_of_readClock read
  | slept => exact confined_sleep _
  | found | missed => exact confined_setRegistry _
  | _ => exact .refl actor environment

end Client

namespace Strand

variable {world : World κ} {index : ClientId} {client : Client κ} {timeout : Option Span}
  {token : Option Token} {strand : Strand κ}

/-- A wait makes a step. -/
structure Proceeds (client : Client κ) (timeout : Option Span) (token : Option Token)
    (strand : Strand κ) (actor : Client κ) (phase : Phase κ) (step : Step κ) : Prop where
  goesOn : strand.next = .goesOn phase
  awaits : phase.Awaits timeout token
  found : strand.world.clients[strand.client]? = some actor
  endures : client.Endures actor
  retains : strand.world.Retains (strand.after actor phase step).world
  await : actor.Await strand.world.environment phase step

section Wait

variable (lasting : timeout.any (·.isZero) = false) (found : world.clients[index]? = some client)
  (leads : (opening world index (.wait timeout token)).Leads strand)

include lasting

/-- A wait goes on with its own steps. -/
theorem Leads.awaits (leads : (opening world index (.wait timeout token)).Leads strand) :
    ∀ phase, strand.next = .goesOn phase → phase.Awaits timeout token := by
  induction leads with
  | here =>
    rintro phase ⟨⟩
    exact ⟨rfl, rfl⟩
  | advance leads advances inductionHypothesis =>
    obtain ⟨phase, actor, goesOn, -, rfl⟩ := advance?_eq_some advances
    intro later goesOnNow
    have awaits := inductionHypothesis phase goesOn
    exact (actor.await_step _ lasting awaits).awaits awaits goesOnNow
  | stir leads stirs inductionHypothesis => exact inductionHypothesis

include found

/-- Every step of a wait is one of the client that it began with. -/
theorem Leads.proceeds (leads : (opening world index (.wait timeout token)).Leads strand)
    {later : Strand κ} (advances : strand.advance? = some later) :
    ∃ actor phase step, later = strand.after actor phase step
      ∧ strand.Proceeds client timeout token actor phase step := by
  obtain ⟨phase, actor, goesOn, foundActor, rfl⟩ := advance?_eq_some advances
  have awaits := leads.awaits lasting phase goesOn
  obtain ⟨known, foundKnown, endures⟩ := leads.retains.clients index client found
  have client_eq : _ = index := leads.client_eq
  cases foundKnown.symm.trans (client_eq ▸ foundActor)
  exact ⟨actor, phase, _, rfl, goesOn, awaits, foundActor, endures, .of_found foundActor phase,
    actor.await_step _ lasting awaits⟩

/-- The steps of a wait change nothing but the clock and the registry of its client. -/
theorem Leads.inert (leads : (opening world index (.wait timeout token)).Leads strand)
    {later : Strand κ} (advances : strand.advance? = some later) :
    later.world.clients = strand.world.clients
      ∧ client.Confined strand.world.environment later.world.environment := by
  obtain ⟨actor, phase, step, rfl, proceeds⟩ := leads.proceeds lasting found advances
  refine ⟨?_, proceeds.await.confined.of_endures proceeds.endures⟩
  show strand.world.clients.set strand.client step.client = _
  obtain ⟨below, same⟩ := List.getElem?_eq_some_iff.mp proceeds.found
  rw [proceeds.await.client_eq, ← same, List.set_getElem_self below]

/-- What is true of a wait at some point, its steps keep true, and so does all that may happen to the world
between them, is true of the wait from there on. -/
theorem Leads.wait_induction_on {motive : Strand κ → Prop} {middle : Strand κ}
    (begins : (opening world index (.wait timeout token)).Leads middle) (leads : middle.Leads strand)
    (initial : motive middle)
    (step : ∀ strand actor phase step, middle.Leads strand →
      strand.Proceeds client timeout token actor phase step → motive strand →
      motive (strand.after actor phase step))
    (stir : ∀ strand after, strand.world.Retains after → motive strand →
      motive { strand with world := after }) :
    motive strand := by
  induction leads with
  | here => exact initial
  | advance leads advances inductionHypothesis =>
    obtain ⟨actor, phase, made, rfl, proceeds⟩ :=
      (begins.trans leads).proceeds lasting found advances
    exact step _ actor phase made leads proceeds inductionHypothesis
  | stir leads stirs inductionHypothesis => exact stir _ _ stirs.retains inductionHypothesis

/-- What is true of a wait when it begins, its steps keep true, and so does all that may happen to the world
between them, is true of the wait at every point. -/
theorem Leads.wait_induction {motive : Strand κ → Prop}
    (leads : (opening world index (.wait timeout token)).Leads strand)
    (initial : motive (opening world index (.wait timeout token)))
    (step : ∀ strand actor phase step, (opening world index (.wait timeout token)).Leads strand →
      strand.Proceeds client timeout token actor phase step → motive strand →
      motive (strand.after actor phase step))
    (stir : ∀ strand after, strand.world.Retains after → motive strand →
      motive { strand with world := after }) :
    motive strand :=
  wait_induction_on lasting found .here leads initial step stir

/-- A wait that is over has made its last step. -/
theorem Leads.last (leads : (opening world index (.wait timeout token)).Leads strand)
    (ended : strand.isOver = true) :
    ∃ before actor phase step, (opening world index (.wait timeout token)).Leads before
      ∧ before.Proceeds client timeout token actor phase step
      ∧ (before.after actor phase step).world.Retains strand.world
      ∧ strand = { before.after actor phase step with world := strand.world } := by
  revert ended
  refine leads.wait_induction lasting found (motive := fun strand => strand.isOver = true →
    ∃ before actor phase step, (opening world index (.wait timeout token)).Leads before
      ∧ before.Proceeds client timeout token actor phase step
      ∧ (before.after actor phase step).world.Retains strand.world
      ∧ strand = { before.after actor phase step with world := strand.world }) ?initial ?step ?stir
  case initial => rintro ⟨⟩
  case step =>
    exact fun strand actor phase step leads proceeds _ _ =>
      ⟨strand, actor, phase, step, leads, proceeds, .refl _, rfl⟩
  case stir =>
    intro strand after retains inductionHypothesis ended
    obtain ⟨before, actor, phase, step, leads, proceeds, retainsFirst, strand_eq⟩ :=
      inductionHypothesis ended
    exact ⟨before, actor, phase, step, leads, proceeds, retainsFirst.trans retains,
      congrArg (fun strand => { strand with world := after }) strand_eq⟩

/-- A wait that is over has returned, unless its clock was out of range when it was read. -/
theorem Leads.ending (leads : (opening world index (.wait timeout token)).Leads strand)
    (ended : strand.isOver = true) :
    (∃ result, strand.next = .returned result)
      ∨ (strand.next = .failed .clockOutOfRange ∧ .readClock none ∈ strand.effects) := by
  obtain ⟨before, actor, phase, step, -, proceeds, -, strand_eq⟩ := leads.last lasting found ended
  have next_eq : strand.next = step.next := by rw [strand_eq]; rfl
  have effects_eq : strand.effects = before.effects ++ step.effects := by
    rw [strand_eq]
    exact effects_after ..
  rw [next_eq, effects_eq]
  rw [isOver, next_eq] at ended
  have await := proceeds.await
  cases await with
  | unbegun | lost => exact .inr ⟨rfl, by simp⟩
  | refused | shutDown | cancelled | unhosted | expired | retired | found => exact .inl ⟨_, rfl⟩
  | _ => cases ended

/-- Where a wait is by its turns and naps. -/
theorem Leads.paced (leads : (opening world index (.wait timeout token)).Leads strand) :
    strand.next.Paced strand.turns.length strand.naps.length := by
  refine leads.wait_induction lasting found (motive := fun strand =>
    strand.next.Paced strand.turns.length strand.naps.length) ?initial ?step ?stir
  case initial => exact Nat.le_refl _
  case step =>
    intro strand actor phase step _ proceeds paced
    rw [proceeds.goesOn] at paced
    rw [next_after, turns_after, List.length_append, naps_after, List.length_append,
      proceeds.await.length_naps]
    exact proceeds.await.paced paced
  case stir => exact fun _ _ _ => id

/-- A wait remembers the first reading of its clock. -/
theorem Leads.readings_head? (leads : (opening world index (.wait timeout token)).Leads strand) :
    ∀ phase, strand.next = .goesOn phase →
      strand.readings.head? = phase.vigil?.map Vigil.started := by
  refine leads.wait_induction lasting found (motive := fun strand => ∀ phase,
    strand.next = .goesOn phase → strand.readings.head? = phase.vigil?.map Vigil.started)
    ?initial ?step ?stir
  case initial =>
    rintro phase ⟨⟩
    rfl
  case step =>
    intro strand actor phase step _ proceeds inductionHypothesis later goesOnNow
    have head := inductionHypothesis phase proceeds.goesOn
    rw [readings_after]
    exact proceeds.await.readings_head? head goesOnNow
  case stir => exact fun _ _ _ => id

/-- A wait makes at most nine steps for each of its naps, and at most eleven besides. -/
theorem Leads.length_turns_le (leads : (opening world index (.wait timeout token)).Leads strand) :
    strand.turns.length ≤ 11 + 9 * strand.naps.length := by
  have paced := leads.paced lasting found
  unfold Next.Paced at paced
  split at paced
  next phase goesOn =>
    have last := phase.place_le
    split at paced <;> omega
  next => exact paced

end Wait

end Strand

end Correlator
