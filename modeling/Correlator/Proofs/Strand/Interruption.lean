import Correlator.Proofs.Session.Start
import Correlator.Proofs.Strand.Waiting

/-!
Contract: what ends a wait.

Owns: how soon a wait ends once it is interrupted, what must be the case for it to end the way it does, and
what a token that is set at the beginning does to it.

Does not own: how long a wait takes that nothing interrupts (`Correlator.Proofs.Strand.Budget`).
-/

set_option autoImplicit false

namespace Correlator

variable {κ : Type}

/-- What interrupts a wait: one of the two tokens is set, the host is gone, or the client is disposed of. -/
inductive Interruption where
  | shutdown
  | caller
  | host
  | disposal
deriving DecidableEq, Repr

namespace Interruption

/-- The place in a wait where it sees that it is interrupted. -/
def place : Interruption → Nat
  | .shutdown => 2
  | .caller => 3
  | .host => 4
  | .disposal => 8

/-- The environment or the client interrupts waits with the given token. -/
def Stops (client : Client κ) (environment : Environment) (token : Option Token) : Interruption → Prop
  | .shutdown => environment.isCancelled client.shutdown = true
  | .caller => environment.isCancelled token = true
  | .host => (environment.host client.host).isValid = false
  | .disposal => client.disposed = true

/-- Waits of a client with the given token are interrupted in a world. -/
def Interrupts (world : World κ) (index : ClientId) (token : Option Token)
    (interruption : Interruption) : Prop :=
  ∃ client, world.clients[index]? = some client ∧ interruption.Stops client world.environment token

/-- An interruption is for good. -/
theorem Interrupts.retains {world after : World κ} {index : ClientId} {token : Option Token}
    {interruption : Interruption} (interrupts : interruption.Interrupts world index token)
    (retains : world.Retains after) : interruption.Interrupts after index token := by
  obtain ⟨client, found, stops⟩ := interrupts
  obtain ⟨later, foundLater, endures⟩ := retains.clients index client found
  refine ⟨later, foundLater, ?_⟩
  cases interruption with
  | shutdown =>
    have same := endures.shutdown_eq
    exact retains.tokens _ (same ▸ stops)
  | caller => exact retains.tokens _ stops
  | host =>
    have same := endures.host_eq
    exact retains.hosts _ (same ▸ stops)
  | disposal => exact endures.disposed stops

end Interruption

/-! ### How soon a wait ends -/

section Ahead

variable (place : Nat) (phase : Phase κ)

/-- How many places lie between a step of a wait and the next step at a place. -/
def Phase.stepsTo : Nat :=
  if phase.place ≤ place then place - phase.place else place + 9 - phase.place

/-- How many naps lie between a step of a wait and the next step at a place. -/
def Phase.napsTo : Nat :=
  if phase.place ≤ place then (if phase.place ≤ 6 ∧ 6 < place then 1 else 0)
  else (if phase.place ≤ 6 ∨ 6 < place then 1 else 0)

/-- A wait that ends at a place can make no more than so many turns and naps in all. -/
def Next.Nears (turns naps lastTurn lastNap : Nat) : Next κ → Prop
  | .goesOn phase =>
    turns + phase.stepsTo place + 1 ≤ lastTurn ∧ naps + phase.napsTo place ≤ lastNap
  | _ => turns ≤ lastTurn ∧ naps ≤ lastNap

end Ahead

namespace Client

variable {actor : Client κ} {environment : Environment} {phase : Phase κ} {step : Step κ}
  {timeout : Option Span} {token : Option Token} {interruption : Interruption}

/-- A wait ends where it sees that it is interrupted. -/
theorem Await.caught (await : actor.Await environment phase step)
    (awaits : phase.Awaits timeout token) (stops : interruption.Stops actor environment token)
    (here : phase.place = interruption.place) (later : Phase κ) : step.next ≠ .goesOn later := by
  rintro goesOn
  cases interruption with
  | shutdown =>
    cases await <;> cases here <;> cases goesOn
    next vigil clear => exact absurd (clear.symm.trans stops) (by decide)
  | caller =>
    cases await <;> cases here <;> cases goesOn
    next vigil clear =>
      rw [awaits.2] at clear
      exact absurd (clear.symm.trans stops) (by decide)
  | host =>
    cases await <;> cases here <;> cases goesOn
    · next vigil hosted untimed => exact absurd (hosted.symm.trans stops) (by decide)
    · next vigil limit hosted timed => exact absurd (hosted.symm.trans stops) (by decide)
  | disposal =>
    cases await <;> cases here <;> cases goesOn
    next vigil live => exact absurd (live.symm.trans stops) (by decide)

/-- A wait looks at its tokens before it looks at the host. -/
theorem Await.hostless (await : actor.Await environment phase step) (early : phase.place ≤ 3)
    (isValid : Bool) : .sawHost isValid ∉ step.effects := by
  cases await <;> simp [Phase.place] at early ⊢

/-- Each step of a wait that is interrupted brings it nearer to its end. -/
theorem Await.nears (await : actor.Await environment phase step)
    (awaits : phase.Awaits timeout token) (stops : interruption.Stops actor environment token)
    {turns naps lastTurn lastNap : Nat}
    (nears : (Next.goesOn phase).Nears interruption.place turns naps lastTurn lastNap) :
    step.next.Nears interruption.place (turns + 1) (naps + if phase.place = 6 then 1 else 0)
      lastTurn lastNap := by
  have caught := await.caught awaits stops
  have last := phase.place_le
  have places : 2 ≤ interruption.place ∧ interruption.place ≤ 4 ∨ interruption.place = 8 := by
    cases interruption <;> decide
  obtain ⟨soon, few⟩ := nears
  unfold Phase.stepsTo at soon
  unfold Phase.napsTo at few
  unfold Next.Nears
  split
  next later goesOn =>
    have elsewhere : phase.place ≠ interruption.place := fun here => caught here later goesOn
    have succeeds := await.succeeds goesOn
    unfold Phase.Succeeds at succeeds
    unfold Phase.stepsTo Phase.napsTo
    grind
  next => grind

end Client

/-- The client asked the registry in a turn. -/
def Turn.Asks (turn : Turn κ) : Prop := ∃ available, .queried available ∈ turn.effects

namespace Strand

variable {world : World κ} {index : ClientId} {client : Client κ} {timeout : Option Span}
  {token : Option Token} {middle strand : Strand κ} {interruption : Interruption}

/-- What interrupts a wait at its last step does so from then on. -/
theorem Leads.interrupts {before : Strand κ} {actor : Client κ} {phase : Phase κ} {step : Step κ}
    (sofar : (opening world index (.wait timeout token)).Leads before)
    (proceeds : before.Proceeds client timeout token actor phase step)
    (retains : (before.after actor phase step).world.Retains strand.world)
    (stops : interruption.Stops actor before.world.environment token) :
    interruption.Interrupts strand.world index token := by
  have foundActor := proceeds.found
  rw [show before.client = index from sofar.client_eq] at foundActor
  exact .retains ⟨actor, foundActor, stops⟩ (proceeds.retains.trans retains)

section Wait

variable (lasting : timeout.any (·.isZero) = false) (found : world.clients[index]? = some client)
  (leads : (opening world index (.wait timeout token)).Leads strand)

include lasting found

theorem Leads.nears (begins : (opening world index (.wait timeout token)).Leads middle)
    (leads : middle.Leads strand) (interrupts : interruption.Interrupts middle.world index token) :
    strand.next.Nears interruption.place strand.turns.length strand.naps.length
      (middle.turns.length + 9) (middle.naps.length + 1) := by
  refine wait_induction_on lasting found (motive := fun strand =>
    strand.next.Nears interruption.place strand.turns.length strand.naps.length
      (middle.turns.length + 9) (middle.naps.length + 1)) begins leads ?initial ?step ?stir
  case initial =>
    have places : interruption.place ≤ 8 := by cases interruption <;> decide
    unfold Next.Nears Phase.stepsTo Phase.napsTo
    split
    next phase goesOn =>
      have last := phase.place_le
      grind
    next => omega
  case step =>
    intro strand actor phase step leads proceeds nears
    obtain ⟨known, foundKnown, stops⟩ := interrupts.retains leads.retains
    have client_eq : strand.client = index := (begins.trans leads).client_eq
    cases foundKnown.symm.trans (client_eq ▸ proceeds.found)
    rw [proceeds.goesOn] at nears
    rw [next_after, turns_after, List.length_append, naps_after, List.length_append,
      proceeds.await.length_naps]
    exact proceeds.await.nears proceeds.awaits stops nears
  case stir => exact fun _ _ _ => id

/-- A wait that is interrupted takes at most one further nap, and makes at most nine further steps. -/
theorem Leads.soon (begins : (opening world index (.wait timeout token)).Leads middle)
    (leads : middle.Leads strand) (interrupts : interruption.Interrupts middle.world index token) :
    strand.naps.length ≤ middle.naps.length + 1 ∧ strand.turns.length ≤ middle.turns.length + 9 := by
  have nears := nears lasting found begins leads interrupts
  unfold Next.Nears at nears
  split at nears <;> omega

/-! ### What must be the case for a wait to end the way it does -/

/-- Unless a wait has ended with the news that the service is there, the registry has not told it so. -/
theorem Leads.unanswered (leads : (opening world index (.wait timeout token)).Leads strand)
    (unavailable : strand.next ≠ .returned (.ok (.outcome .available))) :
    ∀ answer ∈ strand.answers, answer = false := by
  revert unavailable
  refine leads.wait_induction lasting found (motive := fun strand =>
    strand.next ≠ .returned (.ok (.outcome .available)) → ∀ answer ∈ strand.answers, answer = false)
    ?initial ?step ?stir
  case initial => rintro - answer ⟨⟩
  case step =>
    intro strand actor phase step _ proceeds inductionHypothesis unavailable answer member
    have sofar := inductionHypothesis (by rw [proceeds.goesOn]; rintro ⟨⟩)
    rw [answers_after] at member
    rcases List.mem_append.mp member with earlier | now
    · exact sofar answer earlier
    · have await := proceeds.await
      cases await with
      | missed => exact List.mem_singleton.mp now
      | found => exact absurd rfl unavailable
      | _ => cases now
  case stir => exact fun _ _ _ => id

theorem Leads.answers_of_available
    (leads : (opening world index (.wait timeout token)).Leads strand)
    (available : strand.next = .returned (.ok (.outcome .available))) :
    ∃ misses, strand.answers = List.replicate misses false ++ [true] := by
  obtain ⟨before, actor, phase, step, sofar, proceeds, -, strand_eq⟩ :=
    leads.last lasting found (by rw [isOver, available])
  have unanswered := sofar.unanswered lasting found (by rw [proceeds.goesOn]; rintro ⟨⟩)
  rw [strand_eq] at available ⊢
  have await := proceeds.await
  refine ⟨before.answers.length, (answers_after ..).trans ?_⟩
  rw [← List.eq_replicate_iff.mpr ⟨rfl, unanswered⟩]
  cases await <;> cases available
  rfl

theorem Leads.of_cancelled (leads : (opening world index (.wait timeout token)).Leads strand)
    (cancelled : strand.next = .returned (.ok (.outcome .cancelled))) :
    Interruption.shutdown.Interrupts strand.world index token
      ∨ Interruption.caller.Interrupts strand.world index token := by
  obtain ⟨before, actor, phase, step, sofar, proceeds, retains, strand_eq⟩ :=
    leads.last lasting found (by rw [isOver, cancelled])
  have awaits := proceeds.awaits
  have await := proceeds.await
  rw [strand_eq] at cancelled
  cases await <;> cases cancelled
  next vigil isSet => exact .inl (sofar.interrupts proceeds retains isSet)
  next vigil isSet =>
    rw [awaits.2] at isSet
    exact .inr (sofar.interrupts proceeds retains isSet)

theorem Leads.of_contextInvalid (leads : (opening world index (.wait timeout token)).Leads strand)
    (gone : strand.next = .returned (.ok (.outcome .contextInvalid))) :
    Interruption.host.Interrupts strand.world index token := by
  obtain ⟨before, actor, phase, step, sofar, proceeds, retains, strand_eq⟩ :=
    leads.last lasting found (by rw [isOver, gone])
  have await := proceeds.await
  rw [strand_eq] at gone
  cases await <;> cases gone
  next vigil invalid => exact sofar.interrupts proceeds retains invalid

theorem Leads.of_timedOut (leads : (opening world index (.wait timeout token)).Leads strand)
    (timedOut : strand.next = .returned (.ok (.outcome .timedOut))) :
    ∃ limit started, timeout = some limit ∧ strand.readings.head? = some started
      ∧ started.toNanos + limit.toNanos ≤ strand.elapsed client := by
  obtain ⟨before, actor, phase, step, sofar, proceeds, retains, strand_eq⟩ :=
    leads.last lasting found (by rw [isOver, timedOut])
  have head := sofar.readings_head? lasting found phase proceeds.goesOn
  have readings_eq : strand.readings = before.readings ++ step.effects.filterMap Effect.reading? := by
    rw [strand_eq]
    exact readings_after ..
  have passed : (before.after actor phase step).elapsed client ≤ strand.elapsed client :=
    retains.clocks client.clock
  have clock_eq := proceeds.endures.clock_eq
  have awaits := proceeds.awaits
  have await := proceeds.await
  rw [strand_eq] at timedOut
  cases await <;> cases timedOut
  next vigil limit timed now read spent =>
    obtain ⟨-, -, rfl⟩ := awaits
    refine ⟨limit, vigil.started, rfl, ?_, ?_⟩
    · rw [readings_eq, List.head?_append, head]
      rfl
    · have positive : 0 < limit.toNanos :=
        Nat.pos_of_ne_zero (mt Span.isZero_iff.mpr (Bool.eq_false_iff.mp lasting))
      have shown := Environment.toNanos_of_readClock read
      have inOrder : vigil.started.toNanos ≤ now.toNanos := by
        by_contra inverted
        rw [Moment.since_of_lt (Int.not_le.mp inverted)] at spent
        exact absurd spent (Nat.not_le.mpr positive)
      have since := Moment.toNanos_since inOrder
      have moved : (timed.elapsed actor.clock).toNanos ≤ strand.elapsed client := by
        rw [clock_eq]
        exact passed
      omega

/-- Before each question to the registry, a wait has seen that its host is there. -/
theorem Leads.asks_hosted (leads : (opening world index (.wait timeout token)).Leads strand) :
    Turn.Preceded strand.turns Turn.Asks fun previous _ => previous.effects = [.sawHost true] := by
  suffices Turn.Preceded strand.turns Turn.Asks (fun previous _ => previous.effects = [.sawHost true])
      ∧ ∀ phase, strand.next = .goesOn phase → phase.place = 10 →
        ∃ front previous, strand.turns = front ++ [previous] ∧ previous.effects = [.sawHost true] from
    this.1
  refine leads.wait_induction lasting found (motive := fun strand =>
    Turn.Preceded strand.turns Turn.Asks (fun previous _ => previous.effects = [.sawHost true])
      ∧ ∀ phase, strand.next = .goesOn phase → phase.place = 10 →
        ∃ front previous, strand.turns = front ++ [previous] ∧ previous.effects = [.sawHost true])
    ?initial ?step ?stir
  case initial => exact ⟨Turn.preceded_nil _ _, by rintro phase ⟨⟩ ⟨⟩⟩
  case step =>
    intro strand actor phase step _ proceeds inductionHypothesis
    obtain ⟨preceded, hosted⟩ := inductionHypothesis
    have await := proceeds.await
    constructor
    · refine preceded.concat fun asks => hosted phase proceeds.goesOn ?_
      obtain ⟨available, member⟩ := asks
      cases await <;> simp at member
      all_goals rfl
    · intro later goesOn here
      refine ⟨strand.turns, _, rfl, ?_⟩
      cases await <;> cases goesOn <;> cases here
      rfl
  case stir => exact fun _ _ _ => id

/-! ### Interruptions from the beginning -/

/-- A wait that is interrupted from the beginning by a token does not get beyond the place where it looks at
it. -/
theorem Leads.place_le (leads : (opening world index (.wait timeout token)).Leads strand)
    (interrupts : interruption.Interrupts world index token) (early : interruption.place ≤ 3) :
    strand.naps = [] ∧ strand.answers = [] ∧ (∀ isValid, .sawHost isValid ∉ strand.effects)
      ∧ ∀ phase, strand.next = .goesOn phase → phase.place ≤ interruption.place := by
  refine leads.wait_induction lasting found (motive := fun strand =>
    strand.naps = [] ∧ strand.answers = [] ∧ (∀ isValid, .sawHost isValid ∉ strand.effects)
      ∧ ∀ phase, strand.next = .goesOn phase → phase.place ≤ interruption.place)
    ?initial ?step ?stir
  case initial =>
    refine ⟨rfl, rfl, by rintro isValid ⟨⟩, ?_⟩
    rintro phase ⟨⟩
    exact Nat.zero_le _
  case step =>
    intro strand actor phase step leads proceeds inductionHypothesis
    obtain ⟨awake, unasked, unseen, within⟩ := inductionHypothesis
    have here := within phase proceeds.goesOn
    obtain ⟨known, foundKnown, stops⟩ := interrupts.retains leads.retains
    cases foundKnown.symm.trans ((show strand.client = index from leads.client_eq) ▸ proceeds.found)
    have naps := proceeds.await.length_naps
    have answers := proceeds.await.length_answers
    have hostless := proceeds.await.hostless (here.trans early)
    rw [if_neg (by omega), List.length_eq_zero_iff] at naps answers
    rw [naps_after, answers_after, effects_after, awake, unasked, naps, answers]
    refine ⟨rfl, rfl, fun isValid member => ?_, fun later goesOn => ?_⟩
    · exact (List.mem_append.mp member).elim (unseen isValid) (hostless isValid)
    · have elsewhere : phase.place ≠ interruption.place := fun same =>
        proceeds.await.caught proceeds.awaits stops same later goesOn
      have succeeds := proceeds.await.succeeds goesOn
      unfold Phase.Succeeds at succeeds
      omega
  case stir => exact fun _ _ _ => id

/-- A wait that is interrupted from the beginning by a token is cancelled, unless its client was disposed of
before its first step, or its clock was out of range. -/
theorem Leads.of_interrupted (leads : (opening world index (.wait timeout token)).Leads strand)
    (interrupts : interruption.Interrupts world index token) (early : interruption.place ≤ 3)
    (ended : strand.isOver = true) :
    strand.next = .returned (.ok (.outcome .cancelled))
      ∨ (strand.turns.length = 1 ∧ strand.next = .returned (.error (.invalidHandle client.service))
        ∧ Interruption.disposal.Interrupts strand.world index token)
      ∨ (strand.next = .failed .clockOutOfRange ∧ .readClock none ∈ strand.effects) := by
  have ending := leads.ending lasting found ended
  obtain ⟨before, actor, phase, step, sofar, proceeds, retains, strand_eq⟩ :=
    leads.last lasting found ended
  obtain ⟨awake, -, -, within⟩ := sofar.place_le lasting found interrupts early
  have here := (within phase proceeds.goesOn).trans early
  have paced := sofar.paced lasting found
  rw [proceeds.goesOn, awake] at paced
  have next_eq : strand.next = step.next := by
    rw [strand_eq]
    rfl
  have turns_eq : strand.turns.length = before.turns.length + 1 := by
    rw [strand_eq]
    exact List.length_append
  have service_eq := congrArg Service.name proceeds.endures.descriptor_eq
  rw [next_eq] at ending ⊢
  rw [isOver, next_eq] at ended
  have await := proceeds.await
  cases await with
  | shutDown | cancelled => exact .inl rfl
  | refused disposed =>
    refine .inr (.inl ⟨?_, ?_, sofar.interrupts proceeds retains disposed⟩)
    · have first : before.turns.length ≤ 0 := paced
      omega
    · exact congrArg (fun service => Next.returned (.error (.invalidHandle service))) service_eq
  | unbegun =>
    rcases ending with ⟨result, returned⟩ | failed
    · cases returned
    · exact .inr (.inr failed)
  | unhosted | lost | expired | retired | found =>
    simp [Phase.place] at here
  | _ => cases ended

end Wait

/-- What holds at every point of a wait that began in a world. -/
structure Attentive (world : World κ) (index : ClientId) (client : Client κ) (timeout : Option Span)
    (token : Option Token) (strand : Strand κ) : Prop where
  onward : strand.isOver = false → ∃ later, strand.advance? = some later
  ending : strand.isOver = true → (∃ result, strand.next = .returned result)
    ∨ (strand.next = .failed .clockOutOfRange ∧ .readClock none ∈ strand.effects)
  /-- From when it is interrupted on, it takes no more than one nap, and makes no more than nine steps. -/
  interrupted : ∀ interruption middle, (opening world index (.wait timeout token)).Leads middle →
    middle.Leads strand → Interruption.Interrupts middle.world index token interruption →
    strand.naps.length ≤ middle.naps.length + 1 ∧ strand.turns.length ≤ middle.turns.length + 9
  available : strand.next = .returned (.ok (.outcome .available)) →
    ∃ misses, strand.answers = List.replicate misses false ++ [true]
  /-- The registry is asked directly after a look at the host that found it there. -/
  asks : Turn.Preceded strand.turns Turn.Asks fun previous _ => previous.effects = [.sawHost true]
  cancelled : strand.next = .returned (.ok (.outcome .cancelled)) →
    Interruption.shutdown.Interrupts strand.world index token
      ∨ Interruption.caller.Interrupts strand.world index token
  contextInvalid : strand.next = .returned (.ok (.outcome .contextInvalid)) →
    Interruption.host.Interrupts strand.world index token
  /-- The first reading of the clock is the one that the wait begins with. -/
  timedOut : strand.next = .returned (.ok (.outcome .timedOut)) →
    ∃ limit started, timeout = some limit ∧ strand.readings.head? = some started
      ∧ started.toNanos + limit.toNanos ≤ strand.elapsed client
  /-- A token that is set from the beginning ends it before it sleeps or looks at anything but tokens. It is
  cancelled then, unless its client was disposed of before its first step, or its clock was out of range. -/
  tokenFirst : Interruption.shutdown.Interrupts world index token
      ∨ Interruption.caller.Interrupts world index token →
    strand.naps = [] ∧ strand.answers = [] ∧ (∀ isValid, .sawHost isValid ∉ strand.effects)
      ∧ (strand.isOver = true → strand.next = .returned (.ok (.outcome .cancelled))
        ∨ (strand.turns.length = 1
          ∧ strand.next = .returned (.error (.invalidHandle client.service))
          ∧ Interruption.disposal.Interrupts strand.world index token)
        ∨ (strand.next = .failed .clockOutOfRange ∧ .readClock none ∈ strand.effects))
  /-- Its own steps leave alone all but the clock and the registry of its client. -/
  inert : ∀ later, strand.advance? = some later → later.world.clients = strand.world.clients
    ∧ client.Confined strand.world.environment later.world.environment

/-- Whatever happens around it, a wait that may take time sees what interrupts it, and ends only the way things
are. -/
theorem attentive_wait (lasting : timeout.any (·.isZero) = false)
    (found : world.clients[index]? = some client)
    (leads : (opening world index (.wait timeout token)).Leads strand) :
    strand.Attentive world index client timeout token := by
  constructor
  case onward => exact leads.onward found
  case ending => exact leads.ending lasting found
  case interrupted =>
    exact fun interruption middle begins leads interrupts =>
      Leads.soon lasting found begins leads interrupts
  case available => exact leads.answers_of_available lasting found
  case asks => exact leads.asks_hosted lasting found
  case cancelled => exact leads.of_cancelled lasting found
  case contextInvalid => exact leads.of_contextInvalid lasting found
  case timedOut => exact leads.of_timedOut lasting found
  case tokenFirst =>
    rintro (interrupts | interrupts)
    all_goals
      obtain ⟨awake, unasked, unseen, -⟩ := leads.place_le lasting found interrupts (by decide)
      exact ⟨awake, unasked, unseen, leads.of_interrupted lasting found interrupts (by decide)⟩
  case inert => exact fun later => leads.inert lasting found

/-- The token is set after the wait has looked at it, and before its first nap: it takes this nap, and is
cancelled when it looks at the token again. -/
theorem attentive_wait_solo :
    ∃ middle strand, (opening Session.solo.world 0 (.wait none none)).run? 4 = some middle
      ∧ run? { middle with world := { middle.world with
          environment := (Outside.cancelToken 0).apply middle.world.environment } } 7 = some strand
      ∧ middle.naps = [] ∧ strand.naps = [.ofMillis 10]
      ∧ strand.next = .returned (.ok (.outcome .cancelled))
      ∧ ∃ client, Session.solo.world.clients[0]? = some client
        ∧ strand.Attentive Session.solo.world 0 client none none := by
  have run : ((opening Session.solo.world 0 (.wait none none)).run? 4).bind (fun middle =>
      (run? { middle with world := { middle.world with
        environment := (Outside.cancelToken 0).apply middle.world.environment } } 7).map
        fun strand => (middle.naps, strand.naps, strand.next))
      = some ([], [.ofMillis 10], .returned (.ok (.outcome .cancelled))) := rfl
  obtain ⟨middle, ran, rest⟩ := Option.bind_eq_some_iff.mp run
  obtain ⟨strand, ranOn, shown⟩ := Option.map_eq_some_iff.mp rest
  obtain ⟨before, naps⟩ := Prod.mk.inj shown
  obtain ⟨naps, next⟩ := Prod.mk.inj naps
  have leads := ((Leads.of_run? ran).stir (.act (.cancelToken 0))).trans (.of_run? ranOn)
  exact ⟨middle, strand, ran, ranOn, before, naps, next, _, rfl, attentive_wait rfl rfl leads⟩

/-- A client that is disposed of says so before it looks at any token. -/
theorem not_cancelled_of_disposed :
    ∃ world strand, Session.solo.world.Becomes world
      ∧ Interruption.shutdown.Interrupts world 0 none
      ∧ (opening world 0 (.wait (some (.ofMillis 1000)) none)).Leads strand
      ∧ strand.isOver = true ∧ strand.next ≠ .returned (.ok (.outcome .cancelled))
      ∧ strand.next = .returned (.error (.invalidHandle "echo")) := by
  let shut : World Session.Program := { Session.solo.world with
    environment := (Outside.cancelToken 0).apply Session.solo.world.environment }
  have run : ((opening shut 0 .dispose).run? 3).bind (fun disposing =>
      ((opening disposing.world 0 (.wait (some (.ofMillis 1000)) none)).run? 1).map Strand.next)
      = some (.returned (.error (.invalidHandle "echo"))) := rfl
  obtain ⟨disposing, disposed, rest⟩ := Option.bind_eq_some_iff.mp run
  obtain ⟨strand, ran, next⟩ := Option.map_eq_some_iff.mp rest
  have leads := Leads.of_run? disposed
  have isSet : Interruption.shutdown.Interrupts shut 0 none := ⟨_, rfl, rfl⟩
  refine ⟨disposing.world, strand, .head (.act (.cancelToken 0)) leads.becomes, isSet.retains leads.retains,
    .of_run? ran, ?_, ?_, next⟩
  · rw [isOver, next]
  · rw [next]
    rintro ⟨⟩

end Strand

end Correlator
