import Mathlib.Logic.Relation
import Correlator.Proofs.Course.Clock

/-!
Contract: a single operation, step by step, in a world where anything may happen between two of its steps.

Owns: what can happen to a world, what no such happening undoes, the strand of steps that an operation
makes, and what a strand leaves of the world in which it began.

Does not own: what the steps of an operation come to (`Correlator.Proofs.Strand.Budget` and its neighbours).
-/

set_option autoImplicit false

namespace Correlator

variable {κ : Type}

/-! ### What others do -/

/-- What can happen to a world: a step of any client, whatever operation it belongs to, an act of code
outside of the clients, and any change of a registry. -/
inductive World.Stirs : World κ → World κ → Prop where
  | step {world after : World κ} (index : ClientId) (phase : Phase κ) (turn : Turn κ)
      (made : world.step? index phase = some (turn, after)) : Stirs world after
  | act {world : World κ} (act : Outside) :
      Stirs world { world with environment := act.apply world.environment }
  | registry {world : World κ} (index : RegistryId) (registry : Discovery) :
      Stirs world { world with environment := world.environment.setRegistry index registry }

/-- A world comes to be another one. -/
def World.Becomes (before after : World κ) : Prop := Relation.ReflTransGen World.Stirs before after

/-- What a client keeps for good. -/
structure Client.Endures (before after : Client κ) : Prop where
  descriptor_eq : after.descriptor = before.descriptor
  options_eq : after.options = before.options
  registry_eq : after.registry = before.registry
  host_eq : after.host = before.host
  clock_eq : after.clock = before.clock
  shutdown_eq : after.shutdown = before.shutdown
  disposed : before.disposed = true → after.disposed = true

/-- What nothing undoes: no clock is put back, no client gets lost, no token is cleared, and no host comes
back. -/
structure World.Retains (before after : World κ) : Prop where
  clocks : before.environment.Precedes after.environment
  clients : ∀ (index : ClientId) (client : Client κ), before.clients[index]? = some client →
    ∃ later : Client κ, after.clients[index]? = some later ∧ client.Endures later
  tokens : ∀ token, before.environment.isCancelled token = true →
    after.environment.isCancelled token = true
  hosts : ∀ host, (before.environment.host host).isValid = false →
    (after.environment.host host).isValid = false

/-- To sign off makes no host come or go. -/
theorem Environment.isValid_deregister (environment : Environment) (index : HostId)
    (service : String) (host : HostId) :
    ((environment.deregister index service).host host).isValid
      = (environment.host host).isValid :=
  environment.host_setHost_congr Host.isValid index host rfl

namespace Client

theorem Endures.refl (client : Client κ) : client.Endures client := ⟨rfl, rfl, rfl, rfl, rfl, rfl, id⟩

theorem Endures.trans {first second third : Client κ} (before : first.Endures second)
    (after : second.Endures third) : first.Endures third where
  descriptor_eq := after.descriptor_eq.trans before.descriptor_eq
  options_eq := after.options_eq.trans before.options_eq
  registry_eq := after.registry_eq.trans before.registry_eq
  host_eq := after.host_eq.trans before.host_eq
  clock_eq := after.clock_eq.trans before.clock_eq
  shutdown_eq := after.shutdown_eq.trans before.shutdown_eq
  disposed gone := after.disposed (before.disposed gone)

variable (client : Client κ) (environment : Environment) (phase : Phase κ)

theorem endures_step : client.Endures (client.step environment phase).client := by
  have exit := client.exit_step environment phase
  generalize client.step environment phase = step at exit
  cases exit with
  | aside isAside client_eq cells_eq effects next =>
    rw [client_eq]
    exact .refl client
  | retired live => exact ⟨rfl, rfl, rfl, rfl, rfl, rfl, fun _ => rfl⟩
  | _ => exact ⟨rfl, rfl, rfl, rfl, rfl, rfl, id⟩

/-- No step changes a token. -/
theorem tokens_step : (client.step environment phase).environment.tokens = environment.tokens := by
  by_cases isAside : phase.isAside = true
  · have sidestep := client.sidestep_step environment isAside
    generalize client.step environment phase = step at sidestep ⊢
    cases sidestep with
    | timed read calm =>
      have tokens_eq := congrArg Environment.tokens (Environment.eq_of_readClock read)
      exact tokens_eq
    | slept => cases client.clock <;> rfl
    | _ => rfl
  · have exit := client.exit_step environment phase
    generalize client.step environment phase = step at exit ⊢
    cases exit with
    | untimed live room sent read | doubled live room sent read | stored live room sent read =>
      have tokens_eq := congrArg Environment.tokens (Environment.eq_of_readClock read)
      exact tokens_eq
    | aside aside => exact absurd aside isAside
    | _ => rfl

/-- No step makes a host come or go. -/
theorem hosted_step (host : HostId) :
    ((client.step environment phase).environment.host host).isValid
      = (environment.host host).isValid := by
  cases retires : phase.isRetiring with
  | false =>
    unfold Environment.host
    rw [(client.quiet_step environment retires).1]
  | true =>
    cases phase with
    | deregister orphaned =>
      unfold step deregister
      dsimp only
      split
      · exact environment.isValid_deregister client.host client.service host
      · rfl
    | release orphaned => rfl
    | _ => cases retires

end Client

/-- No act of code outside of the clients brings a host back. -/
theorem Outside.hosted_apply {environment : Environment} {host : HostId}
    (gone : (environment.host host).isValid = false) (act : Outside) :
    ((act.apply environment).host host).isValid = false := by
  cases act with
  | invalidate invalid =>
    unfold apply
    rw [Environment.host_setHost]
    split
    · rfl
    · exact gone
  | _ => exact gone

namespace TokenShelf

variable {shelf : TokenShelf} {token : Token}

theorem isCancelled_iff :
    shelf.isCancelled token = true
      ↔ ∃ flag, shelf.tokens[token]? = some flag ∧ shelf.flags[flag]? = some true := by
  unfold isCancelled
  cases shelf.tokens[token]? with
  | none => simp
  | some flag => cases found : shelf.flags[flag]? <;> simp [found]

theorem isCancelled_cancel (isSet : shelf.isCancelled token = true) (other : Token) :
    (shelf.cancel other).2.isCancelled token = true := by
  obtain ⟨flag, known, isTrue⟩ := isCancelled_iff.mp isSet
  unfold cancel
  split
  next set found =>
    refine isCancelled_iff.mpr ⟨flag, known, ?_⟩
    by_cases same : set = flag
    · rw [same, List.getElem?_set_self (List.getElem?_eq_some_iff.mp isTrue).1]
    · exact (List.getElem?_set_ne same).trans isTrue
  next => exact isSet

theorem isCancelled_append (isSet : shelf.isCancelled token = true) (flags : List Bool)
    (tokens : List Nat) :
    isCancelled ⟨shelf.flags ++ flags, shelf.tokens ++ tokens⟩ token = true := by
  obtain ⟨flag, known, isTrue⟩ := isCancelled_iff.mp isSet
  refine isCancelled_iff.mpr ⟨flag, ?_, ?_⟩
  · exact (List.getElem?_append_left (List.getElem?_eq_some_iff.mp known).1).trans known
  · exact (List.getElem?_append_left (List.getElem?_eq_some_iff.mp isTrue).1).trans isTrue

theorem isCancelled_share (isSet : shelf.isCancelled token = true) (shared : Token) :
    (((shelf.share? shared).map (·.2)).getD shelf).isCancelled token = true := by
  unfold share?
  cases shelf.tokens[shared]? with
  | none => exact isSet
  | some flag =>
    have appended := isCancelled_append isSet [] [flag]
    rw [List.append_nil] at appended
    exact appended

end TokenShelf

/-- No act of code outside of the clients clears a token. -/
theorem Outside.isCancelled_apply {environment : Environment} {token : Token}
    (isSet : environment.tokens.isCancelled token = true) (act : Outside) :
    (act.apply environment).tokens.isCancelled token = true := by
  cases act with
  | makeToken => exact TokenShelf.isCancelled_append isSet _ _
  | shareToken shared => exact TokenShelf.isCancelled_share isSet shared
  | cancelToken cancelled => exact TokenShelf.isCancelled_cancel isSet cancelled
  | _ => exact isSet

namespace World

theorem Retains.refl (world : World κ) : world.Retains world where
  clocks := .refl _
  clients _ client found := ⟨client, found, .refl client⟩
  tokens _ := id
  hosts _ := id

theorem Retains.trans {first second third : World κ} (before : first.Retains second)
    (after : second.Retains third) : first.Retains third where
  clocks := before.clocks.trans after.clocks
  clients index client found := by
    obtain ⟨middle, foundMiddle, endures⟩ := before.clients index client found
    obtain ⟨later, foundLater, enduresOn⟩ := after.clients index middle foundMiddle
    exact ⟨later, foundLater, endures.trans enduresOn⟩
  tokens token isSet := after.tokens token (before.tokens token isSet)
  hosts host gone := after.hosts host (before.hosts host gone)

/-- The world after a step of a client. -/
theorem Retains.of_found {world : World κ} {index : ClientId} {actor : Client κ}
    (foundActor : world.clients[index]? = some actor) (phase : Phase κ) :
    world.Retains ⟨world.clients.set index (actor.step world.environment phase).client,
      (actor.step world.environment phase).environment⟩ := by
  constructor
  case clocks => exact actor.precedes_step _ phase
  case clients =>
    intro other client found
    by_cases own : other = index
    · subst own
      cases foundActor.symm.trans found
      exact ⟨_, (World.getElem?_set_client foundActor).mpr (.inl ⟨rfl, rfl⟩),
        actor.endures_step _ phase⟩
    · exact ⟨client, (World.getElem?_set_client foundActor).mpr (.inr ⟨own, found⟩), .refl client⟩
  case tokens =>
    intro token isSet
    unfold Environment.isCancelled
    rw [actor.tokens_step]
    exact isSet
  case hosts => exact fun host gone => (actor.hosted_step _ phase host).trans gone

theorem Stirs.retains {before after : World κ} (stirs : before.Stirs after) : before.Retains after := by
  cases stirs with
  | step index phase turn made =>
    obtain ⟨actor, found, -, rfl⟩ := World.step?_eq_some made
    exact .of_found found phase
  | act act =>
    refine ⟨act.precedes_apply _, fun _ client found => ⟨client, found, .refl client⟩,
      fun token isSet => ?_, fun host gone => act.hosted_apply gone⟩
    cases token with
    | none => cases isSet
    | some token => exact Outside.isCancelled_apply isSet act
  | registry index registry =>
    exact ⟨.of_eq rfl rfl, fun _ client found => ⟨client, found, .refl client⟩, fun _ => id,
      fun _ => id⟩

theorem Becomes.retains {before after : World κ} (becomes : before.Becomes after) :
    before.Retains after := by
  induction becomes with
  | refl => exact .refl before
  | tail _ stirs inductionHypothesis => exact inductionHypothesis.trans stirs.retains

end World

/-! ### Strands -/

namespace Effect

def nap? : Effect → Option Span
  | .slept _ nap => some nap
  | _ => none

def reading? : Effect → Option Moment
  | .readClock reading => reading
  | _ => none

def answer? : Effect → Option Bool
  | .queried available => some available
  | _ => none

end Effect

/-- An operation of a client in a world: how it goes on, and the turns it has made so far. -/
structure Strand (κ : Type) where
  world : World κ
  client : ClientId
  next : Next κ
  turns : List (Turn κ) := []
deriving Repr

namespace Strand

/-- An operation that is about to begin. -/
def opening (world : World κ) (client : ClientId) (phase : Phase κ) : Strand κ :=
  ⟨world, client, .goesOn phase, []⟩

/-- The operation makes its next step, if it goes on. -/
def advance? (strand : Strand κ) : Option (Strand κ) :=
  match strand.next with
  | .goesOn phase =>
    (strand.world.step? strand.client phase).map fun (turn, world) =>
      ⟨world, strand.client, turn.next, strand.turns ++ [turn]⟩
  | _ => none

/-- The operation makes so many steps with nothing between them. -/
def run? (strand : Strand κ) : Nat → Option (Strand κ)
  | 0 => some strand
  | steps + 1 => (strand.run? steps).bind advance?

/-- The operation has come to its end. -/
def isOver (strand : Strand κ) : Bool :=
  match strand.next with
  | .goesOn _ => false
  | _ => true

/-- What the operation made happen. -/
def effects (strand : Strand κ) : List Effect := strand.turns.flatMap Turn.effects

/-- The naps of the operation. -/
def naps (strand : Strand κ) : List Span := strand.effects.filterMap Effect.nap?

/-- The points in time that the operation read from its clock. -/
def readings (strand : Strand κ) : List Moment := strand.effects.filterMap Effect.reading?

/-- What the registry answered to the operation. -/
def answers (strand : Strand κ) : List Bool := strand.effects.filterMap Effect.answer?

/-- The time that has elapsed on the clock of a client. -/
def elapsed (strand : Strand κ) (client : Client κ) : Nat :=
  (strand.world.environment.elapsed client.clock).toNanos

/-- The operation after a step of its client. -/
def after (strand : Strand κ) (actor : Client κ) (phase : Phase κ) (step : Step κ) : Strand κ :=
  ⟨⟨strand.world.clients.set strand.client step.client, step.environment⟩, strand.client, step.next,
    strand.turns ++ [⟨strand.client, actor.service, phase, step.effects, step.next⟩]⟩

section After

variable (strand : Strand κ) (actor : Client κ) (phase : Phase κ) (step : Step κ)

@[simp] theorem effects_after :
    (strand.after actor phase step).effects = strand.effects ++ step.effects := by
  unfold effects after
  rw [List.flatMap_append, List.flatMap_singleton]

@[simp] theorem naps_after :
    (strand.after actor phase step).naps = strand.naps ++ step.effects.filterMap Effect.nap? := by
  unfold naps
  rw [effects_after, List.filterMap_append]

@[simp] theorem readings_after : (strand.after actor phase step).readings
    = strand.readings ++ step.effects.filterMap Effect.reading? := by
  unfold readings
  rw [effects_after, List.filterMap_append]

@[simp] theorem answers_after : (strand.after actor phase step).answers
    = strand.answers ++ step.effects.filterMap Effect.answer? := by
  unfold answers
  rw [effects_after, List.filterMap_append]

@[simp] theorem next_after : (strand.after actor phase step).next = step.next := rfl

@[simp] theorem turns_after : (strand.after actor phase step).turns
    = strand.turns ++ [⟨strand.client, actor.service, phase, step.effects, step.next⟩] := rfl

end After

/-- The strands that a strand leads to: the operation makes its steps, and other things happen between them. -/
inductive Leads (start : Strand κ) : Strand κ → Prop where
  | here : Leads start start
  | advance {strand later : Strand κ} (leads : Leads start strand)
      (advances : strand.advance? = some later) : Leads start later
  | stir {strand : Strand κ} {world : World κ} (leads : Leads start strand)
      (stirs : strand.world.Stirs world) : Leads start { strand with world }

theorem advance?_eq_some {strand later : Strand κ} (advances : strand.advance? = some later) :
    ∃ phase client, strand.next = .goesOn phase
      ∧ strand.world.clients[strand.client]? = some client
      ∧ later = strand.after client phase (client.step strand.world.environment phase) := by
  unfold advance? at advances
  split at advances
  next phase goesOn =>
    obtain ⟨⟨turn, world⟩, made, rfl⟩ := Option.map_eq_some_iff.mp advances
    obtain ⟨client, found, rfl, rfl⟩ := World.step?_eq_some made
    exact ⟨phase, client, goesOn, found, rfl⟩
  next => cases advances

theorem advance?_of_found {strand : Strand κ} {phase : Phase κ} (goesOn : strand.next = .goesOn phase)
    {client : Client κ} (found : strand.world.clients[strand.client]? = some client) :
    strand.advance?
      = some (strand.after client phase (client.step strand.world.environment phase)) := by
  unfold advance? World.step?
  rw [goesOn, found]
  rfl

theorem exists_goesOn {strand : Strand κ} (under : strand.isOver = false) :
    ∃ phase, strand.next = .goesOn phase := by
  unfold isOver at under
  split at under
  next phase goesOn => exact ⟨phase, goesOn⟩
  next => cases under

/-- An operation on a client that is there can go on until it is over. -/
theorem exists_advance {strand : Strand κ} {client : Client κ}
    (found : strand.world.clients[strand.client]? = some client) (under : strand.isOver = false) :
    ∃ later, strand.advance? = some later := by
  obtain ⟨phase, goesOn⟩ := exists_goesOn under
  exact ⟨_, advance?_of_found goesOn found⟩

/-- An operation comes to its end if it can always make a further step but not too many of them. -/
theorem exists_over {motive : Strand κ → Prop} {bound : Nat}
    (bounded : ∀ strand, motive strand → strand.turns.length ≤ bound)
    (onward : ∀ strand, motive strand → strand.isOver = false →
      ∃ later, later.turns.length = strand.turns.length + 1 ∧ motive later)
    {strand : Strand κ} (holds : motive strand) : ∃ final, motive final ∧ final.isOver = true := by
  induction left : bound - strand.turns.length generalizing strand with
  | zero =>
    cases ended : strand.isOver with
    | true => exact ⟨strand, holds, ended⟩
    | false =>
      obtain ⟨later, longer, holdsLater⟩ := onward strand holds ended
      have within := bounded later holdsLater
      omega
  | succ left inductionHypothesis =>
    cases ended : strand.isOver with
    | true => exact ⟨strand, holds, ended⟩
    | false =>
      obtain ⟨later, longer, holdsLater⟩ := onward strand holds ended
      exact inductionHypothesis holdsLater (by omega)

theorem length_turns_of_advance? {strand later : Strand κ} (advances : strand.advance? = some later) :
    later.turns.length = strand.turns.length + 1 := by
  obtain ⟨phase, client, -, -, rfl⟩ := advance?_eq_some advances
  exact List.length_append

namespace Leads

variable {start middle finish strand : Strand κ}

theorem trans (first : start.Leads middle) (second : middle.Leads finish) : start.Leads finish := by
  induction second with
  | here => exact first
  | advance _ advances inductionHypothesis => exact inductionHypothesis.advance advances
  | stir _ stirs inductionHypothesis => exact inductionHypothesis.stir stirs

/-- All that can happen to a world can happen around an operation. -/
theorem carry {world : World κ} (leads : start.Leads strand) (becomes : strand.world.Becomes world) :
    start.Leads { strand with world } := by
  induction becomes with
  | refl => exact leads
  | tail _ stirs inductionHypothesis => exact inductionHypothesis.stir stirs

theorem of_run? {steps : Nat} (ran : start.run? steps = some strand) : start.Leads strand := by
  induction steps generalizing strand with
  | zero =>
    cases ran
    exact .here
  | succ steps inductionHypothesis =>
    obtain ⟨middle, ran, advances⟩ := Option.bind_eq_some_iff.mp ran
    exact (inductionHypothesis ran).advance advances

theorem client_eq (leads : start.Leads strand) : strand.client = start.client := by
  induction leads with
  | here => rfl
  | advance _ advances inductionHypothesis =>
    obtain ⟨phase, client, -, -, rfl⟩ := advance?_eq_some advances
    exact inductionHypothesis
  | stir _ _ inductionHypothesis => exact inductionHypothesis

/-- What an operation makes of the world, together with all that happens around it, is something that can
happen. -/
theorem becomes (leads : start.Leads strand) : start.world.Becomes strand.world := by
  induction leads with
  | here => exact .refl
  | @advance strand later leads advances inductionHypothesis =>
    obtain ⟨phase, client, goesOn, found, rfl⟩ := advance?_eq_some advances
    have made : ∃ turn, strand.world.step? strand.client phase = some (turn,
        (strand.after client phase (client.step strand.world.environment phase)).world) := by
      unfold World.step?
      rw [found]
      exact ⟨_, rfl⟩
    exact inductionHypothesis.tail (.step _ phase _ made.choose_spec)
  | stir _ stirs inductionHypothesis => exact inductionHypothesis.tail stirs

theorem retains (leads : start.Leads strand) : start.world.Retains strand.world :=
  leads.becomes.retains

/-- An operation on a client that was there when it began can go on until it is over. -/
theorem onward {client : Client κ} (found : start.world.clients[start.client]? = some client)
    (leads : start.Leads strand) (under : strand.isOver = false) :
    ∃ later, strand.advance? = some later := by
  obtain ⟨known, foundKnown, -⟩ := leads.retains.clients _ _ found
  rw [← leads.client_eq] at foundKnown
  exact exists_advance foundKnown under

/-- An operation that cannot make too many steps comes to its end if nothing happens around it any more. -/
theorem exists_run? {client : Client κ} (found : start.world.clients[start.client]? = some client)
    {bound : Nat} (bounded : ∀ strand, start.Leads strand → strand.turns.length ≤ bound)
    (leads : start.Leads strand) :
    ∃ steps final, strand.run? steps = some final ∧ final.isOver = true := by
  obtain ⟨final, ⟨steps, ran⟩, ended⟩ := exists_over
    (motive := fun later => ∃ steps, strand.run? steps = some later)
    (fun later ran => bounded later (leads.trans (.of_run? ran.choose_spec)))
    (fun later ran under => by
      obtain ⟨steps, ran⟩ := ran
      obtain ⟨next, advances⟩ := onward found (leads.trans (.of_run? ran)) under
      exact ⟨next, length_turns_of_advance? advances, steps + 1,
        Option.bind_eq_some_iff.mpr ⟨later, ran, advances⟩⟩)
    ⟨0, rfl⟩
  exact ⟨steps, final, ran, ended⟩

end Leads

end Strand

end Correlator
