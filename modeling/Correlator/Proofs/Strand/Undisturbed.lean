import Correlator.Proofs.Strand.Waiting

/-!
Contract: operations around which nothing happens except that registries change their minds.

Owns: what such an operation leaves as it is, that there is one for every sequence of answers, and the two
operations that ask the registry once.

Does not own: waits that may take time (`Correlator.Proofs.Strand.Forecast`).
-/

set_option autoImplicit false

namespace Correlator

variable {κ : Type}

/-- A registry that gives one answer to the next query. -/
def Discovery.telling (available : Bool) : Discovery := { available, availableFrom := 2 }

theorem Discovery.query_telling (available : Bool) : (telling available).query.1 = available := by
  cases available <;> rfl

/-- Nothing in the world stops a wait of a client. -/
structure World.Calm (world : World κ) (index : ClientId) (client : Client κ)
    (token : Option Token) : Prop where
  found : world.clients[index]? = some client
  live : client.disposed = false
  hosted : (world.environment.host client.host).isValid = true
  notShutDown : world.environment.isCancelled client.shutdown = false
  notCancelled : world.environment.isCancelled token = false

theorem World.Calm.stays {world : World κ} {index : ClientId} {client : Client κ}
    {token : Option Token} (calm : world.Calm index client token) {environment : Environment}
    (tokens_eq : environment.tokens = world.environment.tokens)
    (hosts_eq : environment.hosts = world.environment.hosts) :
    Calm ⟨world.clients.set index client, environment⟩ index client token := by
  have isCancelled_eq : environment.isCancelled = world.environment.isCancelled := by
    unfold Environment.isCancelled
    rw [tokens_eq]
  obtain ⟨below, same⟩ := List.getElem?_eq_some_iff.mp calm.found
  constructor
  case found => exact List.getElem?_set_self below
  case live => exact calm.live
  case hosted =>
    exact (congrArg (fun hosts => (hosts.get client.host).isValid) hosts_eq).trans calm.hosted
  case notShutDown => exact (congrFun isCancelled_eq _).trans calm.notShutDown
  case notCancelled => exact (congrFun isCancelled_eq _).trans calm.notCancelled

namespace Strand

/-- The operation with another registry under a number. -/
def withRegistry (strand : Strand κ) (index : RegistryId) (registry : Discovery) : Strand κ :=
  { strand with world := { strand.world with
      environment := strand.world.environment.setRegistry index registry } }

/-- The strands that an operation leads to if nothing else happens but that registries change. -/
inductive Undisturbed (start : Strand κ) : Strand κ → Prop where
  | here : Undisturbed start start
  | advance {strand later : Strand κ} (sofar : Undisturbed start strand)
      (advances : strand.advance? = some later) : Undisturbed start later
  | registry {strand : Strand κ} (sofar : Undisturbed start strand) (index : RegistryId)
      (registry : Discovery) : Undisturbed start (strand.withRegistry index registry)

/-- The registry gave the first answers of a sequence, in this order. -/
def Follows (answers : Nat → Bool) (strand : Strand κ) : Prop :=
  strand.answers = (List.range strand.answers.length).map answers

variable {start strand later : Strand κ} {answers : Nat → Bool}

theorem Follows.next (follows : strand.Follows answers)
    (told : later.answers = strand.answers
      ∨ later.answers = strand.answers ++ [answers strand.answers.length]) :
    later.Follows answers := by
  unfold Follows at follows ⊢
  rcases told with same | more
  · rw [same]
    exact follows
  · rw [more, List.length_append, List.length_singleton, List.range_succ, List.map_append, ← follows]
    rfl

/-- Where the sequence says yes, so did the registry. -/
theorem Follows.mem (follows : strand.Follows answers) {check : Nat}
    (within : check < strand.answers.length) : answers check ∈ strand.answers := by
  rw [follows]
  exact List.mem_map_of_mem (List.mem_range.mpr within)

/-- As long as the registry has only said no, so does the sequence. -/
theorem Follows.unanswered (follows : strand.Follows answers)
    (unanswered : ∀ answer ∈ strand.answers, answer = false) :
    ∀ check < strand.answers.length, answers check = false :=
  fun _ within => unanswered _ (follows.mem within)

namespace Undisturbed

theorem leads (undisturbed : start.Undisturbed strand) : start.Leads strand := by
  induction undisturbed with
  | here => exact .here
  | advance _ advances inductionHypothesis => exact inductionHypothesis.advance advances
  | registry _ index registry inductionHypothesis =>
    exact inductionHypothesis.stir (.registry index registry)

theorem trans {middle : Strand κ} (first : start.Undisturbed middle) (second : middle.Undisturbed strand) :
    start.Undisturbed strand := by
  induction second with
  | here => exact first
  | advance _ advances inductionHypothesis => exact inductionHypothesis.advance advances
  | registry _ index registry inductionHypothesis => exact inductionHypothesis.registry index registry

/-- Whatever the registry is to answer, an operation comes to its end with these answers, if it asks with no
step more than once and cannot make too many steps. -/
theorem exists_over {client : Client κ} (found : start.world.clients[start.client]? = some client)
    {bound : Nat}
    (asks : ∀ strand phase actor, start.Undisturbed strand → strand.next = .goesOn phase →
      strand.world.clients[strand.client]? = some actor →
      (actor.step strand.world.environment phase).effects.filterMap Effect.answer? = []
        ∨ (actor.step strand.world.environment phase).effects.filterMap Effect.answer?
          = [(strand.world.environment.registry actor.registry).query.1])
    (bounded : ∀ strand, start.Undisturbed strand → strand.Follows answers →
      strand.turns.length ≤ bound)
    (sofar : start.Undisturbed strand) (follows : strand.Follows answers) :
    ∃ final, strand.Undisturbed final ∧ final.Follows answers ∧ final.isOver = true := by
  have onward : ∀ later, strand.Undisturbed later ∧ later.Follows answers → later.isOver = false →
      ∃ next, next.turns.length = later.turns.length + 1
        ∧ strand.Undisturbed next ∧ next.Follows answers := by
    rintro later ⟨undisturbed, follows⟩ under
    have told : strand.Undisturbed
        (later.withRegistry client.registry (.telling (answers later.answers.length))) :=
      undisturbed.registry _ _
    have leads := (sofar.trans told).leads
    obtain ⟨next, advances⟩ := leads.onward found under
    have longer := length_turns_of_advance? advances
    refine ⟨next, longer, told.advance advances, follows.next ?_⟩
    obtain ⟨phase, actor, goesOn, foundActor, rfl⟩ := advance?_eq_some advances
    rw [answers_after]
    rcases asks _ phase actor (sofar.trans told) goesOn foundActor with none | one
    · exact .inl (by rw [none]; exact List.append_nil _)
    · obtain ⟨known, foundKnown, endures⟩ := leads.retains.clients _ client found
      have client_eq : later.client = start.client := leads.client_eq
      cases foundKnown.symm.trans (client_eq ▸ foundActor)
      have asked : ((later.withRegistry client.registry
          (.telling (answers later.answers.length))).world.environment.registry actor.registry)
            = .telling (answers later.answers.length) := by
        rw [endures.registry_eq]
        exact (Environment.registry_setRegistry _ _ _ _).trans (if_pos rfl)
      refine .inr ?_
      rw [one, asked, Discovery.query_telling]
      rfl
  obtain ⟨final, ⟨undisturbed, follows⟩, ended⟩ := Strand.exists_over
    (fun later holds => bounded later (sofar.trans holds.1) holds.2) onward ⟨.here, follows⟩
  exact ⟨final, undisturbed, follows, ended⟩

end Undisturbed

end Strand

/-! ### Operations that ask once -/

/-- The purpose for which an operation is going to ask the registry once, and how many steps it makes before. -/
def Phase.query? : Phase κ → Option (Purpose × Nat)
  | .wait timeout _ => if timeout.any (·.isZero) then some (.once, 4) else none
  | .waitOnce => some (.once, 3)
  | .isAvailable => some (.answer, 2)
  | .probeLive purpose => some (purpose, 2)
  | .probeHost purpose => some (purpose, 1)
  | .probeQuery purpose => some (purpose, 0)
  | _ => none

theorem Phase.query?_wait {limit : Span} (instant : limit.isZero = true) (token : Option Token) :
    (Phase.wait (some limit) token : Phase κ).query? = some (.once, 4) :=
  if_pos instant

/-- The ways in which a step of such an operation can end, when nothing is in its way. -/
inductive Client.Inquiry (client : Client κ) (environment : Environment) (purpose : Purpose) :
    Nat → Step κ → Prop where
  | nears {left : Nat} {effects : List Effect} {later : Phase κ}
      (awake : effects.filterMap Effect.nap? = []) (silent : effects.filterMap Effect.answer? = [])
      (unread : .readClock none ∉ effects)
      (onward : later.query? = some (purpose, left)) :
      Inquiry client environment purpose (left + 1) ⟨client, environment, effects, .goesOn later⟩
  | asks {registry : Discovery} :
      Inquiry client environment purpose 0
        ⟨client, environment.setRegistry client.registry registry,
          [.queried (environment.registry client.registry).query.1],
          Purpose.conclude (environment.registry client.registry).query.1 purpose⟩

namespace Client

variable {client : Client κ} {environment : Environment} {phase : Phase κ} {purpose : Purpose}
  {left : Nat}

private theorem inquiry_whileLive (live : client.disposed = false) {later : Phase κ}
    (onward : later.query? = some (purpose, left)) :
    client.Inquiry environment purpose (left + 1)
      (client.whileLive environment ⟨client, environment, [], .goesOn later⟩) := by
  rw [whileLive_of_live live]
  exact .nears rfl rfl (by simp) onward

private theorem inquiry_sawHost {later : Phase κ} (onward : later.query? = some (purpose, left)) :
    client.Inquiry environment purpose (left + 1)
      ⟨client, environment, [.sawHost true], .goesOn later⟩ :=
  .nears rfl rfl (by simp) onward

theorem inquiry_step (live : client.disposed = false) (hosted : (environment.host client.host).isValid = true)
    (asks : phase.query? = some (purpose, left)) :
    client.Inquiry environment purpose left (client.step environment phase) := by
  cases phase with
  | wait timeout token =>
    cases instant : timeout.any (·.isZero) with
    | false => simp [Phase.query?, instant] at asks
    | true =>
      simp only [Phase.query?, instant, ↓reduceIte, Option.some.injEq, Prod.mk.injEq] at asks
      obtain ⟨rfl, rfl⟩ := asks
      change client.Inquiry environment .once 4 (client.whileLive environment
        ⟨client, environment, [], if timeout.any (·.isZero) then .goesOn .waitOnce else _⟩)
      rw [if_pos instant]
      exact inquiry_whileLive live rfl
  | isAvailable | probeLive =>
    cases asks
    exact inquiry_whileLive live rfl
  | waitOnce =>
    cases asks
    unfold step waitOnce
    rw [hosted]
    exact inquiry_sawHost rfl
  | probeHost =>
    cases asks
    unfold step probeHost
    rw [hosted]
    exact inquiry_sawHost rfl
  | probeQuery =>
    cases asks
    exact .asks
  | _ => cases asks

end Client

namespace Strand

variable {world : World κ} {index : ClientId} {client : Client κ} {token : Option Token}
  {strand : Strand κ} {first : Phase κ} {purpose : Purpose} {total : Nat}

/-- What an operation comes to that asks the registry once. -/
structure Inquires (world : World κ) (index : ClientId) (client : Client κ) (token : Option Token)
    (purpose : Purpose) (total : Nat) (strand : Strand κ) : Prop where
  calm : strand.world.Calm index client token
  clocks_eq : strand.world.environment.clocks = world.environment.clocks
  naps_eq : strand.naps = []
  unread : .readClock none ∉ strand.effects
  under : ∀ phase, strand.next = .goesOn phase → strand.answers = []
    ∧ ∃ left, phase.query? = some (purpose, left) ∧ strand.turns.length + left = total
  turns_le : strand.turns.length ≤ total + 1
  ended : strand.isOver = true →
    ∃ answer, strand.answers = [answer] ∧ strand.next = Purpose.conclude answer purpose

theorem Undisturbed.inquires (calm : world.Calm index client token)
    (asks : first.query? = some (purpose, total)) (ends : purpose = .answer ∨ purpose = .once)
    (undisturbed : (opening world index first).Undisturbed strand) :
    strand.Inquires world index client token purpose total := by
  induction undisturbed with
  | here =>
    refine ⟨calm, rfl, rfl, by rintro ⟨⟩, ?_, Nat.zero_le _, by rintro ⟨⟩⟩
    rintro phase ⟨⟩
    exact ⟨rfl, total, asks, Nat.zero_add _⟩
  | @advance strand later sofar advances inductionHypothesis =>
    obtain ⟨phase, actor, goesOn, foundActor, rfl⟩ := advance?_eq_some advances
    obtain ⟨calm, clocks_eq, naps_eq, unread, under, -, -⟩ := inductionHypothesis
    obtain ⟨unanswered, left, query, length⟩ := under phase goesOn
    have client_eq : strand.client = index := sofar.leads.client_eq
    rw [client_eq] at foundActor
    cases calm.found.symm.trans foundActor
    have inquiry := Client.inquiry_step calm.live calm.hosted query
    generalize client.step strand.world.environment phase = step at inquiry
    subst client_eq
    cases inquiry with
    | @nears left effects known awake silent unreadNow onward =>
      refine ⟨calm.stays rfl rfl, clocks_eq, ?_, ?_, ?_, ?_, by rintro ⟨⟩⟩
      · rw [naps_after, naps_eq, awake]
        rfl
      · rw [effects_after]
        exact fun member => (List.mem_append.mp member).elim unread unreadNow
      · rintro later ⟨⟩
        refine ⟨?_, left, onward, ?_⟩
        · rw [answers_after, unanswered, silent]
          rfl
        · rw [turns_after, List.length_append, List.length_singleton]
          omega
      · rw [turns_after, List.length_append, List.length_singleton]
        omega
    | asks =>
      refine ⟨calm.stays rfl rfl, clocks_eq, ?_, ?_, ?_, ?_, fun _ => ?_⟩
      · rw [naps_after, naps_eq]
        rfl
      · rw [effects_after]
        exact fun member => (List.mem_append.mp member).elim unread (by simp)
      · intro later goesOn
        rw [next_after] at goesOn
        rcases ends with rfl | rfl <;> cases goesOn
      · rw [turns_after, List.length_append, List.length_singleton]
        omega
      · exact ⟨_, by rw [answers_after, unanswered]; rfl, rfl⟩
  | registry sofar index registry inductionHypothesis =>
    obtain ⟨calm, clocks_eq, naps_eq, unread, under, turns_le, ended⟩ := inductionHypothesis
    exact ⟨⟨calm.found, calm.live, calm.hosted, calm.notShutDown, calm.notCancelled⟩, clocks_eq,
      naps_eq, unread, under, turns_le, ended⟩

/-- Whatever the registry is to answer, an operation that asks it once comes to its end. -/
theorem Undisturbed.exists_inquiry (calm : world.Calm index client token)
    (asks : first.query? = some (purpose, total)) (ends : purpose = .answer ∨ purpose = .once)
    (sofar : (opening world index first).Undisturbed strand) {answers : Nat → Bool}
    (follows : strand.Follows answers) :
    ∃ final, strand.Undisturbed final ∧ final.Follows answers ∧ final.isOver = true := by
  refine exists_over calm.found (fun strand phase actor undisturbed goesOn foundActor => ?_)
    (fun strand undisturbed _ => (undisturbed.inquires calm asks ends).turns_le) sofar follows
  obtain ⟨calmNow, -, -, -, under, -, -⟩ := undisturbed.inquires calm asks ends
  obtain ⟨-, left, query, -⟩ := under phase goesOn
  rw [show strand.client = index from undisturbed.leads.client_eq] at foundActor
  cases calmNow.found.symm.trans foundActor
  have inquiry := Client.inquiry_step calmNow.live calmNow.hosted query
  generalize client.step strand.world.environment phase = step at inquiry
  cases inquiry with
  | nears awake silent => exact .inl silent
  | asks => exact .inr rfl

end Strand

end Correlator
