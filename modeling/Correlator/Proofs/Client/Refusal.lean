import Correlator.Proofs.Client.Performance

/-!
Contract: what a client answers that is out of use.

Owns: that every operation on such a client comes to one end at once, which operations fail without asking
anything of a transport, a registry, a host or a clock, and what the others ask.

Does not own: how a client goes out of use (`Correlator.Proofs.Client.Disposal`).
-/

set_option autoImplicit false

namespace Correlator

/-- Effects that take something from what clients share: a transport, a registry, a host or a clock. -/
def Effect.asks : Effect → Bool
  | .sent _ _ | .refused _ _ | .readClock _ | .slept _ _ | .queried _ | .sawHost _
  | .deregistered _ | .released _ => true
  | _ => false

namespace Client

variable {κ : Type} {client : Client κ} {environment : Environment} {phase : Phase κ}
  {ending : Step κ}

/-- The step of an operation that finds its client out of use. -/
def refusal (client : Client κ) (environment : Environment) : Step κ :=
  ⟨client, environment, [.locked, .unlocked], .returned (.error (.invalidHandle client.service))⟩

/-- Whether an operation asks for the time before it looks whether its client is in use. -/
def asksFirst (client : Client κ) : Phase κ → Bool
  | .pruneStale => client.options.staleAfter.isSome
  | _ => false

/-- An operation fails for its client, and has not asked for anything. -/
structure FailsFast (client : Client κ) (environment : Environment) (ending : Step κ) : Prop where
  answer : ending.next = .returned (.error (.invalidHandle client.service))
  kept : ending.client = client ∧ ending.environment = environment
  alone : ∀ effect ∈ ending.effects, effect.asks = false

theorem refusal_failsFast (client : Client κ) (environment : Environment) :
    client.FailsFast environment (client.refusal environment) :=
  ⟨rfl, ⟨rfl, rfl⟩, by simp [refusal, Effect.asks]⟩

/-- The end of an operation that asks for the time first: without the time it breaks off, and with it, it
fails for its client. -/
def lateRefusal (client : Client κ) (environment : Environment) : Step κ :=
  match environment.readClock client.clock with
  | (none, timed) => ⟨client, timed, [.readClock none], .failed .clockOutOfRange⟩
  | (some now, timed) =>
    { client.refusal timed with effects := .readClock (some now) :: [.locked, .unlocked] }

/-- The end that an operation comes to whose client is out of use. -/
def turnedAway (client : Client κ) (environment : Environment) (phase : Phase κ) : Step κ :=
  if client.asksFirst phase then client.lateRefusal environment else client.refusal environment

theorem turnedAway_next (client : Client κ) (environment : Environment) (phase : Phase κ) :
    (client.turnedAway environment phase).next
        = .returned (.error (.invalidHandle client.service))
      ∨ (client.turnedAway environment phase).next = .failed .clockOutOfRange := by
  unfold turnedAway
  split
  · unfold lateRefusal
    split
    · exact Or.inr rfl
    · exact Or.inl rfl
  · exact Or.inl rfl

/-- Just the operations that ask for the time first fail in another way than they should. -/
theorem turnedAway_failsFast_iff (client : Client κ) (environment : Environment)
    (phase : Phase κ) :
    client.FailsFast environment (client.turnedAway environment phase)
      ↔ client.asksFirst phase = false := by
  unfold turnedAway
  cases asks : client.asksFirst phase with
  | false => exact iff_of_true (client.refusal_failsFast environment) rfl
  | true =>
    refine iff_of_false ?_ (by simp)
    intro failsFast
    obtain ⟨reading, asked⟩ : ∃ reading, .readClock reading
        ∈ (client.lateRefusal environment).effects := by
      unfold lateRefusal
      split
      · exact ⟨none, List.mem_cons_self⟩
      next now timed _ => exact ⟨some now, List.mem_cons_self⟩
    cases failsFast.alone _ asked

section Disposed

variable (disposed : client.disposed = true)

include disposed

/-- An operation that does not ask for the time first finds its client out of use at once. -/
theorem step_of_disposed (opening : phase.isOpening = true)
    (plain : client.asksFirst phase = false) :
    client.step environment phase = client.refusal environment := by
  cases phase with
  | submit | complete | cancel | pruneAll | pruneOlder | isAvailable | wait | dispose =>
    exact whileLive_of_disposed disposed environment _
  | pruneStale =>
    have none : client.options.staleAfter = none := by simpa [asksFirst] using plain
    unfold step pruneStale
    rw [none]
    exact whileLive_of_disposed disposed environment _
  | _ => cases opening

private theorem performs_lateRefusal {threshold : Span}
    (known : client.options.staleAfter = some threshold) :
    client.Performs environment .pruneStale (client.lateRefusal environment) := by
  have opens : client.step environment .pruneStale = client.pruneStale environment := rfl
  unfold pruneStale at opens
  unfold lateRefusal
  rw [known] at opens
  cases read : environment.readClock client.clock with
  | mk reading timed =>
    rw [read] at opens
    cases reading with
    | none => exact performs_of_step opens rfl
    | some now =>
      obtain ⟨later, goesOn, refused⟩ : ∃ later : Phase κ,
          client.step environment .pruneStale
              = ⟨client, timed, [.readClock (some now)], .goesOn later⟩
            ∧ client.step timed later = client.refusal timed := by
        dsimp only at opens
        split at opens
        · exact ⟨_, opens, whileLive_of_disposed disposed timed _⟩
        · exact ⟨_, opens, whileLive_of_disposed disposed timed _⟩
      exact performs_of_goesOn goesOn rfl (performs_of_step refused rfl)

theorem performs_turnedAway (opening : phase.isOpening = true) :
    client.Performs environment phase (client.turnedAway environment phase) := by
  unfold turnedAway
  cases asks : client.asksFirst phase with
  | false => exact performs_of_step (step_of_disposed disposed opening asks) rfl
  | true =>
    cases phase with
    | pruneStale =>
      obtain ⟨threshold, known⟩ := Option.isSome_iff_exists.mp asks
      exact performs_lateRefusal disposed known
    | _ => cases asks

/-- On a client that is out of use, every operation comes to one end, and no other. -/
theorem performs_iff_of_disposed (opening : phase.isOpening = true) :
    client.Performs environment phase ending ↔ ending = client.turnedAway environment phase := by
  have performs : client.Performs environment phase _ := performs_turnedAway disposed opening
  constructor
  · intro other
    exact other.unique performs
  · rintro rfl
    exact performs

end Disposed

end Client

end Correlator
