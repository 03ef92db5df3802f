import Correlator.Proofs.Course.Basic
import Correlator.Proofs.Time.Span
import Correlator.Session.Basic

/-!
Contract: the sessions in which nothing has happened yet.

Owns: what a client has from its builder, that a session begins with fresh clients, and the smallest one as an
example.

Does not own: runs (`Correlator.Proofs.Session.Run`).
-/

set_option autoImplicit false
namespace Correlator.Session

private theorem exists_of_mem_mapM {α β ε : Type} {make : α → Except ε β} {sources : List α}
    {made : List β} (all : sources.mapM make = .ok made) :
    ∀ result ∈ made, ∃ source, make source = .ok result := by
  induction sources generalizing made with
  | nil =>
    cases all
    simp
  | cons source rest inductionHypothesis =>
    rw [List.mapM_cons] at all
    cases first : make source with
    | error error =>
      rw [first] at all
      cases all
    | ok result =>
      cases others : rest.mapM make with
      | error error =>
        rw [first, others] at all
        cases all
      | ok results =>
        rw [first, others] at all
        cases all
        intro known member
        rcases List.mem_cons.mp member with rfl | later
        · exact ⟨source, first⟩
        · exact inductionHypothesis others known later

/-- A client that was built has its parts from the builder, whose options are in range. -/
theorem eq_of_build {κ : Type} {builder : Builder} {client : Client κ}
    (built : builder.build = .ok client) :
    builder.options.validate = .ok () ∧ ∃ transport registry host, client =
      { descriptor := builder.service, options := builder.options, transport, registry, host,
        clock := builder.clock, shutdown := builder.shutdown } := by
  unfold Builder.build at built
  split at built
  · cases built
  · split at built
    · cases built
    next valid =>
      split at built
      · cases built
      · cases built
      · cases built
      · cases built
        exact ⟨valid, _, _, _, rfl⟩

theorem isFresh_of_build {κ : Type} {builder : Builder} {client : Client κ}
    (built : builder.build = .ok client) :
    client.table = .empty ∧ client.tally = {} ∧ client.disposed = false := by
  obtain ⟨-, transport, registry, host, rfl⟩ := eq_of_build built
  exact ⟨rfl, rfl, rfl⟩

/-- Options in range have a poll interval. -/
theorem pollInterval_pos_of_validate {options : Options} (valid : options.validate = .ok ()) :
    0 < options.pollInterval.toNanos := by
  unfold Options.validate Options.flaw? at valid
  split at valid
  · cases valid
  next flawless =>
    split at flawless
    · cases flawless
    next positive => exact Nat.pos_of_ne_zero (mt Span.isZero_iff.mpr positive)

theorem pollInterval_pos_of_build {κ : Type} {builder : Builder} {client : Client κ}
    (built : builder.build = .ok client) : 0 < client.options.pollInterval.toNanos := by
  obtain ⟨valid, transport, registry, host, rfl⟩ := eq_of_build built
  exact pollInterval_pos_of_validate valid

theorem isFresh_of_start {specs : List ClientSpec} {registries : Pool Discovery} {session : Session}
    (started : start specs registries = .ok session) : session.world.IsFresh := by
  unfold start at started
  dsimp only at started
  split at started
  · cases started
  next clients built =>
    cases started
    intro client member
    obtain ⟨spec, made⟩ := exists_of_mem_mapM built client member
    unfold ClientSpec.build at made
    split at made
    · cases made
    · exact isFresh_of_build made

/-- A new client that shares its registry, its host and its virtual clock with all others. -/
def newcomer (service : String) (transport : TransportId) (options : Options := {}) :
    Client Program :=
  { descriptor := { name := service }, options, transport, registry := 0, host := 0,
    clock := .virtual 0, shutdown := some TokenShelf.empty.fresh.1 }

/-- A session with one client. -/
def solo : Session :=
  { world :=
      { clients := [newcomer "echo" 0]
        environment := { transports := [{}], tokens := TokenShelf.empty.fresh.2 } }
    shutdown := TokenShelf.empty.fresh.1 }

theorem start_solo : start [{ service := "echo", transport := 0 }] {} = .ok solo := by
  rfl

theorem solo_isFresh : solo.world.IsFresh := isFresh_of_start start_solo

end Correlator.Session
