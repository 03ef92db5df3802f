import Correlator.Proofs.Client.Refusal
import Correlator.Proofs.Session.Atomicity

/-!
Contract: operations on clients that are out of use, at the points of a run.

Owns: which of them fail without asking anything of anyone, and what the others come to.

Does not own: the ends of such operations (`Correlator.Proofs.Client.Refusal`).
-/

set_option autoImplicit false

namespace Correlator.Session.Point

variable {point : Point} {index : ClientId} {client : Client Program}

/-- A client that is out of use turns every operation away, whatever the environment is like: the operation
comes to just one end. It fails for the client, changes nothing and asks nothing of a transport, a
registry, a host or a clock, unless it is a prune of stale requests with a threshold. That one asks for
the time first: if the clock is out of range, it breaks off. A run that has the operation next, outside
of waits, comes to this end. -/
theorem prompt_refusal (found : point.machine.session.client? index = some client)
    (disposed : client.disposed = true) (phase : Phase Program) (opening : phase.isOpening = true)
    (environment : Environment) :
    (∃! ending, client.Performs environment phase ending)
    ∧ ∀ ending, client.Performs environment phase ending →
      (client.FailsFast environment ending ↔ client.asksFirst phase = false)
      ∧ (client.asksFirst phase = true → ending = client.lateRefusal environment)
      ∧ ∀ rest, point.machine.session.environment = environment →
        point.machine.agenda = .advance index phase :: rest → point.machine.hooks = [] →
          ∃ finish, point.Leads finish ∧ Machine.Stepped { point.machine with agenda := rest }
            finish.machine index ending := by
  have ends : ∀ ending, client.Performs environment phase ending
      ↔ ending = client.turnedAway environment phase := fun ending =>
    Client.performs_iff_of_disposed disposed opening
  refine ⟨⟨_, (ends _).mpr rfl, fun other performs => (ends other).mp performs⟩, ?_⟩
  intro ending performs
  have ending_eq := (ends ending).mp performs
  refine ⟨?_, ?_, ?_⟩
  · rw [ending_eq]
    exact client.turnedAway_failsFast_iff environment phase
  · intro asks
    rw [ending_eq, Client.turnedAway, asks]
    rfl
  · intro rest same first unhooked
    exact Leads.here.performed first unhooked found same performs

/-- A session with a client whose requests are stale after a second. -/
def wary : Session :=
  { world :=
      { clients := [newcomer "echo" 0 { staleAfter := some (.ofMillis 1000) }]
        environment := { transports := [{}], tokens := TokenShelf.empty.fresh.2 } }
    shutdown := TokenShelf.empty.fresh.1 }

/-- A point after the client is out of use and the clock out of range, before a prune of stale requests. -/
def bygone : Point :=
  ((((opening wary).ask (.dispose 0)).next.next.next.next.ask (.advance 0 .longest)).next.ask
    (.pruneStale 0)).next

/-- It is the point of a run. There a request fails at once, and a prune of stale requests breaks off. -/
theorem prompt_refusal_bygone :
    start
        [{ service := "echo", transport := 0,
           options := .given { staleAfter := some (.ofMillis 1000) } }] {} = .ok wary
      ∧ (opening wary).Leads bygone
      ∧ ∃ client, bygone.machine.session.client? 0 = some client
      ∧ (∀ ending, client.Performs bygone.machine.session.environment (.submit "late" none) ending →
        client.FailsFast bygone.machine.session.environment ending)
      ∧ ∀ ending, client.Performs bygone.machine.session.environment .pruneStale ending →
        ending.next = .failed .clockOutOfRange := by
  obtain ⟨client, found⟩ : ∃ client, bygone.machine.session.client? 0 = some client := ⟨_, rfl⟩
  have gone : client.disposed = true ∧ client.options.staleAfter = some (.ofMillis 1000) := by
    cases found
    exact ⟨rfl, rfl⟩
  have leads : (opening wary).Leads bygone :=
    .next (.ask _ (.next (.ask _ (.next (.next (.next (.next (.ask _ .here rfl))))) rfl)) rfl)
  refine ⟨rfl, leads, client, found, ?_, ?_⟩
  · intro ending performs
    have prompt := prompt_refusal found gone.1 (.submit "late" none) rfl
      bygone.machine.session.environment
    exact ((prompt.2 ending performs).1).mpr rfl
  · intro ending performs
    have late := prompt_refusal found gone.1 .pruneStale rfl
      bygone.machine.session.environment
    rw [(late.2 ending performs).2.1 (by simp [Client.asksFirst, gone.2])]
    cases found
    rfl

/-- There it is not the case that every operation fails for the client, and asks for nothing. -/
theorem not_failsFast_bygone :
    ¬ ∀ client, bygone.machine.session.client? 0 = some client →
      ∀ phase ending, phase.isOpening = true →
        client.Performs bygone.machine.session.environment phase ending →
          client.FailsFast bygone.machine.session.environment ending := by
  intro failsFast
  obtain ⟨client, found⟩ : ∃ client, bygone.machine.session.client? 0 = some client := ⟨_, rfl⟩
  have gone : client.disposed = true := by
    cases found
    rfl
  have performs : client.Performs bygone.machine.session.environment .pruneStale _ :=
    Client.performs_turnedAway gone rfl
  have answer := (failsFast client found .pruneStale _ rfl performs).answer
  have breaks : (client.turnedAway bygone.machine.session.environment .pruneStale).next
      = .failed .clockOutOfRange := by
    cases found
    rfl
  rw [breaks] at answer
  cases answer

end Correlator.Session.Point
