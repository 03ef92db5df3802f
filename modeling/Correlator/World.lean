import Correlator.Client.Operation

/-!
Contract: several clients in one environment.

Owns: that a step of one client changes this client and the environment, and no other client.

Does not own: what a step does (`Correlator.Client.Operation`), and which step comes next
(`Correlator.Session.Machine`).
-/

set_option autoImplicit false

namespace Correlator

abbrev ClientId := Nat

/-- Clients with callbacks of type `κ`, and what they share. -/
structure World (κ : Type) where
  clients : List (Client κ) := []
  environment : Environment := {}
deriving DecidableEq, Repr

/-- A step that was made: by which client, at which point of which operation, and what it brought. -/
structure Turn (κ : Type) where
  client : ClientId
  service : String
  phase : Phase κ
  effects : List Effect
  next : Next κ
deriving Repr

namespace World

variable {κ : Type}

/-- Makes a step of a client; none if there is no such client. -/
def step? (world : World κ) (index : ClientId) (phase : Phase κ) : Option (Turn κ × World κ) :=
  world.clients[index]?.map fun client =>
    let step := client.step world.environment phase
    (⟨index, client.service, phase, step.effects, step.next⟩,
      { clients := world.clients.set index step.client, environment := step.environment })

end World

end Correlator
