import Mathlib.Data.List.Range
import Correlator.Transport.Loopback

/-!
Contract: what sending a request does to a transport.

Owns: which request gets which number, that a request which fails to be sent uses up the failure and
nothing else, and that without queued numbers requests are numbered from one on in their order.

Does not own: the clients that send (`Correlator.Proofs.Course.Ledger`).
-/

set_option autoImplicit false

namespace Correlator.Transport.Loopback

variable {transport after : Loopback} {request : Request}

/-- A number is due without anything being sent. -/
theorem assign_sent (transport : Loopback) : transport.assign.2.sent = transport.sent := by
  unfold assign
  split <;> rfl

/-- Neither a number that is due nor a request that is sent releases anything. -/
theorem assign_releases (transport : Loopback) :
    transport.assign.2.releases = transport.releases := by
  unfold assign
  split <;> rfl

theorem send_releases (transport : Loopback) (request : Request) :
    (transport.send request).2.releases = transport.releases := by
  unfold send
  split
  · rfl
  · exact transport.assign_releases

/-- A request that is sent is recorded last, under the number that was due. No failure was queued. -/
theorem send_eq_ok {sequence : Sequence} (sent : transport.send request = (.ok sequence, after)) :
    transport.failures = [] ∧ sequence = transport.assign.1
      ∧ after.sent = transport.sent ++ [(sequence, request)] := by
  unfold send at sent
  split at sent
  · cases sent
  next none =>
    cases sent
    exact ⟨none, rfl, congrArg (· ++ [(_, request)]) transport.assign_sent⟩

/-- A request that is not sent uses up the first failure, and neither a number nor anything else. -/
theorem send_eq_error {failure : Failure}
    (failed : transport.send request = (.error failure, after)) :
    ∃ rest, transport.failures = failure :: rest ∧ after = { transport with failures := rest } := by
  unfold send at failed
  split at failed
  next first rest queued =>
    cases failed
    exact ⟨rest, queued, rfl⟩
  · cases failed

/-! ### Numbering -/

/-- No number is queued, requests have been numbered from one on, and the allocator has the next number. -/
structure Numbered (transport : Loopback) : Prop where
  unforced : transport.forced = []
  numbers : transport.sent.map (·.1)
    = (List.range' 1 transport.sent.length).map fun number => ⟨UInt64.ofNat number⟩
  next : transport.allocator.next = UInt64.ofNat (transport.sent.length + 1)

theorem numbered_unused : Numbered {} := ⟨rfl, rfl, rfl⟩

/-- To be numbered it does not matter which failures are queued, nor how often a transport was released. -/
theorem Numbered.congr (numbered : transport.Numbered) (allocator : after.allocator = transport.allocator)
    (sent : after.sent = transport.sent) (forced : after.forced = transport.forced) :
    after.Numbered where
  unforced := forced.trans numbered.unforced
  numbers := by rw [sent, numbered.numbers]
  next := by rw [allocator, sent, numbered.next]

/-- A request that does not fail gets the number of the allocator. -/
theorem Numbered.send_eq (numbered : transport.Numbered) (willing : transport.failures = [])
    (request : Request) :
    transport.send request = (.ok transport.allocator.peek,
      { transport with
        allocator := transport.allocator.take.2
        sent := transport.sent ++ [(transport.allocator.peek, request)] }) := by
  unfold Loopback.send assign
  rw [willing, numbered.unforced]

theorem Numbered.send (numbered : transport.Numbered) (request : Request) :
    (transport.send request).2.Numbered := by
  cases queued : transport.failures with
  | cons failure rest =>
    unfold Loopback.send
    rw [queued]
    exact numbered.congr rfl rfl rfl
  | nil =>
    rw [numbered.send_eq queued]
    refine ⟨numbered.unforced, ?_, ?_⟩
    · have peek : transport.allocator.peek = ⟨UInt64.ofNat (transport.sent.length + 1)⟩ :=
        congrArg Sequence.mk numbered.next
      rw [List.map_append, numbered.numbers, List.length_append, List.length_singleton,
        List.range'_1_concat, List.map_append, peek, Nat.add_comm 1]
      rfl
    · rw [List.length_append, List.length_singleton]
      show transport.allocator.next + 1 = _
      rw [numbered.next, ← UInt64.ofNat_one, ← UInt64.ofNat_add]

section Range

variable (numbered : transport.Numbered)

include numbered

/-- As long as the numbers suffice, the `i`-th request has the number `i`. -/
theorem Numbered.toNat_numbers (few : transport.sent.length < UInt64.size) :
    transport.sent.map (·.1.number.toNat) = List.range' 1 transport.sent.length := by
  have each := congrArg (List.map (·.number.toNat)) numbered.numbers
  rw [List.map_map, List.map_map] at each
  rw [show (fun row : Sequence × Request => row.1.number.toNat)
    = (·.number.toNat) ∘ (·.1) from rfl, each]
  refine (List.map_congr_left fun number member => ?_).trans (List.map_id _)
  have below := (List.mem_range'_1.mp member).2
  exact UInt64.toNat_ofNat_of_lt' (by omega)

/-- As long as the numbers suffice, they ascend. -/
theorem Numbered.ascending (few : transport.sent.length < UInt64.size) :
    (transport.sent.map (·.1)).Pairwise (· < ·) := by
  have ascends := List.pairwise_lt_range' (s := 1) (n := transport.sent.length)
  rw [← numbered.toNat_numbers few, List.pairwise_map] at ascends
  rw [List.pairwise_map]
  exact ascends

theorem Numbered.toNat_le (few : transport.sent.length < UInt64.size) {sequence : Sequence}
    (member : sequence ∈ transport.sent.map (·.1)) :
    sequence.number.toNat ≤ transport.sent.length := by
  obtain ⟨row, among, rfl⟩ := List.mem_map.mp member
  have inRange : row.1.number.toNat ∈ List.range' 1 transport.sent.length := by
    rw [← numbered.toNat_numbers few]
    exact List.mem_map.mpr ⟨row, among, rfl⟩
  have below := (List.mem_range'_1.mp inRange).2
  omega

/-- The allocator is beyond the numbers that it handed out, until it starts over. -/
theorem Numbered.lt_peek (few : transport.sent.length + 1 < UInt64.size) {sequence : Sequence}
    (member : sequence ∈ transport.sent.map (·.1)) : sequence < transport.allocator.peek := by
  have handedOut := numbered.toNat_le (Nat.lt_of_succ_lt few) member
  show sequence.number.toNat < transport.allocator.next.toNat
  rw [numbered.next, UInt64.toNat_ofNat_of_lt' few]
  omega

end Range

end Correlator.Transport.Loopback
