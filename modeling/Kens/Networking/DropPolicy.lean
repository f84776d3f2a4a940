/-
# Full output queues

The operations of a link in any order and at any time, with what becomes of the packets. A
full queue loses one packet of its second half for each one that arrives. The limit itself may
be changed at any time, but the queues are not cut to a lower limit: `sendPacket` takes out at
most one packet and then asserts that there is room.
-/

import Mathlib
import Kens.Semantics.LossyQueue
import Kens.Networking.OutputQueue

namespace Kens.Link

open Semantics Machine Reactive

/-- An operation of a link, with the time at which it happens where it matters. -/
inductive Operation
  | sendPacket (now port : ℕ) (packet : Packet) (draw : ℕ)
  | checkQueue (now port : ℕ)
  | setQueueSize (max_queue_length : ℕ)
  | setLinkSpeed (bps : ℕ)

/-- What becomes of a packet at a port. -/
inductive Traffic
  | arrived (port : ℕ) (packet : Packet)
  | evicted (port : ℕ) (packet : Packet)
  | transmitted (port : ℕ) (packet : Packet)
deriving DecidableEq

/-- The packet that `sendPacket` takes out of a full queue. -/
def evictee (link : Link) (queue : List Packet) (draw : ℕ) : Option Packet :=
  if link.max_queue_length ≠ 0 ∧ queue.length ≥ link.max_queue_length then
    queue[if draw ≥ link.max_queue_length then link.max_queue_length - 1 else draw]?
  else none

/-- A packet that is handed to a wire. -/
def handed (send : Send NetMessage) : Option Traffic :=
  match send.message with
  | .packetToPort packet => some (.transmitted send.target packet)
  | _ => none

/-- The operations of a link. -/
def operations (quotient : ℕ → ℕ → ℕ) : Machine Link Operation Traffic where
  step link
    | .sendPacket now port packet draw =>
      (link.sendPacket now port packet draw).map fun r =>
        (r.1, ((link.evictee (link.outputQueue port) draw).map (.evicted port)).toList ++
          [.arrived port packet])
    | .checkQueue now port =>
      (link.checkQueue quotient now port).map fun r => (r.1, r.2.filterMap handed)
    | .setQueueSize max_queue_length => some (link.setQueueSize max_queue_length, [])
    | .setLinkSpeed bps => some (link.setLinkSpeed bps, [])

namespace Traffic

/-- The packets that arrived at a port. -/
def arrivals (port : ℕ) (log : List Traffic) : List Packet :=
  log.filterMap fun
    | .arrived other packet => if other = port then some packet else none
    | _ => none

/-- The packets that were evicted from the queue of a port. -/
def evictions (port : ℕ) (log : List Traffic) : List Packet :=
  log.filterMap fun
    | .evicted other packet => if other = port then some packet else none
    | _ => none

/-- The packets that left by a port. -/
def transmissions (port : ℕ) (log : List Traffic) : List Packet :=
  log.filterMap fun
    | .transmitted other packet => if other = port then some packet else none
    | _ => none

end Traffic

open Traffic

variable {quotient : ℕ → ℕ → ℕ} {link link' : Link} {now port other draw : ℕ} {packet : Packet}
  {queue : List Packet} {sends : List (Send NetMessage)} {log new : List Traffic}
  {operation : Operation}

/-! ## One operation -/

/-- The index of the packet to be evicted lies in the second half of the limit. -/
theorem evict_full (limited : link.max_queue_length ≠ 0)
    (full : link.max_queue_length ≤ queue.length) (low : link.max_queue_length / 2 ≤ draw) :
    ∃ index, link.max_queue_length / 2 ≤ index ∧ index ≤ link.max_queue_length - 1 ∧
      index < queue.length ∧ link.evict queue draw = queue.eraseIdx index := by
  by_cases high : draw ≥ link.max_queue_length
  · refine ⟨link.max_queue_length - 1, by omega, le_rfl, by omega, ?_⟩
    rw [evict, if_pos ⟨limited, full⟩, if_pos high]
    exact if_pos (by omega)
  · refine ⟨draw, low, by omega, by omega, ?_⟩
    rw [evict, if_pos ⟨limited, full⟩, if_neg high]
    exact if_pos (by omega)

/-- Eviction takes the evictee out of the queue, or leaves the queue alone. -/
theorem evict_cases (draw : ℕ) :
    (link.evictee queue draw = none ∧ link.evict queue draw = queue) ∨
      ∃ index packet, queue[index]? = some packet ∧ link.evictee queue draw = some packet ∧
        link.evict queue draw = queue.eraseIdx index := by
  unfold evictee evict
  split
  · generalize (if draw ≥ link.max_queue_length then link.max_queue_length - 1 else draw) = index
    dsimp only
    cases found : queue[index]? with
    | none =>
      rw [if_neg (not_lt.mpr (List.getElem?_eq_none_iff.mp found))]
      exact .inl ⟨rfl, rfl⟩
    | some packet =>
      rw [if_pos (List.getElem?_eq_some_iff.mp found).1]
      exact .inr ⟨index, packet, found, rfl, rfl⟩
  · exact .inl ⟨rfl, rfl⟩

/-- The assertion of `sendPacket` holds exactly for a queue within its limit. -/
theorem sendPacket_isSome_iff :
    (link.sendPacket now port packet draw).isSome ↔
      (link.max_queue_length ≠ 0 → (link.outputQueue port).length ≤ link.max_queue_length) := by
  constructor
  · intro defined limited
    obtain ⟨⟨link', sends⟩, sent⟩ := Option.isSome_iff_exists.mp defined
    obtain ⟨room, -, -⟩ := sendPacket_eq_some sent
    have short := room.resolve_left limited
    rcases @evict_cases link (link.outputQueue port) draw with
      ⟨-, same⟩ | ⟨index, evicted, found, -, shorter⟩
    · rw [same] at short
      omega
    · have inside := (List.getElem?_eq_some_iff.mp found).1
      rw [shorter, List.length_eraseIdx_of_lt inside] at short
      omega
  · exact sendPacket_isSome

/-- What a `CHECK_QUEUE` does: nothing, or the first packet leaves. -/
theorem checkQueue_cases (h : link.checkQueue quotient now port = some (link', sends)) :
    (link' = link ∧ sends = []) ∨ ∃ packet rest, link.outputQueue port = packet :: rest ∧
      link'.outputQueue = Function.update link.outputQueue port rest ∧
      link'.max_queue_length = link.max_queue_length ∧
      sends.filterMap handed = [.transmitted port packet] := by
  obtain ⟨packet, rest, head, ⟨-, same, none⟩ | ⟨-, rfl, rfl⟩⟩ := checkQueue_eq_some h
  · exact .inl ⟨same, none⟩
  · refine .inr ⟨packet, rest, head, rfl, rfl, ?_⟩
    split <;> rfl

/-- What an operation does to the link and to the log. -/
theorem operations_cases
    (step : (operations quotient).step link operation = some (link', new)) :
    (∃ now port packet draw sends, operation = .sendPacket now port packet draw ∧
      link.sendPacket now port packet draw = some (link', sends) ∧
      new = ((link.evictee (link.outputQueue port) draw).map (.evicted port)).toList ++
        [.arrived port packet]) ∨
    (∃ now port sends, operation = .checkQueue now port ∧
      link.checkQueue quotient now port = some (link', sends) ∧ new = sends.filterMap handed) ∨
    (∃ max_queue_length, operation = .setQueueSize max_queue_length ∧
      link' = link.setQueueSize max_queue_length ∧ new = []) ∨
    ∃ bps, operation = .setLinkSpeed bps ∧ link' = link.setLinkSpeed bps ∧ new = [] := by
  cases operation with
  | sendPacket now port packet draw =>
    obtain ⟨⟨result, sends⟩, sent, same⟩ := Option.map_eq_some_iff.mp step
    obtain ⟨rfl, rfl⟩ := Prod.mk.inj same
    exact .inl ⟨now, port, packet, draw, sends, rfl, sent, rfl⟩
  | checkQueue now port =>
    obtain ⟨⟨result, sends⟩, checked, same⟩ := Option.map_eq_some_iff.mp step
    obtain ⟨rfl, rfl⟩ := Prod.mk.inj same
    exact .inr (.inl ⟨now, port, sends, rfl, checked, rfl⟩)
  | setQueueSize max_queue_length =>
    obtain ⟨rfl, rfl⟩ := Prod.mk.inj (Option.some.inj step)
    exact .inr (.inr (.inl ⟨max_queue_length, rfl, rfl, rfl⟩))
  | setLinkSpeed bps =>
    obtain ⟨rfl, rfl⟩ := Prod.mk.inj (Option.some.inj step)
    exact .inr (.inr (.inr ⟨bps, rfl, rfl, rfl⟩))

/-! ## Accounts -/

theorem arrivals_append_traffic :
    arrivals port (log ++ new) = arrivals port log ++ arrivals port new := List.filterMap_append ..

theorem evictions_append :
    evictions port (log ++ new) = evictions port log ++ evictions port new :=
  List.filterMap_append ..

theorem transmissions_append :
    transmissions port (log ++ new) = transmissions port log ++ transmissions port new :=
  List.filterMap_append ..

/-- The queues hold what the log says. -/
def Balanced (log : List Traffic) (link : Link) : Prop :=
  ∀ port, Accounts (arrivals port log) (transmissions port log) (evictions port log)
    (link.outputQueue port)

/-- An operation that does not concern a port. -/
theorem Balanced.frame (h : Balanced log link) (no_arrival : arrivals port new = [])
    (no_transmission : transmissions port new = []) (no_eviction : evictions port new = [])
    (same : link'.outputQueue port = link.outputQueue port) :
    Accounts (arrivals port (log ++ new)) (transmissions port (log ++ new))
      (evictions port (log ++ new)) (link'.outputQueue port) := by
  rw [arrivals_append_traffic, transmissions_append, evictions_append, no_arrival,
    no_transmission, no_eviction, List.append_nil, List.append_nil, List.append_nil, same]
  exact h port

theorem Balanced.sendPacket (h : Balanced log link)
    (sent : link.sendPacket now other packet draw = some (link', sends)) :
    Balanced (log ++ (((link.evictee (link.outputQueue other) draw).map (.evicted other)).toList ++
      [.arrived other packet])) link' := by
  obtain ⟨-, rfl, -⟩ := sendPacket_eq_some sent
  intro port
  by_cases same : other = port
  · subst same
    rw [arrivals_append_traffic, transmissions_append, evictions_append]
    dsimp only
    rw [Function.update_self]
    rcases @evict_cases link (link.outputQueue other) draw with
      ⟨none, kept⟩ | ⟨index, evicted, found, one, shorter⟩
    · rw [none, kept]
      simpa [arrivals, transmissions, evictions] using (h other).arrive packet
    · rw [one, shorter]
      simpa [arrivals, transmissions, evictions] using ((h other).evict found).arrive packet
  · refine h.frame ?_ ?_ ?_ (Function.update_of_ne (Ne.symm same) _ _)
    · cases link.evictee (link.outputQueue other) draw <;> simp [arrivals, same]
    · cases link.evictee (link.outputQueue other) draw <;> simp [transmissions]
    · cases link.evictee (link.outputQueue other) draw <;> simp [evictions, same]

theorem Balanced.checkQueue (h : Balanced log link)
    (checked : link.checkQueue quotient now other = some (link', sends)) :
    Balanced (log ++ sends.filterMap handed) link' := by
  intro port
  rcases checkQueue_cases checked with ⟨rfl, rfl⟩ | ⟨packet, rest, head, queues, -, left⟩
  · simpa using h port
  · rw [left]
    by_cases same : other = port
    · subst same
      have before := h other
      rw [head] at before
      rw [arrivals_append_traffic, transmissions_append, evictions_append, queues,
        Function.update_self]
      simpa [arrivals, transmissions, evictions] using before.depart
    · refine h.frame ?_ ?_ ?_ ?_
      · simp [arrivals]
      · simp [transmissions, same]
      · simp [evictions]
      · rw [queues, Function.update_of_ne (Ne.symm same)]

theorem Balanced.step (h : Balanced log link)
    (step : (operations quotient).step link operation = some (link', new)) :
    Balanced (log ++ new) link' := by
  rcases operations_cases step with ⟨now, port, packet, draw, sends, -, sent, rfl⟩ |
    ⟨now, port, sends, -, checked, rfl⟩ | ⟨max_queue_length, -, rfl, rfl⟩ | ⟨bps, -, rfl, rfl⟩
  · exact h.sendPacket sent
  · exact h.checkQueue checked
  · rw [List.append_nil]
    exact h
  · rw [List.append_nil]
    exact h

theorem balanced_of_run {operations' : List Operation} (empty : ∀ port, link.outputQueue port = [])
    (run : (operations quotient).Run free link operations' log link') : Balanced log link' := by
  refine run.invariant Balanced ?_ fun _ _ _ _ _ h _ step => h.step step
  intro port
  rw [empty port]
  exact Accounts.nil

/-! ## On the scheduler -/

/-- Whatever a link does on the scheduler, it does by its operations. -/
theorem operations_of_run {x y : State NetMessage Link} {inputs : List (Input Call)}
    {records : List (Record NetMessage Call)}
    (run : (module quotient).machine.Run free x inputs records y) :
    ∃ performed log, (operations quotient).Run free x.memory performed log y.memory := by
  refine run.invariant (fun _ y => ∃ performed log,
    (operations quotient).Run free x.memory performed log y.memory) ⟨[], [], .nil⟩ ?_
  rintro _ y input z new ⟨performed, log, before⟩ _ step
  rcases step_cases step with ⟨call, sends, -, acted, -⟩ | ⟨c, sys, -, -, -, rfl, -⟩ |
    ⟨c, sys, later, sends, -, -, received, -⟩
  · cases call with
    | sendPacket port packet draw =>
      have one : (operations quotient).step y.memory
          (.sendPacket y.sys.currentTime port packet draw) = some (z.memory, _) :=
        Option.map_eq_some_iff.mpr ⟨_, acted, rfl⟩
      exact ⟨_, _, before.snoc trivial one⟩
    | foreign send =>
      obtain ⟨-, same, -⟩ := foreign_eq_some acted
      rw [same]
      exact ⟨performed, log, before⟩
  · exact ⟨performed, log, before⟩
  · rcases receive_eq_some received with ⟨port, -, checked⟩ | ⟨-, same, -⟩
    · have one : (operations quotient).step y.memory (.checkQueue c.wakeup port) =
          some (z.memory, _) := Option.map_eq_some_iff.mpr ⟨_, checked, rfl⟩
      exact ⟨_, _, before.snoc trivial one⟩
    · rw [same]
      exact ⟨performed, log, before⟩

/-! ## The limit -/

/-- No queue is longer than the limit. -/
def WithinLimit (link : Link) : Prop :=
  link.max_queue_length ≠ 0 → ∀ port, (link.outputQueue port).length ≤ link.max_queue_length

/-- A new limit is no less than the length of any queue. -/
def FitsQueues (link : Link) : Operation → Prop
  | .setQueueSize max_queue_length =>
    max_queue_length ≠ 0 → ∀ port, (link.outputQueue port).length ≤ max_queue_length
  | _ => True

/-- An operation keeps the queues within the limit exactly if a new limit fits them. -/
theorem WithinLimit.step_iff (h : WithinLimit link)
    (step : (operations quotient).step link operation = some (link', new)) :
    WithinLimit link' ↔ FitsQueues link operation := by
  rcases operations_cases step with ⟨now, port, packet, draw, sends, rfl, sent, -⟩ |
    ⟨now, port, sends, rfl, checked, -⟩ | ⟨max_queue_length, rfl, rfl, -⟩ | ⟨bps, rfl, rfl, -⟩
  · obtain ⟨room, rfl, -⟩ := sendPacket_eq_some sent
    refine iff_of_true (fun limited => ?_) trivial
    apply length_update_le (h limited)
    rw [List.length_append, List.length_singleton]
    exact room.resolve_left limited
  · refine iff_of_true (fun limited => ?_) trivial
    rcases checkQueue_cases checked with ⟨rfl, -⟩ | ⟨packet, rest, head, queues, limit, -⟩
    · exact h limited
    · rw [limit] at limited ⊢
      rw [queues]
      apply length_update_le (h limited)
      have before := h limited port
      rw [head, List.length_cons] at before
      omega
  · exact Iff.rfl
  · exact iff_of_true h trivial

/-! ## A fixed limit -/

/-- The limit is left alone, and the random numbers lie between half of it and itself. -/
def Fixed (limit : ℕ) (_ : Link) : Operation → Prop
  | .sendPacket _ _ _ draw => limit / 2 ≤ draw ∧ draw ≤ limit
  | .setQueueSize _ => False
  | _ => True

instance (limit : ℕ) (link : Link) : DecidablePred (Fixed limit link)
  | .sendPacket _ _ _ draw => inferInstanceAs (Decidable (limit / 2 ≤ draw ∧ draw ≤ limit))
  | .checkQueue _ _ => isTrue trivial
  | .setQueueSize _ => isFalse not_false
  | .setLinkSpeed _ => isTrue trivial

theorem FitsQueues.of_fixed {limit : ℕ} (fixed : Fixed limit link operation) :
    FitsQueues link operation := by
  cases operation with
  | setQueueSize => exact fixed.elim
  | _ => trivial

/-- Only `setQueueSize` changes the limit. -/
theorem Fixed.max_queue_length_eq {limit : ℕ} (fixed : Fixed limit link operation)
    (step : (operations quotient).step link operation = some (link', new)) :
    link'.max_queue_length = link.max_queue_length := by
  rcases operations_cases step with ⟨now, port, packet, draw, sends, -, sent, -⟩ |
    ⟨now, port, sends, -, checked, -⟩ | ⟨max_queue_length, rfl, -, -⟩ | ⟨bps, -, rfl, -⟩
  · obtain ⟨-, rfl, -⟩ := sendPacket_eq_some sent
    rfl
  · rcases checkQueue_cases checked with ⟨rfl, -⟩ | ⟨-, -, -, -, limit, -⟩
    · rfl
    · exact limit
  · exact fixed.elim
  · rfl

/-- What `sendPacket` does to the queues of a link: the packet is admitted, and the queue of its
port gives up one packet of its second half if it is full. -/
structure Admits (limit : ℕ) (before after : Link) (port : ℕ) (packet : Packet) : Prop where
  room : (before.outputQueue port).length < limit →
    after.outputQueue port = before.outputQueue port ++ [packet]
  full : limit ≤ (before.outputQueue port).length →
    ∃ index, limit / 2 ≤ index ∧ index ≤ limit - 1 ∧ index < (before.outputQueue port).length ∧
      after.outputQueue port = (before.outputQueue port).eraseIdx index ++ [packet]
  others : ∀ other, other ≠ port → after.outputQueue other = before.outputQueue other

/-- A bounded queue in operation. -/
structure Policy (limit : ℕ) (log : List Traffic) (link : Link) : Prop where
  admits : ∀ now port packet draw, limit / 2 ≤ draw → draw ≤ limit → ∃ link' sends,
    link.sendPacket now port packet draw = some (link', sends) ∧ Admits limit link link' port packet
  bounded : ∀ port, (link.outputQueue port).length ≤ limit
  inOrder : ∀ port, (transmissions port log ++ link.outputQueue port).Sublist (arrivals port log)
  accounted : ∀ port, (arrivals port log).length = (transmissions port log).length +
    (evictions port log).length + (link.outputQueue port).length

theorem admits_of_sendPacket (limited : link.max_queue_length ≠ 0)
    (low : link.max_queue_length / 2 ≤ draw)
    (sent : link.sendPacket now port packet draw = some (link', sends)) :
    Admits link.max_queue_length link link' port packet := by
  obtain ⟨-, rfl, -⟩ := sendPacket_eq_some sent
  refine ⟨fun room => ?_, fun full => ?_, fun other different => ?_⟩
  · dsimp only
    rw [Function.update_self, evict_eq_self (.inr room)]
  · obtain ⟨index, half, last, inside, shorter⟩ := evict_full limited full low
    refine ⟨index, half, last, inside, ?_⟩
    dsimp only
    rw [Function.update_self, shorter]
  · exact Function.update_of_ne different _ _

/-- The limit and the bound along a run in which the limit is left alone. -/
theorem fixed_of_run {limit : ℕ} {performed : List Operation}
    (empty : ∀ port, link.outputQueue port = []) (limited : link.max_queue_length = limit)
    (run : (operations quotient).Run (Fixed limit) link performed log link') :
    link'.max_queue_length = limit ∧ WithinLimit link' := by
  refine run.invariant (fun _ link' => link'.max_queue_length = limit ∧ WithinLimit link') ?_ ?_
  · refine ⟨limited, fun _ port => ?_⟩
    rw [empty port]
    exact Nat.zero_le _
  · rintro _ before operation after _ ⟨same, within⟩ fixed step
    exact ⟨(fixed.max_queue_length_eq step).trans same,
      (within.step_iff step).mpr (FitsQueues.of_fixed fixed)⟩

/-- Every run of a link with a positive limit follows the drop policy. -/
theorem drop_policy {limit : ℕ} {performed : List Operation} (positive : 0 < limit)
    (empty : ∀ port, link.outputQueue port = []) (limited : link.max_queue_length = limit)
    (run : (operations quotient).Run (Fixed limit) link performed log link') :
    Policy limit log link' := by
  have balanced := balanced_of_run empty (run.mono fun _ _ _ => trivial)
  obtain ⟨same, within⟩ := fixed_of_run empty limited run
  have nonzero : link'.max_queue_length ≠ 0 := by omega
  refine ⟨?_, ?_, fun port => (balanced port).inOrder, fun port => (balanced port).length_eq⟩
  · intro now port packet draw low high
    have defined : (link'.sendPacket now port packet draw).isSome :=
      sendPacket_isSome fun limited => within limited port
    obtain ⟨⟨after, sends⟩, sent⟩ := Option.isSome_iff_exists.mp defined
    have admitted := admits_of_sendPacket nonzero (by rwa [same]) sent
    rw [same] at admitted
    exact ⟨after, sends, sent, admitted⟩
  · intro port
    rw [← same]
    exact within nonzero port

/-! A link with limit 3, and four packets for wire 5. The random number 3 is one past the last
index, so that the fourth packet replaces the third. -/

/-- The link after the first packet has left. -/
def crowded : Link :=
  { id := 1, bps := 0, max_queue_length := 3,
    nextAvailable := Function.update (fun _ => 0) 5 0
    outputQueue := Function.update (Function.update (Function.update (Function.update
      (Function.update (fun _ => []) 5 [⟨[1], 0⟩]) 5 [⟨[1], 0⟩, ⟨[2], 0⟩]) 5
      [⟨[1], 0⟩, ⟨[2], 0⟩, ⟨[3], 0⟩]) 5 [⟨[1], 0⟩, ⟨[2], 0⟩, ⟨[4], 0⟩]) 5
      [⟨[2], 0⟩, ⟨[4], 0⟩] }

theorem run_crowded :
    (operations fun _ _ => 0).Run (Fixed 3) { id := 1, bps := 0, max_queue_length := 3 }
      [.sendPacket 0 5 ⟨[1], 0⟩ 1, .sendPacket 0 5 ⟨[2], 0⟩ 1, .sendPacket 0 5 ⟨[3], 0⟩ 1,
        .sendPacket 0 5 ⟨[4], 0⟩ 3, .checkQueue 0 5]
      [.arrived 5 ⟨[1], 0⟩, .arrived 5 ⟨[2], 0⟩, .arrived 5 ⟨[3], 0⟩, .evicted 5 ⟨[3], 0⟩,
        .arrived 5 ⟨[4], 0⟩, .transmitted 5 ⟨[1], 0⟩] crowded :=
  Machine.Run.of_execIf rfl

theorem drop_policy_crowded :
    Policy 3 [.arrived 5 ⟨[1], 0⟩, .arrived 5 ⟨[2], 0⟩, .arrived 5 ⟨[3], 0⟩, .evicted 5 ⟨[3], 0⟩,
      .arrived 5 ⟨[4], 0⟩, .transmitted 5 ⟨[1], 0⟩] crowded :=
  drop_policy (by decide) (fun _ => rfl) rfl run_crowded

/-! ## A limit that changes -/

/-- The next packet is accepted at every port, whatever the random number, and its queue is
then within the limit. -/
def Accepts (link : Link) : Prop :=
  ∀ now port packet draw, ∃ link' sends,
    link.sendPacket now port packet draw = some (link', sends) ∧
    (link'.max_queue_length ≠ 0 → (link'.outputQueue port).length ≤ link'.max_queue_length)

theorem accepts_iff : Accepts link ↔ WithinLimit link := by
  constructor
  · intro accepts limited port
    obtain ⟨link', sends, sent, -⟩ := accepts 0 port ⟨[], 0⟩ 0
    exact sendPacket_isSome_iff.mp (Option.isSome_iff_exists.mpr ⟨_, sent⟩) limited
  · intro within now port packet draw
    have defined : (link.sendPacket now port packet draw).isSome :=
      sendPacket_isSome_iff.mpr fun limited => within limited port
    obtain ⟨⟨link', sends⟩, sent⟩ := Option.isSome_iff_exists.mp defined
    refine ⟨link', sends, sent, fun limited => ?_⟩
    -- a packet that is sent leaves the limit as it is
    have step : (operations fun _ _ => 0).step link (.sendPacket now port packet draw) =
        some (link', _) := Option.map_eq_some_iff.mpr ⟨_, sent, rfl⟩
    exact (within.step_iff step).mpr trivial limited port

/-- The limit holds throughout a run, and the assertion of `sendPacket` with it, exactly if no
limit is ever set that is shorter than a queue. -/
theorem accepts_iff_fitsQueues {performed : List Operation}
    (empty : ∀ port, link.outputQueue port = [])
    (run : (operations quotient).Run free link performed log link') :
    (∀ performed' log' link', performed' <+: performed →
      (operations quotient).Run free link performed' log' link' → Accepts link') ↔
    (operations quotient).Run FitsQueues link performed log link' := by
  refine (run.always_iff (fun _ => WithinLimit) (fun _ => Accepts) ?_ ?_ ?_ ?_).trans
    ⟨Run.mono fun _ _ both => both.2, Run.mono fun _ _ fits => ⟨trivial, fits⟩⟩
  · intro limited port
    rw [empty port]
    exact Nat.zero_le _
  · intro _ link within
    exact accepts_iff.mpr within
  · intro _ link operation link' _ within _ fits step
    exact (within.step_iff step).mpr fits
  · intro _ link operation link' _ within _ short step accepts
    exact short ((within.step_iff step).mp (accepts_iff.mp accepts))

/-! Two packets in an unlimited queue, and then a limit. -/

/-- The link with two packets and a limit. -/
def lowered (limit : ℕ) : Link :=
  { id := 1, max_queue_length := limit,
    outputQueue := Function.update (Function.update (fun _ => []) 5 [⟨[1], 0⟩]) 5
      [⟨[1], 0⟩, ⟨[2], 0⟩] }

theorem run_unlimited : (operations fun _ _ => 0).Run FitsQueues { id := 1 }
    [.sendPacket 0 5 ⟨[1], 0⟩ 0, .sendPacket 0 5 ⟨[2], 0⟩ 0]
    [.arrived 5 ⟨[1], 0⟩, .arrived 5 ⟨[2], 0⟩] (lowered 0) := by
  have first : (operations fun _ _ => 0).Run FitsQueues { id := 1 }
      [.sendPacket 0 5 ⟨[1], 0⟩ 0] [.arrived 5 ⟨[1], 0⟩]
      { id := 1, outputQueue := Function.update (fun _ => []) 5 [⟨[1], 0⟩] } :=
    Run.single trivial rfl
  exact first.snoc trivial rfl

theorem run_lowered (limit : ℕ) : (operations fun _ _ => 0).Run free { id := 1 }
    [.sendPacket 0 5 ⟨[1], 0⟩ 0, .sendPacket 0 5 ⟨[2], 0⟩ 0, .setQueueSize limit]
    [.arrived 5 ⟨[1], 0⟩, .arrived 5 ⟨[2], 0⟩] (lowered limit) := Run.of_exec rfl

/-- The limit 2 leaves every packet acceptable, the limit 1 does not. -/
theorem accepts_iff_fitsQueues_two_packets :
    (∀ performed' log' link', performed' <+:
        [.sendPacket 0 5 ⟨[1], 0⟩ 0, .sendPacket 0 5 ⟨[2], 0⟩ 0, .setQueueSize 2] →
      (operations fun _ _ => 0).Run free { id := 1 } performed' log' link' → Accepts link') ∧
    ¬ ∀ performed' log' link', performed' <+:
        [.sendPacket 0 5 ⟨[1], 0⟩ 0, .sendPacket 0 5 ⟨[2], 0⟩ 0, .setQueueSize 1] →
      (operations fun _ _ => 0).Run free { id := 1 } performed' log' link' → Accepts link' := by
  constructor
  · have fits : FitsQueues (lowered 0) (.setQueueSize 2) := by
      intro _ port
      by_cases same : port = 5
      · simp [lowered, same]
      · simp [lowered, same]
    exact (accepts_iff_fitsQueues (fun _ => rfl) (run_lowered 2)).mpr
      (run_unlimited.append (Run.single fits rfl))
  · intro all
    have run : (operations fun _ _ => 0).Run FitsQueues { id := 1 }
        ([.sendPacket 0 5 ⟨[1], 0⟩ 0, .sendPacket 0 5 ⟨[2], 0⟩ 0] ++ [.setQueueSize 1])
        [.arrived 5 ⟨[1], 0⟩, .arrived 5 ⟨[2], 0⟩] (lowered 1) :=
      (accepts_iff_fitsQueues (fun _ => rfl) (run_lowered 1)).mp all
    obtain ⟨link, _, _, before, last, -⟩ := run.split
    obtain ⟨rfl, -⟩ := run_unlimited.unique before
    obtain ⟨_, _, _, fits, -⟩ := Run.of_cons last
    exact absurd (fits one_ne_zero 5) (by decide)

/-- The next packet evicts one of the two, and the assertion fails. -/
theorem not_accepts_of_lower_limit :
    ¬ ∀ (quotient : ℕ → ℕ → ℕ) (link link' : Link) (performed : List Operation)
      (log : List Traffic), (∀ port, link.outputQueue port = []) →
      (operations quotient).Run free link performed log link' → Accepts link' := by
  intro claimed
  obtain ⟨link', sends, sent, -⟩ := claimed _ _ _ _ _ (fun _ => rfl) (run_lowered 1) 0 5 ⟨[3], 0⟩ 0
  have failed : (lowered 1).sendPacket 0 5 ⟨[3], 0⟩ 0 = none := rfl
  rw [failed] at sent
  simp at sent

end Kens.Link
