/-
# The network comes to rest

When the hosts send nothing more, every dispatch brings a frame closer to where it goes: a weight
on the messages in flight and on the packets in the output queues gets smaller each time. The
simulation therefore comes to rest, and then every frame has been delivered.
-/

import Mathlib
import Kens.Networking.LossyDelivery

namespace Kens.Star

open Semantics Reactive Switch

/-- The dispatches that a message can cause, itself included, if the switch copies a frame to all
of its ports. A check is paid for by the packet that it transmits. -/
def weight (N : Star) (source target : ℕ) : NetMessage → ℕ
  | .packetToPort _ => if source = N.switch then 2 else 2 + 3 * N.ports.length
  | .packetFromPort _ => if target = N.switch then 1 + 3 * N.ports.length else 1
  | .checkQueue _ => 0
  | .other => 1

/-- The weight of the messages in flight. -/
def flightWork (N : Star) (queue : List (TimerContainer NetMessage)) : ℕ :=
  (queue.map fun c => N.weight c.source c.target c.message).sum

/-- The packets in the output queues. -/
def waiting (N : Star) (link : Link) : ℕ :=
  (N.ports.map fun w => (link.outputQueue w).length).sum

/-- The dispatches that are left to do, at most. -/
def work (N : Star) (x : State NetMessage Memory) : ℕ :=
  N.flightWork x.sys.timerQueue + 3 * N.waiting x.memory.switch.link

variable {N : Star} {O : Oracle} {p q w v : ℕ} {c : TimerContainer NetMessage}
  {sends : List (Send NetMessage)} {x y : State NetMessage Memory} {unreliable : Bool} {limit : ℕ}
  {m' : Memory} {front back : List (TimerContainer NetMessage)}
  {log new : List (Record NetMessage Call)}

theorem flightWork_append (queue extra : List (TimerContainer NetMessage)) :
    N.flightWork (queue ++ extra) = N.flightWork queue + N.flightWork extra := by
  simp [flightWork]

theorem flightWork_stamp {now address uuid : ℕ} :
    N.flightWork (stamp now address uuid sends) =
      (sends.map fun send => N.weight send.source send.target send.message).sum := by
  induction sends generalizing address uuid with
  | nil => rfl
  | cons send rest ih =>
    rw [List.map_cons, List.sum_cons, ← @ih (address + 1) (uuid + 1)]
    rfl

/-- A message that is dispatched is paid for. -/
theorem flightWork_split (split : x.sys.timerQueue = front ++ c :: back) :
    N.flightWork x.sys.timerQueue =
      N.flightWork (front ++ back) + N.weight c.source c.target c.message := by
  rw [split]
  simp only [flightWork, List.map_append, List.map_cons, List.sum_append, List.sum_cons]
  omega

/-- A transmission takes a packet out of its queue. -/
theorem waiting_tail {link link' : Link} {packet : Packet} {rest : List Packet}
    (port : w ∈ N.ports) (head : link.outputQueue w = packet :: rest)
    (tail : link'.outputQueue = Function.update link.outputQueue w rest) :
    N.waiting link' < N.waiting link := by
  apply List.sum_lt_sum
  · intro v _
    rw [tail]
    by_cases same : v = w
    · subst same
      simp [head]
    · simp [same]
  · refine ⟨w, port, ?_⟩
    rw [tail, head]
    simp

/-- A frame is copied to no port more than once. -/
theorem waiting_queued {copies : List Copy} {link link' : Link} (queued : Queued copies link link') :
    N.waiting link' ≤ N.waiting link + N.ports.length := by
  have grows : N.waiting link' ≤ (N.ports.map fun w => (link.outputQueue w).length + 1).sum := by
    apply List.sum_le_sum
    intro w _
    by_cases listed : w ∈ copies.map Copy.wireID
    · obtain ⟨copy, member, rfl⟩ := List.mem_map.mp listed
      rw [queued.filled copy member, List.length_append, List.length_singleton]
      refine Nat.succ_le_succ ?_
      rcases @Link.evict_cases link (link.outputQueue copy.wireID) copy.draw with
        ⟨-, same⟩ | ⟨index, evicted, -, -, shorter⟩
      · rw [same]
      · rw [shorter]
        exact (List.eraseIdx_sublist _ _).length_le
    · rw [queued.others w listed]
      exact Nat.le_succ _
  refine grows.trans (le_of_eq ?_)
  rw [List.sum_map_add]
  simp [waiting]

/-! ## Every dispatch does some work -/

/-- The handlers that are the same for all switches. -/
theorem Inv.spends {link link' : Link} (inv : Inv N x) (fits : TimeFits O x.memory c)
    (split : x.sys.timerQueue = front ++ c :: back)
    (handled : Handled N O.quotient x.memory c m' sends)
    (elsewhere : c.target = N.switch → ∃ w, c.message = .checkQueue w)
    (before : link.outputQueue = x.memory.switch.link.outputQueue)
    (after : link'.outputQueue = m'.switch.link.outputQueue) :
    (sends.map fun send => N.weight send.source send.target send.message).sum +
      3 * N.waiting link' < N.weight c.source c.target c.message + 3 * N.waiting link := by
  have still (same : m'.switch.link.outputQueue = x.memory.switch.link.outputQueue) :
      N.waiting link' = N.waiting link := by
    rw [waiting, waiting, after, before, same]
  cases handled with
  | fromHost v packet delay busy port origin six source target message =>
    rw [still rfl, message, source]
    simp [weight, N.host_ne_switch v port]
  | fromSwitch v packet delay busy port source target message =>
    rw [still rfl, message, source]
    simp [weight, N.host_ne_switch v port]
  | toSwitch v packet mac link' _ port origin source target message =>
    obtain ⟨w, check⟩ := elsewhere target
    simp [message] at check
  | check v link' _ port source target message transmitted =>
    obtain ⟨packet, rest, delay, head, -, rfl, rfl, -⟩ :=
      inv.transmission fits split target message transmitted
    have less : N.waiting link' < N.waiting link :=
      waiting_tail port (before ▸ head) (before ▸ after)
    have cost : ((Link.transmission N.switch v packet delay rest).map fun send =>
        N.weight send.source send.target send.message).sum = 2 := by
      by_cases last : rest = []
      · simp [Link.transmission, weight, last]
      · simp [Link.transmission, weight, last]
    rw [cost]
    omega
  | toHost v packet port source target message =>
    rw [still rfl, message, target]
    simp [weight, N.host_ne_switch v port]
  | other source message =>
    rw [still rfl, message]
    simp [weight]

theorem LossyInv.spends (inv : LossyInv N unreliable limit x) (fits : TimeFits O x.memory c)
    (split : x.sys.timerQueue = front ++ c :: back)
    (handled : LossyHandled N O.quotient unreliable x.memory c m' sends) :
    (sends.map fun send => N.weight send.source send.target send.message).sum +
      3 * N.waiting m'.switch.link <
    N.weight c.source c.target c.message + 3 * N.waiting x.memory.switch.link := by
  cases handled with
  | plain handled elsewhere => exact inv.star.spends fits split handled elsewhere rfl rfl
  | frame v packet copies link' port origin source target message chosen faithful queued sent
      memory =>
    subst memory
    have more : N.waiting link' ≤ _ := waiting_queued queued
    have free : (sends.map fun send => N.weight send.source send.target send.message).sum = 0 := by
      rw [List.sum_eq_zero_iff]
      intro cost member
      obtain ⟨send, listed, rfl⟩ := List.mem_map.mp member
      obtain ⟨-, -, w, -, check⟩ := sent.checks send listed
      rw [check]
      rfl
    rw [free, message, target]
    simp only [weight, if_true]
    omega

theorem LossyInv.work_dispatch (inv : LossyInv N unreliable limit x)
    (allowed : N.Allowed O x .dispatch)
    (h : (N.modules O).machine.step x .dispatch = some (y, new)) : N.work y < N.work x := by
  obtain ⟨noWrap, times, -⟩ := allowed
  have sound : Sound x.sys := inv.star.sound
  obtain ⟨effect, -⟩ := effect_of_step sound noWrap h
  cases effect with
  | dispatch c front back memory sends address y split least handled memory_eq clock queue =>
    have member : c ∈ x.sys.timerQueue := by simp [split]
    obtain ⟨sys, pop⟩ := popTimer_of_dispatch h
    have fits : TimeFits O (mask x.memory) c := times rfl _ pop
    obtain ⟨handled, -⟩ := lossyHandled_of_receive inv.star.wired inv.settings
      (inv.star.kinds c member) fits handled
    have spent := inv.spends fits split handled
    rw [work, work, queue, memory_eq, flightWork_append, flightWork_stamp, flightWork_split split]
    omega

/-! ## Runs -/

/-- The hosts send nothing in a dispatch. -/
theorem filterMap_sentBy_eq_nil {inputs : List (Input Call)}
    (run : (N.modules O).machine.Run (N.Allowed O) x inputs log y)
    (quiet : ∀ input ∈ inputs, input = .dispatch) : log.filterMap (sentBy p) = [] := by
  induction run with
  | nil => rfl
  | @snoc inputs log new y z input before allowed step ih =>
    have earlier := ih fun input member => quiet input (List.mem_append_left _ member)
    obtain rfl := quiet input (by simp)
    rw [List.filterMap_append, earlier, List.nil_append]
    rcases step_cases step with ⟨call, sends, act, -⟩ | ⟨c, sys, -, -, -, -, rfl⟩ |
      ⟨c, sys, later, sends, -, -, -, -, -, rfl⟩
    · simp at act
    · rfl
    · rfl

/-- Whatever has been sent, the network comes to rest after a bounded number of dispatches, unless
a time or a UUID wraps before. The limit of the queues plays no part in this; without a limit,
every frame has been delivered then to each host that it is forwarded to. -/
theorem comes_to_rest (N : Star) (O : Oracle) {unreliable : Bool} {limit : ℕ} (limit_ne : limit ≠ 1)
    {inputs : List (Input Call)} {log : List (Record NetMessage Call)} {x : State NetMessage Memory}
    (run : (N.modules O).machine.Run (N.Allowed O) (N.startWith unreliable limit) inputs log x) :
    ∃ n ≤ N.work x, ∃ later y,
      (N.modules O).machine.Run (N.Allowed O) x (List.replicate n .dispatch) later y ∧
      (N.Allowed O y .dispatch → y.sys.timerQueue = [] ∧
        (limit = 0 → ∀ p ∈ N.ports, ∀ q ∈ N.ports,
          List.Forall₂ (Faithful unreliable) ((log ++ later).filterMap (N.deliveredFrom p q))
            ((log.filterMap (sentBy p)).filter (N.forwardsTo p q)))) := by
  obtain ⟨inv, -⟩ := conserved_of_run limit_ne run
  obtain ⟨n, few, later, y, drained, inv_y, stopped⟩ := Machine.exists_run_replicate
    (LossyInv N unreliable limit) N.work .dispatch
    (fun _ _ _ inv allowed step =>
      ⟨inv.step limit_ne allowed step, inv.work_dispatch allowed step⟩) inv
  refine ⟨n, few, later, y, drained, fun allowed => ?_⟩
  have idle : y.sys.timerQueue = [] := by
    by_contra busy
    have defined := inv_y.dispatch_isSome busy allowed
    rw [stopped allowed] at defined
    simp at defined
  refine ⟨idle, ?_⟩
  rintro rfl p ingress q egress
  obtain ⟨inv_end, conserved⟩ := conserved_of_run (by decide) (run.append drained)
  obtain ⟨received, -, faithful, all⟩ := conserved.whole inv_end ingress egress
  have quiet : later.filterMap (sentBy p) = [] :=
    filterMap_sentBy_eq_nil drained fun input member => List.eq_of_mem_replicate member
  have sent : (log ++ later).filterMap (sentBy p) = log.filterMap (sentBy p) := by
    rw [List.filterMap_append, quiet, List.append_nil]
  rw [all idle, sent] at faithful
  exact faithful

/-- Three frames for the second of three hosts: at the end no message is in flight, and all
three have been delivered, damaged. -/
theorem comes_to_rest_trio :
    ∃ log x, (trio.modules trioOracle).machine.Run (trio.Allowed trioOracle) (trio.startWith true 0)
        (trioInputs.take 3) log x ∧ x.sys.timerQueue.length = 3 ∧
      ∃ n ≤ trio.work x, ∃ later y,
        (trio.modules trioOracle).machine.Run (trio.Allowed trioOracle) x
          (List.replicate n .dispatch) later y ∧
        y.sys.timerQueue = [] ∧
        (log ++ later).filterMap (trio.deliveredFrom 1 2) =
          [⟨trioFrame 1 [0xEE, 0xEE, 0xEE, 0xEE], 1⟩, ⟨trioFrame 2 [0xEE, 0xEE, 0xEE, 0xEE], 1⟩,
            ⟨trioFrame 3 [0xEE, 0xEE, 0xEE, 0xEE], 1⟩] ∧
        List.Forall₂ (Faithful true) ((log ++ later).filterMap (trio.deliveredFrom 1 2))
          ((log.filterMap (sentBy 1)).filter (trio.forwardsTo 1 2)) := by
  have outcome : ((trio.modules trioOracle).machine.execIf (trio.Allowed trioOracle)
      (trio.startWith true 0) (trioInputs.take 3)).map
      (fun r => (r.1.sys.timerQueue.length, trio.work r.1)) = some (3, 33) := by decide +kernel
  -- nothing wraps, however many dispatches there are, and where they end the frames have come
  have ends : ∀ n ≤ 33, ∀ r ∈ (trio.modules trioOracle).machine.exec (trio.startWith true 0)
      (trioInputs.take 3 ++ List.replicate n .dispatch),
      trio.Allowed trioOracle r.1 .dispatch ∧ (r.1.sys.timerQueue.length = 0 →
        r.2.filterMap (trio.deliveredFrom 1 2) =
          [⟨trioFrame 1 [0xEE, 0xEE, 0xEE, 0xEE], 1⟩, ⟨trioFrame 2 [0xEE, 0xEE, 0xEE, 0xEE], 1⟩,
            ⟨trioFrame 3 [0xEE, 0xEE, 0xEE, 0xEE], 1⟩]) := by decide +kernel
  obtain ⟨⟨x, log⟩, value, same⟩ := Option.map_eq_some_iff.mp outcome
  obtain ⟨length, work⟩ := Prod.mk.inj same
  have run := Machine.Run.of_execIf value
  obtain ⟨n, few, later, y, drained, rest⟩ := comes_to_rest trio trioOracle (by decide) run
  obtain ⟨allowed, come⟩ := ends n (few.trans work.le) _ (run.append drained).exec_eq
  obtain ⟨idle, faithful⟩ := rest allowed
  exact ⟨log, x, run, length, n, few, later, y, drained, idle,
    come (List.length_eq_zero_iff.mpr idle), faithful rfl 1 (by decide) 2 (by decide)⟩

end Kens.Star
