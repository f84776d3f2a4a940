/-
# An unlimited port is a single-server queue

With no limit, the packets of one port are handed to its wire in the order of
their arrival. The service of a packet starts when it has arrived and the one
before it has been transmitted; nothing else, and in particular no other port,
has a say in it.
-/

import Mathlib
import Kens.Semantics.SingleServer
import Kens.Networking.OutputQueue

namespace Kens.Link

open Semantics Reactive

/-! ## What a log says about a port -/

/-- The calls of `sendPacket` for a port. -/
def arrivals (port : ℕ) (log : List (Record NetMessage Call)) : List (ℕ × Packet) :=
  log.filterMap fun
    | .acted (.sendPacket other packet _) now _ => if other = port then some (now, packet) else none
    | _ => none

/-- All sends of a record with the time at which they were made. -/
def timedSends : Record NetMessage Call → List (ℕ × Send NetMessage)
  | .acted _ now sends => sends.map fun send => (now, send)
  | .received c sends => sends.map fun send => (c.wakeup, send)

/-- The packet that a link hands to a wire in a message, with its due time. -/
def handover (id port : ℕ) (timed : ℕ × Send NetMessage) : Option (Packet × ℕ) :=
  match timed.2.message with
  | .packetToPort packet =>
    if timed.2.source = id ∧ timed.2.target = port then
      some (packet, timed.1 + timed.2.timeAfter)
    else none
  | _ => none

/-- The packets that a link handed to a wire. -/
def handovers (id port : ℕ) (log : List (Record NetMessage Call)) : List (Packet × ℕ) :=
  (log.flatMap timedSends).filterMap (handover id port)

variable {quotient : ℕ → ℕ → ℕ} {id bps port other now : ℕ}
  {log new : List (Record NetMessage Call)} {x y : State NetMessage Link} {input : Input Call}
  {sends : List (Send NetMessage)} {c : TimerContainer NetMessage}

theorem arrivals_append : arrivals port (log ++ new) = arrivals port log ++ arrivals port new :=
  List.filterMap_append ..

theorem handovers_append :
    handovers id port (log ++ new) = handovers id port log ++ handovers id port new := by
  simp [handovers]

/-- The delay that the link computes for a packet. -/
def packetDelay (quotient : ℕ → ℕ → ℕ) (bps : ℕ) (packet : Packet) : ℕ :=
  transDelay quotient bps packet.getSize

/-- A packet with the time at which its transmission ends. -/
def due (delay : Packet → ℕ) (service : Packet × ℕ) : Packet × ℕ :=
  (service.1, service.2 + delay service.1)

/-! ## The simulation -/

/-- The port at some moment: the packets that arrived are those transmitted,
followed by those in the queue. The check in flight is due when the first of
these can start. -/
structure Serves (delay : Packet → ℕ) (id port : ℕ) (served waiting : List (ℕ × Packet))
    (log : List (Record NetMessage Call)) (x : State NetMessage Link) : Prop where
  arrived : arrivals port log = served ++ waiting
  handed : handovers id port log = (schedule delay 0 served).map (due delay)
  queue : x.memory.outputQueue port = waiting.map Prod.snd
  free : x.memory.nextAvailable port = finish delay 0 served
  next : ∀ arrival packet rest, waiting = (arrival, packet) :: rest →
    ∀ c ∈ checks id port x.sys.timerQueue, c.wakeup = max arrival (finish delay 0 served)
  past : ∀ arrival ∈ arrivals port log, arrival.1 ≤ x.sys.currentTime

variable {delay : Packet → ℕ} {served waiting : List (ℕ × Packet)}

/-- A step that does not concern the port only moves the clock. -/
theorem Serves.frame (h : Serves delay id port served waiting log x)
    (no_arrival : arrivals port new = []) (no_handover : handovers id port new = [])
    (same_queue : y.memory.outputQueue port = x.memory.outputQueue port)
    (same_free : y.memory.nextAvailable port = x.memory.nextAvailable port)
    (same_checks : checks id port y.sys.timerQueue = checks id port x.sys.timerQueue)
    (clock : x.sys.currentTime ≤ y.sys.currentTime) :
    Serves delay id port served waiting (log ++ new) y := by
  have same_arrivals : arrivals port (log ++ new) = arrivals port log := by
    rw [arrivals_append, no_arrival, List.append_nil]
  constructor
  · rw [same_arrivals, h.arrived]
  · rw [handovers_append, no_handover, List.append_nil, h.handed]
  · rw [same_queue, h.queue]
  · rw [same_free, h.free]
  · rw [same_checks]
    exact h.next
  · rw [same_arrivals]
    exact fun arrival member => (h.past arrival member).trans clock

/-- A packet that arrives joins the queue. -/
theorem Serves.arrive {packet : Packet} (h : Serves delay id port served waiting log x)
    (arrival : arrivals port new = [(x.sys.currentTime, packet)])
    (no_handover : handovers id port new = [])
    (queue : y.memory.outputQueue port = x.memory.outputQueue port ++ [packet])
    (same_free : y.memory.nextAvailable port = x.memory.nextAvailable port)
    (first : x.memory.outputQueue port = [] → ∀ c ∈ checks id port y.sys.timerQueue,
      c.wakeup = max x.sys.currentTime (x.memory.nextAvailable port))
    (later : x.memory.outputQueue port ≠ [] →
      checks id port y.sys.timerQueue = checks id port x.sys.timerQueue)
    (clock : y.sys.currentTime = x.sys.currentTime) :
    Serves delay id port served (waiting ++ [(x.sys.currentTime, packet)]) (log ++ new) y := by
  have joined : arrivals port (log ++ new) = arrivals port log ++ [(x.sys.currentTime, packet)] := by
    rw [arrivals_append, arrival]
  constructor
  · rw [joined, h.arrived, List.append_assoc]
  · rw [handovers_append, no_handover, List.append_nil, h.handed]
  · rw [queue, h.queue, List.map_append]
    rfl
  · rw [same_free, h.free]
  · intro start head rest split c member
    -- the first to arrive is served next; whoever arrives later does not change who is
    cases waiting with
    | nil =>
      obtain ⟨⟨rfl, rfl⟩, rfl⟩ : (x.sys.currentTime = start ∧ packet = head) ∧ [] = rest := by
        simpa using split
      rw [← h.free]
      exact first h.queue c member
    | cons old others =>
      obtain ⟨rfl, -⟩ : old = (start, head) ∧ _ = rest := by simpa using split
      rw [later (by rw [h.queue]; simp)] at member
      exact h.next start head others rfl c member
  · intro other member
    rw [clock]
    rw [joined, List.mem_append, List.mem_singleton] at member
    rcases member with member | rfl
    · exact h.past other member
    · exact le_rfl

/-- The check transmits the first packet of the queue. -/
theorem Serves.transmit {packet : Packet} {arrival : ℕ}
    (h : Serves delay id port served ((arrival, packet) :: waiting) log x)
    (time : y.sys.currentTime = max arrival (finish delay 0 served))
    (no_arrival : arrivals port new = [])
    (handed : handovers id port new = [(packet, y.sys.currentTime + delay packet)])
    (queue : y.memory.outputQueue port = waiting.map Prod.snd)
    (free : y.memory.nextAvailable port = y.sys.currentTime + delay packet)
    (next : ∀ c ∈ checks id port y.sys.timerQueue,
      c.wakeup = y.sys.currentTime + delay packet)
    (clock : x.sys.currentTime ≤ y.sys.currentTime) :
    Serves delay id port (served ++ [(arrival, packet)]) waiting (log ++ new) y := by
  have same_arrivals : arrivals port (log ++ new) = arrivals port log := by
    rw [arrivals_append, no_arrival, List.append_nil]
  have ends : finish delay 0 (served ++ [(arrival, packet)]) =
      y.sys.currentTime + delay packet := by
    rw [finish_append, finish, finish, time]
  constructor
  · rw [same_arrivals, h.arrived, List.append_assoc]
    rfl
  · rw [handovers_append, handed, h.handed, schedule_append, List.map_append, schedule, schedule,
      ← time]
    rfl
  · exact queue
  · rw [free, ends]
  · intro start head rest split c member
    -- whoever waits has already arrived
    have arrived : (start, head) ∈ arrivals port log := by
      rw [h.arrived, split]
      simp
    have early := h.past _ arrived
    rw [next c member, ends]
    exact (max_eq_right (by omega)).symm
  · rw [same_arrivals]
    exact fun other member => (h.past other member).trans clock

theorem handovers_acted_eq_nil {a : Call}
    (none : ∀ send ∈ sends, handover id port (now, send) = none) :
    handovers id port [.acted a now sends] = [] := by
  simpa [handovers, timedSends] using none

theorem handover_foreign {send : Send NetMessage} (h : isForeign id send = true) :
    handover id port (now, send) = none := by
  unfold handover
  split
  · refine if_neg fun both => ?_
    simp only [isForeign, ne_eq, decide_not, Bool.and_eq_true, Bool.not_eq_true',
      decide_eq_false_iff_not] at h
    exact h.1 both.1
  · rfl

theorem handovers_transmission (packet : Packet) (rest : List Packet) (d : ℕ) :
    handovers id port [.received c (transmission id other packet d rest)] =
      if other = port then [(packet, c.wakeup + d)] else [] := by
  by_cases empty : rest = []
  · by_cases same : other = port
    · simp [transmission, empty, same, handovers, timedSends, handover]
    · simp [transmission, empty, same, handovers, timedSends, handover]
  · by_cases same : other = port
    · simp [transmission, empty, same, handovers, timedSends, handover]
    · simp [transmission, empty, same, handovers, timedSends, handover]

theorem Serves.sendPacket {packet : Packet} {draw address uuid : ℕ}
    (inv : Inv quotient id bps 0 log x)
    (h : Serves delay id port served waiting log x)
    (handled : x.memory.sendPacket x.sys.currentTime other packet draw = some (y.memory, sends))
    (clock : y.sys.currentTime = x.sys.currentTime)
    (queue : y.sys.timerQueue = x.sys.timerQueue ++ stamp x.sys.currentTime address uuid sends) :
    ∃ waiting', Serves delay id port served waiting'
      (log ++ [.acted (.sendPacket other packet draw) x.sys.currentTime sends]) y := by
  obtain ⟨rfl, -, unlimited⟩ := inv.settings
  obtain ⟨-, memory_eq, sends_eq⟩ := sendPacket_eq_some handled
  have checks_eq := congrArg (checks x.memory.id port) queue
  rw [checks_append, checks_stamp_sendPacket handled] at checks_eq
  -- without a limit nothing is evicted, and all `sendPacket` sends is a check
  rw [evict_eq_self (.inl unlimited)] at memory_eq sends_eq checks_eq
  have silent : handovers x.memory.id port
      [.acted (.sendPacket other packet draw) x.sys.currentTime sends] = [] := by
    apply handovers_acted_eq_nil
    intro send member
    rw [sends_eq] at member
    split at member
    · rw [List.mem_singleton] at member
      rw [member]
      rfl
    · simp at member
  by_cases same : other = port
  · subst same
    have arrival : arrivals other
        [.acted (.sendPacket other packet draw) x.sys.currentTime sends] =
        [(x.sys.currentTime, packet)] := by simp [arrivals]
    refine ⟨_, h.arrive arrival silent ?_ ?_ ?_ ?_ clock⟩
    · rw [memory_eq]
      exact Function.update_self ..
    · rw [memory_eq]
    · intro empty c member
      rw [checks_eq, (inv.paired other).idle empty, if_pos ⟨rfl, empty⟩, List.nil_append,
        List.mem_singleton] at member
      rw [member]
      exact now_add_waitTime _ _
    · intro busy
      rw [checks_eq, if_neg (fun both => busy both.2), List.append_nil]
  · refine ⟨waiting, h.frame ?_ silent ?_ ?_ ?_ clock.ge⟩
    · simp [arrivals, same]
    · rw [memory_eq]
      exact Function.update_of_ne (Ne.symm same) _ _
    · rw [memory_eq]
    · rw [checks_eq, if_neg (fun both => same both.1.symm), List.append_nil]

theorem Serves.checkQueue {front back : List (TimerContainer NetMessage)} {address uuid : ℕ}
    (inv : Inv quotient id bps 0 log x)
    (h : Serves (packetDelay quotient bps) id port served waiting log x)
    (split : x.sys.timerQueue = front ++ c :: back) (check : isCheck id other c = true)
    (fits : TransmissionFits quotient x.memory c)
    (handled : x.memory.checkQueue quotient c.wakeup other = some (y.memory, sends))
    (clock : y.sys.currentTime = c.wakeup)
    (queue : y.sys.timerQueue = front ++ back ++ stamp c.wakeup address uuid sends) :
    ∃ served' waiting', Serves (packetDelay quotient bps) id port served' waiting'
      (log ++ [.received c sends]) y := by
  obtain ⟨rfl, rfl, unlimited⟩ := inv.settings
  have occurs : c ∈ x.sys.timerQueue := by rw [split]; simp
  have later : x.sys.currentTime ≤ y.sys.currentTime := by
    rw [clock]
    exact inv.sound.future c occurs
  obtain ⟨-, -, none⟩ := (inv.paired other).dispatched split check
  obtain ⟨packet, rest, head, memory_eq, rfl⟩ := (inv.paired other).handled split check
    (fits.small check) handled
  by_cases same : other = port
  · subst same
    cases waiting with
    | nil =>
      -- the check found a packet, so somebody was waiting
      have empty := h.queue
      rw [head] at empty
      simp at empty
    | cons first waiting =>
      -- the head of the output queue is the packet of the customer who waits first
      obtain ⟨arrival, customer⟩ := first
      have queue_eq := h.queue
      rw [head, List.map_cons, List.cons.injEq] at queue_eq
      obtain ⟨rfl, rest_eq⟩ := queue_eq
      refine ⟨_, waiting, h.transmit ?_ rfl ?_ ?_ ?_ ?_ later⟩
      · rw [clock]
        exact h.next arrival packet waiting rfl c (List.mem_filter.mpr ⟨occurs, check⟩)
      · rw [clock, handovers_transmission, if_pos rfl]
        rfl
      · rw [memory_eq, ← rest_eq]
        exact Function.update_self ..
      · rw [memory_eq, clock]
        exact Function.update_self ..
      · intro d member
        rw [queue, checks_append, none, checks_stamp_transmission] at member
        split at member
        · rw [List.nil_append, List.mem_singleton] at member
          rw [member, clock]
          rfl
        · simp at member
  · refine ⟨served, waiting, h.frame rfl ?_ ?_ ?_ ?_ later⟩
    · rw [handovers_transmission, if_neg same]
    · rw [memory_eq]
      exact Function.update_of_ne (Ne.symm same) _ _
    · rw [memory_eq]
      exact Function.update_of_ne (Ne.symm same) _ _
    -- a check of another port
    · have skipped : isCheck x.memory.id port c = false := by
        rw [isCheck_iff] at check
        simp [isCheck, check.2, same]
      rw [queue, checks_append, checks_stamp_transmission,
        if_neg (fun both => same both.1.symm), List.append_nil]
      exact (filter_of_not split skipped).symm

/-- Every step of an unlimited link is an arrival, a transmission or of no
concern to the port. -/
theorem Serves.step (inv : Inv quotient id bps 0 log x)
    (h : Serves (packetDelay quotient bps) id port served waiting log x)
    (fits : NoWrap quotient x input)
    (hstep : (module quotient).machine.step x input = some (y, new)) :
    ∃ served' waiting', Serves (packetDelay quotient bps) id port served' waiting'
      (log ++ new) y := by
  obtain ⟨effect, -⟩ := effect_of_step inv.sound fits.1 hstep
  cases effect with
  | act a memory sends address _ handled memory_eq clock queue =>
    subst memory_eq
    cases a with
    | sendPacket other packet draw => exact ⟨served, h.sendPacket inv handled clock queue⟩
    | foreign send =>
      obtain ⟨rfl, -, -⟩ := inv.settings
      obtain ⟨foreign, same, rfl⟩ := foreign_eq_some handled
      refine ⟨served, waiting, h.frame rfl ?_ (by rw [same]) (by rw [same]) ?_ clock.ge⟩
      · apply handovers_acted_eq_nil
        intro other member
        rw [List.mem_singleton] at member
        rw [member]
        exact handover_foreign foreign
      · rw [queue, checks_append, checks_stamp_eq_nil, List.append_nil]
        intro other member
        rw [List.mem_singleton] at member
        rw [member]
        exact foreign_not_check foreign
  | dispatch c front back memory sends address _ split least handled memory_eq clock queue =>
    subst memory_eq
    obtain ⟨sys, pop⟩ := popTimer_of_dispatch hstep
    have occurs : c ∈ x.sys.timerQueue := by rw [split]; simp
    have later : x.sys.currentTime ≤ y.sys.currentTime := by
      rw [clock]
      exact inv.sound.future c occurs
    obtain ⟨id_eq, -, -⟩ := inv.settings
    rcases receive_eq_some handled with ⟨other, check, transmitted⟩ | ⟨skipped, same, rfl⟩
    · rw [id_eq] at check
      exact h.checkQueue inv split check (fits.2 rfl _ pop) transmitted clock queue
    · rw [id_eq] at skipped
      refine ⟨served, waiting, h.frame rfl rfl (by rw [same]) (by rw [same]) ?_ later⟩
      rw [queue, checks_append, checks_stamp_eq_nil (by simp), List.append_nil]
      exact (filter_of_not split (skipped port)).symm

/-! ## Whole runs -/

theorem serves_start (id bps port : ℕ) : Serves delay id port [] [] [] (start id bps 0) where
  arrived := rfl
  handed := rfl
  queue := rfl
  free := rfl
  next := by simp
  past := by simp [arrivals]

theorem serves_of_run {acts : List (Input Call)} (port : ℕ)
    (run : (module quotient).machine.Run (NoWrap quotient) (start id bps 0) acts log x) :
    Inv quotient id bps 0 log x ∧
      ∃ served waiting, Serves (packetDelay quotient bps) id port served waiting log x := by
  refine run.invariant (fun log x => Inv quotient id bps 0 log x ∧ ∃ served waiting,
    Serves (packetDelay quotient bps) id port served waiting log x)
    ⟨inv_start id bps 0, [], [], serves_start id bps port⟩ ?_
  rintro log t input u new ⟨inv, served, waiting, h⟩ fits hstep
  have spares : Spares t input := by
    unfold Spares
    split
    · intro one
      rw [inv.settings.2.2] at one
      omega
    · trivial
  exact ⟨inv.step fits spares hstep, h.step inv fits hstep⟩

/-- The first packet that waits has a check in flight, so that no waiting packet
should have been served before now. -/
theorem Serves.now_le (inv : Inv quotient id bps 0 log x)
    (h : Serves delay id port served waiting log x) {service : Packet × ℕ}
    (member : service ∈ schedule delay (finish delay 0 served) waiting) :
    x.sys.currentTime ≤ service.2 := by
  cases waiting with
  | nil => simp [schedule] at member
  | cons first rest =>
    obtain ⟨arrival, packet⟩ := first
    obtain ⟨c, one, -⟩ := (inv.paired port).busy (by rw [h.queue]; simp)
    rw [inv.settings.1] at one
    have pending : c ∈ checks id port x.sys.timerQueue := by simp [one]
    have begins := h.next arrival packet rest rfl c pending
    have future := inv.sound.future c (List.mem_of_mem_filter pending)
    rw [schedule, List.mem_cons] at member
    rcases member with rfl | member
    · rw [← begins]
      exact future
    · have later := le_of_mem_schedule delay member
      omega

/-- Without a queue limit, each port of a link is a single-server queue. At every
moment the link has handed some of the packets that arrived to the wire, in the
order of arrival and each in a message due when its service ends; the others are
in the queue, and their services start no earlier than now. Every check that was
dispatched handed over one packet. No assertion fails, and when nothing is in flight
all packets have been handed over. -/
theorem single_server {quotient : ℕ → ℕ → ℕ} {id bps : ℕ} {acts : List (Input Call)}
    {log : List (Record NetMessage Call)} {x : State NetMessage Link}
    (run : (module quotient).machine.Run (NoWrap quotient) (start id bps 0) acts log x)
    (port : ℕ) :
    (∃ k ≤ (arrivals port log).length,
      handovers id port log =
        ((schedule (packetDelay quotient bps) 0 (arrivals port log)).take k).map
          (due (packetDelay quotient bps)) ∧
      x.memory.outputQueue port = ((arrivals port log).drop k).map Prod.snd ∧
      (∀ service ∈ (schedule (packetDelay quotient bps) 0 (arrivals port log)).drop k,
        x.sys.currentTime ≤ service.2) ∧
      (x.sys.timerQueue = [] → k = (arrivals port log).length)) ∧
    (∀ c sends, .received c sends ∈ log → isCheck id port c = true →
      ∃ packet, handovers id port [.received c sends] =
        [(packet, c.wakeup + packetDelay quotient bps packet)]) ∧
    (x.sys.timerQueue ≠ [] → NoWrap quotient x .dispatch →
      ((module quotient).machine.step x .dispatch).isSome) := by
  obtain ⟨inv, served, waiting, h⟩ := serves_of_run port run
  refine ⟨⟨served.length, ?_, ?_, ?_, ?_, ?_⟩, ?_, inv.healthy.dispatches⟩
  · rw [h.arrived, List.length_append]
    omega
  · rw [h.handed, h.arrived, schedule_append, List.take_left' (length_schedule ..)]
  · rw [h.queue, h.arrived, List.drop_left]
  · intro service member
    rw [h.arrived, schedule_append, List.drop_left' (length_schedule ..)] at member
    exact h.now_le inv member
  · intro nothing
    have none : waiting = [] := by
      by_contra busy
      obtain ⟨c, one, -⟩ := (inv.paired port).busy (by rw [h.queue]; simpa using busy)
      rw [nothing] at one
      simp [checks] at one
    rw [h.arrived, none, List.append_nil]
  · intro c sends member check
    obtain ⟨packet, rest, rfl⟩ := inv.transmits c sends member port check
    refine ⟨packet, ?_⟩
    rw [handovers_transmission, if_pos rfl, packetDelay]

/-- Three packets for one wire and one for another, at a link that takes one unit of time
per byte: the second arrives while the first is being transmitted, the third at the moment
at which the wire becomes free. -/
theorem single_server_three_packets :
    ∃ log x, (module fun size _ => size).machine.Run (NoWrap fun size _ => size) (start 1 1 0)
        [.act (.sendPacket 5 ⟨[1, 2], 0⟩ 0), .act (.sendPacket 6 ⟨[9], 0⟩ 0), .dispatch,
          .dispatch, .act (.sendPacket 5 ⟨[3, 4, 5], 0⟩ 0), .dispatch, .dispatch, .dispatch,
          .dispatch, .act (.sendPacket 5 ⟨[6], 0⟩ 0), .dispatch, .dispatch] log x ∧
      arrivals 5 log = [(0, ⟨[1, 2], 0⟩), (0, ⟨[3, 4, 5], 0⟩), (5, ⟨[6], 0⟩)] ∧
      handovers 1 5 log = [(⟨[1, 2], 0⟩, 2), (⟨[3, 4, 5], 0⟩, 5), (⟨[6], 0⟩, 6)] ∧
      handovers 1 5 log =
        (schedule (packetDelay (fun size _ => size) 1) 0 (arrivals 5 log)).map
          (due (packetDelay (fun size _ => size) 1)) ∧
      ∀ c sends, .received c sends ∈ log → isCheck 1 5 c = true →
        ∃ packet, handovers 1 5 [.received c sends] =
          [(packet, c.wakeup + packetDelay (fun size _ => size) 1 packet)] := by
  have value : ((module fun size _ => size).machine.execIf (NoWrap fun size _ => size)
      (start 1 1 0)
      [.act (.sendPacket 5 ⟨[1, 2], 0⟩ 0), .act (.sendPacket 6 ⟨[9], 0⟩ 0), .dispatch,
        .dispatch, .act (.sendPacket 5 ⟨[3, 4, 5], 0⟩ 0), .dispatch, .dispatch, .dispatch,
        .dispatch, .act (.sendPacket 5 ⟨[6], 0⟩ 0), .dispatch, .dispatch]).map
      (fun r => (arrivals 5 r.2, handovers 1 5 r.2, r.1.sys.timerQueue.length)) =
      some ([(0, ⟨[1, 2], 0⟩), (0, ⟨[3, 4, 5], 0⟩), (5, ⟨[6], 0⟩)],
        [(⟨[1, 2], 0⟩, 2), (⟨[3, 4, 5], 0⟩, 5), (⟨[6], 0⟩, 6)], 0) := by decide
  obtain ⟨⟨x, log⟩, defined, same⟩ := Option.map_eq_some_iff.mp value
  simp only [Prod.mk.injEq, List.length_eq_zero_iff] at same
  obtain ⟨arrived, handed, nothing⟩ := same
  have run := Machine.Run.of_execIf defined
  obtain ⟨⟨k, -, served, -, -, whole⟩, checked, -⟩ := single_server run 5
  rw [whole nothing, ← length_schedule (packetDelay (fun size _ => size) 1) 0,
    List.take_length] at served
  exact ⟨log, x, run, arrived, handed, served, checked⟩

end Kens.Link
