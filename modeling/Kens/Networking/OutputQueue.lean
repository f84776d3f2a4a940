/-
# One pending check per output queue

A link on the scheduler, in any surroundings: other code calls `sendPacket` and
sends messages of its own at any moment. The pairing of non-empty queues with
`CHECK_QUEUE` messages is kept by every step but one: with a limit of 1, a packet
that replaces the only one of its queue leaves two checks behind.
-/

import Mathlib
import Kens.System.Channel
import Kens.Networking.Link

namespace Kens.Link

open Semantics Reactive

variable {quotient : ℕ → ℕ → ℕ}

/-- What other code makes a link do, and what it sends itself. -/
inductive Call
  | sendPacket (port : ℕ) (packet : Packet) (draw : ℕ)
  | foreign (send : Send NetMessage)

/-- Only the link itself sends messages under its own name, and only it makes
`CHECK_QUEUE` messages for itself. -/
def isForeign (id : ℕ) (send : Send NetMessage) : Bool :=
  send.source ≠ id && match send.message with
    | .checkQueue _ => decide (send.target ≠ id)
    | _ => true

/-- A link on the scheduler. What the subclass does with an incoming packet is to
call `sendPacket`, so that it is left to the calls. -/
def module (quotient : ℕ → ℕ → ℕ) : Reactive NetMessage Link Call where
  receive link now c :=
    if c.target = link.id then
      match c.message with
      | .checkQueue wireID => link.checkQueue quotient now wireID
      | _ => some (link, [])
    else some (link, [])
  act link now
    | .sendPacket port packet draw => link.sendPacket now port packet draw
    | .foreign send => if isForeign link.id send then some (link, [send]) else none

/-- A `CHECK_QUEUE` message to a link, for a wire. -/
def isCheck (id port : ℕ) (c : TimerContainer NetMessage) : Bool :=
  c.target = id && c.message = .checkQueue port

/-- The checks in flight for a wire. -/
def checks (id port : ℕ) (queue : List (TimerContainer NetMessage)) :
    List (TimerContainer NetMessage) :=
  queue.filter (isCheck id port)

/-- An empty queue has no check in flight. A non-empty one has exactly one, due
when the wire is free. -/
structure OneCheck (link : Link) (queue : List (TimerContainer NetMessage)) (port : ℕ) :
    Prop where
  idle : link.outputQueue port = [] → checks link.id port queue = []
  busy : link.outputQueue port ≠ [] →
    ∃ c, checks link.id port queue = [c] ∧ link.nextAvailable port ≤ c.wakeup

/-! ## The pairing is kept -/

variable {link link' : Link} {queue front back : List (TimerContainer NetMessage)}
  {port other now address uuid draw : ℕ} {packet : Packet} {c : TimerContainer NetMessage}
  {sends : List (Send NetMessage)}

theorem isCheck_iff : isCheck other port c = true ↔
    c.target = other ∧ c.message = .checkQueue port := by
  simp [isCheck]

theorem checks_append (id : ℕ) (queue extra : List (TimerContainer NetMessage)) :
    checks id port (queue ++ extra) = checks id port queue ++ checks id port extra :=
  List.filter_append ..

theorem checks_stamp_eq_nil
    (none : ∀ send ∈ sends, ¬ (send.target = other ∧ send.message = .checkQueue port)) :
    checks other port (stamp now address uuid sends) = [] := by
  rw [checks, List.filter_eq_nil_iff]
  intro c member check
  obtain ⟨-, -, send, mem, -, target, message, -⟩ := mem_stamp member
  rw [isCheck_iff, target, message] at check
  exact none send mem check

/-- The check that `sendPacket` starts, if any, is one for its wire. -/
theorem checks_stamp_sendPacket
    (sent : link.sendPacket now other packet draw = some (link', sends)) :
    checks link.id port (stamp now address uuid sends) =
      if port = other ∧ link.evict (link.outputQueue other) draw = [] then
        [⟨address, link.id, link.id, now + waitTime (link.nextAvailable other) now,
          .checkQueue other, uuid + 1⟩]
      else [] := by
  obtain ⟨-, -, rfl⟩ := sendPacket_eq_some sent
  by_cases empty : link.evict (link.outputQueue other) draw = []
  · by_cases same : other = port
    · subst same
      simp [empty, checks, stamp, isCheck]
    · simp [empty, same, Ne.symm same, checks, stamp, isCheck]
  · simp [empty, checks, stamp]

/-- The sends of a transmission that leaves `rest` in the queue. -/
def transmission (id port : ℕ) (packet : Packet) (delay : ℕ) (rest : List Packet) :
    List (Send NetMessage) :=
  ⟨id, port, .packetToPort packet, delay⟩ ::
    if rest = [] then [] else [⟨id, id, .checkQueue port, delay⟩]

theorem checks_stamp_transmission (id delay : ℕ) (rest : List Packet) :
    checks id port (stamp now address uuid (transmission id other packet delay rest)) =
      if port = other ∧ rest ≠ [] then
        [⟨address + 1, id, id, now + delay, .checkQueue other, uuid + 1 + 1⟩]
      else [] := by
  by_cases empty : rest = []
  · simp [transmission, empty, checks, stamp, isCheck]
  · by_cases same : other = port
    · simp [transmission, empty, same, checks, stamp, isCheck]
    · simp [transmission, empty, same, Ne.symm same, checks, stamp, isCheck]

/-- The pairing for a wire depends only on the data of that wire. -/
theorem OneCheck.frame (h : OneCheck link queue port) {queue' : List (TimerContainer NetMessage)}
    (same_queue : link'.outputQueue port = link.outputQueue port)
    (same_avail : link'.nextAvailable port = link.nextAvailable port)
    (same_checks : checks link'.id port queue' = checks link.id port queue) :
    OneCheck link' queue' port := by
  constructor
  · rw [same_queue, same_checks]
    exact h.idle
  · rw [same_queue, same_avail, same_checks]
    exact h.busy

/-- Eviction empties a queue only under a limit of 1. -/
theorem eq_nil_of_evict {packets : List Packet} (limit : link.max_queue_length ≠ 1)
    (empty : link.evict packets draw = []) : packets = [] := by
  unfold evict at empty
  split at empty
  next full =>
    -- eviction takes one packet out of at least two
    dsimp only at empty
    generalize hindex : (if draw ≥ link.max_queue_length then link.max_queue_length - 1
      else draw) = index at empty
    split at empty
    next inside =>
      have length := congrArg List.length empty
      rw [List.length_eraseIdx_of_lt inside, List.length_nil] at length
      omega
    · exact empty
  · exact empty

/-- `sendPacket` keeps the pairing, unless it replaces the only packet of a queue
with limit 1. -/
theorem OneCheck.sendPacket (h : OneCheck link queue port)
    (sent : link.sendPacket now other packet draw = some (link', sends))
    (spared : link.max_queue_length = 1 → link.outputQueue other = []) :
    OneCheck link' (queue ++ stamp now address uuid sends) port := by
  have new : checks link.id port (stamp now address uuid sends) = _ :=
    checks_stamp_sendPacket sent
  obtain ⟨-, rfl, -⟩ := sendPacket_eq_some sent
  by_cases same : port = other
  · subst same
    by_cases empty : link.evict (link.outputQueue port) draw = []
    · -- the first packet of its queue: the check in flight is the new one
      have before : link.outputQueue port = [] := by
        by_cases one : link.max_queue_length = 1
        · exact spared one
        · exact eq_nil_of_evict one empty
      constructor
      · simp
      · intro _
        rw [checks_append, h.idle before, new, if_pos ⟨rfl, empty⟩]
        refine ⟨_, rfl, ?_⟩
        change link.nextAvailable port ≤ now + waitTime (link.nextAvailable port) now
        rw [now_add_waitTime]
        exact le_max_right _ _
    · -- the queue already had a check in flight
      have before : link.outputQueue port ≠ [] := by
        intro nil
        rw [nil] at empty
        exact empty (by simp [evict])
      obtain ⟨c, one, due⟩ := h.busy before
      constructor
      · simp
      · intro _
        rw [checks_append, new, if_neg (fun both => empty both.2), one]
        exact ⟨c, rfl, due⟩
  · refine h.frame (Function.update_of_ne same _ _) rfl ?_
    rw [checks_append, new, if_neg (fun both => same both.1), List.append_nil]

/-- The check being dispatched is the only one for its wire. -/
theorem OneCheck.dispatched (h : OneCheck link queue port) (split : queue = front ++ c :: back)
    (check : isCheck link.id port c = true) :
    (∃ packet rest, link.outputQueue port = packet :: rest) ∧
      link.nextAvailable port ≤ c.wakeup ∧ checks link.id port (front ++ back) = [] := by
  have occurs : c ∈ checks link.id port queue := by
    rw [checks, List.mem_filter, split]
    exact ⟨by simp, check⟩
  have busy : link.outputQueue port ≠ [] := by
    intro empty
    rw [h.idle empty] at occurs
    simp at occurs
  obtain ⟨d, one, due⟩ := h.busy busy
  rw [one, List.mem_singleton] at occurs
  subst occurs
  refine ⟨List.exists_cons_of_ne_nil busy, due, ?_⟩
  rw [split, checks, List.filter_append, List.filter_cons_of_pos check] at one
  have short := congrArg List.length one
  rw [List.length_append, List.length_cons, List.length_singleton] at short
  rw [checks, List.filter_append]
  exact List.length_eq_zero_iff.mp (by rw [List.length_append]; omega)

/-- What the dispatch of the only check of a wire does. -/
theorem OneCheck.handled (h : OneCheck link queue other) (split : queue = front ++ c :: back)
    (check : isCheck link.id other c = true)
    (small : ∀ packet rest, link.outputQueue other = packet :: rest →
      c.wakeup + transDelay quotient link.bps packet.getSize < 2 ^ 64)
    (handled : link.checkQueue quotient c.wakeup other = some (link', sends)) :
    ∃ packet rest, link.outputQueue other = packet :: rest ∧
      link' = { link with
        nextAvailable := Function.update link.nextAvailable other
          (c.wakeup + transDelay quotient link.bps packet.getSize)
        outputQueue := Function.update link.outputQueue other rest } ∧
      sends = transmission link.id other packet (transDelay quotient link.bps packet.getSize)
        rest := by
  obtain ⟨⟨packet, rest, head⟩, free, -⟩ := h.dispatched split check
  rw [checkQueue_eq head free (small packet rest head)] at handled
  obtain ⟨rfl, rfl⟩ : _ = link' ∧ _ = sends := by simpa using handled
  exact ⟨packet, rest, head, rfl, rfl⟩

/-- The dispatch of a check keeps the pairing. -/
theorem OneCheck.checkQueue (all : ∀ port, OneCheck link queue port)
    (split : queue = front ++ c :: back) (check : isCheck link.id other c = true)
    (small : ∀ packet rest, link.outputQueue other = packet :: rest →
      c.wakeup + transDelay quotient link.bps packet.getSize < 2 ^ 64)
    (handled : link.checkQueue quotient c.wakeup other = some (link', sends)) :
    OneCheck link' (front ++ back ++ stamp c.wakeup address uuid sends) port := by
  obtain ⟨-, -, none⟩ := (all other).dispatched split check
  obtain ⟨packet, rest, head, rfl, rfl⟩ := (all other).handled split check small handled
  by_cases same : port = other
  · subst same
    constructor
    · intro empty
      have rest_nil : rest = [] := by simpa using empty
      rw [checks_append, none, checks_stamp_transmission, if_neg (fun both => both.2 rest_nil)]
      rfl
    · intro busy
      have rest_ne : rest ≠ [] := by simpa using busy
      rw [checks_append, none, checks_stamp_transmission, if_pos ⟨rfl, rest_ne⟩]
      exact ⟨_, rfl, (Function.update_self ..).le⟩
  -- the check of another wire does not concern this one
  · refine (all port).frame (Function.update_of_ne same _ _) (Function.update_of_ne same _ _) ?_
    have skipped : isCheck link.id port c = false := by
      rw [isCheck_iff] at check
      simp [isCheck, check.2, Ne.symm same]
    rw [checks_append, checks_stamp_transmission, if_neg (fun both => same both.1),
      List.append_nil]
    exact (filter_of_not split skipped).symm

/-! ## Runs -/

/-- The end of the transmission that a check starts lies within 64 bits. -/
def TransmissionFits (quotient : ℕ → ℕ → ℕ) (link : Link) (c : TimerContainer NetMessage) :
    Prop :=
  match c.message with
  | .checkQueue port => c.target = link.id → ∀ packet ∈ (link.outputQueue port).head?,
      c.wakeup + transDelay quotient link.bps packet.getSize < 2 ^ 64
  | .packetToPort _ | .packetFromPort _ | .other => True

/-- No time and no UUID wraps. -/
def NoWrap (quotient : ℕ → ℕ → ℕ) (x : State NetMessage Link) (input : Input Call) : Prop :=
  (module quotient).NoWrap x input ∧
    (input = .dispatch → ∀ popped ∈ x.sys.popTimer, TransmissionFits quotient x.memory popped.1)

instance (quotient : ℕ → ℕ → ℕ) (link : Link) (c : TimerContainer NetMessage) :
    Decidable (TransmissionFits quotient link c) :=
  match h : c.message with
  | .checkQueue port => decidable_of_iff (c.target = link.id →
      ∀ packet ∈ (link.outputQueue port).head?,
        c.wakeup + transDelay quotient link.bps packet.getSize < 2 ^ 64)
        (by rw [TransmissionFits, h])
  | .packetToPort _ => isTrue (by rw [TransmissionFits, h]; trivial)
  | .packetFromPort _ => isTrue (by rw [TransmissionFits, h]; trivial)
  | .other => isTrue (by rw [TransmissionFits, h]; trivial)

instance (quotient : ℕ → ℕ → ℕ) (x : State NetMessage Link) : DecidablePred (NoWrap quotient x)
  | .act a => decidable_of_iff ((module quotient).NoWrap x (.act a)) (by simp [NoWrap])
  | .dispatch => decidable_of_iff ((module quotient).NoWrap x .dispatch ∧
      ∀ popped ∈ x.sys.popTimer, TransmissionFits quotient x.memory popped.1) (by simp [NoWrap])

theorem TransmissionFits.small (fits : TransmissionFits quotient link c)
    (check : isCheck link.id port c = true) :
    ∀ packet rest, link.outputQueue port = packet :: rest →
      c.wakeup + transDelay quotient link.bps packet.getSize < 2 ^ 64 := by
  intro packet rest head
  obtain ⟨target, message⟩ := isCheck_iff.mp check
  rw [TransmissionFits, message] at fits
  exact fits target packet (by rw [head]; rfl)

/-- No packet is sent to a non-empty queue with limit 1. -/
def Spares (x : State NetMessage Link) : Input Call → Prop
  | .act (.sendPacket port _ _) =>
    x.memory.max_queue_length = 1 → x.memory.outputQueue port = []
  | _ => True

instance (x : State NetMessage Link) : DecidablePred (Spares x)
  | .act (.sendPacket port _ _) => inferInstanceAs
      (Decidable (x.memory.max_queue_length = 1 → x.memory.outputQueue port = []))
  | .act (.foreign _) | .dispatch => isTrue trivial

/-- A link with some limit and speed before anything has happened. -/
def start (id bps limit : ℕ) : State NetMessage Link :=
  ⟨{}, { id := id, bps := bps, max_queue_length := limit }⟩

/-- What holds of the link and of what it did so far: the pairing, that every
check transmitted a packet, and that no assertion can fail next. -/
structure Healthy (quotient : ℕ → ℕ → ℕ) (log : List (Record NetMessage Call))
    (x : State NetMessage Link) : Prop where
  paired : ∀ port, OneCheck x.memory x.sys.timerQueue port
  transmits : ∀ c sends, .received c sends ∈ log → ∀ port, isCheck x.memory.id port c = true →
    ∃ packet delay, ⟨x.memory.id, port, .packetToPort packet, delay⟩ ∈ sends
  dispatches : x.sys.timerQueue ≠ [] → NoWrap quotient x .dispatch →
    ((module quotient).machine.step x .dispatch).isSome
  accepts : ∀ port packet draw, NoWrap quotient x (.act (.sendPacket port packet draw)) →
    ((module quotient).machine.step x (.act (.sendPacket port packet draw))).isSome

/-- The invariant of the runs that spare queues with limit 1. -/
structure Inv (quotient : ℕ → ℕ → ℕ) (id bps limit : ℕ) (log : List (Record NetMessage Call))
    (x : State NetMessage Link) : Prop where
  sound : Sound x.sys
  settings : x.memory.id = id ∧ x.memory.bps = bps ∧ x.memory.max_queue_length = limit
  paired : ∀ port, OneCheck x.memory x.sys.timerQueue port
  bounded : limit ≠ 0 → ∀ port, (x.memory.outputQueue port).length ≤ limit
  transmits : ∀ c sends, .received c sends ∈ log → ∀ port, isCheck id port c = true →
    ∃ packet rest,
      sends = transmission id port packet (transDelay quotient bps packet.getSize) rest

theorem inv_start (id bps limit : ℕ) :
    Inv quotient id bps limit [] (start id bps limit) where
  sound := sound_start
  settings := ⟨rfl, rfl, rfl⟩
  paired port := ⟨fun _ => rfl, fun busy => absurd rfl busy⟩
  bounded _ _ := Nat.zero_le _
  transmits := by simp

variable {id bps limit : ℕ} {log new : List (Record NetMessage Call)}
  {x y : State NetMessage Link} {input : Input Call}

/-- A message that the link does not look at changes nothing. -/
theorem receive_eq_some {memory : Link}
    (h : (module quotient).receive link now c = some (memory, sends)) :
    (∃ port, isCheck link.id port c = true ∧
      link.checkQueue quotient now port = some (memory, sends)) ∨
    ((∀ port, isCheck link.id port c = false) ∧ memory = link ∧ sends = []) := by
  dsimp only [module] at h
  split at h
  next target =>
    split at h
    next port message =>
      exact .inl ⟨port, isCheck_iff.mpr ⟨target, message⟩, h⟩
    next message =>
      obtain ⟨rfl, rfl⟩ : link = memory ∧ [] = sends := by simpa using h
      refine .inr ⟨fun port => ?_, rfl, rfl⟩
      have other_message : c.message ≠ .checkQueue port := message port
      simp [isCheck, other_message]
  next target =>
    obtain ⟨rfl, rfl⟩ : link = memory ∧ [] = sends := by simpa using h
    exact .inr ⟨fun port => by simp [isCheck, target], rfl, rfl⟩

theorem foreign_eq_some {memory : Link} {send : Send NetMessage}
    (h : (module quotient).act link now (.foreign send) = some (memory, sends)) :
    isForeign link.id send = true ∧ memory = link ∧ sends = [send] := by
  change (if isForeign link.id send = true then some (link, [send]) else none) = _ at h
  split at h
  next foreign =>
    obtain ⟨rfl, rfl⟩ : link = memory ∧ [send] = sends := by simpa using h
    exact ⟨foreign, rfl, rfl⟩
  · simp at h

theorem foreign_not_check {send : Send NetMessage} (h : isForeign other send = true) :
    ¬ (send.target = other ∧ send.message = .checkQueue port) := by
  rintro ⟨target, message⟩
  simp [isForeign, message, target] at h

theorem length_update_le {queues : ℕ → List Packet} {packets : List Packet}
    (all : ∀ port, (queues port).length ≤ limit) (short : packets.length ≤ limit) (other : ℕ) :
    (Function.update queues port packets other).length ≤ limit := by
  by_cases same : other = port
  · rw [same, Function.update_self]
    exact short
  · rw [Function.update_of_ne same]
    exact all other

theorem received_append_acted {a : Call}
    {P : TimerContainer NetMessage → List (Send NetMessage) → Prop}
    (h : ∀ c sends, .received c sends ∈ log → P c sends) :
    ∀ c sends', .received c sends' ∈ log ++ [.acted a now sends] → P c sends' := by
  intro c sends' member
  rw [List.mem_append, List.mem_singleton] at member
  rcases member with member | member
  · exact h c sends' member
  · simp at member

theorem received_append_received {P : TimerContainer NetMessage → List (Send NetMessage) → Prop}
    (h : ∀ c sends, .received c sends ∈ log → P c sends) (last : P c sends) :
    ∀ d sends', .received d sends' ∈ log ++ [.received c sends] → P d sends' := by
  intro d sends' member
  rw [List.mem_append, List.mem_singleton] at member
  rcases member with member | member
  · exact h d sends' member
  · obtain ⟨rfl, rfl⟩ : d = c ∧ sends' = sends := by simpa using member
    exact last

/-- A step that leaves the link and its checks alone. -/
theorem Inv.quiet (h : Inv quotient id bps limit log x) (sound : Sound y.sys)
    (same : y.memory = x.memory)
    (same_checks : ∀ port, checks id port y.sys.timerQueue = checks id port x.sys.timerQueue)
    (transmits : ∀ c sends, .received c sends ∈ log ++ new → ∀ port, isCheck id port c = true →
      ∃ packet rest,
        sends = transmission id port packet (transDelay quotient bps packet.getSize) rest) :
    Inv quotient id bps limit (log ++ new) y := by
  refine ⟨sound, by rw [same]; exact h.settings, fun port => ?_, by rw [same]; exact h.bounded,
    transmits⟩
  have settings := h.settings.1
  apply (h.paired port).frame
  · rw [same]
  · rw [same]
  · rw [same, settings, same_checks]

theorem Inv.step (h : Inv quotient id bps limit log x) (fits : NoWrap quotient x input)
    (spares : Spares x input) (hstep : (module quotient).machine.step x input = some (y, new)) :
    Inv quotient id bps limit (log ++ new) y := by
  obtain ⟨effect, sound⟩ := effect_of_step h.sound fits.1 hstep
  obtain ⟨rfl, rfl, rfl⟩ := h.settings
  cases effect with
  | act a memory sends address _ handled memory_eq clock queue =>
    subst memory_eq
    cases a with
    | sendPacket port packet draw =>
      change x.memory.sendPacket x.sys.currentTime port packet draw = _ at handled
      obtain ⟨room, memory_eq, -⟩ := sendPacket_eq_some handled
      refine ⟨sound, by rw [memory_eq]; exact ⟨rfl, rfl, rfl⟩, fun other => ?_, ?_,
        received_append_acted h.transmits⟩
      · rw [queue]
        exact (h.paired other).sendPacket handled spares
      · intro limited
        rw [memory_eq]
        apply length_update_le (h.bounded limited)
        rw [List.length_append, List.length_singleton]
        omega
    | foreign send =>
      -- a message of another module adds no check to the queue
      obtain ⟨foreign, same, rfl⟩ := foreign_eq_some handled
      apply h.quiet sound same _ (received_append_acted h.transmits)
      intro port
      rw [queue, checks_append, checks_stamp_eq_nil, List.append_nil]
      intro other member
      rw [List.mem_singleton] at member
      rw [member]
      exact foreign_not_check foreign
  | dispatch c front back memory sends address _ split least handled memory_eq clock queue =>
    subst memory_eq
    obtain ⟨sys, pop⟩ := popTimer_of_dispatch hstep
    rcases receive_eq_some handled with ⟨port, check, transmitted⟩ | ⟨skipped, same, rfl⟩
    · -- a check: the first packet of its queue goes to the wire
      have small := (fits.2 rfl _ pop).small check
      obtain ⟨packet, rest, head, memory_eq, sends_eq⟩ :=
        (h.paired port).handled split check small transmitted
      refine ⟨sound, by rw [memory_eq]; exact ⟨rfl, rfl, rfl⟩, fun other => ?_, ?_, ?_⟩
      · rw [queue]
        exact OneCheck.checkQueue h.paired split check small transmitted
      · intro limited
        rw [memory_eq]
        apply length_update_le (h.bounded limited)
        have before := h.bounded limited port
        rw [head, List.length_cons] at before
        omega
      · refine received_append_received h.transmits fun other check' => ?_
        -- one container is a check of one port
        obtain rfl : port = other := by
          have first := (isCheck_iff.mp check).2
          rw [(isCheck_iff.mp check').2] at first
          simpa using first.symm
        exact ⟨packet, rest, sends_eq⟩
    -- anything but a check leaves the link alone
    · apply h.quiet sound same
      · intro port
        rw [queue, checks_append, checks_stamp_eq_nil (by simp), List.append_nil]
        exact (filter_of_not split (skipped port)).symm
      · refine received_append_received h.transmits fun other check' => ?_
        rw [skipped other] at check'
        simp at check'

/-- No handler of a link in the invariant fails an assertion. -/
theorem Inv.receive_isSome (h : Inv quotient id bps limit log x)
    (fits : TransmissionFits quotient x.memory c) (occurs : c ∈ x.sys.timerQueue) :
    ((module quotient).receive x.memory c.wakeup c).isSome := by
  obtain ⟨front, back, split⟩ := List.append_of_mem occurs
  dsimp only [module]
  split
  next target =>
    split
    next port message =>
      have check : isCheck x.memory.id port c = true := isCheck_iff.mpr ⟨target, message⟩
      obtain ⟨⟨packet, rest, head⟩, free, -⟩ := (h.paired port).dispatched split check
      rw [checkQueue_eq head free (fits.small check packet rest head)]
      rfl
    · rfl
  · rfl

theorem Inv.healthy (h : Inv quotient id bps limit log x) : Healthy quotient log x where
  paired := h.paired
  transmits := by
    rw [h.settings.1]
    intro c sends member port check
    obtain ⟨packet, rest, rfl⟩ := h.transmits c sends member port check
    exact ⟨packet, _, List.mem_cons_self ..⟩
  dispatches busy fits := by
    refine dispatch_isSome h.sound fits.1 busy fun popped pop member => ?_
    exact h.receive_isSome (fits.2 rfl popped pop) member
  accepts port packet draw fits := by
    apply step_isSome h.sound fits.1
    apply sendPacket_isSome
    intro limited
    rw [h.settings.2.2] at limited ⊢
    exact h.bounded limited port

/-- A packet that replaces the only one of its queue starts a second check. -/
theorem two_checks_of_not_spares (paired : ∀ port, OneCheck x.memory x.sys.timerQueue port)
    (sound : Sound x.sys) (fits : NoWrap quotient x input) (full : ¬ Spares x input)
    (hstep : (module quotient).machine.step x input = some (y, new)) :
    ¬ ∀ port, OneCheck y.memory y.sys.timerQueue port := by
  obtain ⟨effect, -⟩ := effect_of_step sound fits.1 hstep
  cases effect with
  | act a memory sends address _ handled memory_eq clock queue =>
    subst memory_eq
    cases a with
    | foreign send => exact absurd trivial full
    | sendPacket port packet draw =>
      obtain ⟨one, busy⟩ : x.memory.max_queue_length = 1 ∧ x.memory.outputQueue port ≠ [] := by
        simpa [Spares] using full
      change x.memory.sendPacket x.sys.currentTime port packet draw = _ at handled
      obtain ⟨room, memory_eq, -⟩ := sendPacket_eq_some handled
      -- the only packet is evicted, so the new one looks like the first of its queue
      have empty : x.memory.evict (x.memory.outputQueue port) draw = [] :=
        List.length_eq_zero_iff.mp (by omega)
      obtain ⟨c, one_check, -⟩ := (paired port).busy busy
      intro claimed
      have occupied : y.memory.outputQueue port ≠ [] := by
        rw [memory_eq]
        simp
      obtain ⟨d, again, -⟩ := (claimed port).busy occupied
      have same_id : y.memory.id = x.memory.id := by rw [memory_eq]
      rw [same_id, queue, checks_append, one_check, checks_stamp_sendPacket handled,
        if_pos ⟨rfl, empty⟩] at again
      simp at again
  | dispatch => exact absurd trivial full

/-! ## The pairing over whole runs -/

theorem inv_of_run {acts : List (Input Call)}
    (run : (module quotient).machine.Run (fun x input => NoWrap quotient x input ∧ Spares x input)
      (start id bps limit) acts log x) : Inv quotient id bps limit log x :=
  run.invariant (Inv quotient id bps limit) (inv_start id bps limit)
    fun _ _ _ _ _ inv ok hstep => inv.step ok.1 ok.2 hstep

/-- Along a run in which nothing wraps, the link is healthy in every state
reached exactly when no packet was sent to a non-empty queue with limit 1. -/
theorem healthy_iff_spares {acts : List (Input Call)}
    (run : (module quotient).machine.Run (NoWrap quotient) (start id bps limit) acts log x) :
    (∀ acts' log' x', acts' <+: acts →
      (module quotient).machine.Run (NoWrap quotient) (start id bps limit) acts' log' x' →
      Healthy quotient log' x') ↔
    (module quotient).machine.Run (fun x input => NoWrap quotient x input ∧ Spares x input)
      (start id bps limit) acts log x := by
  apply run.always_iff (Inv quotient id bps limit) (Healthy quotient) (inv_start id bps limit)
  · intro log x inv
    exact inv.healthy
  · intro log x input y new inv fits spares hstep
    exact inv.step fits spares hstep
  · -- the first packet that is not spared would leave two checks in flight
    intro log x input y new inv fits full hstep healthy
    exact two_checks_of_not_spares inv.paired inv.sound fits full hstep healthy.paired

/-- Three packets for one wire of a link with limit 2: the third one evicts the second, and
the first one is transmitted. -/
theorem healthy_iff_spares_evicting :
    ∃ log x, (module fun size _ => size).machine.Run
        (fun x input => NoWrap (fun size _ => size) x input ∧ Spares x input) (start 1 1 2)
        [.act (.sendPacket 5 ⟨[7], 0⟩ 1), .act (.sendPacket 5 ⟨[8], 0⟩ 1),
          .act (.sendPacket 5 ⟨[9], 0⟩ 1), .dispatch] log x ∧
      x.memory.outputQueue 5 = [⟨[9], 0⟩] ∧ (checks 1 5 x.sys.timerQueue).length = 1 ∧
      ∀ acts' log' x', acts' <+: [.act (.sendPacket 5 ⟨[7], 0⟩ 1),
          .act (.sendPacket 5 ⟨[8], 0⟩ 1), .act (.sendPacket 5 ⟨[9], 0⟩ 1), .dispatch] →
        (module fun size _ => size).machine.Run (NoWrap fun size _ => size) (start 1 1 2)
          acts' log' x' → Healthy (fun size _ => size) log' x' := by
  have value : ((module fun size _ => size).machine.execIf
      (fun x input => NoWrap (fun size _ => size) x input ∧ Spares x input) (start 1 1 2)
      [.act (.sendPacket 5 ⟨[7], 0⟩ 1), .act (.sendPacket 5 ⟨[8], 0⟩ 1),
        .act (.sendPacket 5 ⟨[9], 0⟩ 1), .dispatch]).map
      (fun r => (r.1.memory.outputQueue 5, (checks 1 5 r.1.sys.timerQueue).length)) =
      some ([⟨[9], 0⟩], 1) := by decide
  obtain ⟨⟨x, log⟩, defined, same⟩ := Option.map_eq_some_iff.mp value
  obtain ⟨queued, pending⟩ := Prod.mk.inj same
  have run := Machine.Run.of_execIf defined
  exact ⟨log, x, run, queued, pending,
    (healthy_iff_spares (run.mono fun _ _ ok => ok.1)).mpr run⟩

/-! A link with limit 1 and instant transmission, and two packets for wire 5. -/

/-- The link after the first packet. -/
def afterFirst : State NetMessage Link :=
  ⟨System.push {} ⟨0, 1, 1, 0, .checkQueue 5, 1⟩,
    { id := 1, bps := 0, max_queue_length := 1,
      outputQueue := Function.update (fun _ => []) 5 [⟨[], 0⟩] }⟩

/-- The second packet replaces the first and leaves two checks in flight. -/
theorem not_healthy_of_limit_one :
    ¬ ∀ (quotient : ℕ → ℕ → ℕ) (id bps limit : ℕ) (acts : List (Input Call))
      (log : List (Record NetMessage Call)) (x : State NetMessage Link),
      (module quotient).machine.Run (NoWrap quotient) (start id bps limit) acts log x →
      Healthy quotient log x := by
  intro claimed
  have run : (module fun _ _ => 0).machine.Run
      (fun x input => NoWrap (fun _ _ => 0) x input ∧ Spares x input) (start 1 0 1)
      [.act (.sendPacket 5 ⟨[], 0⟩ 0)] _ afterFirst := Machine.Run.single (by decide) rfl
  have fits : NoWrap (fun _ _ => 0) afterFirst (.act (.sendPacket 5 ⟨[], 0⟩ 0)) := by decide
  have full : ¬ Spares afterFirst (.act (.sendPacket 5 ⟨[], 0⟩ 0)) := by decide
  have first := inv_of_run run
  have both := (run.mono fun _ _ ok => ok.1).snoc fits rfl
  exact two_checks_of_not_spares first.paired first.sound fits full rfl
    (claimed _ _ _ _ _ _ _ both).paired

end Kens.Link
