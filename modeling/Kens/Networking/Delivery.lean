/-
# Delivery through a reliable switch

The frames for one address that entered at one port move through five stages: the
two hops to the switch, an output queue and the two hops from the switch. No stage
reorders, loses or duplicates them, whatever other traffic shares it, so that what
has been delivered and what is still on its way are together what was sent.
-/

import Mathlib
import Kens.Networking.Star

namespace Kens.Star

open Semantics Reactive

/-- A frame that the host behind port `p` sends on that port to the address `mac`. -/
def sent (p : ℕ) (mac : Mac) : Record NetMessage Call → Option (List UInt8)
  | .acted (.sendFrame wire frame) _ _ =>
    if wire = p ∧ frame.take 6 = mac.toList then some frame else none
  | _ => none

/-- A frame to the address `mac` that entered at port `p` and is delivered to the
host behind port `q`. -/
def delivered (N : Star) (p q : ℕ) (mac : Mac) : Record NetMessage Call → Option (List UInt8)
  | .received c _ =>
    match c.message with
    | .packetFromPort packet =>
      if (c.source = q ∧ c.target = N.hostOf q) ∧
          packet.origin = p ∧ packet.buffer.take 6 = mac.toList then some packet.buffer
      else none
    | _ => none
  | _ => none

/-! ## The frames of a route -/

def payload : NetMessage → Option Packet
  | .packetToPort packet => some packet
  | .packetFromPort packet => some packet
  | .checkQueue _ => none
  | .other => none

/-- The bytes of those packets that entered at `p` and are for `mac`. -/
def onRoute (p : ℕ) (mac : Mac) (packets : List Packet) : List (List UInt8) :=
  (packets.filter fun packet => packet.origin = p ∧ packet.buffer.take 6 = mac.toList).map
    Packet.buffer

/-- The packets in flight on a hop. -/
def flight (N : Star) (hop : Hop) (w : ℕ) (queue : List (TimerContainer NetMessage)) :
    List Packet :=
  carried payload (hop.source N w) (hop.target N w) queue

/-- The frames that are still on their way from `p` to the host behind `q`. -/
def underway (N : Star) (p q : ℕ) (mac : Mac) (x : State NetMessage Memory) :
    List (List UInt8) :=
  onRoute p mac (N.flight .toHost q x.sys.timerQueue) ++
  (onRoute p mac (N.flight .fromSwitch q x.sys.timerQueue) ++
  (onRoute p mac (x.memory.switch.link.outputQueue q) ++
  (onRoute p mac (N.flight .toSwitch p x.sys.timerQueue) ++
  onRoute p mac (N.flight .fromHost p x.sys.timerQueue))))

variable {N : Star} {O : Oracle} {p q w v : ℕ} {mac : Mac} {hop hop' : Hop}
  {c : TimerContainer NetMessage} {packet : Packet} {send : Send NetMessage}
  {sends : List (Send NetMessage)} {queue : List (TimerContainer NetMessage)}

@[simp] theorem onRoute_nil : onRoute p mac [] = [] := rfl

theorem onRoute_append (early late : List Packet) :
    onRoute p mac (early ++ late) = onRoute p mac early ++ onRoute p mac late := by
  simp [onRoute]

/-- Other frames are not on the route. -/
theorem onRoute_replicate_eq_nil {n : ℕ}
    (off : ¬ (packet.origin = p ∧ packet.buffer.take 6 = mac.toList)) :
    onRoute p mac (List.replicate n packet) = [] := by
  rw [onRoute, List.filter_replicate_of_neg (by simpa using off)]
  rfl

theorem flight_append (queue extra : List (TimerContainer NetMessage)) :
    N.flight hop w (queue ++ extra) = N.flight hop w queue ++ N.flight hop w extra :=
  carried_append payload queue extra

/-- A message in flight on one hop is on no other. -/
theorem flight_singleton (port : w ∈ N.ports) (port' : v ∈ N.ports)
    (source : c.source = hop'.source N v) (target : c.target = hop'.target N v)
    (message : payload c.message = some packet) :
    N.flight hop w [c] = if hop = hop' ∧ w = v then [packet] else [] := by
  rw [flight, carried]
  by_cases same : hop = hop' ∧ w = v
  · have on : onChannel (hop.source N w) (hop.target N w) c = true := by
      obtain ⟨rfl, rfl⟩ := same
      exact onChannel_iff.mpr ⟨source, target⟩
    rw [if_pos same, List.filter_cons_of_pos on, List.filterMap_cons, message]
    rfl
  · have off : ¬ onChannel (hop.source N w) (hop.target N w) c = true := by
      intro on
      obtain ⟨source', target'⟩ := onChannel_iff.mp on
      exact same (Hop.unique port port' (source'.symm.trans source) (target'.symm.trans target))
    rw [if_neg same, List.filter_cons_of_neg off]
    rfl

/-- A message that carries no packet is in no flight. -/
theorem flight_of_payload_eq_none (message : payload c.message = none) :
    N.flight hop w [c] = [] := by
  rw [flight, carried, List.filterMap_eq_nil_iff]
  intro other member
  rw [List.mem_singleton.mp (List.mem_of_mem_filter member)]
  exact message

/-- What the checks of a link carry is nothing. -/
theorem flight_stamp_eq_nil {now address uuid : ℕ}
    (none : ∀ send ∈ sends, payload send.message = none) :
    N.flight hop w (stamp now address uuid sends) = [] := by
  rw [flight, carried_stamp, sentOn, List.filterMap_eq_nil_iff]
  intro send member
  exact none send (List.mem_of_mem_filter member)

/-- A transmission of the switch puts one packet on the hop to its wire. -/
theorem flight_transmission {now address uuid delay : ℕ} {rest : List Packet}
    (port : w ∈ N.ports) (port' : v ∈ N.ports) :
    N.flight hop v (stamp now address uuid (Link.transmission N.switch w packet delay rest)) =
      if hop = .fromSwitch ∧ v = w then [packet] else [] := by
  rw [Link.transmission, stamp, ← List.singleton_append, flight_append,
    @flight_singleton N v w hop .fromSwitch _ packet port' port rfl rfl rfl,
    flight_stamp_eq_nil, List.append_nil]
  intro send member
  split at member
  · simp at member
  · rw [List.mem_singleton.mp member]
    rfl

/-- One step moves the flight of a hop: the packet of the dispatched message
leaves it in front, the packets sent join it at its end. -/
theorem Inv.flight_dispatch {x : State NetMessage Memory}
    {front back : List (TimerContainer NetMessage)} (inv : Inv N x) (port : w ∈ N.ports)
    (split : x.sys.timerQueue = front ++ c :: back)
    (least : ∀ c' ∈ x.sys.timerQueue, c.key ≤ c'.key) :
    N.flight hop w x.sys.timerQueue = N.flight hop w [c] ++ N.flight hop w (front ++ back) :=
  (carried_dispatch payload (inv.hops w port hop) split least inv.sound.sorted).symm

/-! ## Where the switch sends the frames -/

theorem not_broadcast (unicast : mac[0].toNat % 2 = 0) :
    NetworkUtil.arrayToUINT64 mac ≠ NetworkUtil.arrayToUINT64 Mac.broadcast := by
  rw [ne_eq, NetworkUtil.arrayToUINT64_inj (by decide)]
  rintro rfl
  exact absurd unicast (by decide)

/-- A frame for an address that is registered only at `q` gets into the queue of
`q` once. -/
theorem count_targets {m : Memory} (wired : Wired N m) (egress : q ∈ N.ports)
    (different : p ≠ q) (unicast : mac[0].toNat % 2 = 0)
    (only : ∀ w ∈ N.ports, NetworkUtil.arrayToUINT64 mac ∈ N.mac_table w ↔ w = q) :
    ((m.switch.targets p (NetworkUtil.arrayToUINT64 mac)).map Prod.fst).count q = 1 := by
  have chosen : ∀ w ∈ N.ports,
      (m.switch.registered p (NetworkUtil.arrayToUINT64 mac) w = true ↔ w = q) := by
    intro w port
    have table := only w port
    rw [← wired.table] at table
    constructor
    · intro registered
      simp only [Switch.registered, not_broadcast unicast, decide_false, Bool.false_or,
        Bool.and_eq_true, decide_eq_true_eq] at registered
      exact table.mp registered.2
    · rintro rfl
      simp [Switch.registered, different, table.mpr rfl]
  have listed : ∃ entry ∈ m.switch.ports.zipIdx, entry.1 = q := by
    rw [← wired.ports] at egress
    rw [← List.zipIdx_map_fst 0 m.switch.ports, List.mem_map] at egress
    exact egress
  have found : m.switch.ports.zipIdx.any
      (fun entry => m.switch.registered p (NetworkUtil.arrayToUINT64 mac) entry.1) = true := by
    obtain ⟨entry, member, rfl⟩ := listed
    exact List.any_eq_true.mpr ⟨entry, member, (chosen _ egress).mpr rfl⟩
  -- `q` is found, so that the frame is not flooded
  rw [Switch.targets, if_pos found]
  have first : (m.switch.ports.zipIdx.filter fun entry =>
        m.switch.registered p (NetworkUtil.arrayToUINT64 mac) entry.1).map Prod.fst =
      m.switch.ports.filter (m.switch.registered p (NetworkUtil.arrayToUINT64 mac)) := by
    conv_rhs => rw [← List.zipIdx_map_fst 0 m.switch.ports, List.filter_map]
    rfl
  rw [first, List.count_filter ((chosen q egress).mpr rfl), wired.ports]
  exact List.count_eq_one_of_mem N.nodup egress

/-- The switch puts a frame of the route into the queue of `q` once, and no other. -/
theorem onRoute_enqueued {m : Memory} {mac' : Mac} {link' : Link} {now : ℕ} (wired : Wired N m)
    (egress : q ∈ N.ports) (different : p ≠ q) (unicast : mac[0].toNat % 2 = 0)
    (only : ∀ w ∈ N.ports, NetworkUtil.arrayToUINT64 mac ∈ N.mac_table w ↔ w = q)
    (origin : packet.origin = w) (bytes : mac'.toList = packet.buffer.take 6)
    (enqueued : Switch.Enqueued now packet
      (m.switch.targets w (NetworkUtil.arrayToUINT64 mac')) m.switch.link link' sends) :
    onRoute p mac (link'.outputQueue q) =
      onRoute p mac (m.switch.link.outputQueue q) ++
        onRoute p mac (if p = w then [packet] else []) := by
  rw [enqueued.queue q, onRoute_append]
  congr 1
  by_cases chosen : packet.origin = p ∧ packet.buffer.take 6 = mac.toList
  · obtain ⟨from_p, address⟩ := chosen
    obtain rfl : w = p := origin.symm.trans from_p
    obtain rfl : mac' = mac := Vector.toList_inj.mp (bytes.trans address)
    rw [count_targets wired egress different unicast only, if_pos rfl]
    rfl
  · rw [onRoute_replicate_eq_nil chosen]
    split
    · exact (onRoute_replicate_eq_nil (n := 1) chosen).symm
    · rfl

/-- What a wire hands to its host is delivered, if it is on the route. -/
theorem delivered_toHost (source : c.source = w) (target : c.target = N.hostOf w)
    (message : c.message = .packetFromPort packet) :
    (N.delivered p q mac (.received c sends)).toList =
      onRoute p mac (if q = w then [packet] else []) := by
  by_cases same : q = w
  · subst same
    simp only [delivered, message, source, target, and_self, true_and, if_true, onRoute]
    by_cases chosen : packet.origin = p ∧ packet.buffer.take 6 = mac.toList
    · simp [chosen]
    · simp [chosen]
  · simp [delivered, message, source, Ne.symm same, same]

/-! ## Every step moves the pipeline -/

variable {x y : State NetMessage Memory} {front back : List (TimerContainer NetMessage)}
  {m' : Memory} {address uuid : ℕ}

/-- A dispatch delivers the frame at the head of the pipeline, or moves a frame from
one stage to the next, or does nothing to the frames of the route. -/
theorem Inv.underway_dispatch (inv : Inv N x) (fits : TimeFits O x.memory c) (ingress : p ∈ N.ports)
    (egress : q ∈ N.ports) (different : p ≠ q) (unicast : mac[0].toNat % 2 = 0)
    (only : ∀ w ∈ N.ports, NetworkUtil.arrayToUINT64 mac ∈ N.mac_table w ↔ w = q)
    (split : x.sys.timerQueue = front ++ c :: back)
    (least : ∀ c' ∈ x.sys.timerQueue, c.key ≤ c'.key)
    (handled : Handled N O.quotient x.memory c m' sends) (memory : y.memory = m')
    (queue : y.sys.timerQueue = front ++ back ++ stamp c.wakeup address uuid sends) :
    N.underway p q mac x =
      (N.delivered p q mac (.received c sends)).toList ++ N.underway p q mac y := by
  have before : ∀ hop, ∀ w ∈ N.ports, N.flight hop w x.sys.timerQueue =
      N.flight hop w [c] ++ N.flight hop w (front ++ back) :=
    fun hop w port => inv.flight_dispatch port split least
  have after : ∀ hop w, N.flight hop w y.sys.timerQueue =
      N.flight hop w (front ++ back) ++ N.flight hop w (stamp c.wakeup address uuid sends) := by
    intro hop w
    rw [queue, flight_append]
  -- a stage gives its first frame to the next one; everything else is the same list
  cases handled with
  | fromHost w packet delay busy port origin six source target message =>
    have left : ∀ hop, ∀ v ∈ N.ports, N.flight hop v [c] =
        if hop = .fromHost ∧ v = w then [packet] else [] := fun hop v port' =>
      @flight_singleton N v w hop .fromHost c packet port' port source target (by rw [message]; rfl)
    have joined : ∀ hop, ∀ v ∈ N.ports, N.flight hop v (stamp c.wakeup address uuid
        [⟨w, N.switch, .packetFromPort packet, delay⟩]) =
        if hop = .toSwitch ∧ v = w then [packet] else [] := fun hop v port' =>
      @flight_singleton N v w hop .toSwitch _ packet port' port rfl rfl rfl
    simp only [underway, before _ q egress, before _ p ingress, after, left _ q egress,
      left _ p ingress, joined _ q egress, joined _ p ingress, memory, onRoute_append,
      delivered, message, reduceCtorEq, false_and, true_and, if_false]
    simp
  | fromSwitch w packet delay busy port source target message =>
    have left : ∀ hop, ∀ v ∈ N.ports, N.flight hop v [c] =
        if hop = .fromSwitch ∧ v = w then [packet] else [] := fun hop v port' =>
      @flight_singleton N v w hop .fromSwitch c packet port' port source target
        (by rw [message]; rfl)
    have joined : ∀ hop, ∀ v ∈ N.ports, N.flight hop v (stamp c.wakeup address uuid
        [⟨w, N.hostOf w, .packetFromPort packet, delay⟩]) =
        if hop = .toHost ∧ v = w then [packet] else [] := fun hop v port' =>
      @flight_singleton N v w hop .toHost _ packet port' port rfl rfl rfl
    simp only [underway, before _ q egress, before _ p ingress, after, left _ q egress,
      left _ p ingress, joined _ q egress, joined _ p ingress, memory, onRoute_append,
      delivered, message, reduceCtorEq, false_and, true_and, if_false]
    simp
  | toSwitch w packet mac' link' _ port origin source target message bytes enqueued =>
    have left : ∀ hop, ∀ v ∈ N.ports, N.flight hop v [c] =
        if hop = .toSwitch ∧ v = w then [packet] else [] := fun hop v port' =>
      @flight_singleton N v w hop .toSwitch c packet port' port source target (by rw [message]; rfl)
    have joined : ∀ hop v, N.flight hop v (stamp c.wakeup address uuid sends) = [] := by
      intro hop v
      refine flight_stamp_eq_nil fun send member => ?_
      obtain ⟨-, -, port, -, check⟩ := enqueued.checks send member
      rw [check]
      rfl
    have copied := onRoute_enqueued inv.wired egress different unicast only origin bytes enqueued
    simp only [underway, before _ q egress, before _ p ingress, after, left _ q egress,
      left _ p ingress, joined, memory, copied, onRoute_append, reduceCtorEq, false_and, true_and,
      if_false]
    -- the switch is not the host behind `q`
    have not_host : ¬ (c.source = q ∧ c.target = N.hostOf q) := fun both =>
      N.host_ne_switch q egress (both.2.symm.trans target)
    simp [delivered, message, not_host]
  | check w link' _ port source target message transmitted =>
    obtain ⟨packet, rest, delay, head, -, rfl, rfl, -⟩ :=
      inv.transmission fits split target message transmitted
    have left : ∀ hop v, N.flight hop v [c] = [] := fun _ _ =>
      flight_of_payload_eq_none (by rw [message]; rfl)
    have joined : ∀ hop, ∀ v ∈ N.ports, N.flight hop v (stamp c.wakeup address uuid
        (Link.transmission N.switch w packet delay rest)) =
        if hop = .fromSwitch ∧ v = w then [packet] else [] := fun hop v port' =>
      flight_transmission port port'
    have queued : x.memory.switch.link.outputQueue q = (if q = w then [packet] else []) ++
        Function.update x.memory.switch.link.outputQueue w rest q := by
      by_cases same : q = w
      · rw [if_pos same, same, Function.update_self, head]
        rfl
      · rw [if_neg same, Function.update_of_ne same]
        rfl
    simp only [underway, before _ q egress, before _ p ingress, after, left, joined _ q egress,
      joined _ p ingress, memory, queued, onRoute_append,
      delivered, message, reduceCtorEq, false_and, true_and, if_false]
    simp
  | toHost w packet port source target message =>
    have left : ∀ hop, ∀ v ∈ N.ports, N.flight hop v [c] =
        if hop = .toHost ∧ v = w then [packet] else [] := fun hop v port' =>
      @flight_singleton N v w hop .toHost c packet port' port source target (by rw [message]; rfl)
    have joined : ∀ hop v, N.flight hop v (stamp c.wakeup address uuid []) = [] :=
      fun _ _ => rfl
    simp only [underway, before _ q egress, before _ p ingress, after, left _ q egress,
      left _ p ingress, joined, memory, onRoute_append, reduceCtorEq, false_and, true_and, if_false]
    rw [delivered_toHost source target message]
    simp
  | other source message =>
    have left : ∀ hop v, N.flight hop v [c] = [] := fun _ _ =>
      flight_of_payload_eq_none (by rw [message]; rfl)
    have joined : ∀ hop v, N.flight hop v (stamp c.wakeup address uuid []) = [] :=
      fun _ _ => rfl
    simp only [underway, before _ q egress, before _ p ingress, after, left, joined, memory,
      delivered, message]
    simp

/-- A frame that a host sends joins the pipeline at its end. -/
theorem underway_act {call : Call} {now : ℕ} (ingress : p ∈ N.ports) (egress : q ∈ N.ports)
    (called : Called N call sends) (memory : y.memory = x.memory)
    (queue : y.sys.timerQueue = x.sys.timerQueue ++ stamp now address uuid sends) :
    N.underway p q mac y =
      N.underway p q mac x ++ (sent p mac (.acted call now sends)).toList := by
  have after : ∀ hop w, N.flight hop w y.sys.timerQueue =
      N.flight hop w x.sys.timerQueue ++ N.flight hop w (stamp now address uuid sends) := by
    intro hop w
    rw [queue, flight_append]
  cases called with
  | sendFrame w frame port =>
    have joined : ∀ hop, ∀ v ∈ N.ports, N.flight hop v (stamp now address uuid
        [⟨N.hostOf w, w, .packetToPort ⟨frame, w⟩, 0⟩]) =
        if hop = .fromHost ∧ v = w then [⟨frame, w⟩] else [] := fun hop v port' =>
      @flight_singleton N v w hop .fromHost _ ⟨frame, w⟩ port' port rfl rfl rfl
    -- it joins the hop from the host behind `p`, if it is sent there and for this address
    have entered : onRoute p mac (if p = w then [⟨frame, w⟩] else []) =
        (sent p mac (.acted (.sendFrame w frame) now
          [⟨N.hostOf w, w, .packetToPort ⟨frame, w⟩, 0⟩])).toList := by
      by_cases same : p = w
      · subst same
        by_cases chosen : frame.take 6 = mac.toList
        · simp [sent, onRoute, chosen]
        · simp [sent, onRoute, chosen]
      · simp [sent, same, Ne.symm same]
    simp only [underway, after, joined _ q egress, joined _ p ingress, memory, onRoute_append,
      reduceCtorEq, false_and, true_and, if_false, entered]
    simp
  | hostMessage host timeAfter =>
    have joined : ∀ hop v, N.flight hop v (stamp now address uuid
        [⟨host, host, .other, timeAfter⟩]) = [] := fun _ _ =>
      flight_stamp_eq_nil (by simp [payload])
    simp only [underway, after, joined, memory, sent]
    simp

/-! ## Runs -/

/-- What has been delivered and what is underway is what was sent. -/
def Piped (N : Star) (p q : ℕ) (mac : Mac) (log : List (Record NetMessage Call))
    (x : State NetMessage Memory) : Prop :=
  log.filterMap (N.delivered p q mac) ++ N.underway p q mac x = log.filterMap (sent p mac)

variable {input : Input Call} {log new : List (Record NetMessage Call)}

theorem Piped.step (piped : N.Piped p q mac log x) (inv : Inv N x) (ingress : p ∈ N.ports)
    (egress : q ∈ N.ports) (different : p ≠ q) (unicast : mac[0].toNat % 2 = 0)
    (only : ∀ w ∈ N.ports, NetworkUtil.arrayToUINT64 mac ∈ N.mac_table w ↔ w = q)
    (allowed : N.Allowed O x input) (h : (N.modules O).machine.step x input = some (y, new)) :
    N.Piped p q mac (log ++ new) y := by
  obtain ⟨noWrap, times, -⟩ := allowed
  obtain ⟨effect, -⟩ := effect_of_step inv.sound noWrap h
  rw [Piped] at piped ⊢
  cases effect with
  | act call memory sends address y handled memory_eq clock queue =>
    obtain ⟨rfl, called⟩ := called_of_act handled
    have joined : N.underway p q mac y = N.underway p q mac x ++ _ :=
      underway_act ingress egress called memory_eq queue
    rw [List.filterMap_append, List.filterMap_append, joined, ← piped]
    cases happened : sent p mac (.acted call x.sys.currentTime sends) with
    | none => simp [delivered, happened]
    | some frame => simp [delivered, happened]
  | dispatch c front back memory sends address y split least handled memory_eq clock queue =>
    have member : c ∈ x.sys.timerQueue := by simp [split]
    obtain ⟨sys, pop⟩ := popTimer_of_dispatch h
    have fits := times rfl _ pop
    have handled := handled_of_receive inv.wired (inv.kinds c member) fits handled
    have moved := inv.underway_dispatch fits ingress egress different unicast only split least
      handled memory_eq queue
    rw [List.filterMap_append, List.filterMap_append, ← piped, moved]
    cases happened : N.delivered p q mac (.received c sends) with
    | none => simp [sent, happened]
    | some frame => simp [sent, happened]

theorem piped_of_run (ingress : p ∈ N.ports) (egress : q ∈ N.ports) (different : p ≠ q)
    (unicast : mac[0].toNat % 2 = 0)
    (only : ∀ w ∈ N.ports, NetworkUtil.arrayToUINT64 mac ∈ N.mac_table w ↔ w = q)
    {inputs : List (Input Call)}
    (run : (N.modules O).machine.Run (N.Allowed O) N.start inputs log x) :
    Inv N x ∧ N.Piped p q mac log x := by
  refine run.invariant (fun log x => Inv N x ∧ N.Piped p q mac log x) ⟨inv_start, rfl⟩ ?_
  rintro log x input y new ⟨inv, piped⟩ allowed step
  exact ⟨inv.step allowed step,
    piped.step inv ingress egress different unicast only allowed step⟩

/-- Nothing is underway when no message is in flight: a non-empty output queue has
a check in flight. -/
theorem Inv.underway_eq_nil (inv : Inv N x) (idle : x.sys.timerQueue = []) :
    N.underway p q mac x = [] := by
  have empty : x.memory.switch.link.outputQueue q = [] := by
    by_contra busy
    obtain ⟨c, one, -⟩ := (inv.paired q).busy busy
    rw [idle] at one
    simp [Link.checks] at one
  simp [underway, idle, empty, flight, carried]

/-- Frames to a unicast address registered only at port `q` are delivered to the
host behind it in the order in which the host behind `p` sent them, each once and
with all its bytes; when no message is in flight, all have been delivered. No
handler ever fails. -/
theorem delivered_prefix_sent (N : Star) (O : Oracle) {p q : ℕ} {mac : Mac}
    (ingress : p ∈ N.ports) (egress : q ∈ N.ports) (different : p ≠ q)
    (unicast : mac[0].toNat % 2 = 0)
    (only : ∀ w ∈ N.ports, NetworkUtil.arrayToUINT64 mac ∈ N.mac_table w ↔ w = q)
    {inputs : List (Input Call)} {log : List (Record NetMessage Call)}
    {x : State NetMessage Memory}
    (run : (N.modules O).machine.Run (N.Allowed O) N.start inputs log x) :
    log.filterMap (N.delivered p q mac) <+: log.filterMap (sent p mac) ∧
    (x.sys.timerQueue = [] →
      log.filterMap (N.delivered p q mac) = log.filterMap (sent p mac)) ∧
    (x.sys.timerQueue ≠ [] → N.Allowed O x .dispatch →
      ((N.modules O).machine.step x .dispatch).isSome) := by
  obtain ⟨inv, piped⟩ := piped_of_run ingress egress different unicast only run
  refine ⟨?_, ?_, inv.dispatch_isSome⟩
  · rw [← piped]
    exact List.prefix_append _ _
  · intro idle
    rw [← piped, inv.underway_eq_nil idle, List.append_nil]

/-! Two hosts behind the ports 1 and 2 of switch 5. -/

/-- Transmission takes no time, and the address `02:00:00:00:00:07` is behind port 2. -/
def pair : Star where
  switch := 5
  ports := [1, 2]
  hostOf w := w + 10
  hostFirst _ := true
  propagationDelay _ := 3
  wireBps _ := 0
  limit_speed _ := true
  switchBps := 0
  mac_table w := if w = 2 then [NetworkUtil.arrayToUINT64 #v[2, 0, 0, 0, 0, 7]] else []
  nodup := by decide
  switch_ne := by decide
  switch_not_wire := by decide
  host_ne := by decide
  host_ne_switch := by decide
  host_not_wire := by decide

def pairOracle : Oracle where
  quotient _ _ := 0
  junk _ _ := 0
  choices _ := ⟨fun _ => false, fun _ => 0⟩

/-- One frame, from the first host to the second. -/
def pairInputs : List (Input Call) :=
  .act (.sendFrame 1 [2, 0, 0, 0, 0, 7, 42]) :: List.replicate 5 .dispatch

theorem delivered_prefix_sent_pair :
    ∃ log x, (pair.modules pairOracle).machine.Run (pair.Allowed pairOracle) pair.start pairInputs
        log x ∧
      log.filterMap (pair.delivered 1 2 #v[2, 0, 0, 0, 0, 7]) = [[2, 0, 0, 0, 0, 7, 42]] ∧
      log.filterMap (pair.delivered 1 2 #v[2, 0, 0, 0, 0, 7]) <+:
        log.filterMap (sent 1 #v[2, 0, 0, 0, 0, 7]) := by
  have defined : ((pair.modules pairOracle).machine.execIf (pair.Allowed pairOracle) pair.start
      pairInputs).isSome := by decide
  have outcome : ((pair.modules pairOracle).machine.execIf (pair.Allowed pairOracle) pair.start
      pairInputs).map (fun r => r.2.filterMap (pair.delivered 1 2 #v[2, 0, 0, 0, 0, 7])) =
      some [[2, 0, 0, 0, 0, 7, 42]] := by decide
  obtain ⟨⟨x, log⟩, value⟩ := Option.isSome_iff_exists.mp defined
  rw [value, Option.map_some, Option.some.injEq] at outcome
  have run := Machine.Run.of_execIf value
  exact ⟨log, x, run, outcome, (delivered_prefix_sent pair pairOracle (by decide) (by decide)
    (by decide) (by decide) (by decide) run).1⟩

end Kens.Star
