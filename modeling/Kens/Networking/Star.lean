/-
# A star network

Hosts attached by wires to one switch. A frame passes from its host to the wire,
from the wire to the switch, waits in an output queue, and passes from the switch
to the next wire and from there to the other host. What hosts do is arbitrary:
they send frames and messages to themselves at any time.
-/

import Mathlib
import Kens.Networking.Switch
import Kens.Networking.Wire

namespace Kens

open Semantics Reactive

/-- The modules of a star and their constant settings. Wires are named by their
module id; `hostFirst` tells which end of a wire is the host's. -/
structure Star where
  switch : ℕ
  ports : List ℕ
  hostOf : ℕ → ℕ
  hostFirst : ℕ → Bool
  propagationDelay : ℕ → ℕ
  wireBps : ℕ → ℕ
  limit_speed : ℕ → Bool
  switchBps : ℕ
  mac_table : ℕ → List ℕ
  nodup : ports.Nodup
  switch_ne : switch ≠ 0
  switch_not_wire : switch ∉ ports
  host_ne : ∀ w ∈ ports, hostOf w ≠ 0
  host_ne_switch : ∀ w ∈ ports, hostOf w ≠ switch
  host_not_wire : ∀ w ∈ ports, hostOf w ∉ ports

namespace Star

/-- The memory of the switch and of the wires. -/
structure Memory where
  switch : Switch
  wires : ℕ → Wire

/-- What hosts do: send a frame on a wire, or send themselves a message. A message
that a host cancels is one that it ignores. -/
inductive Call
  | sendFrame (wire : ℕ) (frame : List UInt8)
  | hostMessage (host timeAfter : ℕ)

/-- What the model leaves open: floating-point quotients, uninitialised memory
and random choices. -/
structure Oracle where
  quotient : ℕ → ℕ → ℕ
  junk : Junk
  choices : TimerContainer NetMessage → Choices

/-- The end of a wire at the switch, and the one at the host. -/
def switchEnd (N : Star) (w : ℕ) : Fin 2 := if N.hostFirst w then Wire.right else Wire.left

def hostEnd (N : Star) (w : ℕ) : Fin 2 := if N.hostFirst w then Wire.left else Wire.right

/-- A wire before anything has happened. -/
def wireStart (N : Star) (w : ℕ) : Wire where
  id := w
  connected := if N.hostFirst w then ![N.hostOf w, N.switch] else ![N.switch, N.hostOf w]
  propagationDelay := N.propagationDelay w
  bps := N.wireBps w
  limit_speed := N.limit_speed w

def start (N : Star) : State NetMessage Memory where
  sys := {}
  memory :=
    { switch :=
        { link := { id := N.switch, bps := N.switchBps }
          ports := N.ports
          mac_table := N.mac_table }
      wires := N.wireStart }

/-- `messageReceived` of all modules. What a host does with a message is left to
its calls. -/
def modules (N : Star) (O : Oracle) : Reactive NetMessage Memory Call where
  receive m now c :=
    if c.target = N.switch then
      match c.message with
      | .checkQueue wireID =>
        (m.switch.link.checkQueue O.quotient now wireID).map fun r =>
          ({ m with switch := { m.switch with link := r.1 } }, r.2)
      | .packetToPort packet | .packetFromPort packet =>
        (m.switch.packetArrived O.junk (O.choices c) now c.source packet).map fun r =>
          ({ m with switch := r.1 }, r.2)
      | .other => some (m, [])
    else if c.target ∈ N.ports then
      ((m.wires c.target).messageReceived O.quotient now c.source c.message).map fun r =>
        ({ m with wires := Function.update m.wires c.target r.1 }, r.2)
    else some (m, [])
  act m _
    | .sendFrame wire frame =>
      if wire ∈ N.ports then
        some (m, [⟨N.hostOf wire, wire, .packetToPort ⟨frame, wire⟩, 0⟩])
      else none
    | .hostMessage host timeAfter =>
      if host ≠ N.switch ∧ host ∉ N.ports then some (m, [⟨host, host, .other, timeAfter⟩])
      else none

/-! ## Messages in flight -/

/-- The messages that occur in a star. -/
inductive Kind (N : Star) (source target : ℕ) (message : NetMessage) : Prop
  | fromHost (w : ℕ) (packet : Packet) (port : w ∈ N.ports) (origin : packet.origin = w)
      (six : 6 ≤ packet.getSize) (source_eq : source = N.hostOf w) (target_eq : target = w)
      (message_eq : message = .packetToPort packet)
  | toSwitch (w : ℕ) (packet : Packet) (port : w ∈ N.ports) (origin : packet.origin = w)
      (six : 6 ≤ packet.getSize) (source_eq : source = w) (target_eq : target = N.switch)
      (message_eq : message = .packetFromPort packet)
  | check (w : ℕ) (port : w ∈ N.ports) (source_eq : source = N.switch)
      (target_eq : target = N.switch) (message_eq : message = .checkQueue w)
  | fromSwitch (w : ℕ) (packet : Packet) (port : w ∈ N.ports) (source_eq : source = N.switch)
      (target_eq : target = w) (message_eq : message = .packetToPort packet)
  | toHost (w : ℕ) (packet : Packet) (port : w ∈ N.ports) (source_eq : source = w)
      (target_eq : target = N.hostOf w) (message_eq : message = .packetFromPort packet)
  | other (not_switch : target ≠ N.switch) (not_wire : target ∉ N.ports)
      (source_eq : source = target) (message_eq : message = .other)

/-- The four hops of a frame. -/
inductive Hop
  | fromHost | toSwitch | fromSwitch | toHost
deriving DecidableEq

namespace Hop

def source (N : Star) (w : ℕ) : Hop → ℕ
  | fromHost => N.hostOf w
  | toSwitch => w
  | fromSwitch => N.switch
  | toHost => w

def target (N : Star) (w : ℕ) : Hop → ℕ
  | fromHost => w
  | toSwitch => N.switch
  | fromSwitch => w
  | toHost => N.hostOf w

/-- No message on a hop is due later than this. -/
def bound (N : Star) (w : ℕ) (m : Memory) (now : ℕ) : Hop → ℕ
  | fromHost => now
  | toSwitch => (m.wires w).bound (N.switchEnd w) now
  | fromSwitch => m.switch.link.nextAvailable w
  | toHost => (m.wires w).bound (N.hostEnd w) now

end Hop

/-- Nothing wraps when a message is handled. -/
def TimeFits (O : Oracle) (m : Memory) (c : TimerContainer NetMessage) : Prop :=
  match c.message with
  | .checkQueue w => ∀ packet ∈ (m.switch.link.outputQueue w).head?,
      c.wakeup + transDelay O.quotient m.switch.link.bps packet.getSize < 2 ^ 64
  | .packetToPort packet => ∀ d ∈ (m.wires c.target).destination c.source,
      (m.wires c.target).Fits O.quotient c.wakeup packet d
  | .packetFromPort _ => True
  | .other => True

/-- Frames have a destination address. -/
def Addressed : Input Call → Prop
  | .act (.sendFrame _ frame) => 6 ≤ frame.length
  | _ => True

/-- No time and no UUID wraps, and frames have a destination address. -/
def Allowed (N : Star) (O : Oracle) (x : State NetMessage Memory) (input : Input Call) : Prop :=
  (N.modules O).NoWrap x input ∧
    (input = .dispatch → ∀ popped ∈ x.sys.popTimer, TimeFits O x.memory popped.1) ∧
    Addressed input

instance (O : Oracle) (m : Memory) (c : TimerContainer NetMessage) : Decidable (TimeFits O m c) :=
  match h : c.message with
  | .checkQueue w => decidable_of_iff (∀ packet ∈ (m.switch.link.outputQueue w).head?,
      c.wakeup + transDelay O.quotient m.switch.link.bps packet.getSize < 2 ^ 64)
        (by rw [TimeFits, h])
  | .packetToPort packet => decidable_of_iff
      (∀ d ∈ (m.wires c.target).destination c.source,
        (m.wires c.target).Fits O.quotient c.wakeup packet d) (by rw [TimeFits, h])
  | .packetFromPort _ => isTrue (by rw [TimeFits, h]; trivial)
  | .other => isTrue (by rw [TimeFits, h]; trivial)

instance : DecidablePred Addressed
  | .act (.sendFrame _ frame) => inferInstanceAs (Decidable (6 ≤ frame.length))
  | .act (.hostMessage _ _) => isTrue trivial
  | .dispatch => isTrue trivial

instance (N : Star) (O : Oracle) (x : State NetMessage Memory) : DecidablePred (N.Allowed O x)
  | .act call => decidable_of_iff
      ((N.modules O).NoWrap x (.act call) ∧ Addressed (.act call)) (by simp [Allowed])
  | .dispatch => decidable_of_iff ((N.modules O).NoWrap x .dispatch ∧
      ∀ popped ∈ x.sys.popTimer, TimeFits O x.memory popped.1) (by simp [Allowed, Addressed])

/-! ## Hops -/

variable {N : Star} {O : Oracle} {w v : ℕ} {hop hop' : Hop}

/-- Different hops are between different modules. -/
theorem Hop.unique (port : w ∈ N.ports) (port' : v ∈ N.ports)
    (source : hop.source N w = hop'.source N v) (target : hop.target N w = hop'.target N v) :
    hop = hop' ∧ w = v := by
  have not_wire : ∀ {w v}, w ∈ N.ports → v ∈ N.ports → N.hostOf w ≠ v :=
    fun port port' same => N.host_not_wire _ port (same ▸ port')
  have not_switch : ∀ {w}, w ∈ N.ports → w ≠ N.switch :=
    fun port same => N.switch_not_wire (same ▸ port)
  cases hop <;> cases hop' <;> simp only [Hop.source, Hop.target] at source target
  case fromHost.fromHost => exact ⟨rfl, target⟩
  case fromHost.toSwitch => exact absurd source (not_wire port port')
  case fromHost.fromSwitch => exact absurd source (N.host_ne_switch _ port)
  case fromHost.toHost => exact absurd source (not_wire port port')
  case toSwitch.fromHost => exact absurd source.symm (not_wire port' port)
  case toSwitch.toSwitch => exact ⟨rfl, source⟩
  case toSwitch.fromSwitch => exact absurd source (not_switch port)
  case toSwitch.toHost => exact absurd target.symm (N.host_ne_switch _ port')
  case fromSwitch.fromHost => exact absurd source.symm (N.host_ne_switch _ port')
  case fromSwitch.toSwitch => exact absurd source.symm (not_switch port')
  case fromSwitch.fromSwitch => exact ⟨rfl, target⟩
  case fromSwitch.toHost => exact absurd source.symm (not_switch port')
  case toHost.fromHost => exact absurd source.symm (not_wire port' port)
  case toHost.toSwitch => exact absurd target (N.host_ne_switch _ port)
  case toHost.fromSwitch => exact absurd source (not_switch port)
  case toHost.toHost => exact ⟨rfl, source⟩

/-- What a module sends to itself is on no hop. -/
theorem Hop.source_ne_target (port : w ∈ N.ports) : hop.source N w ≠ hop.target N w := by
  have not_switch : w ≠ N.switch := fun same => N.switch_not_wire (same ▸ port)
  have not_host : N.hostOf w ≠ w := fun same => N.host_not_wire w port (same.symm ▸ port)
  cases hop with
  | fromHost => exact not_host
  | toSwitch => exact not_switch
  | fromSwitch => exact not_switch.symm
  | toHost => exact not_host.symm

/-! ## Handlers -/

/-- The constant settings of the modules. -/
structure Wired (N : Star) (m : Memory) : Prop where
  ports : m.switch.ports = N.ports
  table : m.switch.mac_table = N.mac_table
  reliable : m.switch.unreliable = false
  id : m.switch.link.id = N.switch
  bps : m.switch.link.bps = N.switchBps
  unlimited : m.switch.link.max_queue_length = 0
  wire : ∀ w ∈ N.ports, (m.wires w).id = w ∧ (m.wires w).connected = (N.wireStart w).connected

theorem wired_start : Wired N N.start.memory where
  ports := rfl
  table := rfl
  reliable := rfl
  id := rfl
  bps := rfl
  unlimited := rfl
  wire _ _ := ⟨rfl, rfl⟩

variable {m m' : Memory} {now now' : ℕ} {c : TimerContainer NetMessage} {packet : Packet}
  {sends : List (Send NetMessage)}

/-- Which end is whose. -/
theorem Wired.ends (h : Wired N m) (port : w ∈ N.ports) :
    (m.wires w).connected (N.switchEnd w) = N.switch ∧
    (m.wires w).connected (N.hostEnd w) = N.hostOf w ∧
    (m.wires w).destination (N.hostOf w) = some (N.switchEnd w) ∧
    (m.wires w).destination N.switch = some (N.hostEnd w) := by
  have ne := N.host_ne_switch w port
  rw [Wire.destination, Wire.destination, (h.wire w port).2]
  cases first : N.hostFirst w with
  | true => simp [wireStart, switchEnd, hostEnd, first, ne]
  | false => simp [wireStart, switchEnd, hostEnd, first, ne.symm]

/-- A wire forwards a packet to its other end. -/
theorem receive_wire {d : Fin 2} (wired : Wired N m) (port : c.target ∈ N.ports)
    (message : c.message = .packetToPort packet)
    (destination : (m.wires c.target).destination c.source = some d)
    (connected : (m.wires c.target).connected d ≠ 0)
    (fits : (m.wires c.target).Fits O.quotient now packet d) :
    ∃ delay, (N.modules O).receive m now c =
        some ({ m with wires := Function.update m.wires c.target ((m.wires c.target).occupy d
            ((m.wires c.target).finish O.quotient now packet d)) },
          [⟨c.target, (m.wires c.target).connected d, .packetFromPort packet, delay⟩]) ∧
      (m.wires c.target).bound d now ≤ now + delay ∧
      now + delay = ((m.wires c.target).occupy d
        ((m.wires c.target).finish O.quotient now packet d)).bound d now := by
  obtain ⟨delay, value, low, high⟩ := Wire.messageReceived_eq destination connected fits
  refine ⟨delay, ?_, low, high⟩
  have not_switch : c.target ≠ N.switch := fun same => N.switch_not_wire (same ▸ port)
  dsimp only [modules]
  rw [if_neg not_switch, if_pos port, message, value, (wired.wire _ port).1]
  rfl

/-- The switch puts a frame into the queues of its targets. -/
theorem receive_frame (wired : Wired N m) (target : c.target = N.switch)
    (message : c.message = .packetFromPort packet) (six : 6 ≤ packet.getSize) :
    ∃ (mac : Mac) (link' : Link) (new : List (Send NetMessage)),
      mac.toList = packet.buffer.take 6 ∧
      (N.modules O).receive m now c =
        some ({ m with switch := { m.switch with link := link' } }, new) ∧
      Switch.Enqueued now packet (m.switch.targets c.source (NetworkUtil.arrayToUINT64 mac))
        m.switch.link link' new := by
  obtain ⟨mac, bytes, value⟩ : ∃ mac : Mac, mac.toList = packet.buffer.take 6 ∧
      m.switch.packetArrived O.junk (O.choices c) now c.source packet = _ :=
    Switch.packetArrived_eq wired.reliable six
  obtain ⟨link', new, enqueued_eq, enqueued⟩ := Switch.foldlM_enqueue wired.unlimited
    (m.switch.targets c.source (NetworkUtil.arrayToUINT64 mac))
  refine ⟨mac, link', new, bytes, ?_, enqueued⟩
  rw [enqueued_eq] at value
  dsimp only [modules]
  rw [if_pos target, message]
  dsimp only
  rw [value]
  rfl

/-- A check transmits the first packet of its queue. -/
theorem receive_check {m' : Memory} (target : c.target = N.switch)
    (message : c.message = .checkQueue w)
    (handled : (N.modules O).receive m now c = some (m', sends)) :
    ∃ link', m.switch.link.checkQueue O.quotient now w = some (link', sends) ∧
      m' = { m with switch := { m.switch with link := link' } } := by
  dsimp only [modules] at handled
  rw [if_pos target, message] at handled
  dsimp only at handled
  obtain ⟨⟨link', sends'⟩, value, same⟩ := Option.map_eq_some_iff.mp handled
  obtain ⟨rfl, rfl⟩ : _ = m' ∧ sends' = sends := by simpa using same
  exact ⟨link', value, rfl⟩

/-- A host's handler touches neither switch nor wires. -/
theorem receive_host (not_switch : c.target ≠ N.switch) (not_wire : c.target ∉ N.ports) :
    (N.modules O).receive m now c = some (m, []) := by
  dsimp only [modules]
  rw [if_neg not_switch, if_neg not_wire]

/-- What the handler of a message in flight does. A wire forwards the packet to
its other end and is busy for some time; the switch puts a frame into output
queues; a check starts a transmission; hosts do nothing of their own. -/
inductive Handled (N : Star) (quotient : ℕ → ℕ → ℕ) (m : Memory) (c : TimerContainer NetMessage) :
    Memory → List (Send NetMessage) → Prop
  | fromHost (w : ℕ) (packet : Packet) (delay busy : ℕ) (port : w ∈ N.ports)
      (origin : packet.origin = w) (six : 6 ≤ packet.getSize)
      (source : c.source = N.hostOf w) (target : c.target = w)
      (message : c.message = .packetToPort packet)
      (later : (m.wires w).nextAvailable (N.switchEnd w) ≤ busy)
      (low : (m.wires w).bound (N.switchEnd w) c.wakeup ≤ c.wakeup + delay)
      (high : c.wakeup + delay =
        ((m.wires w).occupy (N.switchEnd w) busy).bound (N.switchEnd w) c.wakeup) :
      Handled N quotient m c
        { m with wires := Function.update m.wires w ((m.wires w).occupy (N.switchEnd w) busy) }
        [⟨w, N.switch, .packetFromPort packet, delay⟩]
  | fromSwitch (w : ℕ) (packet : Packet) (delay busy : ℕ) (port : w ∈ N.ports)
      (source : c.source = N.switch) (target : c.target = w)
      (message : c.message = .packetToPort packet)
      (later : (m.wires w).nextAvailable (N.hostEnd w) ≤ busy)
      (low : (m.wires w).bound (N.hostEnd w) c.wakeup ≤ c.wakeup + delay)
      (high : c.wakeup + delay =
        ((m.wires w).occupy (N.hostEnd w) busy).bound (N.hostEnd w) c.wakeup) :
      Handled N quotient m c
        { m with wires := Function.update m.wires w ((m.wires w).occupy (N.hostEnd w) busy) }
        [⟨w, N.hostOf w, .packetFromPort packet, delay⟩]
  | toSwitch (w : ℕ) (packet : Packet) (mac : Mac) (link' : Link) (new : List (Send NetMessage))
      (port : w ∈ N.ports) (origin : packet.origin = w)
      (source : c.source = w) (target : c.target = N.switch)
      (message : c.message = .packetFromPort packet)
      (bytes : mac.toList = packet.buffer.take 6)
      (enqueued : Switch.Enqueued c.wakeup packet
        (m.switch.targets w (NetworkUtil.arrayToUINT64 mac)) m.switch.link link' new) :
      Handled N quotient m c { m with switch := { m.switch with link := link' } } new
  | check (w : ℕ) (link' : Link) (new : List (Send NetMessage)) (port : w ∈ N.ports)
      (source : c.source = N.switch) (target : c.target = N.switch)
      (message : c.message = .checkQueue w)
      (transmitted : m.switch.link.checkQueue quotient c.wakeup w = some (link', new)) :
      Handled N quotient m c { m with switch := { m.switch with link := link' } } new
  | toHost (w : ℕ) (packet : Packet) (port : w ∈ N.ports)
      (source : c.source = w) (target : c.target = N.hostOf w)
      (message : c.message = .packetFromPort packet) : Handled N quotient m c m []
  | other (source : c.source = c.target) (message : c.message = .other) :
      Handled N quotient m c m []

theorem handled_of_receive (wired : Wired N m)
    (kind : Kind N c.source c.target c.message)
    (fits : TimeFits O m c)
    (handled : (N.modules O).receive m c.wakeup c = some (m', sends)) :
    Handled N O.quotient m c m' sends := by
  -- each kind of message has its handler
  cases kind with
  | fromHost w packet port origin six source_eq target_eq message_eq =>
    subst target_eq
    obtain ⟨to_switch, -, destination, -⟩ := wired.ends port
    rw [← source_eq] at destination
    rw [TimeFits, message_eq] at fits
    obtain ⟨delay, value, low, high⟩ := receive_wire wired port message_eq destination
      (by rw [to_switch]; exact N.switch_ne) (fits _ destination)
    rw [value, to_switch] at handled
    obtain ⟨rfl, rfl⟩ : _ = m' ∧ _ = sends := by simpa using handled
    exact .fromHost _ packet delay _ port origin six source_eq rfl message_eq
      (le_trans (le_max_right _ _) (Nat.le_add_right _ _)) low high
  | fromSwitch w packet port source_eq target_eq message_eq =>
    subst target_eq
    obtain ⟨-, to_host, -, destination⟩ := wired.ends port
    rw [← source_eq] at destination
    rw [TimeFits, message_eq] at fits
    obtain ⟨delay, value, low, high⟩ := receive_wire wired port message_eq destination
      (by rw [to_host]; exact N.host_ne _ port) (fits _ destination)
    rw [value, to_host] at handled
    obtain ⟨rfl, rfl⟩ : _ = m' ∧ _ = sends := by simpa using handled
    exact .fromSwitch _ packet delay _ port source_eq rfl message_eq
      (le_trans (le_max_right _ _) (Nat.le_add_right _ _)) low high
  | toSwitch w packet port origin six source_eq target_eq message_eq =>
    obtain ⟨mac, link', new, bytes, value, enqueued⟩ :=
      receive_frame wired target_eq message_eq six
    rw [value] at handled
    obtain ⟨rfl, rfl⟩ : _ = m' ∧ new = sends := by simpa using handled
    rw [source_eq] at enqueued
    exact .toSwitch w packet mac link' new port origin source_eq target_eq message_eq bytes enqueued
  | check w port source_eq target_eq message_eq =>
    obtain ⟨link', value, rfl⟩ := receive_check target_eq message_eq handled
    exact .check w link' sends port source_eq target_eq message_eq value
  | toHost w packet port source_eq target_eq message_eq =>
    rw [receive_host (target_eq ▸ N.host_ne_switch w port) (target_eq ▸ N.host_not_wire w port)]
      at handled
    obtain ⟨rfl, rfl⟩ : m = m' ∧ [] = sends := by simpa using handled
    exact .toHost w packet port source_eq target_eq message_eq
  | other not_switch not_wire source_eq message_eq =>
    rw [receive_host not_switch not_wire] at handled
    obtain ⟨rfl, rfl⟩ : m = m' ∧ [] = sends := by simpa using handled
    exact .other source_eq message_eq

/-! ## Progress along the hops -/

/-- What every step does to the hops: bounds grow, and a new message on a hop is
due between the old and the new bound. -/
structure Advance (N : Star) (m m' : Memory) (now now' : ℕ) (sends : List (Send NetMessage)) :
    Prop where
  wired : Wired N m'
  kinds : ∀ send ∈ sends, Kind N send.source send.target send.message
  grows : ∀ w ∈ N.ports, ∀ hop : Hop, hop.bound N w m now ≤ hop.bound N w m' now'
  late : ∀ w ∈ N.ports, ∀ hop : Hop, ∀ send ∈ sends,
    sendOn (hop.source N w) (hop.target N w) send = true →
    hop.bound N w m now ≤ now' + send.timeAfter ∧ now' + send.timeAfter ≤ hop.bound N w m' now'
  single : ∀ w ∈ N.ports, ∀ hop : Hop,
    (sends.filter (sendOn (hop.source N w) (hop.target N w))).length ≤ 1

/-- Sends of a module to itself are on no hop. -/
theorem filter_self_eq_nil (port : w ∈ N.ports)
    (self : ∀ send ∈ sends, send.source = send.target) :
    sends.filter (sendOn (hop.source N w) (hop.target N w)) = [] := by
  rw [List.filter_eq_nil_iff]
  intro send member on
  obtain ⟨source, target⟩ := sendOn_iff.mp on
  exact Hop.source_ne_target port (source.symm.trans ((self send member).trans target))

/-- A step that sends nothing between modules. -/
theorem advance_self (wired : Wired N m')
    (kinds : ∀ send ∈ sends, Kind N send.source send.target send.message)
    (self : ∀ send ∈ sends, send.source = send.target)
    (grows : ∀ w ∈ N.ports, ∀ hop : Hop, hop.bound N w m now ≤ hop.bound N w m' now') :
    Advance N m m' now now' sends where
  wired := wired
  kinds := kinds
  grows := grows
  late w port hop send member on := by
    have none : sends.filter (sendOn (hop.source N w) (hop.target N w)) = [] :=
      filter_self_eq_nil port self
    exact absurd on (List.filter_eq_nil_iff.mp none send member)
  single w port hop := by
    rw [filter_self_eq_nil port self]
    exact Nat.zero_le _

/-- A step that sends one message on a hop. -/
theorem advance_hop {send : Send NetMessage} {rest : List (Send NetMessage)}
    (wired : Wired N m') (port : v ∈ N.ports)
    (kind : Kind N send.source send.target send.message)
    (source : send.source = hop'.source N v) (target : send.target = hop'.target N v)
    (kinds : ∀ send ∈ rest, Kind N send.source send.target send.message)
    (self : ∀ send ∈ rest, send.source = send.target)
    (grows : ∀ w ∈ N.ports, ∀ hop : Hop, hop.bound N w m now ≤ hop.bound N w m' now')
    (low : hop'.bound N v m now ≤ now' + send.timeAfter)
    (high : now' + send.timeAfter ≤ hop'.bound N v m' now') :
    Advance N m m' now now' (send :: rest) where
  wired := wired
  kinds other member := by
    rw [List.mem_cons] at member
    rcases member with rfl | member
    · exact kind
    · exact kinds other member
  grows := grows
  late w port' hop other member on := by
    rw [List.mem_cons] at member
    rcases member with rfl | member
    · obtain ⟨source', target'⟩ := sendOn_iff.mp on
      obtain ⟨rfl, rfl⟩ := Hop.unique port' port (source'.symm.trans source)
        (target'.symm.trans target)
      exact ⟨low, high⟩
    · have none : rest.filter (sendOn (hop.source N w) (hop.target N w)) = [] :=
        filter_self_eq_nil port' self
      exact absurd on (List.filter_eq_nil_iff.mp none other member)
  single w port' hop := by
    rw [List.filter_cons, filter_self_eq_nil port' self]
    split
    · exact le_rfl
    · exact Nat.zero_le _

/-- Bounds only grow: the clock does, and so do the times up to which wires and
link are busy. -/
theorem Hop.bound_mono (later : now ≤ now')
    (wires : ∀ d, (m.wires w).bound d now' ≤ (m'.wires w).bound d now')
    (link : m.switch.link.nextAvailable w ≤ m'.switch.link.nextAvailable w) :
    hop.bound N w m now ≤ hop.bound N w m' now' := by
  cases hop with
  | fromHost => exact later
  | toSwitch => exact (Wire.bound_mono later).trans (wires _)
  | fromSwitch => exact link
  | toHost => exact (Wire.bound_mono later).trans (wires _)

/-- A wire that gets busy. -/
theorem Hop.bound_occupy {d : Fin 2} {busy : ℕ} (later : now ≤ now')
    (occupied : (m.wires v).nextAvailable d ≤ busy) :
    hop.bound N w m now ≤ hop.bound N w
      { m with wires := Function.update m.wires v ((m.wires v).occupy d busy) } now' := by
  refine Hop.bound_mono later (fun e => ?_) le_rfl
  by_cases same : w = v
  · subst same
    change _ ≤ (Function.update m.wires w ((m.wires w).occupy d busy) w).bound e now'
    rw [Function.update_self]
    exact Wire.bound_occupy occupied e
  · change _ ≤ (Function.update m.wires v ((m.wires v).occupy d busy) w).bound e now'
    rw [Function.update_of_ne same]

/-- A wire that gets busy keeps its settings. -/
theorem Wired.occupy {d : Fin 2} {busy : ℕ} (h : Wired N m) :
    Wired N { m with wires := Function.update m.wires v ((m.wires v).occupy d busy) } := by
  refine { h with wire := fun w port => ?_ }
  by_cases same : w = v
  · subst same
    change (Function.update m.wires w _ w).id = w ∧ (Function.update m.wires w _ w).connected = _
    rw [Function.update_self]
    exact h.wire w port
  · change (Function.update m.wires v _ w).id = w ∧ (Function.update m.wires v _ w).connected = _
    rw [Function.update_of_ne same]
    exact h.wire w port

/-- So does the link of the switch. -/
theorem Wired.relink {link' : Link} (h : Wired N m)
    (settings : link'.id = m.switch.link.id ∧ link'.bps = m.switch.link.bps ∧
      link'.max_queue_length = m.switch.link.max_queue_length) :
    Wired N { m with switch := { m.switch with link := link' } } where
  ports := h.ports
  table := h.table
  reliable := h.reliable
  id := settings.1.trans h.id
  bps := settings.2.1.trans h.bps
  unlimited := settings.2.2.trans h.unlimited
  wire := h.wire

/-- Frames are copied to ports of the switch only. -/
theorem mem_ports_of_mem_targets (wired : Wired N m) {mac_int : ℕ}
    (member : w ∈ (m.switch.targets v mac_int).map Prod.fst) : w ∈ N.ports := by
  obtain ⟨entry, listed, rfl⟩ := List.mem_map.mp member
  have indexed : entry ∈ m.switch.ports.zipIdx := by
    unfold Switch.targets at listed
    split at listed
    · exact List.mem_of_mem_filter listed
    · exact List.mem_of_mem_filter listed
  rw [← wired.ports]
  exact List.fst_mem_of_mem_zipIdx indexed

/-! ## The invariant -/

/-- What holds of the network between two steps. -/
structure Inv (N : Star) (x : State NetMessage Memory) : Prop where
  sound : Sound x.sys
  wired : Wired N x.memory
  kinds : ∀ c ∈ x.sys.timerQueue, Kind N c.source c.target c.message
  paired : ∀ port, x.memory.switch.link.OneCheck x.sys.timerQueue port
  hops : ∀ w ∈ N.ports, ∀ hop : Hop, Channel x.sys.timerQueue (hop.source N w) (hop.target N w)
    (hop.bound N w x.memory x.sys.currentTime)

theorem inv_start : Inv N N.start where
  sound := sound_start
  wired := wired_start
  kinds := by simp [start]
  paired port := ⟨fun _ => rfl, fun busy => absurd rfl busy⟩
  hops _ _ _ := ⟨List.Pairwise.nil, by simp [start]⟩

variable {x y : State NetMessage Memory} {front back : List (TimerContainer NetMessage)}

/-- The transmission that a check starts. -/
theorem Inv.transmission {link' : Link} {new : List (Send NetMessage)} (inv : Inv N x)
    (fits : TimeFits O x.memory c) (split : x.sys.timerQueue = front ++ c :: back)
    (target : c.target = N.switch) (message : c.message = .checkQueue w)
    (transmitted : x.memory.switch.link.checkQueue O.quotient c.wakeup w = some (link', new)) :
    ∃ packet rest delay, x.memory.switch.link.outputQueue w = packet :: rest ∧
      x.memory.switch.link.nextAvailable w ≤ c.wakeup ∧
      link' = { x.memory.switch.link with
        nextAvailable := Function.update x.memory.switch.link.nextAvailable w (c.wakeup + delay)
        outputQueue := Function.update x.memory.switch.link.outputQueue w rest } ∧
      new = Link.transmission N.switch w packet delay rest ∧
      ∀ address uuid port, link'.OneCheck
        (front ++ back ++ stamp c.wakeup address uuid new) port := by
  have check : Link.isCheck x.memory.switch.link.id w c = true :=
    Link.isCheck_iff.mpr ⟨target.trans inv.wired.id.symm, message⟩
  have small : ∀ packet rest, x.memory.switch.link.outputQueue w = packet :: rest →
      c.wakeup + transDelay O.quotient x.memory.switch.link.bps packet.getSize < 2 ^ 64 := by
    intro packet rest head
    rw [TimeFits, message] at fits
    exact fits packet (by rw [head]; rfl)
  obtain ⟨-, free, -⟩ := (inv.paired w).dispatched split check
  have kept : ∀ address uuid port, link'.OneCheck
      (front ++ back ++ stamp c.wakeup address uuid new) port :=
    fun address uuid port => Link.OneCheck.checkQueue inv.paired split check small transmitted
  obtain ⟨packet, rest, head, link_eq, new_eq⟩ :=
    (inv.paired w).handled split check small transmitted
  rw [inv.wired.id] at new_eq
  exact ⟨packet, rest, _, head, free, link_eq, new_eq, kept⟩

/-- Every handler makes progress. -/
theorem Inv.advance (inv : Inv N x) (fits : TimeFits O x.memory c)
    (split : x.sys.timerQueue = front ++ c :: back)
    (handled : Handled N O.quotient x.memory c m' sends) :
    Advance N x.memory m' x.sys.currentTime c.wakeup sends := by
  have later : x.sys.currentTime ≤ c.wakeup := inv.sound.future c (by simp [split])
  have still : ∀ w ∈ N.ports, ∀ hop : Hop,
      hop.bound N w x.memory x.sys.currentTime ≤ hop.bound N w x.memory c.wakeup :=
    fun _ _ _ => Hop.bound_mono later (fun _ => le_rfl) le_rfl
  have relink : ∀ link' : Link,
      (∀ w, x.memory.switch.link.nextAvailable w ≤ link'.nextAvailable w) →
      ∀ w ∈ N.ports, ∀ hop : Hop, hop.bound N w x.memory x.sys.currentTime ≤
        hop.bound N w { x.memory with switch := { x.memory.switch with link := link' } } c.wakeup :=
    fun _ avail w _ _ => Hop.bound_mono later (fun _ => le_rfl) (avail w)
  -- each handler sends its packet one hop on, after everything sent over that hop before
  cases handled with
  | fromHost w packet delay busy port origin six source target message busier low high =>
    refine @advance_hop N w .toSwitch _ _ _ _ _ _ inv.wired.occupy port
      (.toSwitch w packet port origin six rfl rfl rfl) rfl rfl (by simp) (by simp)
      (fun _ _ _ => Hop.bound_occupy later busier) ?_ ?_
    · exact (Wire.bound_mono later).trans low
    · change c.wakeup + delay ≤ (Function.update x.memory.wires w _ w).bound _ _
      rw [Function.update_self, high]
  | fromSwitch w packet delay busy port source target message busier low high =>
    refine @advance_hop N w .toHost _ _ _ _ _ _ inv.wired.occupy port
      (.toHost w packet port rfl rfl rfl) rfl rfl (by simp) (by simp)
      (fun _ _ _ => Hop.bound_occupy later busier) ?_ ?_
    · exact (Wire.bound_mono later).trans low
    · change c.wakeup + delay ≤ (Function.update x.memory.wires w _ w).bound _ _
      rw [Function.update_self, high]
  | toSwitch w packet mac link' _ port origin source target message bytes enqueued =>
    refine advance_self (inv.wired.relink enqueued.settings) ?_ ?_
      (relink link' fun w => (congrFun enqueued.avail w).ge)
    · intro send member
      obtain ⟨source_eq, target_eq, v, listed, message_eq⟩ := enqueued.checks send member
      exact .check v (mem_ports_of_mem_targets inv.wired listed) (source_eq.trans inv.wired.id)
        (target_eq.trans inv.wired.id) message_eq
    · intro send member
      obtain ⟨source_eq, target_eq, -⟩ := enqueued.checks send member
      exact source_eq.trans target_eq.symm
  | check w link' _ port source target message transmitted =>
    obtain ⟨packet, rest, delay, head, free, rfl, rfl, -⟩ :=
      inv.transmission fits split target message transmitted
    have busier : ∀ v, x.memory.switch.link.nextAvailable v ≤
        Function.update x.memory.switch.link.nextAvailable w (c.wakeup + delay) v := by
      intro v
      by_cases same : v = w
      · subst same
        rw [Function.update_self]
        exact free.trans (Nat.le_add_right _ _)
      · rw [Function.update_of_ne same]
    -- what `checkQueue` sends besides the packet is the next check of the same port
    have again : ∀ send ∈ (if rest = [] then [] else
        [⟨N.switch, N.switch, .checkQueue w, delay⟩] : List (Send NetMessage)),
        send = ⟨N.switch, N.switch, .checkQueue w, delay⟩ := by
      intro send member
      split at member
      · simp at member
      · exact List.mem_singleton.mp member
    refine @advance_hop N w .fromSwitch _ _ _ _ _ _ (inv.wired.relink ⟨rfl, rfl, rfl⟩) port
      (.fromSwitch w packet port rfl rfl rfl) rfl rfl ?_ ?_ (relink _ busier) ?_ ?_
    · intro send member
      rw [again send member]
      exact .check w port rfl rfl rfl
    · intro send member
      rw [again send member]
    · exact free.trans (Nat.le_add_right _ _)
    · change c.wakeup + delay ≤
        Function.update x.memory.switch.link.nextAvailable w (c.wakeup + delay) w
      rw [Function.update_self]
  | toHost w packet port source target message =>
    exact advance_self inv.wired (by simp) (by simp) still
  | other source message => exact advance_self inv.wired (by simp) (by simp) still

/-- A message other than a check does not matter to the pairing. -/
theorem Inv.paired_rest (inv : Inv N x) (split : x.sys.timerQueue = front ++ c :: back)
    (no_check : ∀ v, c.message ≠ .checkQueue v) (port : ℕ) :
    x.memory.switch.link.OneCheck (front ++ back) port := by
  refine (inv.paired port).frame rfl rfl ?_
  have skipped : Link.isCheck x.memory.switch.link.id port c = false := by
    simp [Link.isCheck, no_check port]
  exact (filter_of_not split skipped).symm

/-- Every handler keeps the pairing. -/
theorem Inv.paired_handled (inv : Inv N x) (fits : TimeFits O x.memory c)
    (split : x.sys.timerQueue = front ++ c :: back)
    (handled : Handled N O.quotient x.memory c m' sends) (address uuid port : ℕ) :
    m'.switch.link.OneCheck (front ++ back ++ stamp c.wakeup address uuid sends) port := by
  have quiet : ∀ send : Send NetMessage, (∀ v, send.message ≠ .checkQueue v) →
      Link.checks x.memory.switch.link.id port (stamp c.wakeup address uuid [send]) = [] := by
    intro send no_check
    apply Link.checks_stamp_eq_nil
    intro other member check
    rw [List.mem_singleton] at member
    exact no_check port (member ▸ check.2)
  cases handled with
  | fromHost w packet delay busy _ origin six source target message =>
    refine (inv.paired_rest split (by simp [message]) port).frame rfl rfl ?_
    rw [Link.checks_append, quiet _ (by simp), List.append_nil]
  | fromSwitch w packet delay busy _ source target message =>
    refine (inv.paired_rest split (by simp [message]) port).frame rfl rfl ?_
    rw [Link.checks_append, quiet _ (by simp), List.append_nil]
  | toSwitch w packet mac link' _ _ origin source target message bytes enqueued =>
    exact enqueued.paired _ address uuid (inv.paired_rest split (by simp [message])) port
  | check w link' _ _ source target message transmitted =>
    obtain ⟨packet, rest, delay, -, -, -, -, kept⟩ :=
      inv.transmission fits split target message transmitted
    exact kept address uuid port
  | toHost w packet _ source target message =>
    simpa [stamp] using inv.paired_rest split (by simp [message]) port
  | other source message => simpa [stamp] using inv.paired_rest split (by simp [message]) port

/-- What a call of the hosts does. -/
inductive Called (N : Star) : Call → List (Send NetMessage) → Prop
  | sendFrame (w : ℕ) (frame : List UInt8) (port : w ∈ N.ports) :
      Called N (.sendFrame w frame) [⟨N.hostOf w, w, .packetToPort ⟨frame, w⟩, 0⟩]
  | hostMessage (host timeAfter : ℕ) (not_switch : host ≠ N.switch) (not_wire : host ∉ N.ports) :
      Called N (.hostMessage host timeAfter) [⟨host, host, .other, timeAfter⟩]

theorem called_of_act {call : Call} (acted : (N.modules O).act m now call = some (m', sends)) :
    m' = m ∧ Called N call sends := by
  cases call with
  | sendFrame w frame =>
    by_cases port : w ∈ N.ports
    · simp only [modules, if_pos port] at acted
      obtain ⟨rfl, rfl⟩ : m = m' ∧ _ = sends := by simpa using acted
      exact ⟨rfl, .sendFrame w frame port⟩
    · simp [modules, port] at acted
  | hostMessage host timeAfter =>
    by_cases outside : host ≠ N.switch ∧ host ∉ N.ports
    · simp only [modules, if_pos outside] at acted
      obtain ⟨rfl, rfl⟩ : m = m' ∧ _ = sends := by simpa using acted
      exact ⟨rfl, .hostMessage host timeAfter outside.1 outside.2⟩
    · simp only [modules, if_neg outside] at acted
      simp at acted

/-- What hosts do is progress as well. -/
theorem Inv.advance_act {call : Call} (inv : Inv N x) (called : Called N call sends)
    (six : Addressed (.act call)) :
    Advance N x.memory x.memory x.sys.currentTime x.sys.currentTime sends := by
  cases called with
  | sendFrame w frame port =>
    exact @advance_hop N w .fromHost _ _ _ _ _ _ inv.wired port
      (.fromHost w ⟨frame, w⟩ port rfl six rfl rfl rfl) rfl rfl (by simp) (by simp)
      (fun _ _ _ => le_rfl) le_rfl le_rfl
  | hostMessage host timeAfter not_switch not_wire =>
    refine advance_self inv.wired ?_ (by simp) (fun _ _ _ => le_rfl)
    simp only [List.mem_singleton, forall_eq]
    exact .other not_switch not_wire rfl rfl

/-- What hosts do starts no check. -/
theorem Inv.paired_act {call : Call} (inv : Inv N x) (called : Called N call sends)
    (now address uuid port : ℕ) :
    x.memory.switch.link.OneCheck
      (x.sys.timerQueue ++ stamp now address uuid sends) port := by
  refine (inv.paired port).frame rfl rfl ?_
  rw [Link.checks_append, Link.checks_stamp_eq_nil, List.append_nil]
  intro send member check
  cases called with
  | sendFrame => simp [List.mem_singleton.mp member] at check
  | hostMessage => simp [List.mem_singleton.mp member] at check

/-- New messages join the queue. -/
theorem Inv.extend {rest : List (TimerContainer NetMessage)} {address uuid : ℕ} (inv : Inv N x)
    (sub : rest.Sublist x.sys.timerQueue) (sound : Sound y.sys)
    (advance : Advance N x.memory y.memory x.sys.currentTime y.sys.currentTime sends)
    (queue : y.sys.timerQueue = rest ++ stamp y.sys.currentTime address uuid sends)
    (paired : ∀ port, y.memory.switch.link.OneCheck y.sys.timerQueue port) : Inv N y where
  sound := sound
  wired := advance.wired
  kinds c member := by
    rw [queue, List.mem_append] at member
    rcases member with old | young
    · exact inv.kinds c (sub.subset old)
    · obtain ⟨-, -, send, sent, source, target, message, -⟩ := mem_stamp young
      rw [source, target, message]
      exact advance.kinds send sent
  paired := paired
  hops w port hop := by
    rw [queue]
    exact (inv.hops w port hop).stamp sub (advance.grows w port hop)
      (advance.late w port hop) (advance.single w port hop)

variable {input : Input Call} {new : List (Record NetMessage Call)}

theorem Inv.step (inv : Inv N x) (allowed : N.Allowed O x input)
    (h : (N.modules O).machine.step x input = some (y, new)) : Inv N y := by
  obtain ⟨noWrap, times, addressed⟩ := allowed
  obtain ⟨effect, sound⟩ := effect_of_step inv.sound noWrap h
  cases effect with
  | act call memory sends address y handled memory_eq clock queue =>
    obtain ⟨rfl, called⟩ := called_of_act handled
    have advance := inv.advance_act called addressed
    refine inv.extend (List.Sublist.refl _) sound ?_ (by rw [clock]; exact queue) fun port => ?_
    · rw [memory_eq, clock]
      exact advance
    · rw [memory_eq, queue]
      exact inv.paired_act called _ _ _ port
  | dispatch c front back memory sends address y split least handled memory_eq clock queue =>
    have member : c ∈ x.sys.timerQueue := by simp [split]
    obtain ⟨sys, pop⟩ := popTimer_of_dispatch h
    have fits := times rfl _ pop
    have handled := handled_of_receive inv.wired (inv.kinds c member) fits handled
    have sub : (front ++ back).Sublist x.sys.timerQueue := by
      rw [split]
      exact (List.Sublist.refl front).append (List.sublist_cons_self c back)
    refine inv.extend sub sound ?_ (by rw [clock]; exact queue) fun port => ?_
    · rw [memory_eq, clock]
      exact inv.advance fits split handled
    · rw [memory_eq, queue]
      exact inv.paired_handled fits split handled _ _ port

/-! ## No handler fails -/

theorem Inv.receive_isSome (inv : Inv N x) (member : c ∈ x.sys.timerQueue)
    (fits : TimeFits O x.memory c) : ((N.modules O).receive x.memory c.wakeup c).isSome := by
  cases inv.kinds c member with
  | fromHost w packet port origin six source_eq target_eq message_eq =>
    subst target_eq
    obtain ⟨to_switch, -, destination, -⟩ := inv.wired.ends port
    rw [← source_eq] at destination
    rw [TimeFits, message_eq] at fits
    obtain ⟨delay, value, -⟩ := receive_wire inv.wired port message_eq destination
      (by rw [to_switch]; exact N.switch_ne) (fits _ destination)
    rw [value]
    rfl
  | fromSwitch w packet port source_eq target_eq message_eq =>
    subst target_eq
    obtain ⟨-, to_host, -, destination⟩ := inv.wired.ends port
    rw [← source_eq] at destination
    rw [TimeFits, message_eq] at fits
    obtain ⟨delay, value, -⟩ := receive_wire inv.wired port message_eq destination
      (by rw [to_host]; exact N.host_ne _ port) (fits _ destination)
    rw [value]
    rfl
  | toSwitch w packet port origin six source_eq target_eq message_eq =>
    obtain ⟨mac, link', new, -, value, -⟩ := receive_frame inv.wired target_eq message_eq six
    rw [value]
    rfl
  | check w port source_eq target_eq message_eq =>
    obtain ⟨front, back, split⟩ := List.append_of_mem member
    have check : Link.isCheck x.memory.switch.link.id w c = true :=
      Link.isCheck_iff.mpr ⟨target_eq.trans inv.wired.id.symm, message_eq⟩
    -- the queue is not empty and the wire is free
    obtain ⟨⟨packet, rest, head⟩, free, -⟩ := (inv.paired w).dispatched split check
    rw [TimeFits, message_eq] at fits
    have value := Link.checkQueue_eq head free (fits packet (by rw [head]; rfl))
    simp [modules, target_eq, message_eq, value]
  | toHost w packet port source_eq target_eq message_eq =>
    rw [receive_host (target_eq ▸ N.host_ne_switch w port) (target_eq ▸ N.host_not_wire w port)]
    rfl
  | other not_switch not_wire source_eq message_eq =>
    rw [receive_host not_switch not_wire]
    rfl

theorem Inv.dispatch_isSome (inv : Inv N x) (busy : x.sys.timerQueue ≠ [])
    (allowed : N.Allowed O x .dispatch) : ((N.modules O).machine.step x .dispatch).isSome := by
  obtain ⟨noWrap, times, -⟩ := allowed
  exact Reactive.dispatch_isSome inv.sound noWrap busy fun popped pop member =>
    inv.receive_isSome member (times rfl popped pop)

end Star

end Kens
