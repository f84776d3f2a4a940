/-
# A star around a hub

A hub does what a reliable switch without any address does: it sends every frame to all other
ports. A switch reads an address all the same, and a hub does not, so that its frames may be too
short for one. A network with a hub in its middle therefore takes the steps of a star in which every
frame is six bytes longer and takes no more time, and every frame reaches every other host.
-/

import Mathlib
import Kens.System.Relabel
import Kens.Networking.Drain

namespace Kens.Star

open Semantics Reactive Switch NetworkUtil

/-- The memory of the hub and of the wires. -/
structure HubMemory where
  hub : Hub
  wires : ℕ → Wire

/-- `messageReceived` of all modules, with a hub in place of the switch. -/
def hubModules (N : Star) (O : Oracle) : Reactive NetMessage HubMemory Call where
  receive m now c :=
    if c.target = N.switch then
      match c.message with
      | .checkQueue wireID =>
        (m.hub.link.checkQueue O.quotient now wireID).map fun r =>
          ({ m with hub := { m.hub with link := r.1 } }, r.2)
      | .packetToPort packet | .packetFromPort packet =>
        (m.hub.packetArrived (O.choices c) now c.source packet).map fun r =>
          ({ m with hub := r.1 }, r.2)
      | .other => some (m, [])
    else if c.target ∈ N.ports then
      ((m.wires c.target).messageReceived O.quotient now c.source c.message).map fun r =>
        ({ m with wires := Function.update m.wires c.target r.1 }, r.2)
    else some (m, [])
  act m _
    | .sendFrame wire frame =>
      if wire ∈ N.ports then
        some (m, [⟨N.hostOf wire, wire, .packetToPort ⟨frame, wire⟩, 0⟩])
      else none
    | .hostMessage host timeAfter =>
      if host ≠ N.switch ∧ host ∉ N.ports then some (m, [⟨host, host, .other, timeAfter⟩])
      else none

def hubStart (N : Star) (limit : ℕ) : State NetMessage HubMemory where
  sys := {}
  memory :=
    { hub :=
        { link := { id := N.switch, bps := N.switchBps, max_queue_length := limit }
          ports := N.ports }
      wires := N.wireStart }

/-- The hub as a switch that knows no address. -/
def HubMemory.asSwitch (m : HubMemory) : Memory where
  switch := { link := m.hub.link, ports := m.hub.ports }
  wires := m.wires

/-- The star with an empty MAC table. -/
def emptied (N : Star) : Star := { N with mac_table := fun _ => [] }

/-- No time and no UUID wraps. -/
def HubAllowed (N : Star) (O : Oracle) (x : State NetMessage HubMemory) (input : Input Call) :
    Prop :=
  (N.hubModules O).NoWrap x input ∧
    (input = .dispatch → ∀ popped ∈ x.sys.popTimer, TimeFits O x.memory.asSwitch popped.1)

instance (N : Star) (O : Oracle) (x : State NetMessage HubMemory) :
    DecidablePred (N.HubAllowed O x)
  | .act call => decidable_of_iff ((N.hubModules O).NoWrap x (.act call)) (by simp [HubAllowed])
  | .dispatch => decidable_of_iff ((N.hubModules O).NoWrap x .dispatch ∧
      ∀ popped ∈ x.sys.popTimer, TimeFits O x.memory.asSwitch popped.1) (by simp [HubAllowed])

variable {N : Star} {O : Oracle} {p q : ℕ} {m : HubMemory} {now limit : ℕ}
  {c : TimerContainer NetMessage} {packet : Packet} {x : State NetMessage HubMemory}
  {input : Input Call} {log : List (Record NetMessage Call)}

/-- Without any address, a frame is sent to all other ports. -/
theorem targets_eq {switch : Switch} (empty : switch.mac_table = fun _ => [])
    (inWireID mac_int : ℕ) : switch.targets inWireID mac_int =
      switch.ports.zipIdx.filter fun entry => inWireID ≠ entry.1 := by
  unfold targets
  split
  next found =>
    obtain ⟨entry, -, chosen⟩ := List.any_eq_true.mp found
    have broadcast : mac_int = arrayToUINT64 Mac.broadcast := by
      simp only [registered, empty, List.not_mem_nil, decide_false, Bool.or_false,
        Bool.and_eq_true, decide_eq_true_eq] at chosen
      exact chosen.2
    simp [registered, broadcast]
  next => rfl

/-! ## Longer frames -/

/-- The packet with six more bytes. -/
def pad (packet : Packet) : Packet :=
  { packet with buffer := packet.buffer ++ List.replicate 6 0 }

/-- The packet without its last six bytes. -/
def unpad (packet : Packet) : Packet :=
  { packet with buffer := packet.buffer.take (packet.buffer.length - 6) }

@[simp] theorem unpad_pad (packet : Packet) : unpad (pad packet) = packet := by
  simp [pad, unpad]

theorem getSize_pad (packet : Packet) : (pad packet).getSize = packet.getSize + 6 := by
  simp [pad, Packet.getSize]

/-- A message with other packets. -/
def rewrite (f : Packet → Packet) : NetMessage → NetMessage
  | .packetToPort packet => .packetToPort (f packet)
  | .packetFromPort packet => .packetFromPort (f packet)
  | .checkQueue wireID => .checkQueue wireID
  | .other => .other

/-- The same choices, and transmissions that do not count six of the bytes. -/
def Oracle.shortened (O : Oracle) : Oracle where
  quotient size bps := O.quotient (size - 6) bps
  junk := O.junk
  choices c := O.choices (c.map (rewrite unpad))

theorem choices_shortened : O.shortened.choices (c.map (rewrite pad)) = O.choices c := by
  have same : (c.map (rewrite pad)).map (rewrite unpad) = c := by
    obtain ⟨address, source, target, wakeup, message, uuid⟩ := c
    cases message <;> simp [TimerContainer.map, rewrite]
  exact congrArg O.choices same

theorem transDelay_pad (bps : ℕ) : transDelay O.shortened.quotient bps (pad packet).getSize =
    transDelay O.quotient bps packet.getSize := by
  rw [getSize_pad]
  rfl

/-- The link with longer packets in its queues. -/
def padLink (link : Link) : Link :=
  { link with outputQueue := fun wireID => (link.outputQueue wireID).map pad }

def padCall : Call → Call
  | .sendFrame wire frame => .sendFrame wire (frame ++ List.replicate 6 0)
  | .hostMessage host timeAfter => .hostMessage host timeAfter

/-- The hub as a switch that gets longer frames. -/
def HubMemory.padded (m : HubMemory) : Memory where
  switch := { link := padLink m.hub.link, ports := m.hub.ports }
  wires := m.wires

theorem update_padLink (queues : ℕ → List Packet) (wireID : ℕ) (queue : List Packet) :
    (fun w => (Function.update queues wireID queue w).map pad) =
      Function.update (fun w => (queues w).map pad) wireID (queue.map pad) := by
  funext w
  by_cases same : w = wireID
  · subst same
    simp
  · simp [same]

theorem evict_pad {link : Link} {queue : List Packet} {draw : ℕ} :
    (padLink link).evict (queue.map pad) draw = (link.evict queue draw).map pad := by
  change link.evict (queue.map pad) draw = _
  simp only [Link.evict, List.length_map]
  generalize (if draw ≥ link.max_queue_length then link.max_queue_length - 1 else draw) = index
  split
  · split
    · exact List.eraseIdx_map ..
    · rfl
  · rfl

theorem sendPacket_pad (link : Link) (now wireID : ℕ) (packet : Packet) (draw : ℕ) :
    (padLink link).sendPacket now wireID (pad packet) draw =
      (link.sendPacket now wireID packet draw).map fun r =>
        (padLink r.1, r.2.map (Send.map (rewrite pad))) := by
  have evicted : (padLink link).evict ((padLink link).outputQueue wireID) draw =
      (link.evict (link.outputQueue wireID) draw).map pad := evict_pad
  have joined : ({ padLink link with
      outputQueue := Function.update (padLink link).outputQueue wireID
        ((link.evict (link.outputQueue wireID) draw).map pad ++ [pad packet]) } : Link) =
      padLink { link with
        outputQueue := Function.update link.outputQueue wireID
          (link.evict (link.outputQueue wireID) draw ++ [packet]) } := by
    simp only [padLink, update_padLink, List.map_append, List.map_singleton]
  simp only [Link.sendPacket, evicted, joined, List.length_append, List.length_map,
    List.length_singleton]
  change (if link.max_queue_length = 0 ∨ _ < link.max_queue_length then _ else _) = _
  split
  · split <;> rfl
  · rfl

theorem checkQueue_pad (link : Link) (now wireID : ℕ) :
    (padLink link).checkQueue O.shortened.quotient now wireID =
      (link.checkQueue O.quotient now wireID).map fun r =>
        (padLink r.1, r.2.map (Send.map (rewrite pad))) := by
  have queues : (padLink link).outputQueue wireID = (link.outputQueue wireID).map pad := rfl
  unfold Link.checkQueue
  rw [queues]
  cases link.outputQueue wireID with
  | nil => rfl
  | cons packet rest =>
    have rested : Function.update (padLink link).outputQueue wireID (rest.map pad) =
        fun w => (Function.update link.outputQueue wireID rest w).map pad :=
      (update_padLink ..).symm
    have delay : transDelay O.shortened.quotient (padLink link).bps (pad packet).getSize =
        transDelay O.quotient link.bps packet.getSize := transDelay_pad link.bps
    have available : (padLink link).nextAvailable = link.nextAvailable := rfl
    have named : (padLink link).id = link.id := rfl
    simp only [List.map_cons, List.length_map, rested, delay, available, named]
    split
    · split
      · split <;> rfl
      · rfl
    · rfl

theorem messageReceived_pad (wire : Wire) (now source : ℕ) (message : NetMessage) :
    wire.messageReceived O.shortened.quotient now source (rewrite pad message) =
      (wire.messageReceived O.quotient now source message).map fun r =>
        (r.1, r.2.map (Send.map (rewrite pad))) := by
  cases message with
  | packetToPort packet =>
    simp only [rewrite, Wire.messageReceived, transDelay_pad]
    split
    · rfl
    · split <;> rfl
  | packetFromPort | checkQueue | other => rfl

theorem foldlM_flood_pad (choices : Choices) (now inWireID : ℕ) (packet : Packet)
    (entries : List (ℕ × ℕ)) (link : Link) (sends : List (Send NetMessage)) :
    entries.foldlM (flood choices now inWireID (pad packet))
        (padLink link, sends.map (Send.map (rewrite pad))) =
      (entries.foldlM (flood choices now inWireID packet) (link, sends)).map fun r =>
        (padLink r.1, r.2.map (Send.map (rewrite pad))) := by
  induction entries generalizing link sends with
  | nil => rfl
  | cons entry rest ih =>
    rw [List.foldlM_cons, List.foldlM_cons, flood, flood]
    by_cases other : inWireID ≠ entry.1
    · rw [if_pos other, if_pos other, enqueue, enqueue]
      dsimp only
      rw [sendPacket_pad]
      cases link.sendPacket now entry.1 packet (choices.draw entry.2) with
      | none => rfl
      | some r =>
        have later := ih r.1 (sends ++ r.2)
        rw [List.map_append] at later
        exact later
    · rw [if_neg other, if_neg other]
      exact ih link sends

/-- The hub handles a frame as the switch does a longer one. -/
theorem packetArrived_pad (junk : Junk) (choices : Choices) (inWireID : ℕ) :
    packetArrived junk choices m.padded.switch now inWireID (pad packet) =
      (m.hub.packetArrived choices now inWireID packet).map fun r =>
        (({ m with hub := r.1 } : HubMemory).padded.switch,
          r.2.map (Send.map (rewrite pad))) := by
  obtain ⟨mac, -, arrived⟩ := @packetArrived_eq junk choices m.padded.switch now inWireID
    (pad packet) rfl (by rw [getSize_pad]; omega)
  have flooded := foldlM_flood_pad choices now inWireID packet m.hub.ports.zipIdx m.hub.link []
  rw [arrived, targets_eq rfl, ← foldlM_flood, Hub.packetArrived]
  change Option.map _ (m.hub.ports.zipIdx.foldlM (flood choices now inWireID (pad packet))
    (padLink m.hub.link, [])) = _
  rw [List.map_nil] at flooded
  rw [flooded]
  cases m.hub.ports.zipIdx.foldlM (flood choices now inWireID packet) (m.hub.link, []) <;> rfl

/-- All modules do what they do in a star with an empty table and longer frames. -/
theorem views_emptied (N : Star) (O : Oracle) :
    Views (N.hubModules O) (N.emptied.modules O.shortened) (rewrite pad) HubMemory.padded
      padCall where
  acts m now call := by
    cases call with
    | sendFrame wire frame =>
      change (if wire ∈ N.ports then _ else _) = _
      dsimp only [hubModules]
      split <;> rfl
    | hostMessage host timeAfter =>
      change (if host ≠ N.switch ∧ host ∉ N.ports then _ else _) = _
      dsimp only [hubModules]
      split <;> rfl
  receives m now c := by
    have chosen := @choices_shortened O c
    obtain ⟨address, source, target, wakeup, message, uuid⟩ := c
    change (if target = N.switch then _ else if target ∈ N.ports then _ else _) = _
    dsimp only [hubModules]
    by_cases middle : target = N.switch
    · rw [if_pos middle, if_pos middle]
      cases message with
      | checkQueue wireID =>
        change Option.map _ ((padLink m.hub.link).checkQueue O.shortened.quotient now wireID) = _
        rw [checkQueue_pad, Option.map_map, Option.map_map]
        rfl
      | packetToPort packet | packetFromPort packet =>
        change Option.map _ (packetArrived O.junk (O.shortened.choices _) m.padded.switch now source
          (pad packet)) = _
        rw [chosen, packetArrived_pad, Option.map_map, Option.map_map]
        rfl
      | other => rfl
    · rw [if_neg middle, if_neg middle]
      by_cases port : target ∈ N.ports
      · rw [if_pos port, if_pos port]
        change Option.map _ ((m.wires target).messageReceived O.shortened.quotient now source
          (rewrite pad message)) = _
        rw [messageReceived_pad, Option.map_map, Option.map_map]
        rfl
      · rw [if_neg port, if_neg port]
        rfl

/-! ## Runs -/

/-- A message that fits does so with a longer packet. -/
theorem timeFits_pad (fits : TimeFits O m.asSwitch c) :
    TimeFits O.shortened m.padded (c.map (rewrite pad)) := by
  obtain ⟨address, source, target, wakeup, message, uuid⟩ := c
  cases message with
  | packetToPort packet =>
    intro d destination
    have fits : (m.wires target).Fits O.quotient wakeup packet d := fits d destination
    rw [Wire.Fits, ← transDelay_pad] at fits
    exact fits
  | checkQueue wireID =>
    intro packet head
    change packet ∈ ((m.hub.link.outputQueue wireID).map pad).head? at head
    rw [List.head?_map] at head
    obtain ⟨first, queued, rfl⟩ := Option.map_eq_some_iff.mp head
    have fits : wakeup + transDelay O.quotient m.hub.link.bps first.getSize < 2 ^ 64 :=
      fits first queued
    rw [← transDelay_pad] at fits
    exact fits
  | packetFromPort | other => trivial

theorem allowed_pad (allowed : N.HubAllowed O x input) :
    N.emptied.Allowed O.shortened (x.view (rewrite pad) HubMemory.padded) (input.map padCall) := by
  obtain ⟨noWrap, times⟩ := allowed
  refine ⟨(views_emptied N O).noWrap noWrap, ?_, ?_⟩
  · intro dispatched popped pop
    cases input with
    | act call => simp [Input.map] at dispatched
    | dispatch =>
      change (x.sys.map (rewrite pad)).popTimer = some popped at pop
      rw [System.popTimer_map] at pop
      obtain ⟨r, first, rfl⟩ := Option.map_eq_some_iff.mp pop
      exact timeFits_pad (times rfl r first)
  · cases input with
    | dispatch => trivial
    | act call =>
      cases call with
      | sendFrame wire frame =>
        change 6 ≤ (frame ++ List.replicate 6 0).length
        rw [List.length_append, List.length_replicate]
        exact Nat.le_add_left ..
      | hostMessage host timeAfter => trivial

/-- Every run with the hub is a run with the switch. -/
theorem run_emptied {inputs : List (Input Call)}
    (run : (N.hubModules O).machine.Run (N.HubAllowed O) (N.hubStart limit) inputs log x) :
    (N.emptied.modules O.shortened).machine.Run (N.emptied.Allowed O.shortened)
      (N.emptied.startWith false limit) (inputs.map (Input.map padCall))
      (log.map (Record.map (rewrite pad) padCall)) (x.view (rewrite pad) HubMemory.padded) :=
  (views_emptied N O).run (fun _ _ => allowed_pad) run

/-- An empty table forwards everything to all others. -/
theorem forwardsTo_emptied : N.emptied.forwardsTo p q packet = decide (p ≠ q) := by
  simp [forwardsTo, Reaches, emptied]

/-- A reliable switch makes exact copies. -/
theorem eq_of_faithful {copies frames : List Packet}
    (faithful : List.Forall₂ (Faithful false) copies frames) : copies = frames := by
  have same : List.Forall₂ Eq copies frames := faithful.imp fun _ _ h => h.2 rfl
  rwa [List.forall₂_eq_eq_eq] at same

/-! ## Back to the frames -/

theorem sentBy_pad (record : Record NetMessage Call) :
    sentBy p (record.map (rewrite pad) padCall) = (sentBy p record).map pad := by
  cases record with
  | received => rfl
  | acted call now sends =>
    cases call with
    | sendFrame wire frame =>
      simp only [Record.map, padCall, sentBy]
      split <;> rfl
    | hostMessage => rfl

theorem deliveredFrom_pad (record : Record NetMessage Call) :
    N.emptied.deliveredFrom p q (record.map (rewrite pad) padCall) =
      (N.deliveredFrom p q record).map pad := by
  cases record with
  | acted => rfl
  | received c sends =>
    obtain ⟨address, source, target, wakeup, message, uuid⟩ := c
    change (if source = q ∧ target = N.hostOf q then
        (payload (rewrite pad message)).filter (·.origin = p) else none) =
      (if source = q ∧ target = N.hostOf q then
        (payload message).filter (·.origin = p) else none).map pad
    split
    · cases message with
      | packetToPort packet | packetFromPort packet =>
        by_cases entered : packet.origin = p
        · simp [payload, rewrite, pad, Option.filter, entered]
        · simp [payload, rewrite, pad, Option.filter, entered]
      | checkQueue | other => rfl
    · rfl

theorem map_unpad (packets : List Packet) : (packets.map pad).map unpad = packets := by
  simp [Function.comp_def]

/-- What a host behind a hub gets from another one is what the other one sent: in order, each frame
at most once and unharmed, and all of it when the queues have no limit and no message is in flight.
No host gets its own frames. No handler fails. -/
theorem hub_delivery (N : Star) (O : Oracle) {limit p q : ℕ} (limit_ne : limit ≠ 1)
    (ingress : p ∈ N.ports) (egress : q ∈ N.ports)
    {inputs : List (Input Call)} {log : List (Record NetMessage Call)}
    {x : State NetMessage HubMemory}
    (run : (N.hubModules O).machine.Run (N.HubAllowed O) (N.hubStart limit) inputs log x) :
    (log.filterMap (N.deliveredFrom p q)).Sublist (log.filterMap (sentBy p)) ∧
    (p = q → log.filterMap (N.deliveredFrom p q) = []) ∧
    (p ≠ q → limit = 0 → log.filterMap (N.deliveredFrom p q) <+: log.filterMap (sentBy p) ∧
      (x.sys.timerQueue = [] → log.filterMap (N.deliveredFrom p q) = log.filterMap (sentBy p))) ∧
    (x.sys.timerQueue ≠ [] → N.HubAllowed O x .dispatch →
      ((N.hubModules O).machine.step x .dispatch).isSome) := by
  have mapped := run_emptied run
  obtain ⟨inv, conserved⟩ := conserved_of_run limit_ne mapped
  have ingress' : p ∈ N.emptied.ports := ingress
  have egress' : q ∈ N.emptied.ports := egress
  -- both sides of the account with the frames as they were
  have sent : (log.map (Record.map (rewrite pad) padCall)).filterMap (sentBy p) =
      (log.filterMap (sentBy p)).map pad := by
    simp [List.filterMap_map, List.map_filterMap, sentBy_pad]
  have come : (log.map (Record.map (rewrite pad) padCall)).filterMap
      (N.emptied.deliveredFrom p q) = (log.filterMap (N.deliveredFrom p q)).map pad := by
    simp [List.filterMap_map, List.map_filterMap, deliveredFrom_pad]
  have part := conserved.part ingress' egress'
  rw [sent, come] at part
  obtain ⟨received, copies, inside⟩ := List.sublistForall₂_iff.mp part
  obtain rfl := eq_of_faithful copies
  refine ⟨?_, ?_, ?_, ?_⟩
  · have unpadded := (inside.trans List.filter_sublist).map unpad
    rwa [map_unpad, map_unpad] at unpadded
  · rintro rfl
    have none : ((log.filterMap (sentBy p)).map pad).filter (N.emptied.forwardsTo p p) = [] := by
      rw [List.filter_eq_nil_iff]
      intro packet _
      simp [forwardsTo_emptied]
    rw [none] at inside
    exact List.map_eq_nil_iff.mp (List.sublist_nil.mp inside)
  · rintro different rfl
    have all : ((log.filterMap (sentBy p)).map pad).filter (N.emptied.forwardsTo p q) =
        (log.filterMap (sentBy p)).map pad := by
      rw [List.filter_eq_self]
      intro packet _
      rw [forwardsTo_emptied]
      exact decide_eq_true different
    obtain ⟨received, first, copies, last⟩ := conserved.whole inv ingress' egress'
    rw [come] at copies
    rw [sent, all] at first last
    obtain rfl := eq_of_faithful copies
    constructor
    · have unpadded := first.map unpad
      rwa [map_unpad, map_unpad] at unpadded
    · intro idle
      have whole := congrArg (List.map unpad) (last (List.map_eq_nil_iff.mpr idle))
      rwa [map_unpad, map_unpad] at whole
  · intro busy allowed
    have busy' : (x.view (rewrite pad) HubMemory.padded).sys.timerQueue ≠ [] :=
      fun none => busy (List.map_eq_nil_iff.mp none)
    have defined := inv.dispatch_isSome busy' (allowed_pad allowed)
    have same := (views_emptied N O).step x .dispatch
    rw [Input.map] at same
    rw [same, Option.isSome_map] at defined
    exact defined

/-- A frame of one byte from the first of three hosts, which reaches both others. -/
theorem hub_delivery_trio :
    ∃ log x, (trio.hubModules trioOracle).machine.Run (trio.HubAllowed trioOracle) (trio.hubStart 0)
        (.act (.sendFrame 1 [42]) :: List.replicate 8 .dispatch) log x ∧
      x.sys.timerQueue = [] ∧
      log.filterMap (trio.deliveredFrom 1 3) = [⟨[42], 1⟩] ∧
      log.filterMap (trio.deliveredFrom 1 3) = log.filterMap (sentBy 1) := by
  have outcome : ((trio.hubModules trioOracle).machine.execIf (trio.HubAllowed trioOracle)
      (trio.hubStart 0) (.act (.sendFrame 1 [42]) :: List.replicate 8 .dispatch)).map
      (fun r => (r.1.sys.timerQueue.length, r.2.filterMap (trio.deliveredFrom 1 3))) =
      some (0, [⟨[42], 1⟩]) := by decide +kernel
  obtain ⟨⟨x, log⟩, value, same⟩ := Option.map_eq_some_iff.mp outcome
  obtain ⟨length, delivered⟩ := Prod.mk.inj same
  have run := Machine.Run.of_execIf value
  have idle : x.sys.timerQueue = [] := List.length_eq_zero_iff.mp length
  obtain ⟨-, -, whole, -⟩ :=
    @hub_delivery trio trioOracle 0 1 3 (by decide) (by decide) (by decide) _ _ _ run
  exact ⟨log, x, run, idle, delivered, (whole (by decide) rfl).2 idle⟩

end Kens.Star
