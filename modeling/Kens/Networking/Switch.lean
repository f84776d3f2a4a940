/-
# Switches

A switch forwards a frame to the ports at which the destination address is
registered, and to all other ports when there is none. An unreliable switch
damages some of the copies.
-/

import Mathlib
import Kens.Networking.NetworkUtil
import Kens.Networking.RoutingInfo
import Kens.Networking.OutputQueue

namespace Kens

open Semantics Reactive

/-- A switch. `mac_table` gives no address for a wire that has no entry. -/
structure Switch where
  link : Link
  ports : List ℕ
  mac_table : ℕ → List ℕ := fun _ => []
  unreliable : Bool := false

/-- The random choices of one `packetArrived`, by the position of the port: the
copies to be damaged, and the numbers drawn for a full queue. -/
structure Choices where
  drop : ℕ → Bool
  draw : ℕ → ℕ

namespace Switch

def addMACEntry (switch : Switch) (port : ℕ) (mac : Mac) : Option Switch :=
  switch.ports[port]?.map fun wireID =>
    let macs := NetworkUtil.arrayToUINT64 mac :: switch.mac_table wireID
    { switch with mac_table := Function.update switch.mac_table wireID macs }

/-- The change to a copy that is "dropped": four bytes of TCP payload, or the TCP
checksum of a segment without payload. Integers are little-endian in memory. -/
def damage (junk : Junk) (newPacket : Packet) : Option Packet :=
  if newPacket.getSize ≥ 14 + 20 + 20 + 4 then do
    let (data, _) ← newPacket.readData (14 + 20 + 20) ((List.range 4).map (junk "data")) 4
    let data : List UInt8 :=
      if data ≠ [0xEE, 0xEE, 0xEE, 0xEE] then [0xEE, 0xEE, 0xEE, 0xEE]
      else [0xEF, 0xEE, 0xEE, 0xEE]
    let (newPacket, _) ← newPacket.writeData (14 + 20 + 20) data 4
    pure newPacket
  else if newPacket.getSize ≥ 14 + 20 + 20 then do
    let (checksum, _) ←
      newPacket.readData (14 + 20 + 16) ((List.range 2).map (junk "checksum")) 2
    let checksum : List UInt8 := if checksum ≠ [0xEE, 0xEE] then [0xEE, 0xEE] else [0xEF, 0xEE]
    let (newPacket, _) ← newPacket.writeData (14 + 20 + 16) checksum 2
    pure newPacket
  else pure newPacket

/-- `sendPacket` in a loop over the ports, on the link and the sends so far. -/
def enqueue (now : ℕ) (packet : Packet) (draw : ℕ → ℕ) (state : Link × List (Send NetMessage))
    (entry : ℕ × ℕ) : Option (Link × List (Send NetMessage)) := do
  let (link, new) ← state.1.sendPacket now entry.1 packet (draw entry.2)
  pure (link, state.2 ++ new)

/-- Whether the first loop sends to a port. -/
def registered (switch : Switch) (inWireID mac_int : ℕ) (wireID : ℕ) : Bool :=
  inWireID ≠ wireID &&
    (mac_int = NetworkUtil.arrayToUINT64 Mac.broadcast ||
      mac_int ∈ switch.mac_table wireID)

/-- One iteration of the first loop, which also keeps `found`. -/
def forward (switch : Switch) (junk : Junk) (choices : Choices) (now inWireID : ℕ)
    (packet : Packet) (mac_int : ℕ) (state : (Link × List (Send NetMessage)) × Bool)
    (entry : ℕ × ℕ) : Option ((Link × List (Send NetMessage)) × Bool) :=
  if switch.registered inWireID mac_int entry.1 then do
    let newPacket ←
      if switch.unreliable && choices.drop entry.2 then damage junk packet else some packet
    let sent ← enqueue now newPacket choices.draw state.1 entry
    pure (sent, true)
  else pure state

/-- One iteration of the second loop. -/
def flood (choices : Choices) (now inWireID : ℕ) (packet : Packet)
    (state : Link × List (Send NetMessage)) (entry : ℕ × ℕ) :
    Option (Link × List (Send NetMessage)) :=
  if inWireID ≠ entry.1 then enqueue now packet choices.draw state entry else pure state

def packetArrived (junk : Junk) (choices : Choices) (switch : Switch) (now inWireID : ℕ)
    (packet : Packet) : Option (Switch × List (Send NetMessage)) := do
  let mac ← packet.readArray 0 (Vector.ofFn fun k : Fin 6 => junk "mac" k)
  let mac_int := NetworkUtil.arrayToUINT64 mac
  let (sent, found) ←
    switch.ports.zipIdx.foldlM (switch.forward junk choices now inWireID packet mac_int)
      ((switch.link, []), false)
  let (link, sends) ←
    if found then pure sent
    else switch.ports.zipIdx.foldlM (flood choices now inWireID packet) sent
  pure ({ switch with link }, sends)

/-! ## Where the copies go -/

/-- The ports that get a copy of a frame. -/
def targets (switch : Switch) (inWireID mac_int : ℕ) : List (ℕ × ℕ) :=
  if switch.ports.zipIdx.any fun entry => switch.registered inWireID mac_int entry.1 then
    switch.ports.zipIdx.filter fun entry => switch.registered inWireID mac_int entry.1
  else switch.ports.zipIdx.filter fun entry => inWireID ≠ entry.1

variable {junk : Junk} {choices : Choices} {switch : Switch} {now inWireID mac_int : ℕ}
  {packet : Packet} {mac : Mac} {copy : ℕ × ℕ → Packet}

/-- The copy that the first loop makes for a port. -/
def clone (switch : Switch) (junk : Junk) (choices : Choices) (packet : Packet) (entry : ℕ × ℕ) :
    Option Packet :=
  if switch.unreliable && choices.drop entry.2 then damage junk packet else some packet

theorem forward_registered {state : (Link × List (Send NetMessage)) × Bool} {entry : ℕ × ℕ}
    (chosen : switch.registered inWireID mac_int entry.1 = true) {newPacket : Packet}
    (cloned : switch.clone junk choices packet entry = some newPacket) :
    switch.forward junk choices now inWireID packet mac_int state entry =
      (enqueue now newPacket choices.draw state.1 entry).map fun sent => (sent, true) := by
  have clones : switch.forward junk choices now inWireID packet mac_int state entry =
      switch.clone junk choices packet entry >>= fun newPacket =>
        enqueue now newPacket choices.draw state.1 entry >>= fun sent => pure (sent, true) := by
    rw [forward, if_pos chosen, clone]
    split <;> rfl
  rw [clones, bind_of_eq_some cloned]
  cases enqueue now newPacket choices.draw state.1 entry <;> rfl

theorem foldlM_forward (entries : List (ℕ × ℕ))
    (cloned : ∀ entry ∈ entries, switch.registered inWireID mac_int entry.1 = true →
      switch.clone junk choices packet entry = some (copy entry))
    (sent : Link × List (Send NetMessage)) (found : Bool) :
    entries.foldlM (switch.forward junk choices now inWireID packet mac_int) (sent, found) =
      ((entries.filter fun entry => switch.registered inWireID mac_int entry.1).foldlM
        (fun sent entry => enqueue now (copy entry) choices.draw sent entry) sent).map fun sent =>
          (sent, found || entries.any fun entry => switch.registered inWireID mac_int entry.1) := by
  induction entries generalizing sent found with
  | nil => simp
  | cons entry rest ih =>
    have later := ih fun other member => cloned other (List.mem_cons_of_mem _ member)
    rw [List.foldlM_cons]
    by_cases chosen : switch.registered inWireID mac_int entry.1 = true
    · rw [forward_registered chosen (cloned entry List.mem_cons_self chosen), List.filter_cons,
        if_pos chosen, List.foldlM_cons]
      cases enqueue now (copy entry) choices.draw sent entry with
      | none => rfl
      | some sent =>
        change List.foldlM _ (sent, true) rest = _
        rw [later]
        simp [chosen]
    · have step : switch.forward junk choices now inWireID packet mac_int (sent, found) entry =
          some (sent, found) := by
        rw [forward, if_neg chosen]
        rfl
      rw [step, List.filter_cons, if_neg chosen]
      change List.foldlM _ (sent, found) rest = _
      rw [later]
      simp [chosen]

theorem foldlM_flood (entries : List (ℕ × ℕ)) (sent : Link × List (Send NetMessage)) :
    entries.foldlM (flood choices now inWireID packet) sent =
      (entries.filter fun entry => inWireID ≠ entry.1).foldlM
        (enqueue now packet choices.draw) sent := by
  induction entries generalizing sent with
  | nil => rfl
  | cons entry rest ih =>
    rw [List.foldlM_cons, List.filter_cons, flood]
    by_cases other : inWireID ≠ entry.1
    · rw [if_pos other, if_pos (by simpa using other), List.foldlM_cons]
      exact bind_congr fun sent => ih sent
    · rw [if_neg other, if_neg (by simpa using other)]
      exact ih sent

/-- The address at the front of a frame is read into a local variable. -/
theorem readArray_destination (junk : Junk) (six : 6 ≤ packet.getSize) : ∃ mac : Mac,
    packet.readArray 0 (Vector.ofFn fun k : Fin 6 => junk "mac" k) = some mac ∧
      mac.toList = packet.buffer.take 6 :=
  Packet.readArray_eq (by omega)

/-- Where someone is registered, the first loop sends all the copies. -/
theorem packetArrived_known
    (read : packet.readArray 0 (Vector.ofFn fun k : Fin 6 => junk "mac" k) = some mac)
    (found : (switch.ports.zipIdx.any fun entry =>
      switch.registered inWireID (NetworkUtil.arrayToUINT64 mac) entry.1) = true)
    (cloned : ∀ entry ∈ switch.ports.zipIdx,
      switch.registered inWireID (NetworkUtil.arrayToUINT64 mac) entry.1 = true →
      switch.clone junk choices packet entry = some (copy entry)) :
    packetArrived junk choices switch now inWireID packet =
      ((switch.ports.zipIdx.filter fun entry =>
          switch.registered inWireID (NetworkUtil.arrayToUINT64 mac) entry.1).foldlM
        (fun sent entry => enqueue now (copy entry) choices.draw sent entry)
        (switch.link, [])).map fun sent => ({ switch with link := sent.1 }, sent.2) := by
  rw [packetArrived]
  refine (bind_of_eq_some read).trans ?_
  generalize NetworkUtil.arrayToUINT64 mac = mac_int at found cloned
  simp only [foldlM_forward _ cloned, Bool.false_or, found]
  cases (switch.ports.zipIdx.filter fun entry =>
      switch.registered inWireID mac_int entry.1).foldlM
    (fun sent entry => enqueue now (copy entry) choices.draw sent entry) (switch.link, []) with
  | none => rfl
  | some sent => rfl

/-- Where nobody is registered, the first loop sends nothing and the second one floods. -/
theorem packetArrived_unknown
    (read : packet.readArray 0 (Vector.ofFn fun k : Fin 6 => junk "mac" k) = some mac)
    (unknown : (switch.ports.zipIdx.any fun entry =>
      switch.registered inWireID (NetworkUtil.arrayToUINT64 mac) entry.1) = false) :
    packetArrived junk choices switch now inWireID packet =
      ((switch.ports.zipIdx.filter fun entry => inWireID ≠ entry.1).foldlM
        (enqueue now packet choices.draw) (switch.link, [])).map fun sent =>
          ({ switch with link := sent.1 }, sent.2) := by
  rw [packetArrived]
  refine (bind_of_eq_some read).trans ?_
  generalize NetworkUtil.arrayToUINT64 mac = mac_int at unknown
  have nobody : ∀ entry ∈ switch.ports.zipIdx,
      ¬ switch.registered inWireID mac_int entry.1 = true := List.any_eq_false.mp unknown
  have first := @foldlM_forward junk choices switch now inWireID mac_int packet (fun _ => packet)
    switch.ports.zipIdx (fun entry member chosen => absurd chosen (nobody entry member))
  simp only [first, Bool.false_or, unknown, List.filter_eq_nil_iff.mpr nobody, List.foldlM_nil,
    Option.pure_def, Option.map_some, Option.bind_eq_bind, Option.bind_some, Bool.false_eq_true,
    if_false, foldlM_flood]
  cases (switch.ports.zipIdx.filter fun entry => inWireID ≠ entry.1).foldlM
    (enqueue now packet choices.draw) (switch.link, []) with
  | none => rfl
  | some sent => rfl

/-- A reliable switch puts one copy of a frame into each target's queue. -/
theorem packetArrived_eq (reliable : switch.unreliable = false) (six : 6 ≤ packet.getSize) :
    ∃ mac : Mac, mac.toList = packet.buffer.take 6 ∧
      packetArrived junk choices switch now inWireID packet =
        ((switch.targets inWireID (NetworkUtil.arrayToUINT64 mac)).foldlM
          (enqueue now packet choices.draw) (switch.link, [])).map fun sent =>
            ({ switch with link := sent.1 }, sent.2) := by
  obtain ⟨mac, read, bytes⟩ := readArray_destination junk six
  refine ⟨mac, bytes, ?_⟩
  unfold targets
  split
  next found =>
    apply packetArrived_known read found
    intro entry _ _
    rw [clone, reliable, Bool.false_and, if_neg Bool.false_ne_true]
  next unknown => exact packetArrived_unknown read (by simpa using unknown)

/-! ## Filling several queues -/

variable {link : Link} {sends : List (Send NetMessage)}

/-- What enqueueing a frame at several ports of an unlimited link amounts to. -/
structure Enqueued (now : ℕ) (packet : Packet) (entries : List (ℕ × ℕ)) (link link' : Link)
    (new : List (Send NetMessage)) : Prop where
  settings : link'.id = link.id ∧ link'.bps = link.bps ∧
    link'.max_queue_length = link.max_queue_length
  avail : link'.nextAvailable = link.nextAvailable
  queue : ∀ port, link'.outputQueue port =
    link.outputQueue port ++ List.replicate ((entries.map Prod.fst).count port) packet
  checks : ∀ send ∈ new, send.source = link.id ∧ send.target = link.id ∧
    ∃ port ∈ entries.map Prod.fst, send.message = .checkQueue port
  paired : ∀ (queue : List (TimerContainer NetMessage)) (address uuid : ℕ),
    (∀ port, link.OneCheck queue port) →
    ∀ port, link'.OneCheck (queue ++ stamp now address uuid new) port

theorem foldlM_enqueue {draw : ℕ → ℕ} (unlimited : link.max_queue_length = 0)
    (entries : List (ℕ × ℕ)) :
    ∃ link' new, entries.foldlM (enqueue now packet draw) (link, sends) =
        some (link', sends ++ new) ∧ Enqueued now packet entries link link' new := by
  induction entries generalizing link sends with
  | nil =>
    refine ⟨link, [], by simp, ⟨rfl, rfl, rfl⟩, rfl, by simp, by simp, ?_⟩
    intro queue address uuid paired port
    simpa [stamp] using paired port
  | cons entry rest ih =>
    obtain ⟨⟨middle, first⟩, sent⟩ := Option.isSome_iff_exists.mp
      (Link.sendPacket_isSome fun limited => absurd unlimited limited :
        (link.sendPacket now entry.1 packet (draw entry.2)).isSome)
    obtain ⟨-, middle_eq, first_eq⟩ := Link.sendPacket_eq_some sent
    -- one port, and then the rest by induction from the link it leaves
    rw [Link.evict_eq_self (.inl unlimited)] at middle_eq first_eq
    have middle_queue : middle.outputQueue =
        Function.update link.outputQueue entry.1 (link.outputQueue entry.1 ++ [packet]) := by
      rw [middle_eq]
    have middle_unlimited : middle.max_queue_length = 0 := by
      rw [middle_eq]
      exact unlimited
    obtain ⟨link', new, later, h⟩ := @ih middle (sends ++ first) middle_unlimited
    refine ⟨link', first ++ new, ?_, ?_⟩
    · have step : enqueue now packet draw (link, sends) entry = some (middle, sends ++ first) := by
        rw [enqueue]
        exact bind_of_eq_some sent
      rw [List.foldlM_cons]
      refine (bind_of_eq_some step).trans ?_
      rw [later, List.append_assoc]
    · refine ⟨?_, ?_, fun port => ?_, fun send member => ?_, fun queue address uuid paired => ?_⟩
      · rw [middle_eq] at h
        exact h.settings
      · rw [h.avail, middle_eq]
      · rw [h.queue port, middle_queue, List.map_cons]
        by_cases same : entry.1 = port
        · subst same
          rw [List.count_cons_self, List.replicate_succ, Function.update_self, List.append_assoc]
          rfl
        -- the queue of another port is as it was
        · rw [List.count_cons_of_ne same, Function.update_of_ne (Ne.symm same)]
      · rw [List.mem_append] at member
        rcases member with member | member
        · rw [first_eq] at member
          split at member
          · rw [List.mem_singleton] at member
            rw [member]
            exact ⟨rfl, rfl, entry.1, by simp, rfl⟩
          · simp at member
        · obtain ⟨source, target, port, mem, message⟩ := h.checks send member
          rw [middle_eq] at source target
          exact ⟨source, target, port, by simp [mem], message⟩
      · rw [stamp_append, ← List.append_assoc]
        apply h.paired
        intro port
        -- the limit is zero here, so it is not one
        apply (paired port).sendPacket sent
        intro one
        omega

end Switch

end Kens
