/-
# Where a switch sends a frame

The ports that get a copy of a frame, in terms of the calls of `addMACEntry`, and what the
copies look like. A hub always floods; a switch floods broadcasts and the frames for unknown
destinations. The bytes that an unreliable switch changes lie behind everything that Ethernet
and IPv4 look at.
-/

import Mathlib
import Kens.Networking.Stack
import Kens.Networking.Corruption
import Kens.Networking.DropPolicy

namespace Kens

open Semantics Reactive NetworkUtil

structure Hub where
  link : Link
  ports : List ℕ

/-- The loop of a hub is the second loop of a switch. -/
def Hub.packetArrived (choices : Choices) (hub : Hub) (now inWireID : ℕ) (packet : Packet) :
    Option (Hub × List (Send NetMessage)) := do
  let (link, sends) ←
    hub.ports.zipIdx.foldlM (Switch.flood choices now inWireID packet) (hub.link, [])
  pure ({ hub with link }, sends)

namespace Switch

/-! ## What the receiver looks at -/

variable {junk : Junk} {frame copy : Packet} {info : RoutingInfo} {self : IPv4}

/-- The copy is as long as the frame and starts with the same headers. -/
structure SameHeaders (frame copy : Packet) : Prop where
  long : 34 ≤ frame.getSize
  size : copy.getSize = frame.getSize
  front : copy.buffer.take 34 = frame.buffer.take 34

theorem SameHeaders.readByte (h : SameHeaders frame copy) {index : ℕ} (inside : index < 34)
    (old : UInt8) : copy.readByte index old = frame.readByte index old := by
  have long := h.long
  have size := h.size
  rw [Packet.readByte_eq (by omega), Packet.readByte_eq (by omega),
    ← List.getElem?_take_of_lt inside, h.front, List.getElem?_take_of_lt inside]

theorem SameHeaders.readHeader (h : SameHeaders frame copy) :
    IPv4.readHeader junk copy = IPv4.readHeader junk frame := by
  have long := h.long
  have size := h.size
  have window : ∀ buffer : List UInt8, (buffer.drop 14).take 20 = (buffer.take 34).drop 14 :=
    fun buffer => List.take_drop
  have start : IPv4.ip_start = 14 := rfl
  rw [IPv4.readHeader_eq (by omega), IPv4.readHeader_eq (by omega), start, window, h.front, window]

/-- The headers of a long frame can be read. -/
theorem SameHeaders.readByte_isSome (h : SameHeaders frame copy) {index : ℕ} (inside : index < 34)
    (old : UInt8) : ∃ byte, frame.readByte index old = some byte := by
  have long := h.long
  have size : frame.buffer.length = frame.getSize := rfl
  rw [Packet.readByte_eq (by omega)]
  exact ⟨_, List.getElem?_eq_getElem (by omega)⟩

/-- Ethernet hands the copy where it hands the frame. -/
theorem SameHeaders.ethernet (h : SameHeaders frame copy) :
    Ethernet.packetArrived junk info "Host" copy =
      (Ethernet.packetArrived junk info "Host" frame).map (Option.map fun passed =>
        (passed.1, copy)) := by
  obtain ⟨first, first_eq⟩ := h.readByte_isSome (by decide : 12 < 34) (junk "first_byte" 0)
  obtain ⟨second, second_eq⟩ := h.readByte_isSome (by decide : 13 < 34) (junk "second_byte" 0)
  rw [Ethernet.packetArrived, Ethernet.packetArrived, if_pos rfl, if_pos rfl,
    h.readByte (by decide), h.readByte (by decide), first_eq, second_eq]
  simp only [Option.bind_eq_bind, Option.bind_some]
  split_ifs <;> rfl

/-- IPv4 hands the copy where it hands the frame. -/
theorem SameHeaders.ipv4 (h : SameHeaders frame copy) :
    IPv4.packetArrived junk self "Ethernet" copy =
      (IPv4.packetArrived junk self "Ethernet" frame).map fun result =>
        (result.1, result.2.map fun passed => (passed.1, copy)) := by
  obtain ⟨first, first_eq⟩ := h.readByte_isSome (by decide : 12 < 34) (junk "first_byte" 0)
  obtain ⟨second, second_eq⟩ := h.readByte_isSome (by decide : 13 < 34) (junk "second_byte" 0)
  obtain ⟨protocol, protocol_eq⟩ :=
    h.readByte_isSome (by decide : IPv4.ip_start + 9 < 34) (junk "protocol" 0)
  rw [IPv4.packetArrived, IPv4.packetArrived, if_pos rfl, if_pos rfl, h.readByte (by decide),
    h.readByte (by decide), h.readHeader, h.readByte (by decide), first_eq, second_eq,
    protocol_eq, IPv4.readHeader_eq h.long]
  simp only [Option.bind_eq_bind, Option.bind_some, guard]
  split_ifs <;> rfl

/-- Ethernet and IPv4 of a host hand the frame on to a transport module. -/
def Passes (r : Stack) (junk : Junk) (name : String) (frame : Packet) : Prop :=
  r.messageReceived junk ⟨none, "Ethernet", frame⟩ =
      some (r, some ⟨some "Ethernet", "IPv4", frame⟩) ∧
    r.messageReceived junk ⟨some "Ethernet", "IPv4", frame⟩ =
      some (r, some ⟨some "IPv4", name, frame⟩)

theorem SameHeaders.passes {r : Stack} {name : String} (h : SameHeaders frame copy)
    (passes : Passes r junk name frame) : Passes r junk name copy := by
  obtain ⟨ethernet, ipv4⟩ := passes
  rw [Stack.messageReceived_ethernet, Option.map_eq_some_iff] at ethernet
  rw [Stack.messageReceived_ipv4, Option.map_eq_some_iff] at ipv4
  obtain ⟨passed, arrived, same⟩ := ethernet
  obtain ⟨⟨self, passed'⟩, arrived', same'⟩ := ipv4
  constructor
  · rw [Stack.messageReceived_ethernet, h.ethernet, arrived]
    cases passed with
    | none => simp at same
    | some p =>
      obtain ⟨target, packet⟩ := p
      obtain ⟨rfl, -⟩ : target = "IPv4" ∧ packet = frame := by simpa using same
      rfl
  · rw [Stack.messageReceived_ipv4, h.ipv4, arrived']
    cases passed' with
    | none => simp at same'
    | some p =>
      obtain ⟨target, packet⟩ := p
      obtain ⟨unchanged, rfl, -⟩ : ({ r with ipv4 := self } : Stack) = r ∧ target = name ∧
        packet = frame := by simpa using same'
      simp [unchanged]

/-! ## What the copies look like -/

/-- A copy differs from its frame in four bytes of payload at most, or in the checksum of a
segment without so much payload. -/
structure Altered (frame copy : Packet) : Prop where
  origin : copy.origin = frame.origin
  size : copy.getSize = frame.getSize
  bytes : ∀ index, copy.buffer[index]? ≠ frame.buffer[index]? →
    (58 ≤ frame.getSize ∧ 54 ≤ index ∧ index ≤ 57) ∨
      (54 ≤ frame.getSize ∧ frame.getSize ≤ 57 ∧ 50 ≤ index ∧ index ≤ 51)

theorem altered_self (frame : Packet) : Altered frame frame :=
  ⟨rfl, rfl, fun _ different => absurd rfl different⟩

theorem altered_overwrite {offset : ℕ} {data : List UInt8}
    (fits : offset + data.length ≤ frame.getSize)
    (range : ∀ index, offset ≤ index → index < offset + data.length →
      (58 ≤ frame.getSize ∧ 54 ≤ index ∧ index ≤ 57) ∨
        (54 ≤ frame.getSize ∧ frame.getSize ≤ 57 ∧ 50 ≤ index ∧ index ≤ 51)) :
    Altered frame (frame.overwrite offset data) := by
  refine ⟨rfl, Packet.getSize_overwrite fits, fun index different => ?_⟩
  rw [Packet.overwrite, getElem?_splice fits] at different
  split at different
  next inside => exact range index inside.1 inside.2
  next => exact absurd rfl different

/-- Damage succeeds for every frame. -/
theorem damage_altered (junk : Junk) (frame : Packet) :
    ∃ copy, damage junk frame = some copy ∧ Altered frame copy := by
  rcases Nat.lt_or_ge frame.getSize (14 + 20 + 20) with tiny | header
  · refine ⟨frame, ?_, altered_self frame⟩
    rw [damage, if_neg (by omega), if_neg (by omega)]
    rfl
  · rcases Nat.lt_or_ge frame.getSize (14 + 20 + 20 + 4) with short | long
    · have two : ∀ old, (newChecksum old).length = 2 := by
        intro old
        unfold newChecksum
        split <;> rfl
      refine ⟨_, damage_checksum short header, altered_overwrite ?_ ?_⟩
      · rw [two]
        omega
      · intro index low high
        rw [two] at high
        omega
    · have four : ∀ old, (newPayload old).length = 4 := by
        intro old
        unfold newPayload
        split <;> rfl
      refine ⟨_, damage_payload long, altered_overwrite ?_ ?_⟩
      · rw [four]
        omega
      · intro index low high
        rw [four] at high
        omega

theorem clone_altered (switch : Switch) (junk : Junk) (choices : Choices) (frame : Packet)
    (entry : ℕ × ℕ) :
    ∃ copy, switch.clone junk choices frame entry = some copy ∧ Altered frame copy ∧
      (switch.unreliable = false → copy = frame) := by
  by_cases drop : (switch.unreliable && choices.drop entry.2) = true
  · obtain ⟨copy, damaged, altered⟩ := damage_altered junk frame
    refine ⟨copy, ?_, altered, fun reliable => ?_⟩
    · rw [clone, if_pos drop, damaged]
    · rw [reliable] at drop
      exact absurd drop Bool.false_ne_true
  · refine ⟨frame, ?_, altered_self frame, fun _ => rfl⟩
    rw [clone, if_neg drop]

/-- The headers of a copy are those of its frame, or the frame is too short to be altered. -/
theorem Altered.passes {r : Stack} {name : String} (h : Altered frame copy)
    (passes : Passes r junk name frame) : Passes r junk name copy := by
  rcases Nat.lt_or_ge frame.getSize 54 with tiny | long
  · have same : copy.buffer = frame.buffer := by
      apply List.ext_getElem?
      intro index
      by_contra different
      have := h.bytes index different
      omega
    have whole : copy = frame := by
      rw [Packet.mk.injEq]
      exact ⟨same, h.origin⟩
    rwa [whole]
  · refine SameHeaders.passes ⟨by omega, h.size, ?_⟩ passes
    apply List.ext_getElem?
    intro index
    rcases Nat.lt_or_ge index 34 with inside | outside
    · rw [List.getElem?_take_of_lt inside, List.getElem?_take_of_lt inside]
      by_contra different
      have := h.bytes index different
      omega
    · rw [List.getElem?_take_eq_none outside, List.getElem?_take_eq_none outside]

/-! ## Who is registered where -/

/-- The MAC table built by some calls of `addMACEntry`. -/
def addMACEntries (switch : Switch) (calls : List (ℕ × Mac)) : Option Switch :=
  calls.foldlM (fun switch call => switch.addMACEntry call.1 call.2) switch

/-- Some call registered the address at the wire. -/
def RegisteredAt (ports : List ℕ) (calls : List (ℕ × Mac)) (mac : Mac) (wireID : ℕ) : Prop :=
  ∃ port, (port, mac) ∈ calls ∧ ports[port]? = some wireID

/-- The address is registered elsewhere than at the wire by which the frame came. -/
def Known (ports : List ℕ) (calls : List (ℕ × Mac)) (inWireID : ℕ) (mac : Mac) : Prop :=
  ∃ wireID, wireID ≠ inWireID ∧ RegisteredAt ports calls mac wireID

variable {switch switch' : Switch} {calls : List (ℕ × Mac)} {ports : List ℕ} {choices : Choices}
  {now inWireID wireID mac_int : ℕ} {mac : Mac}

theorem RegisteredAt.mem (h : RegisteredAt ports calls mac wireID) : wireID ∈ ports := by
  obtain ⟨port, -, found⟩ := h
  exact List.mem_of_getElem? found

/-- The table holds what the calls put into it, and nothing else of the switch changes. -/
theorem addMACEntries_eq_some (built : switch.addMACEntries calls = some switch') :
    (switch'.link = switch.link ∧ switch'.ports = switch.ports ∧
      switch'.unreliable = switch.unreliable) ∧
    ∀ wireID mac_int, mac_int ∈ switch'.mac_table wireID ↔ mac_int ∈ switch.mac_table wireID ∨
      ∃ port mac, (port, mac) ∈ calls ∧ switch.ports[port]? = some wireID ∧
        mac_int = arrayToUINT64 mac := by
  induction calls generalizing switch with
  | nil =>
    obtain rfl : switch = switch' := by simpa [addMACEntries] using built
    simp
  | cons call rest ih =>
    rw [addMACEntries, List.foldlM_cons] at built
    obtain ⟨middle, first, later⟩ := Option.bind_eq_some_iff.mp built
    obtain ⟨⟨link, same, unreliable⟩, table⟩ := ih later
    obtain ⟨wire, found, middle_eq⟩ := Option.map_eq_some_iff.mp first
    subst middle_eq
    refine ⟨⟨link, same, unreliable⟩, fun wireID mac_int => ?_⟩
    rw [table wireID mac_int]
    dsimp only
    by_cases here : wireID = wire
    · subst here
      rw [Function.update_self, List.mem_cons]
      constructor
      · rintro ((new | old) | ⟨port, mac, member, rest⟩)
        · exact .inr ⟨call.1, call.2, List.mem_cons_self, found, new⟩
        · exact .inl old
        · exact .inr ⟨port, mac, List.mem_cons_of_mem _ member, rest⟩
      · rintro (old | ⟨port, mac, member, rest⟩)
        · exact .inl (.inr old)
        · rcases List.mem_cons.mp member with rfl | member
          · exact .inl (.inl rest.2)
          · exact .inr ⟨port, mac, member, rest⟩
    · rw [Function.update_of_ne here]
      refine or_congr_right ⟨?_, ?_⟩
      · rintro ⟨port, mac, member, rest⟩
        exact ⟨port, mac, List.mem_cons_of_mem _ member, rest⟩
      · rintro ⟨port, mac, member, found', rest⟩
        rcases List.mem_cons.mp member with rfl | member
        · rw [found] at found'
          exact absurd (Option.some.inj found').symm here
        · exact ⟨port, mac, member, found', rest⟩

/-- The address at the front of a frame. -/
def destination (frame : Packet) : Mac := Vector.ofFn fun k : Fin 6 => frame.buffer.getD k 0

theorem eq_destination (bytes : mac.toList = frame.buffer.take 6) : mac = destination frame := by
  ext k small
  have entry : mac.toList[k]? = (frame.buffer.take 6)[k]? := by rw [bytes]
  rw [List.getElem?_take_of_lt small, Vector.getElem?_toList,
    Vector.getElem?_eq_getElem small] at entry
  simp [destination, ← entry]

/-- The table has the addresses that were registered, and no other. -/
theorem mem_mac_table_iff (empty : switch.mac_table = fun _ => [])
    (built : switch.addMACEntries calls = some switch') :
    arrayToUINT64 mac ∈ switch'.mac_table wireID ↔ RegisteredAt switch.ports calls mac wireID := by
  rw [(addMACEntries_eq_some built).2 wireID (arrayToUINT64 mac), empty]
  constructor
  · rintro (none | ⟨port, other, member, found, same⟩)
    · simp at none
    · rw [arrayToUINT64_inj (by decide)] at same
      subst same
      exact ⟨port, member, found⟩
  · rintro ⟨port, member, found⟩
    exact .inr ⟨port, mac, member, found, rfl⟩

/-- Whether the first loop sends to a port, in terms of the calls. -/
theorem registered_iff (empty : switch.mac_table = fun _ => [])
    (built : switch.addMACEntries calls = some switch') :
    switch'.registered inWireID (arrayToUINT64 mac) wireID = true ↔ inWireID ≠ wireID ∧
      (mac = Mac.broadcast ∨ RegisteredAt switch.ports calls mac wireID) := by
  simp only [registered, Bool.and_eq_true, Bool.or_eq_true, decide_eq_true_eq,
    mem_mac_table_iff empty built, arrayToUINT64_inj (by decide : 6 ≤ 8)]

/-- Arrays of up to eight bytes are converted to integers and back, and integers to arrays and
back up to what fits; the sum does not overflow. So an entry of the MAC table stands for one
address only: the table has the integer of an address exactly if this address was registered,
and a frame counts as a broadcast exactly if its destination is the broadcast address. -/
theorem array_integer_round_trip {n : ℕ} (short : n ≤ 8) :
    (∀ array : Vector UInt8 n, UINT64ToArray n (arrayToUINT64 array) = array) ∧
    (∀ val, arrayToUINT64 (UINT64ToArray n val) = val % 2 ^ (8 * n)) ∧
    (∀ (array : Vector UInt8 n) (front rest : List (Fin n)) (k : Fin n),
      List.finRange n = front ++ k :: rest →
        front.foldl (fun sum k => (sum + (array.get k).toNat <<< (8 * k.val)) % 2 ^ 64) 0 +
          (array.get k).toNat <<< (8 * k.val) < 2 ^ 64) ∧
    (∀ array other : Vector UInt8 n, arrayToUINT64 array = arrayToUINT64 other → array = other) ∧
    (∀ (switch : Switch) (wireID entry : ℕ) (mac other : Mac), entry ∈ switch.mac_table wireID →
      arrayToUINT64 mac = entry → arrayToUINT64 other = entry → mac = other) ∧
    (∀ mac : Mac, arrayToUINT64 mac = arrayToUINT64 Mac.broadcast ↔ mac = Mac.broadcast) ∧
    ∀ (switch switch' : Switch) (calls : List (ℕ × Mac)), (switch.mac_table = fun _ => []) →
      switch.addMACEntries calls = some switch' → ∀ (wireID inWireID : ℕ) (mac : Mac),
        (arrayToUINT64 mac ∈ switch'.mac_table wireID ↔
          RegisteredAt switch.ports calls mac wireID) ∧
        (switch'.registered inWireID (arrayToUINT64 mac) wireID = true ↔ inWireID ≠ wireID ∧
          (mac = Mac.broadcast ∨ RegisteredAt switch.ports calls mac wireID)) := by
  have six : 6 ≤ 8 := by decide
  refine ⟨fun array => UINT64ToArray_arrayToUINT64 array short,
    fun val => arrayToUINT64_UINT64ToArray val short,
    fun array front rest k loop => arrayToUINT64_no_overflow array short loop,
    fun array other same => (arrayToUINT64_inj short).mp same, ?_,
    fun mac => arrayToUINT64_inj six, ?_⟩
  · intro switch wireID entry mac other _ left right
    exact (arrayToUINT64_inj six).mp (left.trans right.symm)
  · intro switch switch' calls empty built wireID inWireID mac
    exact ⟨mem_mac_table_iff empty built, registered_iff empty built⟩

/-- A MAC address, and an integer that does not fit one. -/
theorem array_integer_round_trip_mac :
    UINT64ToArray 6 (arrayToUINT64 Mac.broadcast) = Mac.broadcast ∧
      arrayToUINT64 (UINT64ToArray 6 0x7000000000001) = 0x1 := by
  have law := array_integer_round_trip (by decide : 6 ≤ 8)
  exact ⟨law.1 Mac.broadcast, law.2.1 0x7000000000001⟩

/-! ## The calls of `sendPacket` -/

/-- A copy that is handed to `sendPacket`, with the number drawn for a full queue. -/
structure Copy where
  wireID : ℕ
  packet : Packet
  draw : ℕ

def sendCopy (now : ℕ) (state : Link × List (Send NetMessage)) (copy : Copy) :
    Option (Link × List (Send NetMessage)) := do
  let (link, new) ← state.1.sendPacket now copy.wireID copy.packet copy.draw
  pure (link, state.2 ++ new)

/-- `sendPacket` for some copies, one after the other. -/
def sendCopies (now : ℕ) (link : Link) (copies : List Copy) :
    Option (Link × List (Send NetMessage)) :=
  copies.foldlM (sendCopy now) (link, [])

/-- Every copy has joined the queue of its port, and the other queues are as before. -/
structure Queued (copies : List Copy) (link link' : Link) : Prop where
  filled : ∀ copy ∈ copies, link'.outputQueue copy.wireID =
    link.evict (link.outputQueue copy.wireID) copy.draw ++ [copy.packet]
  others : ∀ wireID, wireID ∉ copies.map Copy.wireID →
    link'.outputQueue wireID = link.outputQueue wireID

theorem foldlM_sendCopy {link : Link} {copies : List Copy} (within : link.WithinLimit)
    (once : (copies.map Copy.wireID).Nodup) (sends : List (Send NetMessage)) :
    ∃ link' sends', copies.foldlM (sendCopy now) (link, sends) = some (link', sends') ∧
      Queued copies link link' := by
  induction copies generalizing link sends with
  | nil => exact ⟨link, sends, rfl, by simp, fun _ _ => rfl⟩
  | cons copy rest ih =>
    rw [List.map_cons, List.nodup_cons] at once
    have defined : (link.sendPacket now copy.wireID copy.packet copy.draw).isSome :=
      Link.sendPacket_isSome fun limited => within limited copy.wireID
    obtain ⟨⟨middle, first⟩, sent⟩ := Option.isSome_iff_exists.mp defined
    have step : (Link.operations fun _ _ => 0).step link
        (.sendPacket now copy.wireID copy.packet copy.draw) = some (middle, _) :=
      Option.map_eq_some_iff.mpr ⟨_, sent, rfl⟩
    obtain ⟨link', sends', later, filled, others⟩ :=
      ih ((within.step_iff step).mpr trivial) once.2 (sends ++ first)
    obtain ⟨-, middle_eq, -⟩ := Link.sendPacket_eq_some sent
    have queue : middle.outputQueue = Function.update link.outputQueue copy.wireID
        (link.evict (link.outputQueue copy.wireID) copy.draw ++ [copy.packet]) := by
      rw [middle_eq]
    have evict : middle.evict = link.evict := by rw [middle_eq]; rfl
    refine ⟨link', sends', ?_, ?_, ?_⟩
    · have one : sendCopy now (link, sends) copy = some (middle, sends ++ first) :=
        bind_of_eq_some sent
      rw [List.foldlM_cons]
      exact (bind_of_eq_some one).trans later
    · intro other member
      rcases List.mem_cons.mp member with rfl | member
      · rw [others _ once.1, queue, Function.update_self]
      · -- the port of a later copy is another one
        have different : other.wireID ≠ copy.wireID := by
          intro same
          exact once.1 (same ▸ List.mem_map_of_mem member)
        rw [filled other member, evict, queue, Function.update_of_ne different]
    · intro wireID absent
      rw [List.map_cons, List.mem_cons, not_or] at absent
      rw [others wireID absent.2, queue, Function.update_of_ne absent.1]

/-- The copies of a frame for some of the ports. -/
def copiesFor (ports : List ℕ) (chosen : ℕ → Bool) (copy : ℕ × ℕ → Packet) (draw : ℕ → ℕ) :
    List Copy :=
  (ports.zipIdx.filter fun entry => chosen entry.1).map fun entry =>
    ⟨entry.1, copy entry, draw entry.2⟩

theorem wireIDs_copiesFor {chosen : ℕ → Bool} {copy : ℕ × ℕ → Packet} {draw : ℕ → ℕ} :
    (copiesFor ports chosen copy draw).map Copy.wireID = ports.filter chosen := by
  rw [copiesFor, List.map_map]
  conv_rhs => rw [← List.zipIdx_map_fst 0 ports, List.filter_map]
  rfl

theorem sendCopies_copiesFor {chosen : ℕ → Bool} {copy : ℕ × ℕ → Packet} {draw : ℕ → ℕ}
    {link : Link} :
    sendCopies now link (copiesFor ports chosen copy draw) =
      (ports.zipIdx.filter fun entry => chosen entry.1).foldlM
        (fun sent entry => enqueue now (copy entry) draw sent entry) (link, []) := by
  rw [sendCopies, copiesFor, List.foldlM_map]
  rfl

theorem hub_packetArrived (hub : Hub) :
    hub.packetArrived choices now inWireID frame =
      (sendCopies now hub.link (copiesFor hub.ports (fun wireID => inWireID ≠ wireID)
        (fun _ => frame) choices.draw)).map fun sent => ({ hub with link := sent.1 }, sent.2) := by
  rw [Hub.packetArrived, foldlM_flood, sendCopies_copiesFor, Option.map_eq_bind]
  rfl

/-! ## The forwarding set -/

/-- What a switch does with a frame. -/
structure Forwards (junk : Junk) (choices : Choices) (switch : Switch) (calls : List (ℕ × Mac))
    (now inWireID : ℕ) (frame : Packet) (copies : List Copy) : Prop where
  sent : packetArrived junk choices switch now inWireID frame =
    (sendCopies now switch.link copies).map fun sent => ({ switch with link := sent.1 }, sent.2)
  queued : switch.link.WithinLimit → ∃ link' sends, sendCopies now switch.link copies =
    some (link', sends) ∧ Queued copies switch.link link'
  once : (copies.map Copy.wireID).Nodup
  others : ∀ copy ∈ copies, copy.wireID ∈ switch.ports ∧ copy.wireID ≠ inWireID
  broadcast : destination frame = Mac.broadcast →
    ∀ wireID ∈ switch.ports, wireID ≠ inWireID → wireID ∈ copies.map Copy.wireID
  known : destination frame ≠ Mac.broadcast →
    Known switch.ports calls inWireID (destination frame) →
    ∀ wireID, wireID ∈ copies.map Copy.wireID ↔
      wireID ≠ inWireID ∧ RegisteredAt switch.ports calls (destination frame) wireID
  unknown : destination frame ≠ Mac.broadcast →
    ¬ Known switch.ports calls inWireID (destination frame) →
    (∀ wireID ∈ switch.ports, wireID ≠ inWireID → wireID ∈ copies.map Copy.wireID) ∧
    (∀ copy ∈ copies, copy.packet = frame) ∧
    packetArrived junk choices switch now inWireID frame =
      (Hub.packetArrived choices ⟨switch.link, switch.ports⟩ now inWireID frame).map
        fun result => ({ switch with link := result.1.link }, result.2)
  reliable : switch.unreliable = false → ∀ copy ∈ copies, copy.packet = frame
  altered : ∀ copy ∈ copies, Altered frame copy.packet
  passes : ∀ copy ∈ copies, ∀ (r : Stack) (junk : Junk) (name : String),
    Passes r junk name frame → Passes r junk name copy.packet

/-- What holds of the copies for a choice of ports, whatever the choice. -/
theorem mem_copiesFor {chosen : ℕ → Bool} {copyOf : ℕ × ℕ → Packet} {draw : ℕ → ℕ} {copy : Copy}
    (member : copy ∈ copiesFor ports chosen copyOf draw) :
    copy.wireID ∈ ports ∧ chosen copy.wireID = true ∧ ∃ entry, copy.packet = copyOf entry := by
  have wire : copy.wireID ∈ (copiesFor ports chosen copyOf draw).map Copy.wireID :=
    List.mem_map_of_mem member
  rw [wireIDs_copiesFor, List.mem_filter] at wire
  obtain ⟨entry, -, rfl⟩ := List.mem_map.mp member
  exact ⟨wire.1, wire.2, entry, rfl⟩

theorem nodup_copiesFor {chosen : ℕ → Bool} {copyOf : ℕ × ℕ → Packet} {draw : ℕ → ℕ}
    (distinct : ports.Nodup) : ((copiesFor ports chosen copyOf draw).map Copy.wireID).Nodup := by
  rw [wireIDs_copiesFor]
  exact distinct.filter chosen

/-- The wires that pass the condition of the first loop, in terms of the calls. -/
def Registers (switch : Switch) (calls : List (ℕ × Mac)) (inWireID : ℕ) (mac : Mac) : Prop :=
  ∀ wireID, switch.registered inWireID (arrayToUINT64 mac) wireID = true ↔
    inWireID ≠ wireID ∧ (mac = Mac.broadcast ∨ RegisteredAt switch.ports calls mac wireID)

/-- Where the first loop finds a port, it sends to the ports that the calls name. -/
theorem forwards_of_found (distinct : switch.ports.Nodup)
    (read : frame.readArray 0 (Vector.ofFn fun k : Fin 6 => junk "mac" k) =
      some (destination frame))
    (registers : Registers switch calls inWireID (destination frame))
    (found : (switch.ports.zipIdx.any fun entry =>
      switch.registered inWireID (arrayToUINT64 (destination frame)) entry.1) = true) :
    ∃ copies, Forwards junk choices switch calls now inWireID frame copies := by
  choose copyOf cloned altered same using clone_altered switch junk choices frame
  have sent : packetArrived junk choices switch now inWireID frame = _ :=
    packetArrived_known read found fun entry _ _ => cloned entry
  rw [← sendCopies_copiesFor] at sent
  obtain ⟨entry, -, chosen⟩ := List.any_eq_true.mp found
  have somewhere := (registers entry.1).mp chosen
  refine ⟨_, sent, fun within => foldlM_sendCopy within (nodup_copiesFor distinct) [],
    nodup_copiesFor distinct, ?_, ?_, ?_, ?_, ?_, ?_, ?_⟩
  · intro copy member
    obtain ⟨port, chosen, -⟩ := mem_copiesFor member
    exact ⟨port, ((registers _).mp chosen).1.symm⟩
  · intro broadcast wireID port other
    rw [wireIDs_copiesFor, List.mem_filter, registers]
    exact ⟨port, other.symm, .inl broadcast⟩
  · intro unicast _ wireID
    rw [wireIDs_copiesFor, List.mem_filter, registers, or_iff_right unicast]
    constructor
    · rintro ⟨-, other, at_wire⟩
      exact ⟨other.symm, at_wire⟩
    · rintro ⟨other, at_wire⟩
      exact ⟨at_wire.mem, other.symm, at_wire⟩
  · intro unicast unknown
    exact absurd ⟨entry.1, somewhere.1.symm, somewhere.2.resolve_left unicast⟩ unknown
  · intro reliable copy member
    obtain ⟨-, -, entry, packet⟩ := mem_copiesFor member
    rw [packet, same entry reliable]
  · intro copy member
    obtain ⟨-, -, entry, packet⟩ := mem_copiesFor member
    rw [packet]
    exact altered entry
  · intro copy member r junk name passes
    obtain ⟨-, -, entry, packet⟩ := mem_copiesFor member
    rw [packet]
    exact (altered entry).passes passes

/-- Where it finds none, the second loop does what a hub does. -/
theorem forwards_of_not_found (distinct : switch.ports.Nodup)
    (read : frame.readArray 0 (Vector.ofFn fun k : Fin 6 => junk "mac" k) =
      some (destination frame))
    (registers : Registers switch calls inWireID (destination frame))
    (missing : (switch.ports.zipIdx.any fun entry =>
      switch.registered inWireID (arrayToUINT64 (destination frame)) entry.1) = false) :
    ∃ copies, Forwards junk choices switch calls now inWireID frame copies := by
  have nobody (wireID : ℕ) (port : wireID ∈ switch.ports) : ¬ (inWireID ≠ wireID ∧
      (destination frame = Mac.broadcast ∨
        RegisteredAt switch.ports calls (destination frame) wireID)) := by
    rw [← List.zipIdx_map_fst 0 switch.ports, List.mem_map] at port
    obtain ⟨entry, listed, rfl⟩ := port
    rw [← registers]
    exact List.any_eq_false.mp missing entry listed
  have sent : packetArrived junk choices switch now inWireID frame =
      (sendCopies now switch.link (copiesFor switch.ports (fun wireID => inWireID ≠ wireID)
        (fun _ => frame) choices.draw)).map fun sent =>
          ({ switch with link := sent.1 }, sent.2) := by
    rw [sendCopies_copiesFor]
    exact packetArrived_unknown read missing
  generalize copies_eq : copiesFor switch.ports (fun wireID => inWireID ≠ wireID) (fun _ => frame)
    choices.draw = copies at sent
  have wires : copies.map Copy.wireID = switch.ports.filter fun wireID => inWireID ≠ wireID := by
    rw [← copies_eq, wireIDs_copiesFor]
  have once : (copies.map Copy.wireID).Nodup := wires ▸ distinct.filter _
  have all (wireID : ℕ) (port : wireID ∈ switch.ports) (other : wireID ≠ inWireID) :
      wireID ∈ copies.map Copy.wireID := by
    rw [wires, List.mem_filter]
    exact ⟨port, decide_eq_true other.symm⟩
  have whole (copy : Copy) (member : copy ∈ copies) : copy.packet = frame := by
    rw [← copies_eq] at member
    exact (mem_copiesFor member).2.2.choose_spec
  refine ⟨copies, sent, fun within => foldlM_sendCopy within once [], once, ?_, fun _ => all,
    ?_, ?_, fun _ => whole, ?_, ?_⟩
  · intro copy member
    have wire : copy.wireID ∈ copies.map Copy.wireID := List.mem_map_of_mem member
    rw [wires, List.mem_filter] at wire
    exact ⟨wire.1, (of_decide_eq_true wire.2).symm⟩
  · rintro - ⟨wireID, other, at_wire⟩
    exact absurd ⟨other.symm, .inr at_wire⟩ (nobody wireID at_wire.mem)
  · intro _ _
    refine ⟨all, whole, ?_⟩
    rw [sent, hub_packetArrived, Option.map_map, copies_eq]
    rfl
  · intro copy member
    rw [whole copy member]
    exact altered_self frame
  · intro copy member r junk name passes
    rwa [whole copy member]

/-- A switch sends one copy of a frame to each port at which the destination is registered, and
floods broadcasts and the frames for destinations that are not known elsewhere. -/
theorem forwarding_set {link : Link} {unreliable : Bool} (distinct : ports.Nodup)
    (built : addMACEntries { link, ports, unreliable } calls = some switch)
    (six : 6 ≤ frame.getSize) (junk : Junk) (choices : Choices) (now inWireID : ℕ) :
    ∃ copies, Forwards junk choices switch calls now inWireID frame copies := by
  obtain ⟨⟨-, same, -⟩, -⟩ := addMACEntries_eq_some built
  obtain ⟨mac, read, bytes⟩ := readArray_destination junk six
  have registers : Registers switch calls inWireID mac := by
    intro wireID
    rw [same]
    exact registered_iff rfl built
  dsimp only at same
  subst same
  obtain rfl := eq_destination bytes
  cases found : (switch.ports.zipIdx.any fun entry =>
      switch.registered inWireID (arrayToUINT64 (destination frame)) entry.1) with
  | true => exact forwards_of_found distinct read registers found
  | false => exact forwards_of_not_found distinct read registers found

/-- An unreliable switch with three wires, two addresses, and a frame of 60 bytes for the
second of them. -/
theorem forwarding_set_three :
    ∃ switch, addMACEntries { link := { id := 1 }, ports := [4, 5, 6], unreliable := true }
        [(0, #v[2, 0, 0, 0, 0, 1]), (2, #v[2, 0, 0, 0, 0, 2])] = some switch ∧
      ∃ copies, Forwards (fun _ _ => 0) ⟨fun _ => true, fun _ => 0⟩ switch
        [(0, #v[2, 0, 0, 0, 0, 1]), (2, #v[2, 0, 0, 0, 0, 2])] 0 4
        ⟨[2, 0, 0, 0, 0, 2] ++ List.replicate 54 0, 0⟩ copies := by
  obtain ⟨switch, built⟩ : ∃ switch, addMACEntries
      { link := { id := 1 }, ports := [4, 5, 6], unreliable := true }
      [(0, #v[2, 0, 0, 0, 0, 1]), (2, #v[2, 0, 0, 0, 0, 2])] = some switch := ⟨_, rfl⟩
  exact ⟨switch, built, forwarding_set (by decide) built (by decide) _ _ _ _⟩

end Switch

end Kens
