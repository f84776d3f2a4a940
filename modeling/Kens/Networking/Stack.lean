/-
# Through the stack and back

Ethernet and IPv4 as the host runs them, one `PacketPass` message at a time. A
packet that a transport module sends leaves as a frame with a valid header, and
any other host hands that frame to its module of the same name.
-/

import Mathlib
import Kens.Networking.Ethernet

namespace Kens

open Semantics

/-- A packet on its way between two modules of a host. -/
structure PacketPass where
  source : Option String
  target : String
  packet : Packet

/-- The parts of a host that Ethernet and IPv4 use. -/
structure Stack where
  routing : RoutingInfo
  ipv4 : IPv4

namespace Stack

/-- `Host::messageReceived` for a `PacketPass` to one of the two modules. The
result has the message that the module sends in turn, if any. -/
def messageReceived (junk : Junk) (s : Stack) (pass : PacketPass) :
    Option (Stack × Option PacketPass) :=
  let fromName := pass.source.getD "Host"
  if pass.target = "IPv4" then do
    let (ipv4, passed) ← s.ipv4.packetArrived junk fromName pass.packet
    pure ({ s with ipv4 }, passed.map fun p => ⟨some "IPv4", p.1, p.2⟩)
  else if pass.target = "Ethernet" then do
    let passed ← Ethernet.packetArrived junk s.routing fromName pass.packet
    pure (s, passed.map fun p => ⟨some "Ethernet", p.1, p.2⟩)
  else none

variable {junk : Junk} {s : Stack} {packet : Packet} {name : String}

/-- What Ethernet does with a frame that the host got from a wire. -/
theorem messageReceived_ethernet (r : Stack) (frame : Packet) :
    r.messageReceived junk ⟨none, "Ethernet", frame⟩ =
      (Ethernet.packetArrived junk r.routing "Host" frame).map fun passed =>
        (r, passed.map fun p => ⟨some "Ethernet", p.1, p.2⟩) := by
  rw [Option.map_eq_bind]
  rfl

/-- What IPv4 does with a frame from Ethernet. -/
theorem messageReceived_ipv4 (r : Stack) (frame : Packet) :
    r.messageReceived junk ⟨some "Ethernet", "IPv4", frame⟩ =
      (IPv4.packetArrived junk r.ipv4 "Ethernet" frame).map fun result =>
        ({ r with ipv4 := result.1 }, result.2.map fun p => ⟨some "IPv4", p.1, p.2⟩) := by
  rw [Option.map_eq_bind]
  rfl

/-! ## The frame on the wire -/

/-- What the frame made of a packet looks like. -/
structure FrameOf (packet frame : Packet) : Prop where
  size : frame.getSize = packet.getSize
  payload : frame.buffer.drop 26 = packet.buffer.drop 26
  length : ∃ high low : UInt8, (frame.buffer.drop 16).take 2 = [high, low] ∧
    256 * high.toNat + low.toNat = packet.getSize - 14
  checksum : NetworkUtil.oneSum ((frame.buffer.drop 14).take 20) = 0xFFFF

/-- Whatever host receives the frame, Ethernet and IPv4 hand it on unchanged to
the named module. -/
def Accepted (name : String) (frame : Packet) : Prop :=
  ∀ (r : Stack) (junk : Junk),
    r.messageReceived junk ⟨none, "Ethernet", frame⟩ =
      some (r, some ⟨some "Ethernet", "IPv4", frame⟩) ∧
    r.messageReceived junk ⟨some "Ethernet", "IPv4", frame⟩ =
      some (r, some ⟨some "IPv4", name, frame⟩)

/-- A packet handed to IPv4 leaves the host as a frame that any host accepts. -/
def RoundTrip (s : Stack) (name : String) (packet : Packet) : Prop :=
  ∀ junk : Junk, ∃ (s' : Stack) (outgoing frame : Packet),
    s.messageReceived junk ⟨some name, "IPv4", packet⟩ =
      some (s', some ⟨some "IPv4", "Ethernet", outgoing⟩) ∧
    s'.messageReceived junk ⟨some "IPv4", "Ethernet", outgoing⟩ =
      some (s', some ⟨some "Ethernet", "Host", frame⟩) ∧
    FrameOf packet frame ∧ Accepted name frame

/-- The routing, MAC and ARP tables have an answer for an address. -/
def Resolves (info : RoutingInfo) (ip : Ipv4) : Prop :=
  ∃ port, info.getRoutingTable ip = some port ∧
    (info.getMACAddr port).isSome ∧ (info.getARPTable ip).isSome

/-- An address is routed to a port with a MAC address. -/
def HasPort (info : RoutingInfo) (ip : Ipv4) : Prop :=
  ∃ port, info.getRoutingTable ip = some port ∧ (info.getMACAddr port).isSome

/-- What Ethernet asks of the tables: a broadcast is sent from the port of its
source, any other packet needs all three answers for its destination. -/
def Deliverable (info : RoutingInfo) (packet : Packet) : Prop :=
  if packet.ipAt 30 ∈ Ethernet.ip_broadcasts then HasPort info (packet.ipAt 26)
  else Resolves info (packet.ipAt 30)

theorem addresses_of_deliverable {info : RoutingInfo} (deliverable : Deliverable info packet) :
    ∃ found, Ethernet.addresses info (packet.ipAt 30) (packet.ipAt 26) = some (some found) := by
  unfold Deliverable at deliverable
  unfold Ethernet.addresses
  split at deliverable
  next broadcast =>
    obtain ⟨port, route, mac⟩ := deliverable
    obtain ⟨src, src_eq⟩ := Option.isSome_iff_exists.mp mac
    rw [if_pos broadcast, route, Option.map_some, src_eq]
    exact ⟨_, rfl⟩
  next unicast =>
    obtain ⟨port, route, mac, arp⟩ := deliverable
    obtain ⟨src, src_eq⟩ := Option.isSome_iff_exists.mp mac
    obtain ⟨dst, dst_eq⟩ := Option.isSome_iff_exists.mp arp
    rw [if_neg unicast, route, Option.map_some, src_eq, dst_eq]
    exact ⟨_, rfl⟩

/-- The three ranges that the two modules write lie next to each other. -/
theorem layers_buffer {fields addresses : List UInt8} (a b : UInt8) (fits : 34 ≤ packet.getSize)
    (ip : fields.length = 12) (macs : addresses.length = 12) :
    (((packet.overwrite 14 fields).overwrite 12 [a, b]).overwrite 0 addresses).buffer =
      addresses ++ (a :: b :: (fields ++ packet.buffer.drop 26)) := by
  have size : packet.buffer.length = packet.getSize := rfl
  have inner : (splice packet.buffer 14 fields).length = packet.buffer.length :=
    length_splice (by omega)
  have above : (splice packet.buffer 14 fields).drop 14 = fields ++ packet.buffer.drop 26 := by
    rw [drop_splice (by omega), ip]
  have middle : (splice (splice packet.buffer 14 fields) 12 [a, b]).drop 12 =
      [a, b] ++ (splice packet.buffer 14 fields).drop 14 := drop_splice (by omega)
  have outer : (splice (splice (splice packet.buffer 14 fields) 12 [a, b]) 0 addresses).drop 0 =
      addresses ++ (splice (splice packet.buffer 14 fields) 12 [a, b]).drop (0 + addresses.length) :=
    drop_splice (Nat.zero_le _)
  rw [List.drop_zero, macs, Nat.zero_add, middle, above] at outer
  exact outer

/-- The IP fields of a packet that a module hands to IPv4. -/
def front (s : Stack) (name : String) (packet : Packet) : List UInt8 :=
  IPv4.fields ((packet.getSize - IPv4.ip_start) % 2 ^ 16) s.ipv4.identification
    (IPv4.protocolOf name)

/-- What IPv4 hands to Ethernet. -/
def outgoing (s : Stack) (name : String) (packet : Packet) : Packet :=
  packet.overwrite IPv4.ip_start
    (s.front name packet ++ IPv4.checksumOf (s.front name packet) ((packet.buffer.drop 26).take 8))

/-- What Ethernet hands to the host, for the addresses it found. -/
def frame (s : Stack) (name : String) (packet : Packet) (found : Mac × Mac) : Packet :=
  ((s.outgoing name packet).overwrite 12 [0x08, 0x00]).overwrite 0
    (found.1.toList ++ found.2.toList)

/-- The bytes of the frame behind the two addresses. -/
def typeAndBody (s : Stack) (name : String) (packet : Packet) : List UInt8 :=
  0x08 :: 0x00 :: (s.front name packet ++
    IPv4.checksumOf (s.front name packet) ((packet.buffer.drop 26).take 8) ++
    packet.buffer.drop 26)

variable {found : Mac × Mac}

theorem frame_buffer (fits : 34 ≤ packet.getSize) :
    (s.frame name packet found).buffer =
      (found.1.toList ++ found.2.toList) ++ s.typeAndBody name packet := by
  apply layers_buffer _ _ fits rfl
  rw [List.length_append, Vector.length_toList, Vector.length_toList]

/-- From the ethertype on, the frame does not depend on the addresses. -/
theorem frame_drop (fits : 34 ≤ packet.getSize) :
    (s.frame name packet found).buffer.drop 12 = s.typeAndBody name packet := by
  rw [frame_buffer fits]
  apply List.drop_left'
  rw [List.length_append, Vector.length_toList, Vector.length_toList]

theorem frame_byte (fits : 34 ≤ packet.getSize) (k : ℕ) :
    (s.frame name packet found).buffer[12 + k]? = (s.typeAndBody name packet)[k]? := by
  rw [← frame_drop fits, List.getElem?_drop]

theorem frame_drop_add (fits : 34 ≤ packet.getSize) (k : ℕ) :
    (s.frame name packet found).buffer.drop (12 + k) = (s.typeAndBody name packet).drop k := by
  rw [← frame_drop fits, List.drop_drop]

theorem frame_size (fits : 34 ≤ packet.getSize) :
    (s.frame name packet found).getSize = packet.getSize := by
  have size : packet.buffer.length = packet.getSize := rfl
  have ten : (s.front name packet).length = 10 := rfl
  have two : (IPv4.checksumOf (s.front name packet) ((packet.buffer.drop 26).take 8)).length = 2 :=
    rfl
  rw [Packet.getSize, frame_buffer fits]
  simp only [typeAndBody, List.length_append, List.length_cons, List.length_drop,
    Vector.length_toList, ten, two]
  omega

theorem frame_header (fits : 34 ≤ packet.getSize) :
    ((s.frame name packet found).buffer.drop 14).take 20 = s.front name packet ++
      IPv4.checksumOf (s.front name packet) ((packet.buffer.drop 26).take 8) ++
      (packet.buffer.drop 26).take 8 := by
  rw [frame_drop_add fits 2]
  rfl

theorem frame_checksum (fits : 34 ≤ packet.getSize) :
    NetworkUtil.oneSum (((s.frame name packet found).buffer.drop 14).take 20) = 0xFFFF := by
  rw [frame_header fits]
  have ten : (s.front name packet).length = 10 := rfl
  apply NetworkUtil.oneSum_complement (by rw [ten]; decide)
  -- the first byte of the header is never 0
  intro zero
  simp [front, IPv4.fields, NetworkUtil.wordSum, NetworkUtil.weight] at zero

theorem frameOf_frame (fits : 34 ≤ packet.getSize) (bound : packet.getSize ≤ 65549) :
    FrameOf packet (s.frame name packet found) where
  size := frame_size fits
  payload := by
    rw [frame_drop_add fits 14]
    rfl
  length := by
    have size : (packet.getSize - IPv4.ip_start) % 2 ^ 16 = packet.getSize - 14 := by
      apply Nat.mod_eq_of_lt
      rw [IPv4.ip_start]
      omega
    have bytes : ((s.frame name packet found).buffer.drop 16).take 2 =
        [UInt8.ofNat ((packet.getSize - 14) >>> 8),
          UInt8.ofNat ((packet.getSize - 14) &&& 0xFF)] := by
      rw [frame_drop_add fits 4, ← size]
      rfl
    refine ⟨_, _, bytes, ?_⟩
    have low : (packet.getSize - 14) &&& 0xFF = (packet.getSize - 14) % 256 :=
      Nat.and_two_pow_sub_one_eq_mod _ 8
    have high : (packet.getSize - 14) >>> 8 = (packet.getSize - 14) / 256 :=
      Nat.shiftRight_eq_div_pow _ 8
    rw [low, high, UInt8.toNat_ofNat', UInt8.toNat_ofNat']
    omega
  checksum := frame_checksum fits

theorem accepted_frame (member : name ∈ IPv4.transports) (fits : 34 ≤ packet.getSize) :
    Accepted name (s.frame name packet found) := by
  intro r junk
  have size : 34 ≤ (s.frame name packet found).getSize := by rwa [frame_size fits]
  have first : (s.frame name packet found).buffer[12]? = some 0x08 := frame_byte fits 0
  have second : (s.frame name packet found).buffer[13]? = some 0x00 := frame_byte fits 1
  have protocol : (s.frame name packet found).buffer[23]? = some (IPv4.protocolOf name) :=
    frame_byte fits 11
  constructor
  · exact bind_of_eq_some (Ethernet.packetArrived_host (by omega) first second)
  · exact bind_of_eq_some
      (IPv4.packetArrived_ethernet member size first second (frame_checksum fits) protocol)

/-! ## The round trip -/

theorem outgoing_room (fits : 34 ≤ packet.getSize) :
    IPv4.ip_start + (s.front name packet ++
      IPv4.checksumOf (s.front name packet) ((packet.buffer.drop 26).take 8)).length ≤
      packet.getSize :=
  Nat.le_trans (by decide : 26 ≤ 34) fits

/-- IPv4 does not touch the addresses that Ethernet looks up. -/
theorem outgoing_ipAt (fits : 34 ≤ packet.getSize) {index : ℕ} (behind : 26 ≤ index) :
    (s.outgoing name packet).ipAt index = packet.ipAt index :=
  Packet.ipAt_overwrite (outgoing_room fits) behind

theorem ipv4_passes (member : name ∈ IPv4.transports) (fits : 34 ≤ packet.getSize) :
    s.messageReceived junk ⟨some name, "IPv4", packet⟩ =
      some ({ s with ipv4 := ⟨(s.ipv4.identification + 1) % 2 ^ 16⟩ },
        some ⟨some "IPv4", "Ethernet", s.outgoing name packet⟩) :=
  bind_of_eq_some (IPv4.packetArrived_transport member fits)

theorem ethernet_passes (fits : 34 ≤ packet.getSize) (r : Stack) :
    r.messageReceived junk ⟨some "IPv4", "Ethernet", s.outgoing name packet⟩ =
      (Ethernet.addresses r.routing (packet.ipAt 30) (packet.ipAt 26)).map fun found =>
        (r, found.map fun found => ⟨some "Ethernet", "Host", s.frame name packet found⟩) := by
  have size : 34 ≤ (s.outgoing name packet).getSize := by
    rw [outgoing, Packet.getSize_overwrite (outgoing_room fits)]
    exact fits
  have arrived := @Ethernet.packetArrived_ipv4 junk r.routing _ size
  rw [outgoing_ipAt fits (by decide), outgoing_ipAt fits (by decide)] at arrived
  have unfolded : r.messageReceived junk ⟨some "IPv4", "Ethernet", s.outgoing name packet⟩ =
      (Ethernet.packetArrived junk r.routing "IPv4" (s.outgoing name packet) >>= fun passed =>
        pure (r, passed.map fun p => ⟨some "Ethernet", p.1, p.2⟩)) := rfl
  rw [unfolded, arrived]
  cases Ethernet.addresses r.routing (packet.ipAt 30) (packet.ipAt 26) with
  | none => rfl
  | some found =>
    cases found with
    | none => rfl
    | some found => rfl

/-- A packet that Ethernet can address survives the way down one stack and up
another. -/
theorem round_trip {s : Stack} {name : String} {packet : Packet}
    (member : name ∈ IPv4.transports) (fits : 34 ≤ packet.getSize)
    (bound : packet.getSize ≤ 65549) (deliverable : Deliverable s.routing packet) :
    RoundTrip s name packet := by
  intro junk
  obtain ⟨found, found_eq⟩ := addresses_of_deliverable deliverable
  refine ⟨_, _, s.frame name packet found, ipv4_passes member fits, ?_,
    frameOf_frame fits bound, accepted_frame member fits⟩
  rw [ethernet_passes fits, found_eq]
  rfl

theorem round_trip_unicast :
    RoundTrip
      ⟨⟨[⟨#v[2, 0, 0, 0, 0, 1], 0⟩], [], [⟨#v[10, 0, 0, 2], #v[2, 0, 0, 0, 0, 2]⟩], []⟩, ⟨65535⟩⟩
      "UDP" ⟨List.replicate 26 0 ++ [10, 0, 0, 1, 10, 0, 0, 2] ++ [1, 2, 3], 0⟩ := by
  apply round_trip (by decide) (by decide) (by decide)
  rw [Deliverable, if_neg (by decide)]
  exact ⟨0, rfl, rfl, rfl⟩

/-- It is not enough that the tables resolve the destination: a broadcast whose
source is routed to a port without a MAC address is dropped, whatever the tables
say about the broadcast address. -/
theorem not_round_trip_of_resolves :
    ¬ ∀ (s : Stack) (name : String) (packet : Packet), name ∈ IPv4.transports →
      34 ≤ packet.getSize → packet.getSize ≤ 65549 →
      (Resolves s.routing (packet.ipAt 30) ∨
        packet.ipAt 30 ∈ Ethernet.ip_broadcasts ∧ HasPort s.routing (packet.ipAt 26)) →
      RoundTrip s name packet := by
  intro claimed
  let s : Stack :=
    ⟨⟨[⟨#v[2, 0, 0, 0, 0, 1], 0⟩], [], [⟨#v[255, 255, 255, 255], #v[2, 0, 0, 0, 0, 2]⟩],
      [⟨#v[10, 0, 0, 0], 8, 1⟩]⟩, ⟨0⟩⟩
  let packet : Packet := ⟨List.replicate 26 0 ++ [10, 0, 0, 1, 255, 255, 255, 255], 0⟩
  have resolved : Resolves s.routing (packet.ipAt 30) := ⟨0, rfl, rfl, rfl⟩
  have fits : 34 ≤ packet.getSize := by decide
  have member : "UDP" ∈ IPv4.transports := by decide
  obtain ⟨s', outgoing, frame, down, out, -, -⟩ :=
    claimed s "UDP" packet member fits (by decide) (.inl resolved) (fun _ _ => 0)
  rw [ipv4_passes member fits] at down
  obtain ⟨rfl, rfl⟩ : _ = s' ∧ s.outgoing "UDP" packet = outgoing := by simpa using down
  have dropped : Ethernet.addresses s.routing (packet.ipAt 30) (packet.ipAt 26) = some none := rfl
  rw [ethernet_passes fits, dropped] at out
  simp at out

end Stack

end Kens
