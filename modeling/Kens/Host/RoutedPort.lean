/-
# The port by which a frame leaves

Ethernet chooses a port and writes its MAC address into the frame; the host looks for the
port with this address again, from port 0 on. It expects every port that it passes to have
a MAC address, so that a frame for a port behind one without an address never leaves.
-/

import Mathlib
import Kens.Host.Execution
import Kens.Networking.Ethernet

namespace Kens.Host

open Semantics

variable {s : State} {packet frame : Packet} {my_mac dst src : Mac} {p : ℕ} {junk : Junk}

/-! ## Looking for the port -/

/-- Ports with other addresses are passed. -/
theorem selectPort_append {host : Host} {front : List ℕ} (rest : List ℕ)
    (others : ∀ k ∈ front, ∃ mac, host.routing.getMACAddr k = some mac ∧ my_mac ≠ mac) :
    host.selectPort my_mac (front ++ rest) = host.selectPort my_mac rest := by
  induction front with
  | nil => rfl
  | cons k front ih =>
    obtain ⟨mac, found, different⟩ := others k (by simp)
    rw [List.cons_append, selectPort, found]
    dsimp only
    rw [if_neg different]
    exact ih fun k member => others k (by simp [member])

/-- The ports up to a given one come first. -/
theorem range_eq_append {n : ℕ} (inside : p < n) :
    ∃ rest, List.range n = List.range p ++ p :: rest := by
  obtain ⟨m, rfl⟩ := Nat.exists_eq_add_of_lt inside
  refine ⟨(List.range m).map fun k => p + (k + 1), ?_⟩
  rw [Nat.add_assoc, List.range_add, List.range_succ_eq_map, List.map_cons, List.map_map]
  rfl

/-- Two connected ports have different addresses, if any. -/
def DistinctMACs (host : Host) : Prop :=
  ∀ k l : ℕ, k < host.ports.length → l < host.ports.length → ∀ mac,
    host.routing.getMACAddr k = some mac → host.routing.getMACAddr l = some mac → k = l

/-- The search finds the port with the address, if all ports in front of it have one. -/
theorem selectPort_eq_some {host : Host} (distinct : DistinctMACs host)
    (connected : p < host.ports.length) (own : host.routing.getMACAddr p = some my_mac)
    (set : ∀ k < p, (host.routing.getMACAddr k).isSome) :
    host.selectPort my_mac (List.range host.ports.length) = some p := by
  obtain ⟨rest, range⟩ := range_eq_append connected
  rw [range, selectPort_append, selectPort, own]
  · exact if_pos rfl
  · intro k member
    have before : k < p := List.mem_range.mp member
    obtain ⟨mac, found⟩ := Option.isSome_iff_exists.mp (set k before)
    refine ⟨mac, found, ?_⟩
    rintro rfl
    have same := distinct k p (by omega) connected _ found own
    omega

/-- The search fails at the first port without an address. -/
theorem selectPort_eq_none {host : Host} (distinct : DistinctMACs host)
    (connected : p < host.ports.length) (own : host.routing.getMACAddr p = some my_mac)
    (unset : ∃ k < p, host.routing.getMACAddr k = none) :
    host.selectPort my_mac (List.range host.ports.length) = none := by
  classical
  obtain ⟨before, missing⟩ := Nat.find_spec unset
  have earlier : ∀ j < Nat.find unset, (host.routing.getMACAddr j).isSome := by
    intro j early
    rw [Option.isSome_iff_ne_none]
    exact fun missing => Nat.find_min unset early ⟨by omega, missing⟩
  generalize Nat.find unset = k at before missing earlier
  obtain ⟨rest, range⟩ := range_eq_append (before.trans connected)
  rw [range, selectPort_append, selectPort, missing]
  intro j member
  have early : j < k := List.mem_range.mp member
  obtain ⟨mac, found⟩ := Option.isSome_iff_exists.mp (earlier j early)
  refine ⟨mac, found, ?_⟩
  rintro rfl
  have same := distinct j p (by omega) connected _ found own
  omega

/-! ## What Ethernet hands to the host -/

/-- The port that Ethernet chooses for a packet. -/
def chosenPort (info : RoutingInfo) (packet : Packet) : Option ℤ :=
  if packet.ipAt 30 ∈ Ethernet.ip_broadcasts then info.getRoutingTable (packet.ipAt 26)
  else info.getRoutingTable (packet.ipAt 30)

/-- The source address in the frame is that of the chosen port. -/
theorem mac_of_chosenPort {info : RoutingInfo} {port : ℤ} (fits : 34 ≤ packet.getSize)
    (chosen : chosenPort info packet = some port)
    (passed : Ethernet.packetArrived junk info "IPv4" packet = some (some ("Host", frame))) :
    ∃ dst src : Mac, info.getMACAddr port = some src ∧
      frame = (packet.overwrite 12 [0x08, 0x00]).overwrite 0 (dst.toList ++ src.toList) := by
  rw [Ethernet.packetArrived_ipv4 fits] at passed
  obtain ⟨found, addresses, frame_eq⟩ := Option.map_eq_some_iff.mp passed
  obtain ⟨⟨dst, src⟩, rfl, same⟩ := Option.map_eq_some_iff.mp frame_eq
  refine ⟨dst, src, ?_, (congrArg Prod.snd same).symm⟩
  unfold Ethernet.addresses at addresses
  unfold chosenPort at chosen
  split at addresses
  next broadcast =>
    rw [if_pos broadcast] at chosen
    rw [chosen, Option.map_some, Option.some.injEq, Option.map_eq_some_iff] at addresses
    obtain ⟨mac, found, pair⟩ := addresses
    rw [found, (Prod.mk.inj pair).2]
  next unicast =>
    rw [if_neg unicast] at chosen
    rw [chosen, Option.map_some, Option.some.injEq] at addresses
    split at addresses
    next mac _ found _ =>
      rw [found, (Prod.mk.inj (Option.some.inj addresses)).2]
    · simp at addresses

/-- The host reads the source address back. -/
theorem readArray_source (fits : 12 ≤ packet.getSize) (old : Mac) :
    (packet.overwrite 0 (dst.toList ++ src.toList)).readArray 6 old = some src := by
  have dst_size : dst.toList.length = 6 := Vector.length_toList
  have src_size : src.toList.length = 6 := Vector.length_toList
  have room : 0 + (dst.toList ++ src.toList).length ≤ packet.getSize := by
    rw [List.length_append, dst_size, src_size]
    exact fits
  obtain ⟨value, read, bytes⟩ : ∃ value : Mac,
      (packet.overwrite 0 (dst.toList ++ src.toList)).readArray 6 old = some value ∧
      value.toList = ((packet.overwrite 0 (dst.toList ++ src.toList)).buffer.drop 6).take 6 :=
    Packet.readArray_eq (by rw [Packet.getSize_overwrite room]; exact fits)
  have same : value.toList = src.toList := by
    rw [bytes, Packet.overwrite, splice, List.take_zero, List.nil_append, List.append_assoc,
      List.drop_left' dst_size, List.take_left' src_size]
  rw [read, Vector.toList_inj.mp same]

/-! ## The frame leaves -/

/-- The host sends the frame by the given port and by no other. A host that is down sends
nothing. -/
def SendsBy (s : State) (p : ℕ) (frame : Packet) : Prop :=
  ∀ junk, ∃ portID, s.host.ports[p]? = some portID ∧
    s.sendPacketToModule (some "Ethernet") "Host" frame junk =
      some (s, if s.host.running then [.packetToPort portID frame] else [])

/-- The frame leaves by the port that Ethernet has chosen exactly if all ports in front of it
have a MAC address. -/
theorem sendsBy_chosenPort_iff (fits : 34 ≤ packet.getSize) (distinct : DistinctMACs s.host)
    (chosen : chosenPort s.host.routing packet = some (p : ℤ))
    (connected : p < s.host.ports.length)
    (passed : Ethernet.packetArrived junk s.host.routing "IPv4" packet =
      some (some ("Host", frame))) :
    SendsBy s p frame ↔ ∀ k < p, (s.host.routing.getMACAddr k).isSome := by
  obtain ⟨dst, src, own, rfl⟩ := mac_of_chosenPort fits chosen passed
  have type_room : 12 + [(0x08 : UInt8), 0x00].length ≤ packet.getSize :=
    Nat.le_trans (by decide : 14 ≤ 34) fits
  have room : 12 ≤ (packet.overwrite 12 [0x08, 0x00]).getSize := by
    rw [Packet.getSize_overwrite type_room]
    omega
  generalize packet.overwrite 12 [0x08, 0x00] = typed at passed room
  have sends : ∀ old, s.sendPacketToModule (some "Ethernet") "Host"
      (typed.overwrite 0 (dst.toList ++ src.toList)) old =
      (s.host.selectPort src (List.range s.host.ports.length)).bind fun selected_port =>
        s.sendPacket selected_port (typed.overwrite 0 (dst.toList ++ src.toList)) := by
    intro old
    rw [State.sendPacketToModule, if_pos rfl, readArray_source room]
    dsimp only
    cases s.host.selectPort src (List.range s.host.ports.length) <;> rfl
  constructor
  · intro sent
    by_contra incomplete
    simp only [not_forall, Option.not_isSome_iff_eq_none] at incomplete
    obtain ⟨k, before, missing⟩ := incomplete
    obtain ⟨portID, -, value⟩ := sent src
    rw [sends, selectPort_eq_none distinct connected own ⟨k, before, missing⟩] at value
    simp at value
  · intro set old
    refine ⟨s.host.ports[p], List.getElem?_eq_getElem connected, ?_⟩
    rw [sends, selectPort_eq_some distinct connected own set, Option.bind_some]
    rw [State.sendPacket, List.getElem?_eq_getElem connected]
    cases s.host.running <;> rfl

/-! A host with two ports, and a packet that is routed to the second of them. -/

/-- The host, with some MAC addresses. -/
def twoPorts (macs : List MacEntry) : State where
  host :=
    { ports := [7, 8]
      routing := ⟨macs, [], [⟨#v[10, 0, 0, 2], #v[2, 0, 0, 0, 0, 9]⟩], [⟨#v[10, 0, 0, 0], 8, 1⟩]⟩ }

/-- The packet. -/
def routedPacket : Packet := ⟨List.replicate 26 0 ++ [10, 0, 0, 1, 10, 0, 0, 2], 0⟩

/-- The frame that Ethernet makes of it. -/
def routedFrame : Packet :=
  ⟨[2, 0, 0, 0, 0, 9, 2, 0, 0, 0, 0, 1, 0x08, 0x00] ++ List.replicate 12 0 ++
    [10, 0, 0, 1, 10, 0, 0, 2], 0⟩

theorem sendsBy_chosenPort_iff_second :
    SendsBy (twoPorts [⟨#v[2, 0, 0, 0, 0, 1], 1⟩, ⟨#v[2, 0, 0, 0, 0, 2], 0⟩]) 1 routedFrame := by
  have distinct :
      DistinctMACs (twoPorts [⟨#v[2, 0, 0, 0, 0, 1], 1⟩, ⟨#v[2, 0, 0, 0, 0, 2], 0⟩]).host := by
    intro k l inside inside' mac found found'
    change k < 2 at inside
    change l < 2 at inside'
    interval_cases k <;> interval_cases l
    · rfl
    · exact absurd (found.trans found'.symm) (by decide)
    · exact absurd (found.trans found'.symm) (by decide)
    · rfl
  have fits : 34 ≤ routedPacket.getSize := by decide
  have passed : Ethernet.packetArrived (fun _ _ => 0)
      (twoPorts [⟨#v[2, 0, 0, 0, 0, 1], 1⟩, ⟨#v[2, 0, 0, 0, 0, 2], 0⟩]).host.routing "IPv4"
      routedPacket = some (some ("Host", routedFrame)) := rfl
  exact (sendsBy_chosenPort_iff fits distinct rfl (by decide) passed).mpr (by decide)

/-- The first port has no MAC address: the frame does not leave. -/
theorem not_sendsBy_chosenPort :
    let s := twoPorts [⟨#v[2, 0, 0, 0, 0, 1], 1⟩]
    DistinctMACs s.host ∧ 34 ≤ routedPacket.getSize ∧
      chosenPort s.host.routing routedPacket = some 1 ∧ 1 < s.host.ports.length ∧
      Ethernet.packetArrived (fun _ _ => 0) s.host.routing "IPv4" routedPacket =
        some (some ("Host", routedFrame)) ∧
      ¬ SendsBy s 1 routedFrame := by
  intro s
  have distinct : DistinctMACs s.host := by
    intro k l inside inside' mac found found'
    change k < 2 at inside
    change l < 2 at inside'
    interval_cases k <;> interval_cases l
    · rfl
    · exact absurd found nofun
    · exact absurd found' nofun
    · rfl
  refine ⟨distinct, by decide, rfl, by decide, rfl, fun sends => ?_⟩
  obtain ⟨portID, -, value⟩ := sends Mac.broadcast
  have thrown : s.sendPacketToModule (some "Ethernet") "Host" routedFrame Mac.broadcast = none :=
    rfl
  rw [thrown] at value
  simp at value

end Kens.Host
