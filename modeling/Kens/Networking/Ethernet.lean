/-
# The Ethernet module

Towards the wire the module writes the 14 bytes in front of the IP header: the
ethertype, and the addresses found in the tables of the host.
-/

import Mathlib
import Kens.Networking.IPv4
import Kens.Networking.RoutingInfo

namespace Kens

open Semantics

namespace Ethernet

/-- The destinations that are sent to every neighbour. -/
def ip_broadcasts : List Ipv4 :=
  [#v[255, 255, 255, 255], #v[224, 0, 0, 5], #v[224, 0, 0, 6]]

instance (ip : Ipv4) : Decidable (ip ∈ ip_broadcasts) := List.instDecidableMemOfLawfulBEq _ _

def mac_broadcast : Mac := Mac.broadcast

/-- Write both addresses and hand the frame to the host. -/
def sendFrame (packet : Packet) (dst src : Mac) : Option Passed := do
  let (packet, _) ← packet.writeData 0 dst.toList 6
  let (packet, _) ← packet.writeData 6 src.toList 6
  pure (some ("Host", packet))

def packetArrived (junk : Junk) (info : RoutingInfo) (fromModule : String) (packet : Packet) :
    Option Passed :=
  if fromModule = "Host" then do
    let first_byte ← packet.readByte 12 (junk "first_byte" 0)
    let second_byte ← packet.readByte 13 (junk "second_byte" 0)
    if first_byte = 0x08 ∧ second_byte = 0x00 then pure (some ("IPv4", packet))
    else if first_byte = 0x86 ∧ second_byte = 0xDD then pure (some ("IPv6", packet))
    -- unsupported ethertype: the module asserts
    else none
  else if fromModule = "IPv4" then do
    let (packet, _) ← packet.writeData 12 [0x08] 1
    let (packet, _) ← packet.writeData 13 [0x00] 1
    let dst_ip ← packet.readArray 30 (Vector.ofFn fun k => junk "dst_ip" k)
    if dst_ip ∈ ip_broadcasts then do
      let src_ip ← packet.readArray 26 (Vector.ofFn fun k => junk "src_ip" k)
      let port ← info.getRoutingTable src_ip
      match info.getMACAddr port with
      | none => pure none
      | some src => sendFrame packet mac_broadcast src
    else do
      let port ← info.getRoutingTable dst_ip
      match info.getMACAddr port, info.getARPTable dst_ip with
      | some src, some dst => sendFrame packet dst src
      | _, _ => pure none
  else if fromModule = "IPv6" then do
    let (packet, _) ← packet.writeData 12 [0x86] 1
    let (packet, _) ← packet.writeData 13 [0xDD] 1
    pure (some ("Host", packet))
  else pure none

end Ethernet

/-! ## What the operations do -/

namespace Packet

variable {packet : Packet} {offset index : ℕ} {data : List UInt8}

/-- The address in the four bytes from an offset on. -/
def ipAt (packet : Packet) (offset : ℕ) : Ipv4 :=
  Vector.ofFn fun k : Fin 4 => (packet.buffer.drop offset).getD k 0

theorem readArray_ipAt {old : Ipv4} (fits : offset + 4 ≤ packet.getSize) :
    packet.readArray offset old = some (packet.ipAt offset) := by
  obtain ⟨value, read, bytes⟩ : ∃ value : Ipv4, packet.readArray offset old = some value ∧
      value.toList = (packet.buffer.drop offset).take 4 := readArray_eq fits
  have same : value = packet.ipAt offset := by
    ext k small
    have entry : value.toList[k]? = ((packet.buffer.drop offset).take 4)[k]? := by rw [bytes]
    rw [List.getElem?_take_of_lt small, List.getElem?_drop, Vector.getElem?_toList,
      Vector.getElem?_eq_getElem small] at entry
    simp [ipAt, ← entry]
  rw [read, same]

theorem ipAt_overwrite (fits : offset + data.length ≤ packet.getSize)
    (behind : offset + data.length ≤ index) :
    (packet.overwrite offset data).ipAt index = packet.ipAt index := by
  rw [ipAt, overwrite, drop_splice_of_le fits behind, ipAt]

end Packet

namespace Ethernet

variable {junk : Junk} {info : RoutingInfo} {packet : Packet}

/-- The destination and source MAC address that the module finds for a packet:
`none` inside when it drops the packet. -/
def addresses (info : RoutingInfo) (dst_ip src_ip : Ipv4) : Option (Option (Mac × Mac)) :=
  if dst_ip ∈ ip_broadcasts then
    (info.getRoutingTable src_ip).map fun port =>
      (info.getMACAddr port).map fun src => (mac_broadcast, src)
  else
    (info.getRoutingTable dst_ip).map fun port =>
      match info.getMACAddr port, info.getARPTable dst_ip with
      | some src, some dst => some (dst, src)
      | _, _ => none

theorem sendFrame_eq (fits : 12 ≤ packet.getSize) (dst src : Mac) :
    sendFrame packet dst src =
      some (some ("Host", packet.overwrite 0 (dst.toList ++ src.toList))) := by
  have dst_size : dst.toList.length = 6 := Vector.length_toList
  have src_size : src.toList.length = 6 := Vector.length_toList
  have first : packet.writeData 0 dst.toList 6 = some (packet.overwrite 0 dst.toList, 6) := by
    have write := Packet.writeData_eq (by omega : 0 + dst.toList.length ≤ packet.getSize)
    rwa [dst_size] at write
  have room : 6 + src.toList.length ≤ (packet.overwrite 0 dst.toList).getSize := by
    rw [Packet.getSize_overwrite (by omega)]
    omega
  have second : (packet.overwrite 0 dst.toList).writeData 6 src.toList 6 =
      some ((packet.overwrite 0 dst.toList).overwrite 6 src.toList, 6) := by
    have write := Packet.writeData_eq room
    rwa [src_size] at write
  have joined : splice (splice packet.buffer 0 dst.toList) 6 src.toList =
      splice packet.buffer 0 (dst.toList ++ src.toList) := by
    have append : splice (splice packet.buffer 0 dst.toList) (0 + dst.toList.length) src.toList =
        splice packet.buffer 0 (dst.toList ++ src.toList) :=
      splice_append (Nat.le_trans (by omega) fits)
    rwa [dst_size] at append
  refine (bind_of_eq_some first).trans ?_
  refine (bind_of_eq_some second).trans ?_
  simp only [Packet.overwrite, joined]
  rfl

/-- Towards the wire the module fills the 14 bytes in front of the IP header. -/
theorem packetArrived_ipv4 (fits : 34 ≤ packet.getSize) :
    packetArrived junk info "IPv4" packet =
      (addresses info (packet.ipAt 30) (packet.ipAt 26)).map (Option.map fun found =>
        ("Host", (packet.overwrite 12 [0x08, 0x00]).overwrite 0
          (found.1.toList ++ found.2.toList))) := by
  have first : packet.writeData 12 [0x08] 1 = some (packet.overwrite 12 [0x08], 1) :=
    Packet.writeData_eq (Nat.le_trans (by decide : 12 + 1 ≤ 34) fits)
  have second : (packet.overwrite 12 [0x08]).writeData 13 [0x00] 1 =
      some (packet.overwrite 12 [0x08, 0x00], 1) :=
    Packet.writeByte_overwrite (Nat.lt_of_lt_of_le (by decide : 12 + 1 < 34) fits) rfl
  have room : 12 + [(0x08 : UInt8), 0x00].length ≤ packet.getSize :=
    Nat.le_trans (by decide : 14 ≤ 34) fits
  have size := Packet.getSize_overwrite room
  have address : ∀ (index : ℕ) (old : Ipv4), 14 ≤ index → index ≤ 30 →
      (packet.overwrite 12 [0x08, 0x00]).readArray index old = some (packet.ipAt index) := by
    intro index old low high
    rw [Packet.readArray_ipAt (by omega), Packet.ipAt_overwrite room low]
  rw [packetArrived, if_neg (by decide), if_pos rfl]
  refine (bind_of_eq_some first).trans ?_
  refine (bind_of_eq_some second).trans ?_
  refine (bind_of_eq_some (address 30 _ (by decide) (by decide))).trans ?_
  have frame := sendFrame_eq (Nat.le_trans (by decide : 12 ≤ 34) (Nat.le_trans fits size.ge))
  unfold addresses
  split
  next =>
    refine (bind_of_eq_some (address 26 _ (by decide) (by decide))).trans ?_
    cases info.getRoutingTable (packet.ipAt 26) with
    | none => rfl
    | some port =>
      simp only [Option.bind_eq_bind, Option.bind_some, Option.map_some]
      cases info.getMACAddr port with
      | none => rfl
      | some src => exact frame mac_broadcast src
  next =>
    cases info.getRoutingTable (packet.ipAt 30) with
    | none => rfl
    | some port =>
      simp only [Option.bind_eq_bind, Option.bind_some, Option.map_some]
      cases info.getMACAddr port with
      | none => rfl
      | some src =>
        cases info.getARPTable (packet.ipAt 30) with
        | none => rfl
        | some dst => exact frame dst src

/-- From the wire the module hands an IPv4 frame to IPv4, unchanged. -/
theorem packetArrived_host (fits : 14 ≤ packet.getSize)
    (first : packet.buffer[12]? = some 0x08) (second : packet.buffer[13]? = some 0x00) :
    packetArrived junk info "Host" packet = some (some ("IPv4", packet)) := by
  rw [packetArrived, if_pos rfl]
  refine (bind_of_eq_some ((Packet.readByte_eq (by omega)).trans first)).trans ?_
  exact bind_of_eq_some ((Packet.readByte_eq (by omega)).trans second)

end Ethernet

end Kens
