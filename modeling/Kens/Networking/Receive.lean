/-
# Receiving frames of any length

Ethernet and IPv4 read the ethertype, the IP header and the protocol number of a frame into
local variables that are not initialised, and ignore how many bytes they got. For a frame that
holds the whole header the outcome is that of its bytes, and the warning branch for a header
sum of positive zero comes to nothing. For a shorter frame the outcome is that of the memory
around it.
-/

import Mathlib
import Kens.Networking.PacketAccess
import Kens.Networking.Stack

namespace Kens

open Semantics

/-! ## What a read touches -/

namespace Packet

variable {packet : Packet} {offset length : ℕ} {data : List UInt8}

/-- The indices of the buffer that `readData` reads: as many as it is asked for, as soon as
there is one byte to read. -/
def readIndices (packet : Packet) (offset length : ℕ) : List ℕ :=
  if packet.available offset length = 0 then [] else List.range' offset length

/-- A read is defined exactly if it stays inside of the packet. -/
theorem readData_isSome_iff (room : data.length = length) :
    (packet.readData offset data length).isSome = true ↔
      ∀ index ∈ packet.readIndices offset length, index < packet.getSize := by
  by_cases nothing : packet.available offset length = 0
  · rw [readData_of_available nothing, readIndices, if_pos nothing]
    simp
  · have positive : 0 < length ∧ offset < packet.getSize := by
      unfold available at nothing
      omega
    have copied : (memcpy data 0 packet.buffer offset length).isSome = true ↔
        offset + length ≤ packet.getSize := by
      have size : packet.buffer.length = packet.getSize := rfl
      rw [memcpy, size]
      split <;> simp <;> omega
    rw [readData_of_ne nothing, readIndices, if_neg nothing, Option.isSome_map, copied]
    constructor
    · intro fits index member
      have bounds := List.mem_range'_1.mp member
      omega
    · intro inside
      have last := inside (offset + (length - 1)) (List.mem_range'_1.mpr (by omega))
      omega

theorem readByte_of_available {old : UInt8} (nothing : packet.available offset 1 = 0) :
    packet.readByte offset old = some old := by
  rw [readByte, readData_of_available nothing]
  rfl

end Packet

/-! ## The receive path -/

namespace Stack

/-- The module that a frame is meant for, by its bytes: a whole header whose sum is negative
zero, and a protocol that IPv4 serves. -/
def addressee (frame : Packet) : Option String :=
  if 34 ≤ frame.getSize ∧ NetworkUtil.oneSum ((frame.buffer.drop 14).take 20) = 0xFFFF then
    frame.buffer[23]?.bind IPv4.moduleOf
  else none

/-- Offset and length of the reads of Ethernet and IPv4 on the way up. -/
def receiveReads : List (ℕ × ℕ) :=
  [(12, 1), (13, 1), (IPv4.ip_start, 20), (IPv4.ip_start + 9, 1)]

/-- What the receive path is to do with a frame, on every host and with whatever bytes in the
local variables: Ethernet hands it to IPv4, which hands it to its addressee or drops it. No
assertion fails, and all reads stay inside of the frame. -/
structure Receives (frame : Packet) : Prop where
  ethernet : ∀ (r : Stack) (junk : Junk), r.messageReceived junk ⟨none, "Ethernet", frame⟩ =
    some (r, some ⟨some "Ethernet", "IPv4", frame⟩)
  ipv4 : ∀ (r : Stack) (junk : Junk),
    r.messageReceived junk ⟨some "Ethernet", "IPv4", frame⟩ =
      some (r, (addressee frame).map fun name => ⟨some "IPv4", name, frame⟩)
  inside : ∀ range ∈ receiveReads, ∀ index ∈ frame.readIndices range.1 range.2,
    index < frame.getSize

variable {frame : Packet} {junk : Junk}

/-- A header sum of positive zero means that the protocol number is 0, so that the branch which
accepts it drops the frame after all. -/
theorem protocol_of_zero_sum (long : 34 ≤ frame.getSize)
    (zero : NetworkUtil.oneSum ((frame.buffer.drop 14).take 20) = 0) :
    frame.buffer[23]? = some 0 := by
  have size : frame.buffer.length = frame.getSize := rfl
  have bytes : ∀ byte ∈ (frame.buffer.drop 14).take 20, byte = 0 := by
    rwa [NetworkUtil.oneSum_eq, NetworkUtil.representative_eq_zero_iff,
      NetworkUtil.wordSum_eq_zero_iff] at zero
  have inside : 23 < frame.buffer.length := by omega
  have place : ((frame.buffer.drop 14).take 20)[9]? = frame.buffer[23]? := by
    rw [List.getElem?_take_of_lt (by decide), List.getElem?_drop]
  rw [List.getElem?_eq_getElem inside] at place ⊢
  rw [bytes _ (List.mem_of_getElem? place)]

/-- A frame with a whole header goes to its addressee. -/
theorem packetArrived_addressee {self : IPv4} (long : 34 ≤ frame.getSize)
    (first : frame.buffer[12]? = some 0x08) (second : frame.buffer[13]? = some 0x00) :
    self.packetArrived junk "Ethernet" frame =
      some (self, (addressee frame).map fun name => (name, frame)) := by
  have size : frame.buffer.length = frame.getSize := rfl
  have start : IPv4.ip_start = 14 := rfl
  have read : frame.readByte 23 (junk "protocol" 0) = frame.buffer[23]? :=
    Packet.readByte_eq (by omega)
  rw [IPv4.packetArrived_header (by omega) first second, IPv4.readHeader_eq long,
    Option.bind_some, start, read]
  by_cases ones : NetworkUtil.oneSum ((frame.buffer.drop 14).take 20) = 0xFFFF
  · have inside : 23 < frame.buffer.length := by omega
    rw [if_neg (fun both => both.1 ones), addressee, if_pos ⟨long, ones⟩,
      List.getElem?_eq_getElem inside]
    rfl
  · have dropped : addressee frame = none := if_neg fun both => ones both.2
    rw [dropped]
    by_cases zero : NetworkUtil.oneSum ((frame.buffer.drop 14).take 20) = 0
    · rw [if_neg (fun both => both.2 zero), protocol_of_zero_sum long zero]
      rfl
    · exact if_pos ⟨ones, zero⟩

theorem receives_of_long (long : 34 ≤ frame.getSize) (first : frame.buffer[12]? = some 0x08)
    (second : frame.buffer[13]? = some 0x00) : Receives frame where
  ethernet r junk := by
    rw [messageReceived_ethernet, Ethernet.packetArrived_host (by omega) first second]
    rfl
  ipv4 r junk := by
    rw [messageReceived_ipv4, packetArrived_addressee long first second]
    cases addressee frame <;> rfl
  inside := by
    intro range member
    have fits : range.1 + range.2 ≤ 34 := by
      simp only [receiveReads, IPv4.ip_start, List.mem_cons, List.not_mem_nil, or_false] at member
      obtain rfl | rfl | rfl | rfl := member <;> decide
    intro index reads
    have read : (frame.readData range.1 (List.replicate range.2 0) range.2).isSome = true := by
      have whole := @Packet.readData_eq frame range.1 (List.replicate range.2 0)
        (by rw [List.length_replicate]; omega)
      rw [List.length_replicate] at whole
      rw [whole]
      rfl
    exact (Packet.readData_isSome_iff List.length_replicate).mp read index reads

/-! ## Frames without a whole header -/

/-- Local variables that happen to hold a header with a valid sum and the protocol number of
TCP. -/
def forged : Junk := fun name k =>
  if name = "protocol" then 0x06 else if k < 2 then 0xFF else 0

/-- Behind a frame that ends with its ethertype there is nothing to be read, and IPv4 goes by
what its variables held. -/
theorem packetArrived_bare {self : IPv4} (bare : frame.getSize = 14)
    (first : frame.buffer[12]? = some 0x08) (second : frame.buffer[13]? = some 0x00) :
    self.packetArrived forged "Ethernet" frame = some (self, some ("TCP", frame)) := by
  have nothing : ∀ offset length, 14 ≤ offset → frame.available offset length = 0 := by
    intro offset length behind
    unfold Packet.available
    omega
  have header : IPv4.readHeader forged frame =
      some ((List.range 20).map (forged "ip_header_buffer")) := by
    rw [IPv4.readHeader, Packet.readData_of_available (nothing _ _ (by decide))]
    rfl
  rw [IPv4.packetArrived_header (by omega) first second, header, Option.bind_some,
    if_neg (by decide), Packet.readByte_of_available (nothing _ _ (by decide))]
  rfl

/-- A frame that ends inside of the IP header is read beyond its end. -/
theorem packetArrived_truncated {self : IPv4} (some_ : 14 < frame.getSize)
    (short : frame.getSize < 34) (first : frame.buffer[12]? = some 0x08)
    (second : frame.buffer[13]? = some 0x00) :
    self.packetArrived junk "Ethernet" frame = none := by
  have available : frame.available IPv4.ip_start 20 ≠ 0 := by
    unfold Packet.available IPv4.ip_start
    omega
  have outside : IPv4.readHeader junk frame = none := by
    -- the last byte of the header is asked for, too
    have undefined : frame.readData IPv4.ip_start
        ((List.range 20).map (junk "ip_header_buffer")) 20 = none := by
      rw [← Option.not_isSome_iff_eq_none, Packet.readData_isSome_iff (by simp)]
      intro inside
      have last := inside 33 (by rw [Packet.readIndices, if_neg available]; decide)
      omega
    rw [IPv4.readHeader, undefined]
    rfl
  rw [IPv4.packetArrived_header (by omega) first second, outside]
  rfl

theorem not_receives_of_short (fits : 14 ≤ frame.getSize) (short : frame.getSize < 34)
    (first : frame.buffer[12]? = some 0x08) (second : frame.buffer[13]? = some 0x00) :
    ¬ Receives frame := by
  intro receives
  have dropped : addressee frame = none := if_neg fun both => absurd both.1 (not_le.mpr short)
  have outcome := receives.ipv4 ⟨RoutingInfo.empty, ⟨0⟩⟩ forged
  rw [messageReceived_ipv4, dropped] at outcome
  by_cases bare : frame.getSize = 14
  · rw [packetArrived_bare bare first second] at outcome
    simp at outcome
  · rw [packetArrived_truncated (by omega) short first second] at outcome
    simp at outcome

/-- For frames with the ethertype of IPv4: the receive path goes by the bytes of the frame
exactly if the frame holds a whole IP header. -/
theorem receives_iff (frame : Packet) (fits : 14 ≤ frame.getSize)
    (first : frame.buffer[12]? = some 0x08) (second : frame.buffer[13]? = some 0x00) :
    Receives frame ↔ 34 ≤ frame.getSize := by
  constructor
  · intro receives
    by_contra short
    exact not_receives_of_short fits (not_le.mp short) first second receives
  · exact fun long => receives_of_long long first second

/-- A UDP header without any payload. -/
theorem receives_iff_udp :
    let frame : Packet := ⟨List.replicate 12 0 ++ [0x08, 0x00] ++
      [0x45, 0, 0, 20, 0, 0, 0x40, 0, 64, 0x11, 0x26, 0xD7, 10, 0, 0, 1, 10, 0, 0, 2], 0⟩
    Receives frame ∧ addressee frame = some "UDP" := by
  intro frame
  exact ⟨(receives_iff frame (by decide) (by decide) (by decide)).mpr (by decide), by decide⟩

/-- A frame that ends with its ethertype is handed to TCP, and one that ends in the IP header is
read beyond its end; both are to be dropped. -/
theorem not_receives_short_frames :
    let bare : Packet := ⟨List.replicate 12 0 ++ [0x08, 0x00], 0⟩
    let truncated : Packet := ⟨List.replicate 12 0 ++ [0x08, 0x00, 0x45, 0, 0, 20], 0⟩
    let r : Stack := ⟨RoutingInfo.empty, ⟨0⟩⟩
    (r.messageReceived forged ⟨some "Ethernet", "IPv4", bare⟩ =
        some (r, some ⟨some "IPv4", "TCP", bare⟩) ∧ addressee bare = none ∧ ¬ Receives bare) ∧
      r.messageReceived forged ⟨some "Ethernet", "IPv4", truncated⟩ = none ∧
        ¬ Receives truncated := by
  intro bare truncated r
  refine ⟨⟨?_, by decide, not_receives_of_short (by decide) (by decide) rfl rfl⟩, ?_,
    not_receives_of_short (by decide) (by decide) rfl rfl⟩
  · rw [messageReceived_ipv4, packetArrived_bare rfl rfl rfl]
    rfl
  · rw [messageReceived_ipv4, packetArrived_truncated (by decide) (by decide) rfl rfl]
    rfl

end Stack

end Kens
