/-
# The IPv4 module

`packetArrived` checks and demultiplexes what Ethernet hands up, and fills in the
IP header of what a transport module hands down. Local variables that the source
does not initialise start with arbitrary bytes, a parameter of the model.
-/

import Mathlib
import Kens.Networking.NetworkUtil

namespace Kens

open Semantics

/-- What a host module does with a packet: hand it to a module, or drop it. -/
abbrev Passed := Option (String × Packet)

structure IPv4 where
  identification : ℕ
deriving DecidableEq

namespace IPv4

/-- The first byte of the IP header. -/
def ip_start : ℕ := 14

/-- The protocol number for a sending module. -/
def protocolOf (fromModule : String) : UInt8 :=
  let proto : UInt8 := 0
  let proto := if fromModule = "TCP" then 0x06 else proto
  let proto := if fromModule = "UDP" then 0x11 else proto
  if fromModule = "OSPF" then 0x59 else proto

/-- The single-byte writes of the sending path, in program order. -/
def writeFields (packet : Packet) (cur_id : ℕ) (proto : UInt8) : Option Packet := do
  -- version and header length
  let (packet, _) ← packet.writeData (ip_start + 0) [((4 : UInt8) <<< 4) + 5] 1
  -- DSCP, ECN
  let (packet, _) ← packet.writeData (ip_start + 1) [0] 1
  guard (packet.getSize ≥ ip_start + 20)
  let size := (packet.getSize - ip_start) % 2 ^ 16
  let (packet, _) ← packet.writeData (ip_start + 2) [UInt8.ofNat (size >>> 8)] 1
  let (packet, _) ← packet.writeData (ip_start + 3) [UInt8.ofNat (size &&& 0xFF)] 1
  let (packet, _) ← packet.writeData (ip_start + 4) [UInt8.ofNat (cur_id >>> 8)] 1
  let (packet, _) ← packet.writeData (ip_start + 5) [UInt8.ofNat (cur_id &&& 0xFF)] 1
  -- do not fragment, offset 0
  let (packet, _) ← packet.writeData (ip_start + 6) [(1 : UInt8) <<< 6] 1
  let (packet, _) ← packet.writeData (ip_start + 7) [0] 1
  -- time to live
  let (packet, _) ← packet.writeData (ip_start + 8) [64] 1
  let (packet, _) ← packet.writeData (ip_start + 9) [proto] 1
  -- checksum
  let (packet, _) ← packet.writeData (ip_start + 10) [0] 1
  let (packet, _) ← packet.writeData (ip_start + 11) [0] 1
  pure packet

/-- `ip_header_buffer`, filled from the packet. -/
def readHeader (junk : Junk) (packet : Packet) : Option (List UInt8) := do
  let (header, _) ← packet.readData ip_start ((List.range 20).map (junk "ip_header_buffer")) 20
  pure header

def packetArrived (junk : Junk) (self : IPv4) (fromModule : String) (packet : Packet) :
    Option (IPv4 × Passed) :=
  if fromModule = "Ethernet" then do
    let first_byte ← packet.readByte 12 (junk "first_byte" 0)
    let second_byte ← packet.readByte 13 (junk "second_byte" 0)
    guard (first_byte = 0x08 ∧ second_byte = 0x00)
    let header ← readHeader junk packet
    let checksum := NetworkUtil.oneSum header
    -- a sum of 0 is accepted with a warning
    if checksum ≠ 0xFFFF ∧ checksum ≠ 0 then pure (self, none)
    else do
      let protocol ← packet.readByte (ip_start + 9) (junk "protocol" 0)
      if protocol = 0x06 then pure (self, some ("TCP", packet))
      else if protocol = 0x11 then pure (self, some ("UDP", packet))
      else if protocol = 0x59 then pure (self, some ("OSPF", packet))
      else pure (self, none)
  else if fromModule = "TCP" ∨ fromModule = "UDP" ∨ fromModule = "OSPF" then do
    let cur_id := self.identification
    let packet ← writeFields packet cur_id (protocolOf fromModule)
    let header ← readHeader junk packet
    let checksum := NetworkUtil.oneSum header
    -- the 16-bit complement
    let checksum := 0xFFFF - checksum
    let (packet, _) ←
      packet.writeData (ip_start + 10) (NetworkUtil.networkBytes checksum) 2
    pure (⟨(self.identification + 1) % 2 ^ 16⟩, some ("Ethernet", packet))
  else none

end IPv4

/-! ## What the operations do -/

namespace IPv4

variable {junk : Junk} {self : IPv4} {packet : Packet}

/-- The header in front of its checksum. -/
def fields (size cur_id : ℕ) (proto : UInt8) : List UInt8 :=
  [((4 : UInt8) <<< 4) + 5, 0, UInt8.ofNat (size >>> 8), UInt8.ofNat (size &&& 0xFF),
    UInt8.ofNat (cur_id >>> 8), UInt8.ofNat (cur_id &&& 0xFF), (1 : UInt8) <<< 6, 0, 64, proto]

/-- The twelve writes fill the header up to the addresses. -/
theorem writeFields_eq (fits : 34 ≤ packet.getSize) (cur_id : ℕ) (proto : UInt8) :
    writeFields packet cur_id proto =
      some (packet.overwrite ip_start
        (fields ((packet.getSize - ip_start) % 2 ^ 16) cur_id proto ++ [0, 0])) := by
  have start : ip_start = 14 := rfl
  have size : (packet.overwrite ip_start [((4 : UInt8) <<< 4) + 5, 0]).getSize =
      packet.getSize :=
    Packet.getSize_overwrite (by simp only [List.length_cons, List.length_nil]; omega)
  have large : packet.getSize ≥ ip_start + 20 := fits
  -- each write stands just behind the `count` bytes written so far
  have step : ∀ (count : ℕ) (front : List UInt8) (byte : UInt8)
      (rest : Packet × ℕ → Option Packet), front.length = count → count < 20 →
      ((packet.overwrite ip_start front).writeData (ip_start + count) [byte] 1 >>= rest) =
        rest (packet.overwrite ip_start (front ++ [byte]), 1) := by
    intro count front byte rest length short
    subst length
    rw [Packet.writeByte_overwrite (by omega) rfl]
    rfl
  have unwritten : packet.overwrite ip_start [] = packet := by simp [Packet.overwrite]
  have first := step 0 [] (((4 : UInt8) <<< 4) + 5)
  rw [unwritten] at first
  refine (first _ rfl (by decide)).trans ?_
  refine (step 1 _ 0 _ rfl (by decide)).trans ?_
  simp only [List.nil_append, List.cons_append, size, guard, large, ↓reduceIte]
  generalize (packet.getSize - ip_start) % 2 ^ 16 = length
  refine (step 2 _ _ _ rfl (by decide)).trans ?_
  refine (step 3 _ _ _ rfl (by decide)).trans ?_
  refine (step 4 _ _ _ rfl (by decide)).trans ?_
  refine (step 5 _ _ _ rfl (by decide)).trans ?_
  refine (step 6 _ _ _ rfl (by decide)).trans ?_
  refine (step 7 _ _ _ rfl (by decide)).trans ?_
  refine (step 8 _ _ _ rfl (by decide)).trans ?_
  refine (step 9 _ _ _ rfl (by decide)).trans ?_
  refine (step 10 _ _ _ rfl (by decide)).trans ?_
  exact step 11 _ _ _ rfl (by decide)

theorem readHeader_eq (fits : 34 ≤ packet.getSize) :
    readHeader junk packet = some ((packet.buffer.drop ip_start).take 20) := by
  have read : packet.readData ip_start ((List.range 20).map (junk "ip_header_buffer")) 20 =
      some ((packet.buffer.drop ip_start).take 20, 20) :=
    Packet.readData_eq fits
  rw [readHeader, read]
  rfl

/-- The checksum that the sending path writes. -/
def checksumOf (front addresses : List UInt8) : List UInt8 :=
  NetworkUtil.networkBytes (0xFFFF - NetworkUtil.oneSum (front ++ [0, 0] ++ addresses))

/-- The modules that IPv4 serves. -/
def transports : List String := ["TCP", "UDP", "OSPF"]

/-- The sending path replaces the twelve bytes in front of the addresses. -/
theorem packetArrived_transport {name : String} (member : name ∈ transports)
    (fits : 34 ≤ packet.getSize) :
    let front := fields ((packet.getSize - ip_start) % 2 ^ 16) self.identification (protocolOf name)
    packetArrived junk self name packet =
      some (⟨(self.identification + 1) % 2 ^ 16⟩,
        some ("Ethernet", packet.overwrite ip_start
          (front ++ checksumOf front ((packet.buffer.drop 26).take 8)))) := by
  intro front
  have other : name ≠ "Ethernet" := by
    rintro rfl
    exact absurd member (by decide)
  have known : name = "TCP" ∨ name = "UDP" ∨ name = "OSPF" := by
    simpa [transports] using member
  have room : ip_start + (front ++ [0, 0]).length ≤ packet.getSize :=
    Nat.le_trans (by decide : 26 ≤ 34) fits
  have header : ((packet.overwrite ip_start (front ++ [0, 0])).buffer.drop ip_start).take 20 =
      front ++ [0, 0] ++ (packet.buffer.drop 26).take 8 := by
    rw [Packet.overwrite, drop_splice (Nat.le_trans (by decide : ip_start ≤ 34) fits)]
    rfl
  have read : readHeader junk (packet.overwrite ip_start (front ++ [0, 0])) =
      some (front ++ [0, 0] ++ (packet.buffer.drop 26).take 8) := by
    rw [readHeader_eq (by rw [Packet.getSize_overwrite room]; exact fits), header]
  have write : (packet.overwrite ip_start (front ++ [0, 0])).writeData (ip_start + 10)
      (checksumOf front ((packet.buffer.drop 26).take 8)) 2 =
      some (packet.overwrite ip_start (front ++ checksumOf front ((packet.buffer.drop 26).take 8)),
        2) := by
    refine (Packet.writeData_eq ?_).trans ?_
    · rw [Packet.getSize_overwrite room]
      exact room
    · have replaced : splice (splice packet.buffer ip_start (front ++ [0, 0])) (ip_start + 10)
          (checksumOf front ((packet.buffer.drop 26).take 8)) = _ :=
        splice_replace rfl room
      simp only [Packet.overwrite, replaced]
      rfl
  rw [packetArrived, if_neg other, if_pos known]
  refine (bind_of_eq_some (writeFields_eq fits _ _)).trans ?_
  refine (bind_of_eq_some read).trans ?_
  exact bind_of_eq_some write

/-- The module for a protocol number. -/
def moduleOf (protocol : UInt8) : Option String :=
  if protocol = 0x06 then some "TCP"
  else if protocol = 0x11 then some "UDP"
  else if protocol = 0x59 then some "OSPF"
  else none

theorem moduleOf_protocolOf {name : String} (member : name ∈ transports) :
    moduleOf (protocolOf name) = some name := by
  simp only [transports, List.mem_cons, List.not_mem_nil, or_false] at member
  obtain rfl | rfl | rfl := member <;> rfl

/-- The receiving path behind the check of the ethertype. -/
theorem packetArrived_header (fits : 14 ≤ packet.getSize)
    (first : packet.buffer[12]? = some 0x08) (second : packet.buffer[13]? = some 0x00) :
    packetArrived junk self "Ethernet" packet =
      (readHeader junk packet).bind fun header =>
        if NetworkUtil.oneSum header ≠ 0xFFFF ∧ NetworkUtil.oneSum header ≠ 0 then
          some (self, none)
        else (packet.readByte (ip_start + 9) (junk "protocol" 0)).map fun protocol =>
          (self, (moduleOf protocol).map fun name => (name, packet)) := by
  rw [packetArrived, if_pos rfl]
  refine (bind_of_eq_some ((Packet.readByte_eq (by omega)).trans first)).trans ?_
  refine (bind_of_eq_some ((Packet.readByte_eq (by omega)).trans second)).trans ?_
  refine congrArg (Option.bind (readHeader junk packet)) (funext fun header => ?_)
  refine if_congr Iff.rfl rfl ?_
  cases packet.readByte (ip_start + 9) (junk "protocol" 0) with
  | none => rfl
  | some protocol =>
    simp only [Option.bind_eq_bind, Option.bind_some, Option.map_some, moduleOf]
    split_ifs <;> rfl

/-- The receiving path hands a frame with a valid checksum to the module of its
protocol, unchanged. -/
theorem packetArrived_ethernet {name : String} (member : name ∈ transports)
    (fits : 34 ≤ packet.getSize) (first : packet.buffer[12]? = some 0x08)
    (second : packet.buffer[13]? = some 0x00)
    (checksum : NetworkUtil.oneSum ((packet.buffer.drop ip_start).take 20) = 0xFFFF)
    (protocol : packet.buffer[23]? = some (protocolOf name)) :
    packetArrived junk self "Ethernet" packet = some (self, some (name, packet)) := by
  have start : ip_start + 9 = 23 := rfl
  rw [packetArrived_header (by omega) first second, readHeader_eq fits, Option.bind_some, checksum,
    if_neg (by decide), Packet.readByte_eq (by omega), start, protocol, Option.map_some,
    moduleOf_protocolOf member]
  rfl

/-- The receiving path drops a frame whose header sum is neither negative nor positive zero. -/
theorem packetArrived_ethernet_drop (fits : 34 ≤ packet.getSize)
    (first : packet.buffer[12]? = some 0x08) (second : packet.buffer[13]? = some 0x00)
    (ones : NetworkUtil.oneSum ((packet.buffer.drop ip_start).take 20) ≠ 0xFFFF)
    (zero : NetworkUtil.oneSum ((packet.buffer.drop ip_start).take 20) ≠ 0) :
    packetArrived junk self "Ethernet" packet = some (self, none) := by
  rw [packetArrived_header (by omega) first second, readHeader_eq fits, Option.bind_some]
  exact if_pos ⟨ones, zero⟩

end IPv4

end Kens
