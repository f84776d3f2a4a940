/-
# Damaged segments

An unreliable switch overwrites four bytes of TCP payload, or the TCP checksum of a
segment without so much payload, in the copies that it "drops". The receiver is to notice
the damage by the checksum. A sum of words modulo 65535 notices a change exactly when it
changes the sum, and there are payloads whose first two words have the same sum as the
pattern that the switch writes.
-/

import Mathlib
import Kens.Networking.Switch

namespace Kens.Switch

open Semantics Reactive NetworkUtil

/-- The `uint32_t` that a read of four bytes gives. -/
def ofMemoryBytes (bytes : List UInt8) : UInt32 :=
  bytes.foldr (fun byte rest => rest <<< 8 ||| byte.toUInt32) 0

/-- An address in the IP header of a frame. -/
def addressAt (frame : Packet) (offset : ℕ) : UInt32 :=
  ofMemoryBytes ((frame.buffer.drop offset).take 4)

/-- The TCP segment of a frame with an IP header of 20 bytes. -/
def segment (frame : Packet) : List UInt8 := frame.buffer.drop (14 + 20)

/-- The checksum of the segment is right. -/
def Verifies (frame : Packet) : Prop :=
  tcpSum (addressAt frame (14 + 12)) (addressAt frame (14 + 16)) (segment frame) = 0xFFFF

instance (frame : Packet) : Decidable (Verifies frame) := inferInstanceAs (Decidable (_ = _))

/-- The first four bytes of payload behind a TCP header of 20 bytes. -/
def payloadHead (frame : Packet) : List UInt8 := (frame.buffer.drop (14 + 20 + 20)).take 4

variable {junk : Junk} {frame : Packet} {offset : ℕ} {new : List UInt8}

/-! ## Overwriting a part of the segment -/

theorem overwrite_self {n : ℕ} (fits : offset + n ≤ frame.getSize) :
    frame.overwrite offset ((frame.buffer.drop offset).take n) = frame := by
  have size : frame.buffer.length = frame.getSize := rfl
  have length : ((frame.buffer.drop offset).take n).length = n := by
    rw [List.length_take, List.length_drop]
    omega
  unfold Packet.overwrite splice
  rw [length, List.append_assoc, ← List.drop_drop, List.take_append_drop, List.take_append_drop]

/-- The addresses stand in front of the segment. -/
theorem addressAt_overwrite {position : ℕ} (before : position + 4 ≤ offset)
    (inside : offset ≤ frame.getSize) :
    addressAt (frame.overwrite offset new) position = addressAt frame position := by
  have window : ∀ buffer : List UInt8, (buffer.drop position).take 4 =
      ((buffer.take offset).take (position + 4)).drop position := by
    intro buffer
    rw [List.take_take, min_eq_left before, List.drop_take, Nat.add_sub_cancel_left]
  have front : (frame.overwrite offset new).buffer.take offset = frame.buffer.take offset :=
    take_splice inside
  unfold addressAt
  rw [window, front, ← window]

theorem segment_overwrite (behind : 14 + 20 ≤ offset) (inside : offset ≤ frame.getSize) :
    segment (frame.overwrite offset new) =
      (frame.buffer.take offset).drop (14 + 20) ++ new ++
        frame.buffer.drop (offset + new.length) := by
  have size : frame.buffer.length = frame.getSize := rfl
  change (splice frame.buffer offset new).drop (14 + 20) = _
  rw [splice, List.append_assoc, List.drop_append_of_le_length, List.append_assoc]
  rw [List.length_take]
  omega

/-- Overwriting words of a segment that verifies goes unnoticed exactly when the sum of the
words stays the same modulo 65535. -/
theorem verifies_overwrite_iff (verifies : Verifies frame) (header : 14 + 20 + 20 ≤ frame.getSize)
    (behind : 14 + 20 ≤ offset) (fits : offset + new.length ≤ frame.getSize)
    (even : offset.bodd = false) :
    Verifies (frame.overwrite offset new) ↔ wordSum true new % 65535 =
      wordSum true ((frame.buffer.drop offset).take new.length) % 65535 := by
  have size : frame.buffer.length = frame.getSize := rfl
  have inside : offset ≤ frame.getSize := by omega
  generalize old_eq : (frame.buffer.drop offset).take new.length = old
  have same : old.length = new.length := by
    rw [← old_eq, List.length_take, List.length_drop]
    omega
  have length : ∀ frame : Packet, (segment frame).length = frame.getSize - 34 :=
    fun frame => List.length_drop
  have front : ((frame.buffer.take offset).drop (14 + 20)).length.bodd = false := by
    obtain ⟨k, rfl⟩ := Nat.exists_eq_add_of_le behind
    rw [Nat.bodd_add] at even
    rw [List.length_drop, List.length_take, size, min_eq_left inside, Nat.add_sub_cancel_left]
    simpa using even
  -- the segment is the one with the old words written over themselves
  have before : segment frame = (frame.buffer.take offset).drop (14 + 20) ++ old ++
      frame.buffer.drop (offset + new.length) := by
    have shape : segment (frame.overwrite offset old) = _ := segment_overwrite behind inside
    rwa [← old_eq, overwrite_self (by omega), old_eq, same] at shape
  have sums := wordSum_replace front same (frame.buffer.drop (offset + new.length))
  rw [← before, ← segment_overwrite behind inside] at sums
  have grown := Packet.getSize_overwrite fits
  unfold Verifies at verifies ⊢
  rw [tcpSum_eq_allOnes_iff (by rw [length]; omega)] at verifies
  rw [addressAt_overwrite (by omega) inside, addressAt_overwrite (by omega) inside,
    tcpSum_eq_allOnes_iff (by rw [length]; omega)]
  rw [length] at verifies ⊢
  rw [grown]
  omega

/-! ## What the switch writes -/

/-- Reading some bytes and writing others in their place. -/
theorem readData_writeData {old : List UInt8} (choose : List UInt8 → List UInt8)
    (fits : offset + old.length ≤ frame.getSize)
    (same : ∀ data, (choose data).length = old.length) :
    (do
      let (data, _) ← frame.readData offset old old.length
      let (frame, _) ← frame.writeData offset (choose data) old.length
      pure frame) =
      some (frame.overwrite offset (choose ((frame.buffer.drop offset).take old.length))) := by
  refine (bind_of_eq_some (Packet.readData_eq fits)).trans ?_
  have write : ∀ new : List UInt8, new.length = old.length →
      frame.writeData offset new old.length = some (frame.overwrite offset new, old.length) := by
    intro new length
    rw [← length]
    exact Packet.writeData_eq (by rw [length]; exact fits)
  exact bind_of_eq_some (write _ (same _))

/-- What is written over the payload. -/
def newPayload (data : List UInt8) : List UInt8 :=
  if data ≠ [0xEE, 0xEE, 0xEE, 0xEE] then [0xEE, 0xEE, 0xEE, 0xEE] else [0xEF, 0xEE, 0xEE, 0xEE]

/-- What is written over the checksum. -/
def newChecksum (checksum : List UInt8) : List UInt8 :=
  if checksum ≠ [0xEE, 0xEE] then [0xEE, 0xEE] else [0xEF, 0xEE]

theorem damage_payload (long : 14 + 20 + 20 + 4 ≤ frame.getSize) :
    damage junk frame = some (frame.overwrite (14 + 20 + 20) (newPayload (payloadHead frame))) := by
  rw [damage, if_pos long]
  exact readData_writeData newPayload long fun data => by unfold newPayload; split <;> rfl

theorem damage_checksum (short : frame.getSize < 14 + 20 + 20 + 4)
    (header : 14 + 20 + 20 ≤ frame.getSize) :
    damage junk frame = some (frame.overwrite (14 + 20 + 16)
      (newChecksum ((frame.buffer.drop (14 + 20 + 16)).take 2))) := by
  have fits : 14 + 20 + 16 + ((List.range 2).map (junk "checksum")).length ≤ frame.getSize := by
    rw [List.length_map, List.length_range]
    omega
  rw [damage, if_neg (not_le.mpr short), if_pos header]
  exact readData_writeData newChecksum fits fun data => by unfold newChecksum; split <;> rfl

/-- The switch forwards the given packet in place of a frame that it "drops". -/
def ForwardsInstead (junk : Junk) (frame copy : Packet) : Prop :=
  ∀ (switch : Switch) (choices : Choices) (now inWireID mac_int : ℕ)
    (sent : Link × List (Send NetMessage)) (found : Bool) (entry : ℕ × ℕ),
    switch.registered inWireID mac_int entry.1 = true → switch.unreliable = true →
    choices.drop entry.2 = true →
    switch.forward junk choices now inWireID frame mac_int (sent, found) entry =
      (enqueue now copy choices.draw sent entry).map fun sent => (sent, true)

theorem forwardsInstead_of_damage {copy : Packet} (damaged : damage junk frame = some copy) :
    ForwardsInstead junk frame copy := by
  intro switch choices now inWireID mac_int sent found entry chosen unreliable drop
  apply forward_registered chosen
  rw [clone, unreliable, drop, Bool.and_self, if_pos rfl, damaged]

/-! ## Whether the damage shows -/

/-- Another checksum always changes the sum. -/
theorem wordSum_newChecksum {old : List UInt8} (two : old.length = 2) :
    wordSum true (newChecksum old) % 65535 ≠ wordSum true old % 65535 := by
  match old, two with
  | [high, low], _ =>
    have high_lt := high.toNat_lt
    have low_lt := low.toNat_lt
    have sum : wordSum true [high, low] = 256 * high.toNat + low.toNat := by
      simp [wordSum, weight, Nat.shiftLeft_eq, Nat.mul_comm]
    unfold newChecksum
    split
    next other =>
      have pattern : wordSum true [0xEE, 0xEE] = 0xEEEE := rfl
      rw [pattern, sum]
      intro same
      -- a word with the residue of the pattern is the pattern
      have word : 256 * high.toNat + low.toNat = 0xEEEE := by
        rcases Nat.lt_or_ge (256 * high.toNat + low.toNat) 65535 with small | large
        · rw [Nat.mod_eq_of_lt small] at same
          exact same.symm
        · have ones : 256 * high.toNat + low.toNat = 65535 := by omega
          rw [ones] at same
          exact absurd same (by decide)
      have high_eq : high = 0xEE := UInt8.toNat.inj (by change _ = 0xEE; omega)
      have low_eq : low = 0xEE := UInt8.toNat.inj (by change _ = 0xEE; omega)
      exact other (by rw [high_eq, low_eq])
    next same =>
      rw [not_not.mp same]
      decide

/-- Another payload changes the sum unless its words have the sum of the pattern. -/
theorem wordSum_newPayload (old : List UInt8) :
    wordSum true (newPayload old) % 65535 ≠ wordSum true old % 65535 ↔
      old = [0xEE, 0xEE, 0xEE, 0xEE] ∨ wordSum true old % 65535 ≠ 0xDDDD := by
  have first : wordSum true [0xEE, 0xEE, 0xEE, 0xEE] % 65535 = 0xDDDD := by decide
  have second : wordSum true [0xEF, 0xEE, 0xEE, 0xEE] % 65535 ≠ 0xDDDD := by decide
  unfold newPayload
  split
  next other => rw [first, or_iff_right other, ne_comm]
  -- the pattern itself is damaged in its first byte, which changes the sum
  next same =>
    rw [not_not] at same
    rw [same, first]
    exact iff_of_true second (.inl rfl)

/-- The copy of a segment that the switch damages verifies no more, exactly if the frame is
too short for four bytes of payload, or these bytes are the pattern already, or the sum of
their two words differs from that of the pattern modulo 65535. -/
theorem damage_noticed_iff (junk : Junk) (frame : Packet)
    (header : 14 + 20 + 20 ≤ frame.getSize) (verifies : Verifies frame) :
    ∃ copy, ForwardsInstead junk frame copy ∧
      (¬ Verifies copy ↔ frame.getSize < 14 + 20 + 20 + 4 ∨
        payloadHead frame = [0xEE, 0xEE, 0xEE, 0xEE] ∨
        wordSum true (payloadHead frame) % 65535 ≠ 0xDDDD) := by
  -- the switch damages the payload if there are four bytes of it, else the checksum
  by_cases long : 14 + 20 + 20 + 4 ≤ frame.getSize
  · have four : (newPayload (payloadHead frame)).length = 4 := by
      unfold newPayload
      split <;> rfl
    refine ⟨_, forwardsInstead_of_damage (damage_payload long), ?_⟩
    rw [verifies_overwrite_iff verifies header (by omega) (by rw [four]; exact long) rfl, four,
      or_iff_right (not_lt.mpr long)]
    exact wordSum_newPayload (payloadHead frame)
  · rw [not_le] at long
    have two : ((frame.buffer.drop (14 + 20 + 16)).take 2).length = 2 := by
      have size : frame.buffer.length = frame.getSize := rfl
      rw [List.length_take, List.length_drop]
      omega
    have two' : ∀ old, (newChecksum old).length = 2 := by
      intro old
      unfold newChecksum
      split <;> rfl
    refine ⟨_, forwardsInstead_of_damage (damage_checksum long header), ?_⟩
    rw [verifies_overwrite_iff verifies header (by omega) (by rw [two']; omega) rfl, two']
    exact iff_of_true (wordSum_newChecksum two) (.inl long)

/-- A frame with a TCP segment of four bytes of payload. -/
def segmentFrame (checksum payload : List UInt8) : Packet :=
  ⟨[0xCD, 0xCD, 0xCD, 0xCD, 0xCD, 0xCD, 0xBC, 0xBC, 0xBC, 0xBC, 0xBC, 0xBC, 0x08, 0x00,
    0x45, 0x00, 0x00, 0x2C, 0x00, 0x00, 0x00, 0x00, 0x40, 0x06, 0xAF, 0x19,
    0xC0, 0xA8, 0x00, 0x07, 0x0A, 0x00, 0x01, 0x04,
    0x04, 0xD2, 0x00, 0x50, 0x00, 0x00, 0x00, 0x01, 0x00, 0x00, 0x00, 0x00,
    0x50, 0x18, 0x20, 0x00] ++ checksum ++ [0x00, 0x00] ++ payload, 0⟩

theorem damage_noticed_iff_plain : ∃ copy, ForwardsInstead (fun _ _ => 0)
    (segmentFrame [0xBA, 0xEC] [1, 2, 3, 4]) copy ∧ ¬ Verifies copy := by
  obtain ⟨copy, forwarded, noticed⟩ := damage_noticed_iff (fun _ _ => 0)
    (segmentFrame [0xBA, 0xEC] [1, 2, 3, 4]) (by decide) (by decide +kernel)
  exact ⟨copy, forwarded, noticed.mpr (.inr (.inr (by decide +kernel)))⟩

/-- A segment whose payload is `DD DD 00 00`: the damaged copy verifies as well. -/
theorem not_damage_noticed :
    let frame := segmentFrame [0xE1, 0x14] [0xDD, 0xDD, 0x00, 0x00]
    54 ≤ frame.getSize ∧ frame.getSize ≤ 65549 ∧ Verifies frame ∧
      ∃ copy, ForwardsInstead (fun _ _ => 0) frame copy ∧ copy ≠ frame ∧ Verifies copy := by
  intro frame
  have damaged : damage (fun _ _ => 0) frame =
      some (segmentFrame [0xE1, 0x14] [0xEE, 0xEE, 0xEE, 0xEE]) := by decide +kernel
  refine ⟨by decide, by decide, by decide +kernel, _, forwardsInstead_of_damage damaged, ?_⟩
  decide +kernel

end Kens.Switch
