/-
# The bounds of packet access

`writeData` and `readData` clamp the offset and the number of bytes to the packet and
report the clamped number, but they copy the number of bytes that was asked for. What
they promise therefore holds exactly for ranges that do not cross the end of the packet.
-/

import Mathlib
import Kens.Networking.Packet

namespace Kens.Packet

open Semantics

/-- The number of bytes of a packet in the range from `offset` on. -/
def available (packet : Packet) (offset length : ℕ) : ℕ :=
  min (offset + length) packet.getSize - offset

/-- What `writeData` is to do: the bytes of the range that lie inside the packet become
the first bytes of the data, and nothing else changes. -/
def WritesRange (packet : Packet) (offset : ℕ) (data : List UInt8) (length : ℕ) : Prop :=
  ∃ written, packet.writeData offset data length =
      some (written, packet.available offset length) ∧
    written.getSize = packet.getSize ∧
    ∀ index, written.buffer[index]? =
      if offset ≤ index ∧ index < min (offset + length) packet.getSize then data[index - offset]?
      else packet.buffer[index]?

/-- What `readData` is to do: the first bytes of the destination become the bytes of the
range that lie inside the packet, and nothing else changes. -/
def ReadsRange (packet : Packet) (offset : ℕ) (dest : List UInt8) (length : ℕ) : Prop :=
  ∃ filled, packet.readData offset dest length =
      some (filled, packet.available offset length) ∧
    filled.length = dest.length ∧
    ∀ index, filled[index]? =
      if index < packet.available offset length then packet.buffer[offset + index]?
      else dest[index]?

/-- The range does not begin inside the packet and end outside. -/
def Contained (packet : Packet) (offset length : ℕ) : Prop :=
  offset < packet.getSize → offset + length ≤ packet.getSize

variable {packet : Packet} {offset length : ℕ} {data : List UInt8}

/-- The clamping arithmetic of both functions. -/
theorem available_eq :
    min length (packet.getSize - min offset packet.getSize) = packet.available offset length := by
  unfold available
  omega

/-- A range without bytes is neither written nor read. -/
theorem writeData_of_available (nothing : packet.available offset length = 0) :
    packet.writeData offset data length = some (packet, 0) := by
  simp only [writeData, available_eq, nothing, if_true]

theorem readData_of_available (nothing : packet.available offset length = 0) :
    packet.readData offset data length = some (data, 0) := by
  simp only [readData, available_eq, nothing, if_true]

/-- Otherwise the copy starts at the given offset. -/
theorem writeData_of_ne (some_ : packet.available offset length ≠ 0) :
    packet.writeData offset data length = (memcpy packet.buffer offset data 0 length).map
      fun buffer => ({ packet with buffer }, packet.available offset length) := by
  have inside : min offset packet.getSize = offset := by
    unfold available at some_
    omega
  simp only [writeData, available_eq, if_neg some_]
  rw [inside]
  cases memcpy packet.buffer offset data 0 length <;> rfl

theorem readData_of_ne (some_ : packet.available offset length ≠ 0) :
    packet.readData offset data length = (memcpy data 0 packet.buffer offset length).map
      fun data => (data, packet.available offset length) := by
  have inside : min offset packet.getSize = offset := by
    unfold available at some_
    omega
  simp only [readData, available_eq, if_neg some_]
  rw [inside]
  cases memcpy data 0 packet.buffer offset length <;> rfl

/-- A contained range has all of its bytes inside of the packet, or none. -/
theorem Contained.cases (contained : packet.Contained offset length) :
    packet.available offset length = 0 ∨
      packet.available offset length = length ∧ offset + length ≤ packet.getSize := by
  unfold Contained at contained
  unfold available
  omega

theorem writesRange_iff (room : packet.available offset length ≤ data.length) :
    packet.WritesRange offset data length ↔ packet.Contained offset length := by
  constructor
  · rintro ⟨written, value, -⟩ inside
    by_contra crosses
    -- some bytes are inside, so that the copy is made, and it is of all `length` bytes
    have some_ : packet.available offset length ≠ 0 := by
      unfold available
      omega
    rw [writeData_of_ne some_, memcpy, if_neg fun bounds => crosses bounds.1] at value
    simp at value
  · intro contained
    rcases contained.cases with nothing | ⟨all, fits⟩
    · refine ⟨packet, ?_, rfl, fun index => ?_⟩
      · rw [writeData_of_available nothing, nothing]
      · rw [if_neg]
        unfold available at nothing
        omega
    · have exact_ : (data.take length).length = length := by
        rw [List.length_take]
        omega
      have fits' : offset + (data.take length).length ≤ packet.buffer.length := by
        rw [exact_]
        exact fits
      refine ⟨packet.overwrite offset (data.take length), ?_, getSize_overwrite fits', ?_⟩
      · by_cases empty : length = 0
        · have nothing : packet.available offset length = 0 := by omega
          rw [writeData_of_available nothing, nothing, empty]
          simp [overwrite]
        · have copy : memcpy packet.buffer offset data 0 length =
              some (splice packet.buffer offset (data.take length)) := by
            rw [memcpy, if_pos ⟨fits, by omega⟩]
            rfl
          rw [writeData_of_ne (by omega), copy]
          rfl
      · intro index
        change (splice packet.buffer offset (data.take length))[index]? = _
        rw [getElem?_splice fits', exact_, min_eq_left fits]
        split
        · exact List.getElem?_take_of_lt (by omega)
        · rfl

theorem readsRange_iff (room : packet.available offset length ≤ data.length) :
    packet.ReadsRange offset data length ↔ packet.Contained offset length := by
  constructor
  · rintro ⟨filled, value, -⟩ inside
    by_contra crosses
    -- as for the write, and here the source of the copy is too short
    have some_ : packet.available offset length ≠ 0 := by
      unfold available
      omega
    rw [readData_of_ne some_, memcpy, if_neg fun bounds => crosses bounds.2] at value
    simp at value
  · intro contained
    rcases contained.cases with nothing | ⟨all, fits⟩
    · refine ⟨data, ?_, rfl, fun index => ?_⟩
      · rw [readData_of_available nothing, nothing]
      · rw [nothing, if_neg (Nat.not_lt_zero index)]
    · have exact_ : ((packet.buffer.drop offset).take length).length = length := by
        have size : packet.buffer.length = packet.getSize := rfl
        rw [List.length_take, List.length_drop]
        omega
      have fits' : 0 + ((packet.buffer.drop offset).take length).length ≤ data.length := by
        omega
      refine ⟨splice data 0 ((packet.buffer.drop offset).take length), ?_, length_splice fits', ?_⟩
      · by_cases empty : length = 0
        · have nothing : packet.available offset length = 0 := by omega
          rw [readData_of_available nothing, nothing, empty]
          simp
        · have copy : memcpy data 0 packet.buffer offset length =
              some (splice data 0 ((packet.buffer.drop offset).take length)) := by
            rw [memcpy, if_pos ⟨by omega, fits⟩]
          rw [readData_of_ne (by omega), copy]
          rfl
      · intro index
        rw [getElem?_splice fits', exact_, all]
        by_cases early : index < length
        · rw [if_pos (by omega), if_pos early, List.getElem?_take_of_lt (by omega),
            List.getElem?_drop]
          rfl
        · rw [if_neg (by omega), if_neg early]

/-- Both functions keep their promise exactly when the range does not cross the end of
the packet. The caller provides room for the bytes that are copied. -/
theorem access_in_bounds_iff (packet : Packet) (offset length : ℕ) (data dest : List UInt8)
    (room : packet.available offset length ≤ data.length)
    (room' : packet.available offset length ≤ dest.length) :
    (packet.WritesRange offset data length ↔ packet.Contained offset length) ∧
      (packet.ReadsRange offset dest length ↔ packet.Contained offset length) :=
  ⟨writesRange_iff room, readsRange_iff room'⟩

theorem access_in_bounds_iff_inner :
    (⟨[1, 2, 3, 4], 0⟩ : Packet).WritesRange 1 [8, 9] 2 ∧
      (⟨[1, 2, 3, 4], 0⟩ : Packet).ReadsRange 1 [0, 0] 2 := by
  have bounds := access_in_bounds_iff ⟨[1, 2, 3, 4], 0⟩ 1 2 [8, 9] [0, 0] (by decide) (by decide)
  have contained : (⟨[1, 2, 3, 4], 0⟩ : Packet).Contained 1 2 := by
    unfold Contained
    decide
  exact ⟨bounds.1.mpr contained, bounds.2.mpr contained⟩

/-- Three bytes written at offset 2 of a packet of four bytes: one of them is written
behind the end of the buffer. A read of the same range reads behind it. -/
theorem not_access_in_bounds :
    ¬ (⟨[1, 2, 3, 4], 0⟩ : Packet).WritesRange 2 [7, 8, 9] 3 ∧
      ¬ (⟨[1, 2, 3, 4], 0⟩ : Packet).ReadsRange 2 [0, 0, 0] 3 := by
  constructor
  · rintro ⟨written, value, -⟩
    have undefined : (⟨[1, 2, 3, 4], 0⟩ : Packet).writeData 2 [7, 8, 9] 3 = none := by decide
    rw [undefined] at value
    simp at value
  · rintro ⟨filled, value, -⟩
    have undefined : (⟨[1, 2, 3, 4], 0⟩ : Packet).readData 2 [0, 0, 0] 3 = none := by decide
    rw [undefined] at value
    simp at value

end Kens.Packet
