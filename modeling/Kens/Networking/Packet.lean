/-
# Packets

A packet is a byte buffer. `none` stands for what the program has no answer to:
a failed assertion, or a `memcpy` that leaves the memory of one of its operands.
-/

import Mathlib
import Kens.Semantics.Splice

namespace Kens

open Semantics

theorem bind_of_eq_some {α β : Type} {x : Option α} {a : α} {f : α → Option β}
    (value : x = some a) : (x >>= f) = f a := by
  rw [value]
  rfl

/-- `memcpy(dest + offset, src + start, length)`, defined when both ranges lie
inside their objects. -/
def memcpy (dest : List UInt8) (offset : ℕ) (src : List UInt8) (start length : ℕ) :
    Option (List UInt8) :=
  if offset + length ≤ dest.length ∧ start + length ≤ src.length then
    some (splice dest offset ((src.drop start).take length))
  else none

theorem memcpy_to {dest src : List UInt8} {offset : ℕ}
    (fits : offset + src.length ≤ dest.length) :
    memcpy dest offset src 0 src.length = some (splice dest offset src) := by
  simp [memcpy, fits]

theorem memcpy_from {dest src : List UInt8} {start : ℕ}
    (fits : start + dest.length ≤ src.length) :
    memcpy dest 0 src start dest.length = some ((src.drop start).take dest.length) := by
  have length : ((src.drop start).take dest.length).length = dest.length := by
    rw [List.length_take, List.length_drop]
    omega
  simp [memcpy, fits, splice, length]

/-- The bytes that an uninitialised local variable holds. -/
abbrev Junk := String → ℕ → UInt8

/-- A packet. `origin` is a history variable for the network: the port at which
a frame entered it. The program has no such field and no function reads it. -/
structure Packet where
  buffer : List UInt8
  origin : ℕ
deriving DecidableEq, Repr

namespace Packet

variable {packet : Packet} {offset : ℕ}

def getSize (packet : Packet) : ℕ := packet.buffer.length

/-- The packet, and the number of bytes that the function reports as written.
The copy is of `length` bytes, not of that number. -/
def writeData (packet : Packet) (offset : ℕ) (data : List UInt8) (length : ℕ) :
    Option (Packet × ℕ) :=
  let actual_offset := min offset packet.getSize
  let actual_write := min length (packet.getSize - actual_offset)
  if actual_write = 0 then some (packet, 0)
  else do
    let buffer ← memcpy packet.buffer actual_offset data 0 length
    pure ({ packet with buffer }, actual_write)

/-- The destination after the copy, and the number of bytes reported as read.
`data` is what the destination held before. -/
def readData (packet : Packet) (offset : ℕ) (data : List UInt8) (length : ℕ) :
    Option (List UInt8 × ℕ) :=
  let actual_offset := min offset packet.getSize
  let actual_read := min length (packet.getSize - actual_offset)
  if actual_read = 0 then some (data, 0)
  else do
    let data ← memcpy data 0 packet.buffer actual_offset length
    pure (data, actual_read)

/-- `readData` into one `uint8_t`. -/
def readByte (packet : Packet) (offset : ℕ) (old : UInt8) : Option UInt8 := do
  let (data, _) ← packet.readData offset [old] 1
  data.head?

/-- `readData` into a `std::array`. -/
def readArray {n : ℕ} (packet : Packet) (offset : ℕ) (old : Vector UInt8 n) :
    Option (Vector UInt8 n) := do
  let (data, _) ← packet.readData offset old.toList n
  -- a read never changes the size of its destination, so the other case is void
  if size : data.length = n then some ⟨data.toArray, size⟩ else none

/-- The packet with a range of its bytes replaced. -/
def overwrite (packet : Packet) (offset : ℕ) (data : List UInt8) : Packet :=
  { packet with buffer := splice packet.buffer offset data }

theorem getSize_overwrite {data : List UInt8} (fits : offset + data.length ≤ packet.getSize) :
    (packet.overwrite offset data).getSize = packet.getSize :=
  length_splice fits

/-- A write that fits the packet copies all of its data. -/
theorem writeData_eq {data : List UInt8} (fits : offset + data.length ≤ packet.getSize) :
    packet.writeData offset data data.length =
      some (packet.overwrite offset data, data.length) := by
  have offset_eq : min offset packet.getSize = offset := by omega
  have write_eq : min data.length (packet.getSize - offset) = data.length := by omega
  rw [writeData, offset_eq, write_eq]
  split
  next empty =>
    rw [List.length_eq_zero_iff] at empty
    simp [overwrite, empty]
  next => simp [memcpy_to fits, overwrite]

/-- A read that fits the packet fills its destination. -/
theorem readData_eq {data : List UInt8} (fits : offset + data.length ≤ packet.getSize) :
    packet.readData offset data data.length =
      some ((packet.buffer.drop offset).take data.length, data.length) := by
  have offset_eq : min offset packet.getSize = offset := by omega
  have read_eq : min data.length (packet.getSize - offset) = data.length := by omega
  rw [readData, offset_eq, read_eq]
  split
  next empty =>
    rw [List.length_eq_zero_iff] at empty
    simp [empty]
  next => simp [memcpy_from fits]

theorem readByte_eq {old : UInt8} (inside : offset < packet.getSize) :
    packet.readByte offset old = packet.buffer[offset]? := by
  have fits : offset + [old].length ≤ packet.getSize := inside
  have read := readData_eq fits
  rw [List.length_singleton] at read
  simp [readByte, read, List.head?_take]

theorem readArray_eq {n : ℕ} {old : Vector UInt8 n} (fits : offset + n ≤ packet.getSize) :
    ∃ value : Vector UInt8 n, packet.readArray offset old = some value ∧
      value.toList = (packet.buffer.drop offset).take n := by
  have fits_list : offset + old.toList.length ≤ packet.getSize := by
    rw [Vector.length_toList]
    exact fits
  have read := readData_eq fits_list
  rw [Vector.length_toList] at read
  have size : ((packet.buffer.drop offset).take n).length = n := by
    have : packet.buffer.length = packet.getSize := rfl
    rw [List.length_take, List.length_drop]
    omega
  refine ⟨⟨((packet.buffer.drop offset).take n).toArray, size⟩, ?_, rfl⟩
  simp [readArray, read, size]

/-- A one-byte write behind an earlier one extends its data. -/
theorem writeByte_overwrite {front : List UInt8} {byte : UInt8} {position : ℕ}
    (fits : offset + front.length < packet.getSize) (next : position = offset + front.length) :
    (packet.overwrite offset front).writeData position [byte] 1 =
      some (packet.overwrite offset (front ++ [byte]), 1) := by
  subst next
  have fits_byte : offset + front.length + [byte].length ≤
      (packet.overwrite offset front).getSize := by
    rw [getSize_overwrite (Nat.le_of_lt fits)]
    exact fits
  have write := writeData_eq fits_byte
  rw [List.length_singleton] at write
  rw [write]
  simp only [overwrite, splice_append (Nat.le_of_lt fits)]

end Packet

end Kens
