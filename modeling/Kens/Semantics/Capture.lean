/-
# Capture files

The pcap format with time stamps in nanoseconds, as a little-endian host writes it: a header
of 24 bytes, and then for each packet a header of 16 bytes with as many bytes of the packet as
it says. The reader accepts nothing else, and it gives back what was written.
-/

import Mathlib
import Kens.Semantics.LittleEndian

namespace Kens.Semantics.Capture

/-- A captured packet: the time in nanoseconds, its size, and the bytes that were kept. -/
structure Entry where
  time : ℕ
  size : ℕ
  data : List UInt8
deriving DecidableEq

structure File where
  snaplen : ℕ
  linktype : ℕ
  entries : List Entry
deriving DecidableEq

/-- The number of nanoseconds in a second. -/
def second : ℕ := 1000000000

/-- The first four bytes of a capture with time stamps in nanoseconds. -/
def magic : ℕ := 0xa1b23c4d

/-! ## Writing -/

def encodeHeader (snaplen linktype : ℕ) : List UInt8 :=
  toBytes 4 magic ++ (toBytes 2 2 ++ (toBytes 2 4 ++ (toBytes 4 0 ++ (toBytes 4 0 ++
    (toBytes 4 snaplen ++ toBytes 4 linktype)))))

def encode (entry : Entry) : List UInt8 :=
  toBytes 4 (entry.time / second) ++ (toBytes 4 (entry.time % second) ++
    (toBytes 4 entry.data.length ++ (toBytes 4 entry.size ++ entry.data)))

/-! ## Reading -/

/-- A field of the given width. -/
def field (bytes : List UInt8) (offset width : ℕ) : ℕ := ofBytes ((bytes.drop offset).take width)

/-- One packet, and the bytes behind it. -/
def parseEntry (snaplen : ℕ) (bytes : List UInt8) : Option (Entry × List UInt8) :=
  let fraction := field bytes 4 4
  let included := field bytes 8 4
  let size := field bytes 12 4
  if fraction < second ∧ included ≤ snaplen ∧ included ≤ size ∧ 16 + included ≤ bytes.length then
    some (⟨field bytes 0 4 * second + fraction, size, (bytes.drop 16).take included⟩,
      bytes.drop (16 + included))
  else none

/-- All packets up to the end of the file. -/
def parseEntries (snaplen : ℕ) : ℕ → List UInt8 → Option (List Entry)
  | _, [] => some []
  | 0, _ :: _ => none
  | fuel + 1, byte :: bytes => do
    let (entry, rest) ← parseEntry snaplen (byte :: bytes)
    let entries ← parseEntries snaplen fuel rest
    pure (entry :: entries)

def parse (bytes : List UInt8) : Option File :=
  if 24 ≤ bytes.length ∧ field bytes 0 4 = magic ∧ field bytes 4 2 = 2 ∧ field bytes 6 2 = 4 then
    -- every packet takes at least 16 bytes, so that the length is enough fuel
    (parseEntries (field bytes 16 4) bytes.length (bytes.drop 24)).map
      (File.mk (field bytes 16 4) (field bytes 20 4))
  else none

/-! ## The round trip -/

variable {snaplen linktype : ℕ} {entry : Entry} {entries : List Entry}

/-- The packet fits the fields of its header. -/
structure Fits (snaplen : ℕ) (entry : Entry) : Prop where
  time : entry.time / second < 2 ^ 32
  size : entry.size < 2 ^ 32
  kept : entry.data.length ≤ min snaplen entry.size

theorem field_toBytes {value : ℕ} (small : value < 2 ^ 32) : ofBytes (toBytes 4 value) = value :=
  ofBytes_toBytes_of_lt small

theorem parseEntry_encode (fits : Fits snaplen entry) (rest : List UInt8) :
    parseEntry snaplen (encode entry ++ rest) = some (entry, rest) := by
  have kept := fits.kept
  have size := fits.size
  have fraction_lt : entry.time % second < second := Nat.mod_lt _ (by decide)
  have small : second < 2 ^ 32 := by decide
  have seconds : field (encode entry ++ rest) 0 4 = entry.time / second := field_toBytes fits.time
  have fraction : field (encode entry ++ rest) 4 4 = entry.time % second :=
    field_toBytes (fraction_lt.trans small)
  have included : field (encode entry ++ rest) 8 4 = entry.data.length :=
    field_toBytes (by omega)
  have original : field (encode entry ++ rest) 12 4 = entry.size := field_toBytes size
  have behind : (encode entry ++ rest).drop 16 = entry.data ++ rest := rfl
  have room : 16 + entry.data.length ≤ (encode entry ++ rest).length := by
    simp only [encode, List.length_append, length_toBytes]
    omega
  rw [parseEntry, seconds, fraction, included, original, behind, ← List.drop_drop, behind,
    if_pos ⟨fraction_lt, by omega, by omega, room⟩, List.take_left, List.drop_left]
  rw [Nat.mul_comm, Nat.div_add_mod]

theorem parseEntries_encode (fits : ∀ entry ∈ entries, Fits snaplen entry) {fuel : ℕ}
    (enough : (entries.flatMap encode).length ≤ fuel) :
    parseEntries snaplen fuel (entries.flatMap encode) = some entries := by
  induction entries generalizing fuel with
  | nil => cases fuel <;> rfl
  | cons entry rest ih =>
    rw [List.flatMap_cons] at enough ⊢
    have parsed := parseEntry_encode (fits entry List.mem_cons_self) (rest.flatMap encode)
    -- the header of the packet is not empty, so that there is a byte to go on from
    obtain ⟨byte, bytes, bytes_eq⟩ : ∃ byte bytes, encode entry ++ rest.flatMap encode =
        byte :: bytes := ⟨_, _, rfl⟩
    have long : (rest.flatMap encode).length < (encode entry ++ rest.flatMap encode).length := by
      simp only [encode, List.length_append, length_toBytes]
      omega
    cases fuel with
    | zero => omega
    | succ fuel =>
      have later := ih (fun other member => fits other (List.mem_cons_of_mem _ member))
        (by omega : (rest.flatMap encode).length ≤ fuel)
      rw [bytes_eq] at parsed ⊢
      simp [parseEntries, parsed, later]

/-- What was written is read back, to the last byte. -/
theorem parse_encode (snap : snaplen < 2 ^ 32) (link : linktype < 2 ^ 32)
    (fits : ∀ entry ∈ entries, Fits snaplen entry) :
    parse (encodeHeader snaplen linktype ++ entries.flatMap encode) =
      some ⟨snaplen, linktype, entries⟩ := by
  generalize bytes_eq : encodeHeader snaplen linktype ++ entries.flatMap encode = bytes
  have length : bytes.length = 24 + (entries.flatMap encode).length := by
    rw [← bytes_eq, List.length_append]
    rfl
  have first : field bytes 0 4 = magic := by
    rw [← bytes_eq]
    exact field_toBytes (by decide)
  have major : field bytes 4 2 = 2 := by
    rw [← bytes_eq]
    rfl
  have minor : field bytes 6 2 = 4 := by
    rw [← bytes_eq]
    rfl
  have snaplen_eq : field bytes 16 4 = snaplen := by
    rw [← bytes_eq]
    exact field_toBytes snap
  have linktype_eq : field bytes 20 4 = linktype := by
    rw [← bytes_eq]
    exact field_toBytes link
  have behind : bytes.drop 24 = entries.flatMap encode := by
    rw [← bytes_eq]
    rfl
  rw [parse, if_pos ⟨by omega, first, major, minor⟩, snaplen_eq, linktype_eq, behind,
    parseEntries_encode fits (by omega)]
  rfl

end Kens.Semantics.Capture
