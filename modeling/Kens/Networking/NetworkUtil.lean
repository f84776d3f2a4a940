/-
# The Internet checksum

`oneSum` adds the big-endian 16-bit words of a buffer byte by byte and folds the
carry back after every byte. Its value is the representative in 1..65535 of the
exact sum modulo 65535, and 0 only for a sum of 0.
-/

import Mathlib
import Kens.Semantics.LittleEndian
import Kens.Networking.Packet

namespace Kens.NetworkUtil

open Semantics

/-- `(sum & 0xFFFF) + (sum >> 16)` on `uint32_t`. -/
def foldCarry (sum : ℕ) : ℕ :=
  ((sum &&& 0xFFFF) + (sum >>> 16)) % 2 ^ 32

/-- What a byte adds to the accumulator. -/
def weight (upper : Bool) (byte : UInt8) : ℕ :=
  if upper then byte.toNat <<< 8 else byte.toNat

/-- One iteration of the loop, on the flag `upper` and the accumulator `sum`. -/
def oneSumStep (state : Bool × ℕ) (byte : UInt8) : Bool × ℕ :=
  let sum := (state.2 + weight state.1 byte) % 2 ^ 32
  (!state.1, foldCarry sum)

def oneSum (buffer : List UInt8) : ℕ :=
  foldCarry (buffer.foldl oneSumStep (true, 0)).2 % 2 ^ 16

/-! ## The exact sum -/

/-- The exact sum of the bytes from one phase on. In phase `true` this is the sum
of the big-endian words, an odd last byte being padded with a zero byte. -/
def wordSum : Bool → List UInt8 → ℕ
  | _, [] => 0
  | upper, byte :: rest => weight upper byte + wordSum (!upper) rest

/-- The ones' complement representative of an exact sum. -/
def representative (total : ℕ) : ℕ :=
  if total = 0 then 0 else (total - 1) % 65535 + 1

theorem wordSum_append (upper : Bool) (front back : List UInt8) :
    wordSum upper (front ++ back) =
      wordSum upper front + wordSum (upper ^^ front.length.bodd) back := by
  induction front generalizing upper with
  | nil => simp [wordSum]
  | cons byte front ih =>
    rw [List.cons_append, wordSum, wordSum, ih, List.length_cons, Nat.bodd_succ, Nat.add_assoc]
    cases upper <;> simp

theorem weight_le (upper : Bool) (byte : UInt8) : weight upper byte ≤ 0xFF00 := by
  have := byte.toNat_lt
  unfold weight
  split
  · rw [Nat.shiftLeft_eq]
    omega
  · omega

theorem representative_le (total : ℕ) : representative total ≤ 0xFFFF := by
  unfold representative
  split <;> omega

theorem representative_eq_zero_iff {total : ℕ} : representative total = 0 ↔ total = 0 := by
  unfold representative
  split <;> omega

theorem representative_mod (total : ℕ) : representative total % 65535 = total % 65535 := by
  unfold representative
  split <;> omega

/-- The representative is determined by the residue, and by whether the sum is 0. -/
theorem representative_congr {a b : ℕ} (residue : a % 65535 = b % 65535)
    (zero : a = 0 ↔ b = 0) : representative a = representative b := by
  unfold representative
  split <;> split <;> omega

theorem representative_add (total extra : ℕ) :
    representative (representative total + extra) = representative (total + extra) := by
  refine representative_congr ?_ ?_
  · have := representative_mod total
    omega
  · have zero : representative total = 0 ↔ total = 0 := representative_eq_zero_iff
    omega

/-- A positive multiple of 65535 is negative zero. -/
theorem representative_eq_allOnes {total : ℕ} (positive : total ≠ 0)
    (multiple : total % 65535 = 0) : representative total = 0xFFFF := by
  rw [representative, if_neg positive]
  omega

/-! ## The loop -/

/-- One fold brings every value that an iteration can reach back to 16 bits. -/
theorem foldCarry_eq {sum : ℕ} (small : sum ≤ 2 * 0xFFFF) :
    foldCarry sum = representative sum := by
  have low : sum &&& 0xFFFF = sum % 65536 := Nat.and_two_pow_sub_one_eq_mod sum 16
  have high : sum >>> 16 = sum / 65536 := Nat.shiftRight_eq_div_pow sum 16
  have no_overflow : (sum % 65536 + sum / 65536) % 2 ^ 32 = sum % 65536 + sum / 65536 := by
    apply Nat.mod_eq_of_lt
    omega
  rw [foldCarry, low, high, no_overflow]
  unfold representative
  split <;> omega

theorem oneSumStep_eq (upper : Bool) (total : ℕ) (byte : UInt8) :
    oneSumStep (upper, representative total) byte =
      (!upper, representative (total + weight upper byte)) := by
  have small : representative total + weight upper byte ≤ 2 * 0xFFFF := by
    have := representative_le total
    have := weight_le upper byte
    omega
  have exact_sum : (representative total + weight upper byte) % 2 ^ 32 =
      representative total + weight upper byte := by
    apply Nat.mod_eq_of_lt
    omega
  simp only [oneSumStep, exact_sum, foldCarry_eq small, representative_add]

theorem foldl_oneSumStep (buffer : List UInt8) (upper : Bool) (total : ℕ) :
    (buffer.foldl oneSumStep (upper, representative total)).2 =
      representative (total + wordSum upper buffer) := by
  induction buffer generalizing upper total with
  | nil => rfl
  | cons byte rest ih =>
    rw [List.foldl_cons, oneSumStep_eq, ih, wordSum, Nat.add_assoc]

/-- The accumulator after some bytes is the ones' complement sum of these bytes. -/
theorem accumulator_eq (front : List UInt8) :
    (front.foldl oneSumStep (true, 0)).2 = representative (wordSum true front) := by
  have loop := foldl_oneSumStep front true 0
  rwa [Nat.zero_add] at loop

/-- `one_sum` is the ones' complement sum of the words of the buffer. -/
theorem oneSum_eq (buffer : List UInt8) : oneSum buffer = representative (wordSum true buffer) := by
  have bound := representative_le (wordSum true buffer)
  rw [oneSum, accumulator_eq, foldCarry_eq (by omega)]
  have again : representative (representative (wordSum true buffer)) =
      representative (wordSum true buffer) := by
    simpa using representative_add (wordSum true buffer) 0
  rw [again]
  exact Nat.mod_eq_of_lt (by omega)

/-- The sum of the big-endian words of a buffer, an odd last byte being padded with a zero
byte. -/
def bigEndianSum : List UInt8 → ℕ
  | [] => 0
  | [last] => 256 * last.toNat
  | high :: low :: rest => 256 * high.toNat + low.toNat + bigEndianSum rest

theorem wordSum_eq_bigEndianSum (buffer : List UInt8) :
    wordSum true buffer = bigEndianSum buffer := by
  induction buffer using bigEndianSum.induct with
  | case1 => rfl
  | case2 last => simp [wordSum, weight, bigEndianSum, Nat.shiftLeft_eq, Nat.mul_comm]
  | case3 high low rest ih =>
    simp only [wordSum, Bool.not_true, Bool.not_false, ih, bigEndianSum, weight, Nat.shiftLeft_eq]
    simp
    omega

theorem weight_eq_zero_iff {upper : Bool} {byte : UInt8} : weight upper byte = 0 ↔ byte = 0 := by
  have zero : byte.toNat = 0 ↔ byte = 0 := by
    rw [← UInt8.toNat_zero, UInt8.toNat_inj]
  unfold weight
  split
  · rw [Nat.shiftLeft_eq, ← zero]
    omega
  · exact zero

theorem wordSum_eq_zero_iff {upper : Bool} {buffer : List UInt8} :
    wordSum upper buffer = 0 ↔ ∀ byte ∈ buffer, byte = 0 := by
  induction buffer generalizing upper with
  | nil => simp [wordSum]
  | cons byte rest ih =>
    rw [wordSum, Nat.add_eq_zero_iff, weight_eq_zero_iff, ih, List.forall_mem_cons]

/-- `one_sum` is 0 for a buffer of zeros, and otherwise the number in 1..65535 that is congruent
to the sum of the words. Neither addition of an iteration overflows, and the accumulator is a
16-bit number after each of them and at the end. -/
theorem oneSum_law (buffer : List UInt8) :
    (oneSum buffer =
      if ∀ byte ∈ buffer, byte = 0 then 0 else (bigEndianSum buffer - 1) % 65535 + 1) ∧
    (∀ front byte rest, buffer = front ++ byte :: rest →
      let state := front.foldl oneSumStep (true, 0)
      let sum := state.2 + weight state.1 byte
      sum < 2 ^ 32 ∧ (sum &&& 0xFFFF) + (sum >>> 16) < 2 ^ 32 ∧
        (oneSumStep state byte).2 ≤ 0xFFFF) ∧
    let sum := (buffer.foldl oneSumStep (true, 0)).2
    (sum &&& 0xFFFF) + (sum >>> 16) < 2 ^ 32 ∧ foldCarry sum ≤ 0xFFFF ∧
      oneSum buffer = foldCarry sum := by
  -- the exact value of a fold
  have fold : ∀ sum ≤ 2 * 0xFFFF, (sum &&& 0xFFFF) + (sum >>> 16) < 2 ^ 32 ∧
      foldCarry sum ≤ 0xFFFF := by
    intro sum small
    have low : sum &&& 0xFFFF ≤ 0xFFFF := Nat.and_le_right
    have high : sum >>> 16 ≤ sum := Nat.shiftRight_le sum 16
    rw [foldCarry_eq small]
    exact ⟨by omega, representative_le sum⟩
  refine ⟨?_, ?_, ?_⟩
  · rw [oneSum_eq, representative, wordSum_eq_bigEndianSum]
    refine if_congr ?_ rfl rfl
    rw [← wordSum_eq_bigEndianSum, wordSum_eq_zero_iff]
  · intro front byte rest _
    dsimp only
    generalize flag : (front.foldl oneSumStep (true, 0)).1 = upper
    have before := representative_le (wordSum true front)
    have added := weight_le upper byte
    rw [← accumulator_eq] at before
    have small : (front.foldl oneSumStep (true, 0)).2 + weight upper byte ≤ 2 * 0xFFFF := by omega
    have no_overflow : ((front.foldl oneSumStep (true, 0)).2 + weight upper byte) % 2 ^ 32 =
        (front.foldl oneSumStep (true, 0)).2 + weight upper byte := by
      apply Nat.mod_eq_of_lt
      omega
    refine ⟨by omega, (fold _ small).1, ?_⟩
    simp only [oneSumStep, flag, no_overflow]
    exact (fold _ small).2
  · have bound := representative_le (wordSum true buffer)
    rw [← accumulator_eq] at bound
    obtain ⟨no_overflow, narrow⟩ := fold (buffer.foldl oneSumStep (true, 0)).2 (by omega)
    refine ⟨no_overflow, narrow, ?_⟩
    rw [oneSum]
    apply Nat.mod_eq_of_lt
    omega

/-! ## Writing a checksum -/

/-- The bytes in memory of `htons(value)`. -/
def networkBytes (value : ℕ) : List UInt8 :=
  [UInt8.ofNat (value / 256), UInt8.ofNat (value % 256)]

theorem wordSum_networkBytes {value : ℕ} (bound : value ≤ 0xFFFF) :
    wordSum true (networkBytes value) = value := by
  have high : (UInt8.ofNat (value / 256)).toNat = value / 256 := by
    rw [UInt8.toNat_ofNat', Nat.mod_eq_of_lt (by omega)]
  have low : (UInt8.ofNat (value % 256)).toNat = value % 256 := by
    rw [UInt8.toNat_ofNat', Nat.mod_eq_of_lt (by omega)]
  simp only [networkBytes, wordSum, weight, high, low, Nat.shiftLeft_eq]
  simp
  omega

/-- Replacing a zero word by the complement of the sum makes the sum negative
zero, provided that the buffer is not all zero. -/
theorem oneSum_complement {front back : List UInt8} (even : front.length.bodd = false)
    (nonzero : wordSum true front ≠ 0) :
    oneSum (front ++ networkBytes (0xFFFF - oneSum (front ++ [0, 0] ++ back)) ++ back) =
      0xFFFF := by
  have split_sum : ∀ word : List UInt8, word.length = 2 →
      wordSum true (front ++ word ++ back) =
        wordSum true front + wordSum true word + wordSum true back := by
    intro word two
    rw [wordSum_append, wordSum_append, List.length_append, two, Nat.bodd_add, even]
    rfl
  have before := oneSum_eq (front ++ [0, 0] ++ back)
  rw [split_sum _ rfl] at before
  have zero_word : wordSum true [0, 0] = 0 := rfl
  rw [zero_word, Nat.add_zero] at before
  have bound := representative_le (wordSum true front + wordSum true back)
  have residue := representative_mod (wordSum true front + wordSum true back)
  rw [oneSum_eq, split_sum _ rfl, wordSum_networkBytes (by omega), before]
  apply representative_eq_allOnes <;> omega

/-! ## The checksum of a segment -/

/-- The bytes in memory of a `uint32_t`. -/
def memoryBytes (value : UInt32) : List UInt8 :=
  [value.toUInt8, (value >>> 8).toUInt8, (value >>> 16).toUInt8, (value >>> 24).toUInt8]

/-- `struct pseudoheader`, which has no padding. -/
def pseudoheader (source dest : UInt32) (length : ℕ) : List UInt8 :=
  memoryBytes source ++ memoryBytes dest ++ [0, 6] ++ networkBytes (length % 2 ^ 16)

def tcpSum (source dest : UInt32) (tcp_seg : List UInt8) : ℕ :=
  if tcp_seg.length < 20 then 0
  else
    let sum := oneSum (pseudoheader source dest tcp_seg.length)
    let sum := (sum + oneSum tcp_seg) % 2 ^ 32
    foldCarry sum % 2 ^ 16

theorem wordSum_pseudoheader_ne_zero (source dest : UInt32) (length : ℕ) :
    wordSum true (pseudoheader source dest length) ≠ 0 := by
  have protocol : weight false 6 = 6 := rfl
  simp only [pseudoheader, memoryBytes, List.cons_append, List.nil_append, wordSum, Bool.not_true,
    Bool.not_false, protocol]
  omega

/-- `tcp_sum` is the ones' complement sum of the pseudo-header and the segment. -/
theorem tcpSum_eq {source dest : UInt32} {tcp_seg : List UInt8} (header : 20 ≤ tcp_seg.length) :
    tcpSum source dest tcp_seg =
      representative (wordSum true (pseudoheader source dest tcp_seg.length) +
        wordSum true tcp_seg) := by
  generalize total : wordSum true (pseudoheader source dest tcp_seg.length) = a
  have first := representative_le a
  have second := representative_le (wordSum true tcp_seg)
  have exact_sum : (representative a + representative (wordSum true tcp_seg)) % 2 ^ 32 =
      representative a + representative (wordSum true tcp_seg) := by
    apply Nat.mod_eq_of_lt
    omega
  have bound := representative_le (representative a + representative (wordSum true tcp_seg))
  simp only [tcpSum, if_neg (not_lt.mpr header), oneSum_eq, total, exact_sum]
  rw [foldCarry_eq (by omega), Nat.mod_eq_of_lt (by omega), representative_add, Nat.add_comm,
    representative_add, Nat.add_comm]

/-- A segment verifies when the exact sum is a multiple of 65535. -/
theorem tcpSum_eq_allOnes_iff {source dest : UInt32} {tcp_seg : List UInt8}
    (header : 20 ≤ tcp_seg.length) :
    tcpSum source dest tcp_seg = 0xFFFF ↔
      (wordSum true (pseudoheader source dest tcp_seg.length) + wordSum true tcp_seg) % 65535 =
        0 := by
  have positive := wordSum_pseudoheader_ne_zero source dest tcp_seg.length
  rw [tcpSum_eq header]
  constructor
  · intro ones
    have residue := representative_mod
      (wordSum true (pseudoheader source dest tcp_seg.length) + wordSum true tcp_seg)
    rw [ones] at residue
    exact residue.symm
  · exact representative_eq_allOnes (by omega)

/-- Replacing some words of a buffer changes its sum by their difference. -/
theorem wordSum_replace {front old new : List UInt8} (even : front.length.bodd = false)
    (same : old.length = new.length) (back : List UInt8) :
    wordSum true (front ++ new ++ back) + wordSum true old =
      wordSum true (front ++ old ++ back) + wordSum true new := by
  rw [wordSum_append, wordSum_append, wordSum_append, wordSum_append, List.length_append,
    List.length_append, same, even, Bool.xor_false]
  omega

theorem length_pseudoheader (source dest : UInt32) (length : ℕ) :
    (pseudoheader source dest length).length = 12 := rfl

/-- `tcp_sum` folds its two parts together as one sum over both would. -/
theorem tcpSum_eq_oneSum {source dest : UInt32} {tcp_seg : List UInt8}
    (header : 20 ≤ tcp_seg.length) :
    tcpSum source dest tcp_seg = oneSum (pseudoheader source dest tcp_seg.length ++ tcp_seg) := by
  rw [tcpSum_eq header, oneSum_eq, wordSum_append, length_pseudoheader]
  rfl

/-- For every segment that `tcp_sum` sums up: it sums the pseudo-header, whose length field is
that of the segment, and the segment in one; and with the checksum field zeroed and then set
to the complement of the sum, the segment verifies. -/
theorem tcpSum_law (source dest : UInt32) (tcp_seg : List UInt8) (header : 20 ≤ tcp_seg.length)
    (bound : tcp_seg.length ≤ 65535) :
    tcpSum source dest tcp_seg =
      oneSum (memoryBytes source ++ memoryBytes dest ++
        [0, 6, UInt8.ofNat (tcp_seg.length / 256), UInt8.ofNat (tcp_seg.length % 256)] ++
        tcp_seg) ∧
    tcpSum source dest (splice tcp_seg 16
      (networkBytes (0xFFFF - tcpSum source dest (splice tcp_seg 16 [0, 0])))) = 0xFFFF := by
  constructor
  · rw [tcpSum_eq_oneSum header, pseudoheader, Nat.mod_eq_of_lt (by omega)]
    rfl
  · have size : ∀ word : List UInt8, word.length = 2 →
        (splice tcp_seg 16 word).length = tcp_seg.length := by
      intro word two
      exact length_splice (by omega)
    have sum : ∀ word : List UInt8, word.length = 2 →
        tcpSum source dest (splice tcp_seg 16 word) =
          oneSum (pseudoheader source dest tcp_seg.length ++ tcp_seg.take 16 ++ word ++
            tcp_seg.drop 18) := by
      intro word two
      rw [tcpSum_eq_oneSum (by rw [size word two]; exact header), size word two, splice, two]
      simp only [List.append_assoc]
    rw [sum _ rfl, sum _ rfl]
    apply oneSum_complement
    · rw [List.length_append, List.length_take, min_eq_left (by omega), length_pseudoheader]
      rfl
    · -- the protocol number is never 0
      rw [wordSum_append]
      have positive := wordSum_pseudoheader_ne_zero source dest tcp_seg.length
      omega

/-- A segment of odd length. -/
theorem tcpSum_law_odd :
    let segment := splice (List.replicate 21 7) 16
      (networkBytes (0xFFFF - tcpSum 1 2 (splice (List.replicate 21 7) 16 [0, 0])))
    tcpSum 1 2 segment = 0xFFFF :=
  (tcpSum_law 1 2 (List.replicate 21 7) (by decide) (by decide)).2

/-! ## Arrays as integers -/

/-- `arrayToUINT64`: the bytes of an array, the first one least significant. -/
def arrayToUINT64 {n : ℕ} (array : Vector UInt8 n) : ℕ :=
  (List.finRange n).foldl (fun sum k => (sum + array[k].toNat <<< (8 * k.val)) % 2 ^ 64) 0

/-- The loop adds up modulo the size of the accumulator. -/
theorem foldl_add_mod {α : Type} (term : α → ℕ) (modulus : ℕ) (entries : List α) {sum : ℕ}
    (small : sum < modulus) :
    entries.foldl (fun sum entry => (sum + term entry) % modulus) sum =
      (sum + (entries.map term).sum) % modulus := by
  induction entries generalizing sum with
  | nil => simp [Nat.mod_eq_of_lt small]
  | cons entry rest ih =>
    rw [List.foldl_cons, ih (Nat.mod_lt _ (by omega)), List.map_cons, List.sum_cons,
      Nat.mod_add_mod, Nat.add_assoc]

/-- What the loop adds up are the digits of a little-endian integer, in their places. -/
theorem sum_shiftLeft {n : ℕ} (array : Vector UInt8 n) :
    ((List.finRange n).map fun k => array[k].toNat <<< (8 * k.val)).sum =
      ofBytes array.toList := by
  have terms : (List.finRange n).map (fun k => array[k].toNat <<< (8 * k.val)) =
      (array.toList.map UInt8.toNat).mapIdx fun k digit => digit * 256 ^ k := by
    apply List.ext_getElem
    · simp
    · intro k inside _
      have bound : k < n := by simpa using inside
      simp [Nat.shiftLeft_eq, Nat.pow_mul]
  rw [terms, ofBytes, Nat.ofDigits_eq_sum_mapIdx]

theorem ofBytes_lt_two_pow {n : ℕ} (array : Vector UInt8 n) (short : n ≤ 8) :
    ofBytes array.toList < 2 ^ 64 := by
  refine (ofBytes_lt array.toList).trans_le ?_
  rw [Vector.length_toList]
  exact Nat.pow_le_pow_right (by decide) short

/-- An array of up to eight bytes is read as a little-endian integer. -/
theorem arrayToUINT64_eq {n : ℕ} (array : Vector UInt8 n) (short : n ≤ 8) :
    arrayToUINT64 array = ofBytes array.toList := by
  rw [arrayToUINT64, foldl_add_mod _ _ _ (by decide), Nat.zero_add, sum_shiftLeft,
    Nat.mod_eq_of_lt (ofBytes_lt_two_pow array short)]

/-- No iteration overflows: the sums are bounded by the last one. -/
theorem arrayToUINT64_no_overflow {n : ℕ} (array : Vector UInt8 n) (short : n ≤ 8)
    {front rest : List (Fin n)} {k : Fin n} (loop : List.finRange n = front ++ k :: rest) :
    front.foldl (fun sum k => (sum + array[k].toNat <<< (8 * k.val)) % 2 ^ 64) 0 +
      array[k].toNat <<< (8 * k.val) < 2 ^ 64 := by
  have total := sum_shiftLeft array
  have bound := ofBytes_lt_two_pow array short
  rw [loop, List.map_append, List.map_cons, List.sum_append, List.sum_cons] at total
  rw [foldl_add_mod _ _ _ (by decide), Nat.zero_add]
  have reduced := Nat.mod_le (front.map fun k => array[k].toNat <<< (8 * k.val)).sum (2 ^ 64)
  omega

theorem arrayToUINT64_inj {n : ℕ} {array other : Vector UInt8 n} (short : n ≤ 8) :
    arrayToUINT64 array = arrayToUINT64 other ↔ array = other := by
  refine ⟨fun same => ?_, fun same => by rw [same]⟩
  rw [arrayToUINT64_eq array short, arrayToUINT64_eq other short] at same
  apply Vector.toList_inj.mp
  exact eq_of_ofBytes_eq (by rw [Vector.length_toList, Vector.length_toList]) same

/-- `UINT64ToArray`: the lowest bytes of an integer. -/
def UINT64ToArray (n val : ℕ) : Vector UInt8 n :=
  Vector.ofFn fun k => UInt8.ofNat ((val >>> (8 * k.val)) &&& 0xFF)

theorem toList_UINT64ToArray (n val : ℕ) : (UINT64ToArray n val).toList = toBytes n val := by
  apply List.ext_getElem?
  intro k
  by_cases inside : k < n
  · have digit : (val >>> (8 * k)) &&& 0xFF = val / 256 ^ k % 256 := by
      have place : val >>> (8 * k) = val / 256 ^ k := by
        rw [Nat.shiftRight_eq_div_pow, Nat.pow_mul]
      rw [place]
      exact Nat.and_two_pow_sub_one_eq_mod (val / 256 ^ k) 8
    rw [getElem?_toBytes inside, Vector.getElem?_toList, Vector.getElem?_eq_getElem inside,
      UINT64ToArray, Vector.getElem_ofFn, digit]
  · rw [List.getElem?_eq_none (by simpa using inside),
      List.getElem?_eq_none (by simpa using inside)]

theorem arrayToUINT64_UINT64ToArray {n : ℕ} (val : ℕ) (short : n ≤ 8) :
    arrayToUINT64 (UINT64ToArray n val) = val % 2 ^ (8 * n) := by
  rw [arrayToUINT64_eq _ short, toList_UINT64ToArray, ofBytes_toBytes, Nat.pow_mul]

theorem UINT64ToArray_arrayToUINT64 {n : ℕ} (array : Vector UInt8 n) (short : n ≤ 8) :
    UINT64ToArray n (arrayToUINT64 array) = array := by
  rw [← arrayToUINT64_inj short, arrayToUINT64_UINT64ToArray _ short]
  have bound := ofBytes_lt array.toList
  rw [← arrayToUINT64_eq array short, Vector.length_toList] at bound
  have size : 256 ^ n = 2 ^ (8 * n) := by rw [Nat.pow_mul]
  rw [← size]
  exact Nat.mod_eq_of_lt bound

end Kens.NetworkUtil
