/-
# Little-endian integers

The number that a list of bytes stands for, the least significant byte first, and the bytes of
a number in a field of fixed width. A number is read back from its field exactly if it fits
the width, and the bytes of a field are determined by the number that they stand for.
-/

import Mathlib

namespace Kens.Semantics

/-- The number that some bytes stand for. -/
def ofBytes (bytes : List UInt8) : ℕ := Nat.ofDigits 256 (bytes.map UInt8.toNat)

/-- The lowest bytes of a number. -/
def toBytes : ℕ → ℕ → List UInt8
  | 0, _ => []
  | width + 1, value => UInt8.ofNat (value % 256) :: toBytes width (value / 256)

variable {bytes other : List UInt8} {width value : ℕ}

theorem ofBytes_cons (byte : UInt8) (bytes : List UInt8) :
    ofBytes (byte :: bytes) = byte.toNat + 256 * ofBytes bytes := by
  simp [ofBytes, Nat.ofDigits_cons]

theorem digit_lt (bytes : List UInt8) : ∀ digit ∈ bytes.map UInt8.toNat, digit < 256 := by
  intro digit member
  obtain ⟨byte, -, rfl⟩ := List.mem_map.mp member
  exact byte.toNat_lt

theorem ofBytes_lt (bytes : List UInt8) : ofBytes bytes < 256 ^ bytes.length := by
  have bound := Nat.ofDigits_lt_base_pow_length (by decide : 1 < 256) (digit_lt bytes)
  rwa [List.length_map] at bound

/-- Two fields of one width that stand for the same number are the same. -/
theorem eq_of_ofBytes_eq (same : bytes.length = other.length)
    (value : ofBytes bytes = ofBytes other) : bytes = other := by
  have digits := Nat.ofDigits_inj_of_len_eq (by decide : 1 < 256)
    (by rw [List.length_map, List.length_map, same]) (digit_lt bytes) (digit_lt other) value
  exact List.map_injective_iff.mpr (fun _ _ => UInt8.toNat.inj) digits

@[simp] theorem length_toBytes (width value : ℕ) : (toBytes width value).length = width := by
  induction width generalizing value with
  | zero => rfl
  | succ width ih => rw [toBytes, List.length_cons, ih]

/-- A byte of a field is a digit of its number. -/
theorem getElem?_toBytes {k : ℕ} (inside : k < width) :
    (toBytes width value)[k]? = some (UInt8.ofNat (value / 256 ^ k % 256)) := by
  induction width generalizing value k with
  | zero => omega
  | succ width ih =>
    rw [toBytes]
    cases k with
    | zero => rw [List.getElem?_cons_zero, Nat.pow_zero, Nat.div_one]
    | succ k => rw [List.getElem?_cons_succ, ih (by omega), Nat.div_div_eq_div_mul, Nat.pow_succ']

/-- A field holds its number modulo the size of the field. -/
theorem ofBytes_toBytes (width value : ℕ) :
    ofBytes (toBytes width value) = value % 256 ^ width := by
  induction width generalizing value with
  | zero => simp [toBytes, ofBytes, Nat.mod_one]
  | succ width ih =>
    have byte : (UInt8.ofNat (value % 256)).toNat = value % 256 := by
      rw [UInt8.toNat_ofNat']
      exact Nat.mod_mod value 256
    rw [toBytes, ofBytes_cons, byte, ih, Nat.pow_succ', Nat.mod_mul]

theorem ofBytes_toBytes_of_lt (fits : value < 256 ^ width) :
    ofBytes (toBytes width value) = value := by
  rw [ofBytes_toBytes, Nat.mod_eq_of_lt fits]

end Kens.Semantics
