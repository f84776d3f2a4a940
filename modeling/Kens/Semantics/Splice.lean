/-
# Overwriting a range of a list

`splice buffer offset data` replaces the entries from `offset` on by `data`.
Writes to adjacent ranges compose to one write, and a write inside an earlier
one replaces that part of its data.
-/

import Mathlib.Data.List.Basic

namespace Kens.Semantics

variable {α : Type*} {buffer data : List α} {offset : ℕ}

/-- The list with the entries from `offset` on replaced by `data`. -/
def splice (buffer : List α) (offset : ℕ) (data : List α) : List α :=
  buffer.take offset ++ data ++ buffer.drop (offset + data.length)

theorem length_splice (fits : offset + data.length ≤ buffer.length) :
    (splice buffer offset data).length = buffer.length := by
  simp only [splice, List.length_append, List.length_take, List.length_drop]
  omega

@[simp] theorem splice_nil : splice buffer offset [] = buffer := by
  simp [splice]

theorem take_splice (inside : offset ≤ buffer.length) :
    (splice buffer offset data).take offset = buffer.take offset := by
  rw [splice, List.append_assoc]
  exact List.take_left' (by rw [List.length_take]; omega)

/-- From its offset on, the list reads the data and then what stood behind it. -/
theorem drop_splice (inside : offset ≤ buffer.length) :
    (splice buffer offset data).drop offset = data ++ buffer.drop (offset + data.length) := by
  rw [splice, List.append_assoc]
  exact List.drop_left' (by rw [List.length_take]; omega)

/-- Nothing behind the data changes. -/
theorem drop_splice_of_le {index : ℕ} (fits : offset + data.length ≤ buffer.length)
    (behind : offset + data.length ≤ index) :
    (splice buffer offset data).drop index = buffer.drop index := by
  obtain ⟨extra, rfl⟩ := Nat.exists_eq_add_of_le behind
  rw [← List.drop_drop, ← List.drop_drop (i := extra)]
  congr 1
  exact List.drop_left' (by simp only [List.length_append, List.length_take]; omega)

/-- What stands behind an earlier position is overwritten at the rest of the offset. -/
theorem drop_splice_add {start : ℕ} (inside : start ≤ buffer.length) :
    (splice buffer (start + offset) data).drop start = splice (buffer.drop start) offset data := by
  rw [splice, splice, List.append_assoc, List.drop_append_of_le_length, List.drop_take,
    Nat.add_sub_cancel_left, List.append_assoc, List.drop_drop, Nat.add_assoc]
  rw [List.length_take]
  omega

/-- The entries in front of a later position are overwritten just the same. -/
theorem take_splice_of_le {count : ℕ} (inside : offset ≤ buffer.length)
    (within : offset + data.length ≤ count) :
    (splice buffer offset data).take count = splice (buffer.take count) offset data := by
  have front : (buffer.take offset ++ data).length = offset + data.length := by
    rw [List.length_append, List.length_take, Nat.min_eq_left inside]
  rw [splice, List.take_append, front, List.take_of_length_le (by omega), splice,
    List.take_take, Nat.min_eq_left (by omega), List.drop_take]

/-- The entries inside the range come from the data, the others are as before. -/
theorem getElem?_splice {index : ℕ} (fits : offset + data.length ≤ buffer.length) :
    (splice buffer offset data)[index]? =
      if offset ≤ index ∧ index < offset + data.length then data[index - offset]?
      else buffer[index]? := by
  have front : (buffer.take offset).length = offset := by
    rw [List.length_take]
    omega
  rw [splice, List.append_assoc]
  by_cases before : index < offset
  · rw [if_neg (by omega), List.getElem?_append_left (by omega), List.getElem?_take_of_lt before]
  · rw [List.getElem?_append_right (by omega), front]
    by_cases inside : index < offset + data.length
    · rw [if_pos (by omega), List.getElem?_append_left (by omega)]
    · rw [if_neg (by omega), List.getElem?_append_right (by omega), List.getElem?_drop]
      congr 1
      omega

/-- A write just behind another extends its data. -/
theorem splice_append {more : List α} (inside : offset + data.length ≤ buffer.length) :
    splice (splice buffer offset data) (offset + data.length) more =
      splice buffer offset (data ++ more) := by
  have front : (splice buffer offset data).take (offset + data.length) =
      buffer.take offset ++ data := by
    rw [splice]
    exact List.take_left' (by simp only [List.length_append, List.length_take]; omega)
  rw [splice, front, drop_splice_of_le inside (by omega), splice, List.length_append,
    List.append_assoc (buffer.take offset), Nat.add_assoc]

/-- A write over another of the same length replaces it. -/
theorem splice_splice {more : List α} (same : data.length = more.length)
    (fits : offset + data.length ≤ buffer.length) :
    splice (splice buffer offset data) offset more = splice buffer offset more := by
  rw [splice, take_splice (by omega), ← same, drop_splice_of_le fits (Nat.le_refl _), splice, same]

/-- A write over the end of another's data replaces that part of it. -/
theorem splice_replace {old more : List α} (same : old.length = more.length)
    (fits : offset + data.length + old.length ≤ buffer.length) :
    splice (splice buffer offset (data ++ old)) (offset + data.length) more =
      splice buffer offset (data ++ more) := by
  have inside : offset + data.length ≤ buffer.length := by omega
  rw [← splice_append inside, ← splice_append inside]
  exact splice_splice same (by rw [length_splice inside]; exact fits)

end Kens.Semantics
