/-
# A priority queue that keeps insertion order

The queue is a list in insertion order; the element taken out is one that the
comparator puts below no other. When the comparator is the reverse of a linear
order on keys, that is an element of least key.
-/

import Mathlib

namespace Kens.Semantics

variable {α κ : Type*}

/-- Remove an element that the comparator `less` ranks highest, and return it
with the remaining queue. -/
def popMax (less : α → α → Bool) : List α → Option (α × List α)
  | [] => none
  | a :: queue =>
    match popMax less queue with
    | none => some (a, [])
    | some (b, rest) => if less a b then some (b, a :: rest) else some (a, queue)

/-- The element that `popMax` removes. -/
def top (less : α → α → Bool) (queue : List α) : Option α :=
  (popMax less queue).map Prod.fst

variable {less : α → α → Bool} {queue rest : List α} {a b : α}

@[simp] theorem popMax_eq_none_iff : popMax less queue = none ↔ queue = [] := by
  cases queue with
  | nil => simp [popMax]
  | cons a queue =>
    simp only [popMax]
    split
    · simp
    · split <;> simp

@[simp] theorem top_eq_none_iff : top less queue = none ↔ queue = [] := by
  simp [top]

/-- The removed element stood at one position, and the others keep their order. -/
theorem popMax_split (h : popMax less queue = some (a, rest)) :
    ∃ front back, queue = front ++ a :: back ∧ rest = front ++ back := by
  induction queue generalizing a rest with
  | nil => simp [popMax] at h
  | cons c queue ih =>
    simp only [popMax] at h
    split at h
    next hnone =>
      obtain ⟨rfl, rfl⟩ : c = a ∧ [] = rest := by simpa using h
      exact ⟨[], [], by simpa using popMax_eq_none_iff.mp hnone, rfl⟩
    next b tail hsome =>
      split at h
      · obtain ⟨rfl, rfl⟩ : b = a ∧ c :: tail = rest := by simpa using h
        obtain ⟨front, back, rfl, rfl⟩ := ih hsome
        exact ⟨c :: front, back, rfl, rfl⟩
      · obtain ⟨rfl, rfl⟩ : c = a ∧ queue = rest := by simpa using h
        exact ⟨[], queue, rfl, rfl⟩

theorem mem_of_popMax (h : popMax less queue = some (a, rest)) : a ∈ queue := by
  obtain ⟨front, back, rfl, -⟩ := popMax_split h
  simp

theorem popMax_perm (h : popMax less queue = some (a, rest)) : queue.Perm (a :: rest) := by
  obtain ⟨front, back, rfl, rfl⟩ := popMax_split h
  exact List.perm_middle

theorem popMax_sublist (h : popMax less queue = some (a, rest)) : rest.Sublist queue := by
  obtain ⟨front, back, rfl, rfl⟩ := popMax_split h
  exact (List.sublist_cons_self a back).append_left front

section Keys

variable [LinearOrder κ] {key : α → κ}

/-- With a comparator that reverses a linear order of keys, the removed element
has a least key. -/
theorem popMax_key_le (reverse : ∀ a b, less a b = true ↔ key b < key a)
    (h : popMax less queue = some (a, rest)) : ∀ b ∈ queue, key a ≤ key b := by
  induction queue generalizing a rest with
  | nil => simp
  | cons c queue ih =>
    intro b hb
    simp only [popMax] at h
    split at h
    next hnone =>
      obtain ⟨rfl, rfl⟩ : c = a ∧ [] = rest := by simpa using h
      obtain rfl := popMax_eq_none_iff.mp hnone
      obtain rfl : b = c := by simpa using hb
      exact le_rfl
    next d tail hsome =>
      split at h
      next hless =>
        obtain ⟨rfl, rfl⟩ : d = a ∧ c :: tail = rest := by simpa using h
        rcases List.mem_cons.mp hb with rfl | hb
        · exact ((reverse _ _).mp hless).le
        · exact ih hsome b hb
      next hless =>
        obtain ⟨rfl, rfl⟩ : c = a ∧ queue = rest := by simpa using h
        have first : key c ≤ key d := by
          rw [reverse] at hless
          exact not_lt.mp hless
        rcases List.mem_cons.mp hb with rfl | hb
        · exact le_rfl
        · exact first.trans (ih hsome b hb)

end Keys

end Kens.Semantics
