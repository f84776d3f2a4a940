/-
# Cyclic search

A search through the numbers below `m` that begins anywhere and wraps around
until it is back at its beginning.
-/

import Mathlib

namespace Kens.Semantics

/-- Go on from `current` until an unused number is found or `start` is reached. -/
def searchFrom (used : ℕ → Bool) (m start : ℕ) : ℕ → ℕ → Option ℕ
  | 0, _ => none
  | fuel + 1, current =>
    if used current then
      let next := (current + 1) % m
      if next ≠ start then searchFrom used m start fuel next else none
    else some current

def search (used : ℕ → Bool) (m start : ℕ) : Option ℕ :=
  searchFrom used m start m start

variable {used : ℕ → Bool} {m start : ℕ}

/-- The `i`-th step leads back to the start only after a whole round. -/
theorem add_mod_eq_self_iff {i : ℕ} (inside : start < m) (positive : 0 < i) (round : i ≤ m) :
    (start + i) % m = start ↔ i = m := by
  constructor
  · intro back
    by_contra short
    by_cases wraps : start + i < m
    · rw [Nat.mod_eq_of_lt wraps] at back
      omega
    · rw [Nat.mod_eq_sub_mod (by omega), Nat.mod_eq_of_lt (by omega)] at back
      omega
  · intro whole
    rw [whole, Nat.add_mod_right, Nat.mod_eq_of_lt inside]

/-- Every number is passed within one round. -/
theorem exists_add_mod_eq {k : ℕ} (inside : start < m) (below : k < m) :
    ∃ i < m, (start + i) % m = k := by
  by_cases later : start ≤ k
  · refine ⟨k - start, by omega, ?_⟩
    rw [Nat.add_sub_cancel' later, Nat.mod_eq_of_lt below]
  · refine ⟨k + m - start, by omega, ?_⟩
    have around : start + (k + m - start) = k + m := by omega
    rw [around, Nat.add_mod_right, Nat.mod_eq_of_lt below]

/-- From the `i`-th number on, the search finds the first unused one or finds that
all are used. -/
theorem searchFrom_cases (inside : start < m) (fuel i : ℕ) (below : i < m) (enough : m - i ≤ fuel)
    (passed : ∀ j < i, used ((start + j) % m) = true) :
    (∃ k < m, searchFrom used m start fuel ((start + i) % m) = some ((start + k) % m) ∧
      used ((start + k) % m) = false ∧ ∀ j < k, used ((start + j) % m) = true) ∨
    (searchFrom used m start fuel ((start + i) % m) = none ∧
      ∀ j < m, used ((start + j) % m) = true) := by
  induction fuel generalizing i with
  | zero => omega
  | succ fuel ih =>
    rw [searchFrom]
    by_cases taken : used ((start + i) % m) = true
    · have passed' : ∀ j < i + 1, used ((start + j) % m) = true := by
        intro j before
        rcases Nat.lt_succ_iff_lt_or_eq.mp before with before | rfl
        · exact passed j before
        · exact taken
      have next : ((start + i) % m + 1) % m = (start + (i + 1)) % m := by
        rw [Nat.mod_add_mod, Nat.add_assoc]
      rw [if_pos taken, next]
      dsimp only
      by_cases round : i + 1 = m
      · rw [if_neg (not_not.mpr ((add_mod_eq_self_iff inside (by omega) below).mpr round))]
        exact .inr ⟨rfl, round ▸ passed'⟩
      · rw [if_pos (fun back => round ((add_mod_eq_self_iff inside (by omega) below).mp back))]
        exact ih (i + 1) (by omega) (by omega) passed'
    · rw [if_neg taken]
      exact .inl ⟨i, below, rfl, Bool.not_eq_true _ ▸ taken, passed⟩

/-- The search as a loop that may not have ended: `none` stands for that, and `some none` for a
search in vain. -/
def searchLoop (used : ℕ → Bool) (m start : ℕ) : ℕ → ℕ → Option (Option ℕ)
  | 0, _ => none
  | fuel + 1, current =>
    if used current then
      let next := (current + 1) % m
      if next ≠ start then searchLoop used m start fuel next else some none
    else some (some current)

/-- A loop that has ended does not depend on the fuel. -/
theorem searchLoop_mono {fuel more current : ℕ} {result : Option ℕ} (less : fuel ≤ more)
    (ended : searchLoop used m start fuel current = some result) :
    searchLoop used m start more current = some result := by
  induction fuel generalizing more current with
  | zero => simp [searchLoop] at ended
  | succ fuel ih =>
    cases more with
    | zero => omega
    | succ more =>
      rw [searchLoop] at ended ⊢
      dsimp only at ended ⊢
      by_cases taken : used current = true
      · rw [if_pos taken] at ended ⊢
        by_cases goes_on : (current + 1) % m ≠ start
        · rw [if_pos goes_on] at ended ⊢
          exact ih (by omega) ended
        · rwa [if_neg goes_on] at ended ⊢
      · rwa [if_neg taken] at ended ⊢

/-- From the `i`-th number on, the loop ends within the rest of the round. -/
theorem searchLoop_eq (inside : start < m) (fuel i : ℕ) (below : i < m) (enough : m - i ≤ fuel) :
    searchLoop used m start fuel ((start + i) % m) =
      some (searchFrom used m start fuel ((start + i) % m)) := by
  induction fuel generalizing i with
  | zero => omega
  | succ fuel ih =>
    have next : ((start + i) % m + 1) % m = (start + (i + 1)) % m := by
      rw [Nat.mod_add_mod, Nat.add_assoc]
    rw [searchLoop, searchFrom, next]
    dsimp only
    split
    · split
      next goes_on =>
        refine ih (i + 1) ?_ (by omega)
        by_contra round
        exact goes_on ((add_mod_eq_self_iff inside (by omega) below).mpr (by omega))
      · rfl
    · rfl

/-- Every search ends within one round. -/
theorem searchLoop_search {fuel : ℕ} (inside : start < m) (enough : m ≤ fuel) :
    searchLoop used m start fuel start = some (search used m start) := by
  have ends := @searchLoop_eq used m start inside m 0 (by omega) (by omega)
  rw [Nat.add_zero, Nat.mod_eq_of_lt inside] at ends
  exact searchLoop_mono enough ends

/-- The search finds the first unused number of the round, if there is one. -/
theorem search_cases (used : ℕ → Bool) (inside : start < m) :
    (∃ k < m, search used m start = some ((start + k) % m) ∧
      used ((start + k) % m) = false ∧ ∀ j < k, used ((start + j) % m) = true) ∨
    (search used m start = none ∧ ∀ k < m, used k = true) := by
  have first := @searchFrom_cases used m start inside m 0 (by omega) (by omega) (by simp)
  rw [Nat.add_zero, Nat.mod_eq_of_lt inside] at first
  rcases first with found | ⟨none, all⟩
  · exact .inl found
  · refine .inr ⟨none, fun k below => ?_⟩
    obtain ⟨i, within, rfl⟩ := exists_add_mod_eq inside below
    exact all i within

/-- What the search finds is unused. -/
theorem search_eq_some {k : ℕ} (inside : start < m) (found : search used m start = some k) :
    k < m ∧ used k = false := by
  rcases search_cases used inside with ⟨i, below, value, unused, -⟩ | ⟨none, -⟩
  · rw [value, Option.some.injEq] at found
    subst found
    exact ⟨Nat.mod_lt _ (by omega), unused⟩
  · rw [none] at found
    simp at found

/-- The search succeeds as soon as fewer than `m` numbers are used. -/
theorem search_isSome {listed : List ℕ} (inside : start < m)
    (covers : ∀ k, used k = true → k ∈ listed) (few : listed.length < m) :
    (search used m start).isSome := by
  rcases search_cases used inside with ⟨i, below, value, -⟩ | ⟨none, all⟩
  · rw [value]
    rfl
  · have large : m ≤ listed.length := by
      have sub : Finset.range m ⊆ listed.toFinset := by
        intro k below
        exact List.mem_toFinset.mpr (covers k (all k (Finset.mem_range.mp below)))
      have card := Finset.card_le_card sub
      rw [Finset.card_range] at card
      exact card.trans (List.toFinset_card_le listed)
    omega

end Kens.Semantics
