/-
# Tables as lists of pairs

What a lookup says about the entries of a table, for any keys and values.
-/

import Mathlib

namespace Kens.Semantics

variable {α β : Type*} [BEq α] [LawfulBEq α] {table : List (α × β)} {key other : α} {value : β}

theorem mem_of_lookup (found : table.lookup key = some value) : (key, value) ∈ table := by
  obtain ⟨front, back, rfl, -⟩ := List.lookup_eq_some_iff.mp found
  simp

theorem not_mem_of_lookup (missing : table.lookup key = none) : (key, value) ∉ table := by
  intro member
  have differs := List.lookup_eq_none_iff.mp missing (key, value) member
  simp at differs

theorem mem_map_fst_iff_lookup :
    key ∈ table.map Prod.fst ↔ ∃ value, table.lookup key = some value := by
  rw [← Option.isSome_iff_exists, List.lookup_isSome_iff, List.mem_map]
  constructor
  · rintro ⟨entry, member, rfl⟩
    exact ⟨entry, member, by simp⟩
  · rintro ⟨entry, member, same⟩
    exact ⟨entry, member, (beq_iff_eq.mp same).symm⟩

/-- A lookup finds the first entry or goes on behind it. -/
theorem lookup_entry [DecidableEq α] {rest : List (α × β)} :
    ((key, value) :: rest).lookup other =
      if other = key then some value else rest.lookup other := by
  rw [List.lookup_cons]
  by_cases same : other = key
  · rw [if_pos same, beq_iff_eq.mpr same]
  · rw [if_neg same, beq_eq_false_iff_ne.mpr same]

end Kens.Semantics
