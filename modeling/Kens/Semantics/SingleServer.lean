/-
# A first-come, first-served queue with one server

Customers arrive one after another. A service starts on arrival or when the
server is free, whichever is later, and the next one not before it ends.
-/

import Mathlib

namespace Kens.Semantics

variable {P : Type*} (delay : P → ℕ)

/-- Each customer with the start of its service. A service starts on arrival or
when the server is free, whichever is later. -/
def schedule : ℕ → List (ℕ × P) → List (P × ℕ)
  | _, [] => []
  | free, (arrival, customer) :: rest =>
    (customer, max arrival free) :: schedule (max arrival free + delay customer) rest

/-- When the server is free after the given customers. -/
def finish : ℕ → List (ℕ × P) → ℕ
  | free, [] => free
  | free, (arrival, customer) :: rest => finish (max arrival free + delay customer) rest

theorem schedule_append (free : ℕ) (early late : List (ℕ × P)) :
    schedule delay free (early ++ late) =
      schedule delay free early ++ schedule delay (finish delay free early) late := by
  induction early generalizing free with
  | nil => rfl
  | cons first rest ih =>
    obtain ⟨arrival, customer⟩ := first
    rw [List.cons_append, schedule, schedule, ih, finish, List.cons_append]

theorem finish_append (free : ℕ) (early late : List (ℕ × P)) :
    finish delay free (early ++ late) = finish delay (finish delay free early) late := by
  induction early generalizing free with
  | nil => rfl
  | cons first rest ih =>
    obtain ⟨arrival, customer⟩ := first
    rw [List.cons_append, finish, ih, finish]

theorem length_schedule (free : ℕ) (customers : List (ℕ × P)) :
    (schedule delay free customers).length = customers.length := by
  induction customers generalizing free with
  | nil => rfl
  | cons first rest ih =>
    obtain ⟨arrival, customer⟩ := first
    rw [schedule, List.length_cons, List.length_cons, ih]

/-- No service starts before the server is free. -/
theorem le_of_mem_schedule {free : ℕ} {customers : List (ℕ × P)} {service : P × ℕ}
    (member : service ∈ schedule delay free customers) : free ≤ service.2 := by
  induction customers generalizing free with
  | nil => simp [schedule] at member
  | cons first rest ih =>
    obtain ⟨arrival, customer⟩ := first
    rw [schedule, List.mem_cons] at member
    rcases member with rfl | member
    · exact le_max_right _ _
    · have later := ih member
      omega

end Kens.Semantics
