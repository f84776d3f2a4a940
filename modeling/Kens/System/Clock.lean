/-
# Due times and the clock

The due time of a message is a sum modulo `2 ^ 64`. It lies before the current
time exactly when that sum wraps, and as long as no sum wraps the clock never
runs backwards. UUIDs play no part in this.
-/

import Kens.System.Order

namespace Kens.System

open Semantics Machine

variable {M : Type} {c c' : Config M} {log log' new : List (Event M)}
  {acts acts' : List (Action M)}

/-- All due times recorded in a log lie within 64 bits. -/
def LogFits (log : List (Event M)) : Prop :=
  ∀ a now timeAfter, .sent a now timeAfter ∈ log → now + timeAfter < 2 ^ 64

/-- No message recorded in a log is due before the time at which it was sent. -/
def DueInFuture (log : List (Event M)) : Prop :=
  ∀ a now timeAfter, .sent a now timeAfter ∈ log → now ≤ a.wakeup

/-! ## Every number is a 64-bit number -/

/-- The clock and all due times are 64-bit numbers, and due times are the
wrapped sums. -/
structure Bounded (log : List (Event M)) (c : Config M) : Prop where
  clock : c.sys.currentTime < 2 ^ 64
  queue : ∀ a ∈ c.sys.timerQueue, a.wakeup < 2 ^ 64
  sent : ∀ a now timeAfter, .sent a now timeAfter ∈ log →
    now < 2 ^ 64 ∧ timeAfter < 2 ^ 64 ∧ a.wakeup = (now + timeAfter) % 2 ^ 64

theorem Bounded.frame (h : Bounded log c) (queue : c'.sys.timerQueue ⊆ c.sys.timerQueue)
    (clock : c'.sys.currentTime < 2 ^ 64)
    (noSend : ∀ a now timeAfter, Event.sent a now timeAfter ∉ new) : Bounded (log ++ new) c' where
  clock := clock
  queue a member := h.queue a (queue member)
  sent a now timeAfter member := by
    rcases List.mem_append.mp member with member | member
    · exact h.sent a now timeAfter member
    · exact absurd member (noSend a now timeAfter)

theorem Bounded.move {act : Action M} (h : Bounded log c) (move : Move c act new c') :
    Bounded (log ++ new) c' := by
  have pop : ∀ {current : TimerContainer M} {s : System M},
      c.sys.popTimer = some (current, s) →
        s.timerQueue ⊆ c.sys.timerQueue ∧ s.currentTime < 2 ^ 64 := by
    intro current s hpop
    obtain ⟨rest, hmax, rfl⟩ := popTimer_eq_some_iff.mp hpop
    exact ⟨(popMax_sublist hmax).subset, h.queue current (mem_of_popMax hmax)⟩
  cases move with
  | quiet _ _ ready sys control inside =>
    apply h.frame
    · rw [sys]
      exact List.Subset.refl _
    · rw [sys]
      exact h.clock
    · simp
  | send source target message timeAfter bound container fresh built =>
    have due : container.wakeup = (c.sys.currentTime + timeAfter) % 2 ^ 64 := by rw [built]; rfl
    refine ⟨h.clock, ?_, ?_⟩
    · intro a member
      rw [push_timerQueue, List.mem_append, List.mem_singleton] at member
      rcases member with member | rfl
      · exact h.queue a member
      · rw [due]
        exact Nat.mod_lt _ (by decide)
    · intro a now delay member
      rcases List.mem_append.mp member with member | member
      · exact h.sent a now delay member
      · obtain ⟨rfl, rfl, rfl⟩ : a = container ∧ now = c.sys.currentTime ∧ delay = timeAfter := by
          simpa using member
        exact ⟨h.clock, bound, due⟩
  | cancel _ uuid =>
    apply h.frame
    · rw [cancelMessage_timerQueue]
      exact List.Subset.refl _
    · rw [cancelMessage_currentTime]
      exact h.clock
    · simp
  | deliver _ current sys idle hpop live => exact h.frame (pop hpop).1 (pop hpop).2 (by simp)
  | drop _ current sys idle hpop dead => exact h.frame (pop hpop).1 (pop hpop).2 (by simp)
  | finish _ current ret at_ => exact h.frame (List.Subset.refl _) h.clock (by simp)
  | respond _ current response at_ => exact h.frame (List.Subset.refl _) h.clock (by simp)
  | release _ current at_ => exact h.frame (List.Subset.refl _) h.clock (by simp)

theorem bounded_of_run (h : (machine M).Run free {} acts log c) : Bounded log c :=
  h.invariant Bounded ⟨by simp, by simp, by simp⟩ fun _ _ _ _ _ inv _ hstep =>
    inv.move (move_of_step hstep)

/-- A wrapped sum is below its first summand exactly when it wraps. -/
theorem le_add_mod_iff {now delay : ℕ} (hnow : now < 2 ^ 64) (hdelay : delay < 2 ^ 64) :
    now ≤ (now + delay) % 2 ^ 64 ↔ now + delay < 2 ^ 64 := by
  omega

/-- The messages of a run are due in the future exactly when no sum wraps. -/
theorem dueInFuture_iff_logFits (h : (machine M).Run free {} acts log c) :
    DueInFuture log ↔ LogFits log := by
  have inv := bounded_of_run h
  refine forall_congr' fun a => forall_congr' fun now => forall_congr' fun timeAfter =>
    forall_congr' fun member => ?_
  obtain ⟨hnow, hdelay, hdue⟩ := inv.sent a now timeAfter member
  rw [hdue]
  exact le_add_mod_iff hnow hdelay

/-! ## The clock -/

/-- No queued message is due in the past. -/
def Future (c : Config M) : Prop := ∀ a ∈ c.sys.timerQueue, c.sys.currentTime ≤ a.wakeup

/-- One step whose sends fit keeps queued messages in the future and does not
move the clock back. -/
theorem Future.move {act : Action M} (h : Future c) (fits : LogFits new)
    (move : Move c act new c') :
    Future c' ∧ c.sys.currentTime ≤ c'.sys.currentTime := by
  have pop : ∀ {current : TimerContainer M} {s : System M} {control : Control M},
      c.sys.popTimer = some (current, s) →
        Future { c with sys := s, control := control } ∧ c.sys.currentTime ≤ s.currentTime := by
    intro current s control hpop
    have least := popTimer_key_le hpop
    obtain ⟨rest, hmax, rfl⟩ := popTimer_eq_some_iff.mp hpop
    -- the message that is popped is the earliest, and the clock is set to its due time
    refine ⟨?_, h current (mem_of_popMax hmax)⟩
    intro a member
    have order := least a ((popMax_sublist hmax).subset member)
    rw [TimerContainer.key_le_iff] at order
    change current.wakeup ≤ a.wakeup
    omega
  cases move with
  | quiet _ _ ready sys control inside =>
    unfold Future
    rw [sys]
    exact ⟨h, le_rfl⟩
  | send source target message timeAfter bound container fresh built =>
    refine ⟨?_, le_rfl⟩
    intro a member
    rw [push_timerQueue, List.mem_append, List.mem_singleton] at member
    rcases member with member | rfl
    · exact h a member
    -- without wrap-around the sum is not below the clock
    · have small := fits a _ timeAfter (List.mem_singleton.mpr rfl)
      have due : a.wakeup = (c.sys.currentTime + timeAfter) % 2 ^ 64 := by rw [built]; rfl
      rw [push_currentTime, due, Nat.mod_eq_of_lt small]
      omega
  | cancel _ uuid =>
    unfold Future
    rw [cancelMessage_timerQueue, cancelMessage_currentTime]
    exact ⟨h, le_rfl⟩
  | deliver _ current sys idle hpop live => exact pop hpop
  | drop _ current sys idle hpop dead => exact pop hpop
  | finish _ current ret at_ => exact ⟨h, le_rfl⟩
  | respond _ current response at_ => exact ⟨h, le_rfl⟩
  | release _ current at_ => exact ⟨h, le_rfl⟩

theorem LogFits.left (h : LogFits (log ++ new)) : LogFits log :=
  fun a now timeAfter member => h a now timeAfter (List.mem_append_left _ member)

theorem LogFits.right (h : LogFits (log ++ new)) : LogFits new :=
  fun a now timeAfter member => h a now timeAfter (List.mem_append_right _ member)

/-- Along a run whose sends fit, the clock does not go back. -/
theorem Future.run (h : Future c) (hrun : (machine M).Run free c acts log c')
    (fits : LogFits log) : Future c' ∧ c.sys.currentTime ≤ c'.sys.currentTime := by
  refine hrun.invariant (fun log c' => LogFits log →
    Future c' ∧ c.sys.currentTime ≤ c'.sys.currentTime) (fun _ => ⟨h, le_rfl⟩) ?_ fits
  intro log t a u new inv _ hstep fits
  obtain ⟨future, earlier⟩ := inv fits.left
  obtain ⟨future', later⟩ := future.move fits.right (move_of_step hstep)
  exact ⟨future', earlier.trans later⟩

/-- The clock is monotone between any two moments of a run whose sends fit. -/
theorem currentTime_mono (h : (machine M).Run free {} acts log c)
    (h' : (machine M).Run free c acts' log' c') (fits : LogFits (log ++ log')) :
    c.sys.currentTime ≤ c'.sys.currentTime := by
  have start : Future ({} : Config M) := by simp [Future]
  exact ((start.run h fits.left).1.run h' fits.right).2

end Kens.System
