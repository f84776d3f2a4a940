/-
# The queue and the two tables

`sendMessage` enters a container in the queue, in `activeTimer` and in `activeUUID`.
A dispatch takes it out of the queue before the handlers run and out of the tables
after they return, and the handlers send and cancel in between. At every moment the
tables hold exactly the queued containers and the one being dispatched. This rests on
the test in `allocateUUID` alone: neither the clock nor the UUIDs need to be bounded.
-/

import Kens.System.Execution

namespace Kens.System

open Semantics Machine

variable {M : Type} {c c' : Config M} {a b : TimerContainer M} {log new : List (Event M)}

/-- The container is queued or being dispatched. -/
def Pending (c : Config M) (a : TimerContainer M) : Prop :=
  a ∈ c.sys.timerQueue ∨ c.control.current = some a

/-- Nothing becomes pending when a container is taken out of the queue. -/
theorem Pending.of_pop {s : System M} {control : Control M}
    (pop : c.sys.popTimer = some (a, s)) (busy : control.current = some a)
    (pending : Pending { c with sys := s, control := control } b) : Pending c b := by
  obtain ⟨rest, hmax, rfl⟩ := popTimer_eq_some_iff.mp pop
  rcases pending with queued | current
  · exact .inl ((popMax_sublist hmax).subset queued)
  · obtain rfl : a = b := Option.some.inj (busy.symm.trans current)
    exact .inl (mem_of_popMax hmax)

/-- The queue and the tables agree, and a container is known by its address. -/
structure Agreement (c : Config M) : Prop where
  active : ∀ uuid a, c.sys.activeTimer uuid = some a ↔ a.uuid = uuid ∧ Pending c a
  used : ∀ uuid, uuid ∈ c.sys.activeUUID ↔ (c.sys.activeTimer uuid).isSome
  distinct : c.sys.timerQueue.Nodup
  apart : ∀ a, c.control.current = some a → a ∉ c.sys.timerQueue
  allocated : ∀ a, Pending c a → a.address < c.sys.nextAddress
  addressed : ∀ a b, Pending c a → Pending c b → a.address = b.address → a = b

theorem agreement_start : Agreement ({} : Config M) where
  active := by simp [Pending, Control.current]
  used := by simp
  distinct := .nil
  apart := by simp
  allocated := by simp [Pending, Control.current]
  addressed := by simp [Pending, Control.current]

namespace Agreement

/-- A UUID names at most one pending container. -/
theorem eq_of_uuid (h : Agreement c) (ha : Pending c a) (hb : Pending c b)
    (same : a.uuid = b.uuid) : a = b := by
  have left := (h.active b.uuid a).mpr ⟨same, ha⟩
  have right := (h.active b.uuid b).mpr ⟨rfl, hb⟩
  exact Option.some.inj (left.symm.trans right)

theorem mem_activeUUID (h : Agreement c) (pending : Pending c a) : a.uuid ∈ c.sys.activeUUID := by
  rw [h.used, (h.active a.uuid a).mpr ⟨rfl, pending⟩]
  rfl

/-- A step that changes neither queue nor tables and keeps the container being
dispatched. -/
theorem frame (h : Agreement c) (queue : c'.sys.timerQueue = c.sys.timerQueue)
    (timers : c'.sys.activeTimer = c.sys.activeTimer)
    (uuids : c'.sys.activeUUID = c.sys.activeUUID)
    (addresses : c'.sys.nextAddress = c.sys.nextAddress)
    (busy : c'.control.current = c.control.current) : Agreement c' := by
  have pending : ∀ a, Pending c' a ↔ Pending c a := by
    intro a
    rw [Pending, Pending, queue, busy]
  constructor
  · simpa only [timers, pending] using h.active
  · simpa only [timers, uuids] using h.used
  · simpa only [queue] using h.distinct
  · simpa only [queue, busy] using h.apart
  · simpa only [addresses, pending] using h.allocated
  · simpa only [pending] using h.addressed

/-- The test in `allocateUUID` and the allocator make the new container different from
all pending ones. -/
theorem push (h : Agreement c) (fresh : a.uuid ∉ c.sys.activeUUID)
    (address : a.address = c.sys.nextAddress) : Agreement { c with sys := c.sys.push a } := by
  -- a UUID that is free is not in the map either, so `insert` adds the entry
  have unused : c.sys.activeTimer a.uuid = none := by
    rw [h.used, Option.not_isSome_iff_eq_none] at fresh
    exact fresh
  have timers : (c.sys.push a).activeTimer = Function.update c.sys.activeTimer a.uuid (some a) := by
    simp [System.push, insertNew, unused]
  have pending : ∀ b, Pending { c with sys := c.sys.push a } b ↔ Pending c b ∨ b = a := by
    intro b
    simp only [Pending, push_timerQueue, List.mem_append, List.mem_singleton]
    tauto
  have new : ¬ Pending c a := fun old => fresh (h.mem_activeUUID old)
  constructor
  · intro uuid b
    rw [timers, pending]
    by_cases same : uuid = a.uuid
    · subst same
      rw [Function.update_self]
      constructor
      · intro found
        obtain rfl : a = b := Option.some.inj found
        exact ⟨rfl, .inr rfl⟩
      · rintro ⟨same, old | rfl⟩
        · exact absurd (same ▸ h.mem_activeUUID old) fresh
        · rfl
    · rw [Function.update_of_ne same, h.active uuid b]
      refine and_congr_right fun named => (or_iff_left ?_).symm
      rintro rfl
      exact same named.symm
  · intro uuid
    rw [timers, push_activeUUID, Finset.mem_insert]
    by_cases same : uuid = a.uuid
    · simp [same]
    · rw [Function.update_of_ne same, h.used uuid, or_iff_right same]
  · rw [push_timerQueue]
    refine List.nodup_append.mpr ⟨h.distinct, List.nodup_singleton a, ?_⟩
    rintro b queued d hd rfl
    exact new (List.mem_singleton.mp hd ▸ .inl queued)
  · intro b busy queued
    rw [push_timerQueue, List.mem_append, List.mem_singleton] at queued
    rcases queued with queued | rfl
    · exact h.apart b busy queued
    · exact new (.inr busy)
  · intro b hb
    rw [push_nextAddress]
    rcases (pending b).mp hb with old | rfl
    · exact (h.allocated b old).trans (Nat.lt_succ_self _)
    · rw [address]
      exact Nat.lt_succ_self _
  · intro b d hb hd same
    -- the new address is above all those handed out
    rcases (pending b).mp hb with old | rfl <;> rcases (pending d).mp hd with old' | rfl
    · exact h.addressed b d old old' same
    · have := h.allocated b old
      omega
    · have := h.allocated d old'
      omega
    · rfl

/-- A container that leaves the queue to be dispatched stays pending. -/
theorem pop (h : Agreement c) {s : System M} {control : Control M}
    (idle : c.control.current = none) (busy : control.current = some a)
    (pop : c.sys.popTimer = some (a, s)) : Agreement { c with sys := s, control := control } := by
  obtain ⟨rest, hmax, rfl⟩ := popTimer_eq_some_iff.mp pop
  have perm := popMax_perm hmax
  have distinct := List.nodup_cons.mp (perm.nodup_iff.mp h.distinct)
  have pending : ∀ b, (b ∈ rest ∨ control.current = some b) ↔ Pending c b := by
    intro b
    rw [Pending, idle, busy, perm.mem_iff, List.mem_cons]
    simp only [Option.some.injEq, reduceCtorEq, or_false, eq_comm (a := a)]
    exact or_comm
  constructor
  · intro uuid b
    exact (h.active uuid b).trans (and_congr_right fun _ => (pending b).symm)
  · exact h.used
  · exact distinct.2
  · intro b current
    obtain rfl : a = b := by simpa [busy] using current
    exact distinct.1
  · intro b hb
    exact h.allocated b ((pending b).mp hb)
  · intro b d hb hd
    exact h.addressed b d ((pending b).mp hb) ((pending d).mp hd)

/-- The released UUID belongs to the released container alone. -/
theorem release (h : Agreement c) (busy : c.control.current = some a) :
    Agreement (c.endDispatch a) := by
  have pending : ∀ b, Pending (c.endDispatch a) b ↔ b ∈ c.sys.timerQueue := by
    intro b
    simp [Pending, Config.endDispatch, System.release, Control.current]
  have pendingOf : ∀ b, Pending (c.endDispatch a) b → Pending c b := fun b hb =>
    .inl ((pending b).mp hb)
  constructor
  · intro uuid b
    change Function.update c.sys.activeTimer a.uuid none uuid = some b ↔ _
    rw [pending]
    by_cases same : uuid = a.uuid
    · subst same
      rw [Function.update_self]
      constructor
      · exact nofun
      · rintro ⟨same, queued⟩
        -- a queued container of this UUID would be the one dispatched, which has left the queue
        obtain rfl := h.eq_of_uuid (.inl queued) (.inr busy) same
        exact absurd queued (h.apart b busy)
    · rw [Function.update_of_ne same, h.active uuid b]
      refine and_congr_right fun named => or_iff_left ?_
      intro current
      obtain rfl : a = b := by simpa [busy] using current
      exact same named.symm
  · intro uuid
    change uuid ∈ c.sys.activeUUID.erase a.uuid ↔
      (Function.update c.sys.activeTimer a.uuid none uuid).isSome
    by_cases same : uuid = a.uuid
    · simp [same]
    · rw [Function.update_of_ne same, Finset.mem_erase, h.used uuid, and_iff_right same]
  · exact h.distinct
  · exact nofun
  · exact fun b hb => h.allocated b (pendingOf b hb)
  · exact fun b d hb hd => h.addressed b d (pendingOf b hb) (pendingOf d hd)

/-- One step keeps the agreement. -/
theorem move {act : Action M} (h : Agreement c) (move : Move c act new c') : Agreement c' := by
  cases move with
  | quiet _ _ ready sys control inside =>
    have busy : c'.control.current = c.control.current := by
      rcases control with same | ⟨idle, idle'⟩
      · rw [same]
      · rw [idle, idle']
    apply h.frame <;> first | rw [sys] | exact busy
  | send source target message timeAfter bound container fresh built =>
    exact h.push (by rw [built]; exact fresh) (by rw [built]; rfl)
  | cancel _ uuid => apply h.frame <;> simp
  | deliver _ current sys idle pop live => exact h.pop (by rw [idle]; rfl) rfl pop
  | drop _ current sys idle pop dead => exact h.pop (by rw [idle]; rfl) rfl pop
  | finish _ current ret at_ => apply h.frame <;> simp [at_, Control.current]
  | respond _ current response at_ => apply h.frame <;> simp [at_, Control.current]
  | release _ current at_ =>
    apply h.release
    rcases at_ with at_ | at_ | at_ <;> rw [at_] <;> rfl

end Agreement

/-- The tables agree with the queue in every reachable state. -/
theorem agreement_of_run {acts : List (Action M)} (run : (machine M).Run free {} acts log c) :
    Agreement c :=
  run.invariant (fun _ c => Agreement c) agreement_start fun _ _ _ _ _ h _ step =>
    h.move (move_of_step step)

end Kens.System
