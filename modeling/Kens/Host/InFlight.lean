/-
# The messages for a host on the scheduler

The messages for the host are those in the queue that are addressed to it and not canceled. What
the scheduler does changes them in three ways: a message is sent, one is dispatched, or one is
canceled.
-/

import Mathlib
import Kens.Host.Scheduled

namespace Kens.Host.Scheduled

open Semantics

variable {F : Type} {c c' : System.Config (Mail F)} {sys sys' : System (Mail F)}
  {a : TimerContainer (Mail F)} {me pid : ℕ} {events : List (System.Event (Mail F))}

/-! ## The messages for the host -/

/-- What a container has for the host, and when it is due. -/
def entry (me : ℕ) (canceled : Finset ℕ) (a : TimerContainer (Mail F)) : Option (HostMessage × ℕ) :=
  if a.address ∈ canceled then none else (aimed me a).map fun message => (message, a.wakeup)

/-- The messages for the host that are in flight. -/
def due (me : ℕ) (sys : System (Mail F)) : List (HostMessage × ℕ) :=
  sys.timerQueue.filterMap (entry me sys.canceled)

/-- Canceled containers have been allocated. -/
def Flagged (sys : System (Mail F)) : Prop := ∀ address ∈ sys.canceled, address < sys.nextAddress

theorem due_push (flagged : Flagged sys) (address : a.address = sys.nextAddress) :
    due me (sys.push a) =
      due me sys ++ ((aimed me a).map fun message => (message, a.wakeup)).toList := by
  have live : a.address ∉ sys.canceled := fun member =>
    absurd (flagged _ member) (by rw [address]; exact lt_irrefl _)
  rw [due, System.push_timerQueue, System.push_canceled, List.filterMap_append, due]
  congr 1
  rw [List.filterMap_cons, entry, if_neg live]
  cases aimed me a <;> rfl

theorem Flagged.push (flagged : Flagged sys) : Flagged (sys.push a) := fun address member =>
  (flagged address member).trans (Nat.lt_succ_self _)

/-- A container leaves the queue, with what it has for the host. -/
theorem due_pop (me : ℕ) (pop : sys.popTimer = some (a, sys')) :
    (due me sys).Perm ((entry me sys.canceled a).toList ++ due me sys') ∧
      sys'.canceled = sys.canceled ∧ sys'.nextAddress = sys.nextAddress := by
  obtain ⟨rest, taken, rfl⟩ := System.popTimer_eq_some_iff.mp pop
  refine ⟨?_, rfl, rfl⟩
  have perm := (popMax_perm taken).filterMap (entry me sys.canceled)
  refine perm.trans (List.Perm.of_eq ?_)
  rw [List.filterMap_cons]
  cases entry me sys.canceled a <;> rfl

/-- What one entry of a list gives is left out. -/
theorem filterMap_without {α β : Type} {f g : α → Option β} {l : List α} {a : α}
    (distinct : l.Nodup) (member : a ∈ l) (dropped : g a = none)
    (others : ∀ b ∈ l, b ≠ a → g b = f b) :
    ∃ front back, l.filterMap f = front ++ ((f a).toList ++ back) ∧
      l.filterMap g = front ++ back := by
  obtain ⟨front, back, rfl⟩ := List.append_of_mem member
  have apart := List.nodup_append.mp distinct
  have fronts : front.filterMap g = front.filterMap f :=
    List.filterMap_congr fun b inside => others b (by simp [inside])
      fun same => apart.2.2 b inside a (by simp) same
  have backs : back.filterMap g = back.filterMap f :=
    List.filterMap_congr fun b inside => others b (by simp [inside])
      fun same => (List.nodup_cons.mp apart.2.1).1 (same ▸ inside)
  refine ⟨front.filterMap f, back.filterMap f, ?_, ?_⟩
  · rw [List.filterMap_append, List.filterMap_cons]
    cases f a <;> rfl
  · rw [List.filterMap_append, List.filterMap_cons, dropped, fronts, backs]

/-- A cancellation takes the message of one container away, or nothing. -/
theorem due_cancelMessage (me : ℕ) (agree : System.Agreement c) (uuid : ℕ) :
    due me (c.sys.cancelMessage uuid).2 = due me c.sys ∨
      ∃ a front back message, c.sys.activeTimer uuid = some a ∧ aimed me a = some message ∧
        due me c.sys = front ++ (message, a.wakeup) :: back ∧
        due me (c.sys.cancelMessage uuid).2 = front ++ back := by
  unfold System.cancelMessage
  cases active : c.sys.activeTimer uuid with
  | none => exact .inl rfl
  | some a =>
    have pending := ((agree.active uuid a).mp active).2
    -- the flag of one container is not that of another
    have others : ∀ b ∈ c.sys.timerQueue, b ≠ a →
        entry me (insert a.address c.sys.canceled) b = entry me c.sys.canceled b := by
      intro b queued other
      have differs : b.address ≠ a.address := fun same =>
        other (agree.addressed b a (.inl queued) pending same)
      simp only [entry, Finset.mem_insert, or_iff_right differs]
    have flagged : entry me (insert a.address c.sys.canceled) a = none :=
      if_pos (Finset.mem_insert_self ..)
    by_cases queued : a ∈ c.sys.timerQueue
    · obtain ⟨front, back, before, after⟩ :=
        filterMap_without agree.distinct queued flagged others
      cases has : entry me c.sys.canceled a with
      | none =>
        rw [has] at before
        exact .inl (after.trans before.symm)
      | some found =>
        rw [has] at before
        unfold entry at has
        split at has
        · simp at has
        · obtain ⟨message, aims, rfl⟩ := Option.map_eq_some_iff.mp has
          exact .inr ⟨a, front, back, message, rfl, aims, before, after⟩
    -- the container is being dispatched, and the flag comes too late
    · refine .inl (List.filterMap_congr fun b member => others b member ?_)
      rintro rfl
      exact queued member

theorem Flagged.cancelMessage (agree : System.Agreement c) (flagged : Flagged c.sys) (uuid : ℕ) :
    Flagged (c.sys.cancelMessage uuid).2 := by
  intro address member
  rw [System.cancelMessage_nextAddress]
  rcases System.mem_cancelMessage_canceled.mp member with old | ⟨a, active, rfl⟩
  · exact flagged address old
  · exact agree.allocated a ((agree.active uuid a).mp active).2

/-! ## Sending -/

/-- The message for the host in a call of `sendMessage`, with its delay. -/
def addressed (me : ℕ) : System.Action (Mail F) → Option (HostMessage × ℕ)
  | .sendMessage _ target (.host message) timeAfter =>
    if target = me then some (message, timeAfter) else none
  | _ => none

/-- The scheduler after some messages were sent. -/
structure Mailed (me : ℕ) (c c' : System.Config (Mail F)) (messages : List (HostMessage × ℕ)) :
    Prop where
  control : c'.control = c.control
  runnables : c'.runnables = c.runnables
  ready : c'.sys.runnableReady = c.sys.runnableReady
  time : c'.sys.currentTime = c.sys.currentTime
  flagged : Flagged c'.sys
  due : due me c'.sys = due me c.sys ++
    messages.map fun m => (m.1, (c.sys.currentTime + m.2) % 2 ^ 64)

theorem mailed_sendMessage {source target timeAfter : ℕ} {message : Mail F}
    (flagged : Flagged c.sys)
    (h : c.step (.sendMessage source target message timeAfter) = some (c', events)) :
    Mailed me c c' (addressed me (.sendMessage source target message timeAfter)).toList := by
  simp only [System.Config.step] at h
  split at h
  · split at h
    · simp at h
    next a sys sent =>
      obtain ⟨rfl, -⟩ := Prod.mk.inj (Option.some.inj h)
      obtain ⟨-, rfl, rfl⟩ := System.sendMessage_eq_some_iff.mp sent
      refine ⟨rfl, rfl, rfl, rfl, flagged.push, ?_⟩
      refine (due_push flagged rfl).trans ?_
      congr 1
      cases message with
      | host m =>
        by_cases mine : target = me
        · simp [aimed, addressed, System.newContainer, mine]
        · simp [aimed, addressed, System.newContainer, mine]
      | packetToPort packet => rfl
      | other m => rfl
  · simp at h

theorem mailed_of_run {letters : List (System.Action (Mail F))}
    (all : ∀ letter ∈ letters, ∃ source target message timeAfter,
      letter = .sendMessage source target message timeAfter)
    (flagged : Flagged c.sys)
    (run : (System.machine (Mail F)).Run Machine.free c letters events c') :
    Mailed me c c' (letters.filterMap (addressed me)) := by
  -- the clock stands still, so all delays count from the same time
  induction letters generalizing c events with
  | nil =>
    obtain ⟨rfl, -⟩ := run.of_nil
    exact ⟨rfl, rfl, rfl, rfl, flagged, by simp⟩
  | cons letter rest ih =>
    obtain ⟨d, new, later, -, step, run', -⟩ := run.of_cons
    obtain ⟨source, target, message, timeAfter, rfl⟩ := all _ List.mem_cons_self
    have first : Mailed me c d _ := mailed_sendMessage flagged step
    have others := ih (fun letter member => all letter (List.mem_cons_of_mem _ member))
      first.flagged run'
    refine ⟨others.control.trans first.control, others.runnables.trans first.runnables,
      others.ready.trans first.ready, others.time.trans first.time, others.flagged, ?_⟩
    rw [others.due, first.due, first.time, List.append_assoc, ← List.map_append]
    congr 2
    rw [List.filterMap_cons]
    cases addressed me (.sendMessage source target message timeAfter) <;> rfl

theorem addressed_sends {s : State} {new : List Event} :
    (sends (F := F) me s new).filterMap (addressed me) =
      s.pool.map fun posted => (posted.message, posted.timeAfter) := by
  have wires : (new.filterMap (toWire (F := F) me)).filterMap (addressed me) = [] := by
    rw [List.filterMap_filterMap]
    refine List.filterMap_eq_nil_iff.mpr fun event _ => ?_
    cases event <;> rfl
  rw [sends, List.filterMap_append, wires, List.append_nil, List.filterMap_map]
  rw [← congrFun List.filterMap_eq_map s.pool]
  exact List.filterMap_congr fun posted _ => if_pos rfl

/-- Events of a process are not packets. -/
theorem sends_own {s : State} {new : List Event} (empty : s.pool = [])
    (own : ∀ event ∈ new, event.pid = some pid) : sends (F := F) me s new = [] := by
  rw [sends, empty, List.map_nil, List.nil_append, List.filterMap_eq_nil_iff]
  intro event member
  have about := own event member
  cases event <;> first | rfl | simp [Event.pid] at about

theorem sends_letters {s : State} {new : List Event} :
    ∀ letter ∈ sends (F := F) me s new, ∃ source target message timeAfter,
      letter = .sendMessage source target message timeAfter := by
  intro letter member
  rcases List.mem_append.mp member with member | member
  · obtain ⟨posted, -, rfl⟩ := List.mem_map.mp member
    exact ⟨me, me, _, _, rfl⟩
  · obtain ⟨event, -, wired⟩ := List.mem_filterMap.mp member
    cases event with
    | packetToPort portID packet => exact ⟨me, portID, _, 0, (Option.some.inj wired).symm⟩
    | _ => simp [toWire] at wired

end Kens.Host.Scheduled
