/-
# The total order of events

As long as neither the clock nor the UUID counter wraps, the messages leave the
queue in strictly increasing order of wake-up time and UUID, however handlers,
woken runnables and outside code send and cancel in between. The invariant ties
every queued key to every key already processed: a message sent at the current
time carries a UUID above all earlier ones, so it can neither overtake nor equal
a processed message.
-/

import Kens.System.Execution

namespace Kens.System

open Semantics

variable {M : Type} {c c' : Config M} {log new : List (Event M)} {a b : TimerContainer M}

/-! ## Reading the log -/

/-- The containers sent, in the order of the calls. -/
def sends (log : List (Event M)) : List (TimerContainer M) :=
  log.filterMap fun
    | .sent container _ _ => some container
    | _ => none

/-- The containers taken out of the queue, in order. -/
def pops (log : List (Event M)) : List (TimerContainer M) :=
  log.filterMap fun
    | .popped container _ => some container
    | _ => none

@[simp] theorem sends_nil : sends ([] : List (Event M)) = [] := rfl

@[simp] theorem pops_nil : pops ([] : List (Event M)) = [] := rfl

@[simp] theorem sends_append : sends (log ++ new) = sends log ++ sends new :=
  List.filterMap_append

@[simp] theorem pops_append : pops (log ++ new) = pops log ++ pops new :=
  List.filterMap_append

theorem mem_sends_iff : a ∈ sends log ↔ ∃ now timeAfter, Event.sent a now timeAfter ∈ log := by
  simp only [sends, List.mem_filterMap]
  constructor
  · rintro ⟨event, member, heq⟩
    cases event <;> simp at heq
    subst heq
    exact ⟨_, _, member⟩
  · rintro ⟨now, timeAfter, member⟩
    exact ⟨_, member, rfl⟩

theorem mem_pops_iff : a ∈ pops log ↔ ∃ now, Event.popped a now ∈ log := by
  simp only [pops, List.mem_filterMap]
  constructor
  · rintro ⟨event, member, heq⟩
    cases event <;> simp at heq
    subst heq
    exact ⟨_, member⟩
  · rintro ⟨now, member⟩
    exact ⟨_, member, rfl⟩

theorem sends_eq_nil (none : ∀ a now timeAfter, Event.sent a now timeAfter ∉ new) :
    sends new = [] := by
  apply List.eq_nil_iff_forall_not_mem.mpr
  intro a member
  obtain ⟨now, timeAfter, member⟩ := mem_sends_iff.mp member
  exact none a now timeAfter member

theorem pops_eq_nil (none : ∀ a now, Event.popped a now ∉ new) : pops new = [] := by
  apply List.eq_nil_iff_forall_not_mem.mpr
  intro a member
  obtain ⟨now, member⟩ := mem_pops_iff.mp member
  exact none a now member

/-! ## The invariant -/

/-- The guard under which the counters keep their meaning: neither the due time
of a new message nor the next UUID leaves 64 bits. -/
def NoWrap (c : Config M) : Action M → Prop
  | .sendMessage _ _ _ timeAfter =>
    c.sys.currentTime + timeAfter < 2 ^ 64 ∧ c.sys.currentUUID + 1 < 2 ^ 64
  | _ => True

instance (c : Config M) : DecidablePred (NoWrap c)
  | .sendMessage _ _ _ timeAfter => inferInstanceAs
      (Decidable (c.sys.currentTime + timeAfter < 2 ^ 64 ∧ c.sys.currentUUID + 1 < 2 ^ 64))
  | .cancelMessage _ | .start _ | .ready _ | .addRunnable _ | .delRunnable _ | .run _ | .wake _
  | .dispatch | .leave | .yields _ | .returns _ => isTrue trivial

/-- How the queue, the clock and the log fit together. -/
structure Ordered (log : List (Event M)) (c : Config M) : Prop where
  located : ∀ a, a ∈ sends log ↔ a ∈ c.sys.timerQueue ∨ a ∈ pops log
  queued : c.sys.timerQueue.Pairwise fun a b => a.uuid < b.uuid
  issued : ∀ a ∈ sends log, a.uuid ≤ c.sys.currentUUID
  inTurn : (sends log).Pairwise fun a b => a.uuid < b.uuid
  due : ∀ a now timeAfter, .sent a now timeAfter ∈ log → a.wakeup = now + timeAfter
  future : ∀ a ∈ c.sys.timerQueue, c.sys.currentTime ≤ a.wakeup
  past : ∀ a ∈ pops log, a.wakeup ≤ c.sys.currentTime
  ahead : ∀ a ∈ pops log, ∀ b ∈ c.sys.timerQueue, a.key < b.key
  sorted : (pops log).Pairwise fun a b => a.key < b.key
  stamped : ∀ a now, .popped a now ∈ log → now = a.wakeup

theorem ordered_start : Ordered [] ({} : Config M) where
  located := by simp
  queued := .nil
  issued := by simp
  inTurn := .nil
  due := by simp
  future := by simp
  past := by simp
  ahead := by simp
  sorted := .nil
  stamped := by simp

/-- A step that neither touches queue, clock and counter nor logs a send or a
pop keeps the invariant. -/
theorem Ordered.frame (h : Ordered log c) (queue : c'.sys.timerQueue = c.sys.timerQueue)
    (clock : c'.sys.currentTime = c.sys.currentTime)
    (counter : c'.sys.currentUUID = c.sys.currentUUID)
    (noSend : ∀ a now timeAfter, Event.sent a now timeAfter ∉ new)
    (noPop : ∀ a now, Event.popped a now ∉ new) : Ordered (log ++ new) c' := by
  have sendsNil := sends_eq_nil noSend
  have popsNil := pops_eq_nil noPop
  constructor <;>
    simp only [sends_append, pops_append, sendsNil, popsNil, List.append_nil, queue, clock,
      counter, List.mem_append]
  · exact h.located
  · exact h.queued
  · exact h.issued
  · exact h.inTurn
  · rintro a now timeAfter (member | member)
    · exact h.due a now timeAfter member
    · exact absurd member (noSend a now timeAfter)
  · exact h.future
  · exact h.past
  · exact h.ahead
  · exact h.sorted
  · rintro a now (member | member)
    · exact h.stamped a now member
    · exact absurd member (noPop a now)

theorem Ordered.send (h : Ordered log c) {source target : ℕ} {message : M} {timeAfter : ℕ}
    (clock : c.sys.currentTime + timeAfter < 2 ^ 64) (counter : c.sys.currentUUID + 1 < 2 ^ 64)
    (built : a = c.sys.newContainer source target message timeAfter
      ((c.sys.currentUUID + 1) % 2 ^ 64)) :
    Ordered (log ++ [.sent a c.sys.currentTime timeAfter])
      { c with sys := c.sys.push a } := by
  have uuid : a.uuid = c.sys.currentUUID + 1 := by
    rw [built]
    exact Nat.mod_eq_of_lt counter
  have wakeup : a.wakeup = c.sys.currentTime + timeAfter := by
    rw [built]
    exact Nat.mod_eq_of_lt clock
  have one : sends [Event.sent a c.sys.currentTime timeAfter] = [a] := rfl
  have noPop : pops [Event.sent a c.sys.currentTime timeAfter] = [] := rfl
  -- the counter did not wrap, so the new UUID is above all issued
  have below : ∀ b ∈ sends log, b.uuid < a.uuid := by
    intro b member
    have := h.issued b member
    omega
  constructor <;> simp only [sends_append, pops_append, one, noPop, List.append_nil,
    push_timerQueue, push_currentTime, push_currentUUID, List.mem_append, List.mem_singleton]
  · intro b
    rw [h.located b, or_right_comm]
  · refine List.pairwise_append.mpr ⟨h.queued, List.pairwise_singleton _ _, ?_⟩
    intro b member d hd
    obtain rfl := List.mem_singleton.mp hd
    exact below b ((h.located b).mpr (.inl member))
  · rintro b (member | rfl)
    · exact (below b member).le
    · exact le_rfl
  · refine List.pairwise_append.mpr ⟨h.inTurn, List.pairwise_singleton _ _, ?_⟩
    intro b member d hd
    obtain rfl := List.mem_singleton.mp hd
    exact below b member
  · rintro b now delay (member | heq)
    · exact h.due b now delay member
    · obtain ⟨rfl, rfl, rfl⟩ : b = a ∧ now = c.sys.currentTime ∧ delay = timeAfter := by
        simpa using heq
      exact wakeup
  · rintro b (member | rfl)
    · exact h.future b member
    · omega
  · exact h.past
  · rintro b member d (hd | rfl)
    · exact h.ahead b member d hd
    · -- the new message is due no earlier than any processed one, with a larger UUID
      have earlier := h.past b member
      have smaller := below b ((h.located b).mpr (.inr member))
      rw [TimerContainer.key_lt_iff]
      omega
  · exact h.sorted
  · intro b now member
    refine h.stamped b now ?_
    simpa using member

theorem Ordered.pop (h : Ordered log c) {s : System M} (control : Control M) {event : Event M}
    (pop : c.sys.popTimer = some (a, s))
    (noSend : ∀ b now timeAfter, event ≠ .sent b now timeAfter)
    (noPop : ∀ b now, event ≠ .popped b now) :
    Ordered (log ++ [.popped a s.currentTime, event])
      { c with sys := s, control := control } := by
  have least := popTimer_key_le pop
  obtain ⟨rest, hpop, rfl⟩ := popTimer_eq_some_iff.mp pop
  obtain ⟨front, back, split, rfl⟩ := popMax_split hpop
  have noSend' : ∀ b now timeAfter, Event.sent b now timeAfter ∉ [Event.popped a a.wakeup, event] := by
    intro b now timeAfter member
    rcases List.mem_cons.mp member with heq | member
    · cases heq
    · exact noSend b now timeAfter (List.mem_singleton.mp member).symm
  have sendsNil := sends_eq_nil noSend'
  have one : pops [Event.popped a a.wakeup, event] = [a] := by
    have rest : pops [event] = [] :=
      pops_eq_nil fun b now member => noPop b now (List.mem_singleton.mp member).symm
    change a :: pops [event] = [a]
    rw [rest]
  -- UUIDs are distinct, so the least key is strictly least
  have strict : ∀ b ∈ front ++ back, a.key < b.key := by
    intro b member
    have hqueue := h.queued
    rw [split] at hqueue least
    have order := least b (by
      rcases List.mem_append.mp member with hb | hb
      · exact List.mem_append_left _ hb
      · exact List.mem_append_right _ (List.mem_cons_of_mem _ hb))
    have distinct : b.uuid ≠ a.uuid := by
      obtain ⟨-, hback, hfront⟩ := List.pairwise_append.mp hqueue
      rcases List.mem_append.mp member with hb | hb
      · exact (hfront b hb a (List.mem_cons_self ..)).ne
      · exact ((List.pairwise_cons.mp hback).1 b hb).ne'
    rw [TimerContainer.key_le_iff] at order
    rw [TimerContainer.key_lt_iff]
    omega
  have inQueue : ∀ b, b ∈ c.sys.timerQueue ↔ b = a ∨ b ∈ front ++ back := by
    intro b
    rw [split]
    simp only [List.mem_append, List.mem_cons]
    tauto
  have present : a ∈ c.sys.timerQueue := (inQueue a).mpr (.inl rfl)
  constructor <;> simp only [sends_append, pops_append, sendsNil, one, List.append_nil]
  · intro b
    rw [h.located b, inQueue b, List.mem_append, List.mem_append, List.mem_singleton]
    tauto
  · have hqueue := h.queued
    rw [split] at hqueue
    exact hqueue.sublist ((List.sublist_cons_self a back).append_left front)
  · exact h.issued
  · exact h.inTurn
  · intro b now timeAfter member
    rcases List.mem_append.mp member with member | member
    · exact h.due b now timeAfter member
    · exact absurd member (noSend' b now timeAfter)
  · intro b member
    have order := (strict b member).le
    rw [TimerContainer.key_le_iff] at order
    change a.wakeup ≤ b.wakeup
    omega
  · intro b member
    rcases List.mem_append.mp member with member | member
    · exact (h.past b member).trans (h.future a present)
    · obtain rfl := List.mem_singleton.mp member
      exact le_rfl
  · intro b member d hd
    rcases List.mem_append.mp member with member | member
    · exact h.ahead b member d ((inQueue d).mpr (.inr hd))
    · obtain rfl := List.mem_singleton.mp member
      exact strict d hd
  · refine List.pairwise_append.mpr ⟨h.sorted, List.pairwise_singleton _ _, ?_⟩
    intro b member d hd
    obtain rfl := List.mem_singleton.mp hd
    exact h.ahead b member d present
  · intro b now member
    rcases List.mem_append.mp member with member | member
    · exact h.stamped b now member
    · rcases List.mem_cons.mp member with heq | member
      · obtain ⟨rfl, rfl⟩ : b = a ∧ now = a.wakeup := by simpa using heq
        rfl
      · exact absurd (List.mem_singleton.mp member).symm (noPop b now)

/-- One step keeps the invariant. -/
theorem Ordered.move {act : Action M} (h : Ordered log c) (allowed : NoWrap c act)
    (move : Move c act new c') : Ordered (log ++ new) c' := by
  cases move with
  | quiet _ _ ready sys control inside =>
    exact h.frame (by rw [sys]) (by rw [sys]) (by rw [sys]) (by simp) (by simp)
  | send source target message timeAfter bound container fresh built =>
    exact h.send allowed.1 allowed.2 built
  | cancel _ uuid =>
    exact h.frame (cancelMessage_timerQueue ..) (cancelMessage_currentTime ..)
      (cancelMessage_currentUUID ..) (by simp) (by simp)
  | deliver _ current sys idle pop live => exact h.pop _ pop (by simp) (by simp)
  | drop _ current sys idle pop dead => exact h.pop _ pop (by simp) (by simp)
  | finish _ current ret at_ => exact h.frame rfl rfl rfl (by simp) (by simp)
  | respond _ current response at_ => exact h.frame rfl rfl rfl (by simp) (by simp)
  | release _ current at_ => exact h.frame rfl rfl rfl (by simp) (by simp)

/-- Every run without wrap-around keeps the invariant. -/
theorem ordered_of_run {acts : List (Action M)}
    (h : (machine M).Run NoWrap {} acts log c) : Ordered log c :=
  h.invariant Ordered ordered_start fun _ _ _ _ _ inv allowed hstep =>
    inv.move allowed (move_of_step hstep)

theorem stops_of_leave {r : Config M × List (Event M)} (h : (machine M).step c .leave = some r) :
    c.stops = true := by
  simp only [machine, Config.step] at h
  split at h
  · split at h
    next leaves => exact leaves.2
    · simp at h
  · simp at h

/-- When the loop stops, what is due by the end of the `run` in progress has been taken out
of the queue. -/
theorem Ordered.mem_pops_of_stops (h : Ordered log c) (stops : c.stops = true)
    (sent : a ∈ sends log) (due : c.till = 0 ∨ a.wakeup ≤ c.till) : a ∈ pops log := by
  rcases (h.located a).mp sent with queued | popped
  · unfold Config.stops at stops
    cases htop : c.sys.topTimer with
    | none =>
      rw [topTimer_eq_none_iff.mp htop] at queued
      cases queued
    | some first =>
      -- the first container of the queue is due no later than `a`, and after `till`
      have order := TimerContainer.key_le_iff.mp (topTimer_key_le htop a queued)
      simp only [htop, ne_eq, Bool.and_eq_true, decide_eq_true_eq] at stops
      omega
  · exact popped

/-! ## The order of processing -/

theorem pair_sublist_of_pairwise {κ : Type*} [Preorder κ] {key : TimerContainer M → κ}
    {l : List (TimerContainer M)} (sorted : l.Pairwise fun a b => key a < key b)
    (ha : a ∈ l) (hb : b ∈ l) (order : key a < key b) : [a, b].Sublist l := by
  obtain ⟨front, back, rfl⟩ := List.append_of_mem hb
  obtain ⟨-, hback, hfront⟩ := List.pairwise_append.mp sorted
  have inFront : a ∈ front := by
    rcases List.mem_append.mp ha with ha | ha
    · exact ha
    · rcases List.mem_cons.mp ha with rfl | ha
      · exact absurd order (lt_irrefl _)
      · exact absurd order ((List.pairwise_cons.mp hback).1 a ha).asymm
  exact (List.singleton_sublist.mpr inFront).append
    (List.singleton_sublist.mpr (List.mem_cons_self ..))

/-- The total ordering guaranteed by the scheduler. Over the whole life of a
system in which no counter wraps, the processed messages have strictly
increasing pairs of wake-up time and UUID; each is processed at its send time
plus its delay; and of two messages due at the same time the one sent first is
processed first. -/
theorem total_order {acts : List (Action M)} (h : (machine M).Run NoWrap {} acts log c) :
    ((pops log).Pairwise fun a b => a.key < b.key) ∧
    (∀ a now, .popped a now ∈ log →
      (∃ at_ timeAfter, .sent a at_ timeAfter ∈ log) ∧
      ∀ at_ timeAfter, .sent a at_ timeAfter ∈ log → now = at_ + timeAfter) ∧
    (∀ a b, [a, b].Sublist (sends log) → a.wakeup = b.wakeup → b ∈ pops log →
      [a, b].Sublist (pops log)) := by
  have inv := ordered_of_run h
  refine ⟨inv.sorted, ?_, ?_⟩
  · intro a now member
    refine ⟨mem_sends_iff.mp ((inv.located a).mpr (.inr (mem_pops_iff.mpr ⟨now, member⟩))), ?_⟩
    intro at_ timeAfter sent
    rw [inv.stamped a now member]
    exact inv.due a at_ timeAfter sent
  · intro a b order same popped
    have uuid : a.uuid < b.uuid := by
      have := inv.inTurn.sublist order
      simpa using this
    have keys : a.key < b.key := TimerContainer.key_lt_iff.mpr (.inr ⟨same, uuid⟩)
    -- were `a` still queued, the processed `b` would have the smaller key
    have popped' : a ∈ pops log := by
      have sent : a ∈ sends log := order.subset (List.mem_cons_self ..)
      rcases (inv.located a).mp sent with queued | popped'
      · exact absurd (inv.ahead b popped a queued) keys.asymm
      · exact popped'
    exact pair_sublist_of_pairwise inv.sorted popped' popped keys

/-- Two messages for the same time, and a third one that the receiver of the first sends
without delay: they are processed in the order of their sending. -/
theorem total_order_three_sends :
    ∃ log c a b d, (machine Unit).Run NoWrap {}
        [.sendMessage 1 2 () 5, .sendMessage 1 2 () 5, .run 0, .dispatch, .sendMessage 2 1 () 0,
          .returns none, .returns none, .dispatch, .returns none, .returns none, .dispatch]
        log c ∧
      sends log = [a, b, d] ∧ pops log = [a, b, d] ∧
      [a, b].Sublist (pops log) ∧ [b, d].Sublist (pops log) ∧
      (pops log).Pairwise fun a b => a.key < b.key := by
  have value : ((machine Unit).execIf NoWrap {}
      [.sendMessage 1 2 () 5, .sendMessage 1 2 () 5, .run 0, .dispatch, .sendMessage 2 1 () 0,
        .returns none, .returns none, .dispatch, .returns none, .returns none, .dispatch]).map
      (fun r => (sends r.2, pops r.2)) =
      some ([⟨0, 1, 2, 5, (), 1⟩, ⟨1, 1, 2, 5, (), 2⟩, ⟨2, 2, 1, 5, (), 3⟩],
        [⟨0, 1, 2, 5, (), 1⟩, ⟨1, 1, 2, 5, (), 2⟩, ⟨2, 2, 1, 5, (), 3⟩]) := rfl
  obtain ⟨⟨c, log⟩, defined, same⟩ := Option.map_eq_some_iff.mp value
  obtain ⟨sent, popped⟩ := Prod.mk.inj same
  have h := Machine.Run.of_execIf defined
  obtain ⟨sorted, -, inTurn⟩ := total_order h
  refine ⟨log, c, _, _, _, h, sent, popped, inTurn _ _ ?_ rfl ?_, inTurn _ _ ?_ rfl ?_, sorted⟩
  all_goals simp [sent, popped]
end Kens.System
