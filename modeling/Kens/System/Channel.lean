/-
# Channels between modules

The messages from one module to another form a channel. When they are due in the
order in which they were sent, the channel is first in, first out: the scheduler
breaks ties by UUID, and UUIDs grow along the queue.
-/

import Mathlib
import Kens.System.Reactive

namespace Kens.Reactive

variable {M : Type} {sends : List (Send M)} {now address uuid : ℕ}

/-- When the messages selected by `on` are due in the order in which they were
sent, the first of them is the one dispatched first. -/
theorem filter_of_least {queue front back : List (TimerContainer M)}
    {current : TimerContainer M} {on : TimerContainer M → Bool}
    (split : queue = front ++ current :: back)
    (least : ∀ c ∈ queue, current.key ≤ c.key)
    (uuids : queue.Pairwise fun a b => a.uuid < b.uuid)
    (order : (queue.filter on).Pairwise fun a b => a.wakeup ≤ b.wakeup)
    (selected : on current = true) :
    queue.filter on = current :: (front ++ back).filter on ∧ front.filter on = [] := by
  subst split
  have empty : front.filter on = [] := by
    rw [List.filter_eq_nil_iff]
    intro c member chosen
    have due : c.wakeup ≤ current.wakeup := by
      rw [List.filter_append, List.pairwise_append] at order
      exact order.2.2 c (List.mem_filter.mpr ⟨member, chosen⟩) current
        (List.mem_filter.mpr ⟨by simp, selected⟩)
    have earlier : c.uuid < current.uuid :=
      (List.pairwise_append.mp uuids).2.2 c member current (by simp)
    have first := TimerContainer.key_le_iff.mp (least c (by simp [member]))
    omega
  refine ⟨?_, empty⟩
  rw [List.filter_append, List.filter_append, empty, List.filter_cons_of_pos selected]
  rfl

theorem filter_of_not {queue front back : List (TimerContainer M)}
    {current : TimerContainer M} {on : TimerContainer M → Bool}
    (split : queue = front ++ current :: back) (other : on current = false) :
    queue.filter on = (front ++ back).filter on := by
  subst split
  rw [List.filter_append, List.filter_append, List.filter_cons_of_neg (by simp [other])]

/-- The messages from one module to another. -/
def onChannel (source target : ℕ) (c : TimerContainer M) : Bool :=
  c.source = source && c.target = target

/-- The same for sends. -/
def sendOn (source target : ℕ) (send : Send M) : Bool :=
  send.source = source && send.target = target

/-- A channel whose messages are due in the order in which they were sent, and
none of them later than `bound`. -/
structure Channel (queue : List (TimerContainer M)) (source target bound : ℕ) : Prop where
  order : (queue.filter (onChannel source target)).Pairwise fun a b => a.wakeup ≤ b.wakeup
  below : ∀ c ∈ queue.filter (onChannel source target), c.wakeup ≤ bound

variable {queue rest : List (TimerContainer M)} {source target bound bound' : ℕ}

theorem onChannel_iff {c : TimerContainer M} :
    onChannel source target c = true ↔ c.source = source ∧ c.target = target := by
  simp [onChannel]

theorem sendOn_iff {send : Send M} :
    sendOn source target send = true ↔ send.source = source ∧ send.target = target := by
  simp [sendOn]

theorem filter_stamp_length :
    ((stamp now address uuid sends).filter (onChannel source target)).length =
      (sends.filter (sendOn source target)).length := by
  induction sends generalizing address uuid with
  | nil => rfl
  | cons send others ih =>
    rw [stamp, List.filter_cons, List.filter_cons]
    by_cases on : sendOn source target send = true
    · have matched : onChannel source target (⟨address, send.source, send.target,
          now + send.timeAfter, send.message, uuid + 1⟩ : TimerContainer M) = true := on
      rw [if_pos on, if_pos matched, List.length_cons, List.length_cons, ih]
    · have unmatched : ¬ onChannel source target (⟨address, send.source, send.target,
          now + send.timeAfter, send.message, uuid + 1⟩ : TimerContainer M) = true := on
      rw [if_neg on, if_neg unmatched, ih]

theorem Channel.sublist (h : Channel queue source target bound) (sub : rest.Sublist queue)
    (grows : bound ≤ bound') : Channel rest source target bound' where
  order := h.order.sublist (sub.filter _)
  below c member := (h.below c ((sub.filter _).subset member)).trans grows

/-- At most one more message, due no earlier than all others, keeps a channel in
order. -/
theorem Channel.stamp (h : Channel queue source target bound) (sub : rest.Sublist queue)
    (grows : bound ≤ bound')
    (late : ∀ send ∈ sends, sendOn source target send = true →
      bound ≤ now + send.timeAfter ∧ now + send.timeAfter ≤ bound')
    (single : (sends.filter (sendOn source target)).length ≤ 1) :
    Channel (rest ++ stamp now address uuid sends) source target bound' := by
  have new : ∀ c ∈ (Reactive.stamp now address uuid sends).filter (onChannel source target),
      bound ≤ c.wakeup ∧ c.wakeup ≤ bound' := by
    intro c member
    rw [List.mem_filter] at member
    obtain ⟨-, -, send, mem, source_eq, target_eq, -, wakeup⟩ := mem_stamp member.1
    rw [onChannel_iff, source_eq, target_eq, ← sendOn_iff] at member
    rw [wakeup]
    exact late send mem member.2
  have kept := sub.filter (onChannel source target)
  constructor
  · rw [List.filter_append, List.pairwise_append]
    refine ⟨h.order.sublist kept, ?_, ?_⟩
    · rw [← filter_stamp_length] at single
      generalize (Reactive.stamp now address uuid sends).filter (onChannel source target) = extra
        at single
      match extra, single with
      | [], _ => exact List.Pairwise.nil
      | [c], _ => exact List.pairwise_singleton _ _
    · intro a old b young
      exact (h.below a (kept.subset old)).trans (new b young).1
  · intro c member
    rw [List.filter_append, List.mem_append] at member
    rcases member with old | young
    · exact (h.below c (kept.subset old)).trans grows
    · exact (new c young).2

/-! The payloads of a channel, in the order of the queue. -/

section Payload

variable {P : Type} (payload : M → Option P)

def carried (source target : ℕ) (queue : List (TimerContainer M)) : List P :=
  (queue.filter (onChannel source target)).filterMap fun c => payload c.message

def sentOn (source target : ℕ) (sends : List (Send M)) : List P :=
  (sends.filter (sendOn source target)).filterMap fun send => payload send.message

theorem carried_append (queue extra : List (TimerContainer M)) :
    carried payload source target (queue ++ extra) =
      carried payload source target queue ++ carried payload source target extra := by
  rw [carried, List.filter_append, List.filterMap_append]
  rfl

theorem carried_stamp : carried payload source target (stamp now address uuid sends) =
    sentOn payload source target sends := by
  induction sends generalizing address uuid with
  | nil => rfl
  | cons send others ih =>
    unfold carried sentOn at ih ⊢
    rw [Reactive.stamp, List.filter_cons, List.filter_cons]
    by_cases on : sendOn source target send = true
    · have matched : onChannel source target (⟨address, send.source, send.target,
          now + send.timeAfter, send.message, uuid + 1⟩ : TimerContainer M) = true := on
      rw [if_pos on, if_pos matched, List.filterMap_cons, List.filterMap_cons, ih]
    · have unmatched : ¬ onChannel source target (⟨address, send.source, send.target,
          now + send.timeAfter, send.message, uuid + 1⟩ : TimerContainer M) = true := on
      rw [if_neg on, if_neg unmatched, ih]

/-- What a dispatched message carried on a channel, if anything, was the first
payload of the channel. -/
theorem carried_dispatch {front back : List (TimerContainer M)} {current : TimerContainer M}
    (h : Channel queue source target bound) (split : queue = front ++ current :: back)
    (least : ∀ c ∈ queue, current.key ≤ c.key)
    (uuids : queue.Pairwise fun a b => a.uuid < b.uuid) :
    carried payload source target [current] ++ carried payload source target (front ++ back) =
      carried payload source target queue := by
  rw [← carried_append, carried, carried, List.singleton_append]
  congr 1
  by_cases on : onChannel source target current = true
  · rw [List.filter_cons_of_pos on]
    exact (filter_of_least split least uuids h.order on).1.symm
  · rw [List.filter_cons_of_neg on]
    exact (filter_of_not split (Bool.not_eq_true _ ▸ on)).symm

end Payload

end Kens.Reactive
