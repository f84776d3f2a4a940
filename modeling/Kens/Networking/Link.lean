/-
# Links

A link keeps one output queue per wire. A queue is emptied by `CHECK_QUEUE`
messages that the link sends to itself: one when a packet joins an empty queue,
and one after each transmission that leaves packets behind.
-/

import Mathlib
import Kens.System.Reactive
import Kens.Networking.Packet

namespace Kens

open Semantics Reactive

/-- The messages between modules of a network. `other` stands for all messages
that neither wires nor links look at. -/
inductive NetMessage
  | packetToPort (packet : Packet)
  | packetFromPort (packet : Packet)
  | checkQueue (wireID : ℕ)
  | other
deriving DecidableEq

/-- `trans_delay` for a packet size. The quotient is computed in floating point
and is a parameter of the model. -/
def transDelay (quotient : ℕ → ℕ → ℕ) (bps size : ℕ) : ℕ :=
  if bps ≠ 0 then quotient size bps else 0

/-- The time left until `avail_time`, or 0. -/
def waitTime (avail_time current_time : ℕ) : ℕ :=
  if avail_time > current_time then avail_time - current_time else 0

/-- A link. The two maps give the default value for a wire that has no entry. -/
structure Link where
  id : ℕ
  nextAvailable : ℕ → ℕ := fun _ => 0
  outputQueue : ℕ → List Packet := fun _ => []
  bps : ℕ := 1000000000
  max_queue_length : ℕ := 0

namespace Link

/-- Make room in a full queue. `draw` is the random number, rounded down. -/
def evict (link : Link) (queue : List Packet) (draw : ℕ) : List Packet :=
  if link.max_queue_length ≠ 0 ∧ queue.length ≥ link.max_queue_length then
    let index := if draw ≥ link.max_queue_length then link.max_queue_length - 1 else draw
    if index < queue.length then queue.eraseIdx index else queue
  else queue

def sendPacket (link : Link) (now port : ℕ) (packet : Packet) (draw : ℕ) :
    Option (Link × List (Send NetMessage)) :=
  let current_queue := link.evict (link.outputQueue port) draw
  if link.max_queue_length = 0 ∨ current_queue.length < link.max_queue_length then
    let current_queue := current_queue ++ [packet]
    let link' := { link with outputQueue := Function.update link.outputQueue port current_queue }
    if current_queue.length = 1 then
      some (link',
        [⟨link.id, link.id, .checkQueue port, waitTime (link.nextAvailable port) now⟩])
    else some (link', [])
  else none

/-- `messageReceived` for a `CHECK_QUEUE` message. -/
def checkQueue (quotient : ℕ → ℕ → ℕ) (link : Link) (now wireID : ℕ) :
    Option (Link × List (Send NetMessage)) :=
  match link.outputQueue wireID with
  -- the queue must not be empty
  | [] => none
  | packet :: current_queue =>
    if now ≥ link.nextAvailable wireID then
      let trans_delay := transDelay quotient link.bps packet.getSize
      let avail_time := (now + trans_delay) % 2 ^ 64
      let link' :=
        { link with
          nextAvailable := Function.update link.nextAvailable wireID avail_time
          outputQueue := Function.update link.outputQueue wireID current_queue }
      let transmit : Send NetMessage := ⟨link.id, wireID, .packetToPort packet, trans_delay⟩
      if current_queue.length > 0 then
        let wait_time := waitTime avail_time now
        if wait_time = trans_delay then
          some (link', [transmit, ⟨link.id, link.id, .checkQueue wireID, wait_time⟩])
        else none
      else some (link', [transmit])
    else some (link, [])

def setLinkSpeed (link : Link) (bps : ℕ) : Link := { link with bps }

def setQueueSize (link : Link) (max_queue_length : ℕ) : Link := { link with max_queue_length }

/-! ## What the operations do -/

variable {quotient : ℕ → ℕ → ℕ} {link link' : Link} {now port draw : ℕ} {packet : Packet}
  {sends : List (Send NetMessage)}

theorem now_add_waitTime (avail_time current_time : ℕ) :
    current_time + waitTime avail_time current_time = max current_time avail_time := by
  unfold waitTime
  split <;> omega

/-- An unlimited queue, and one that has room, is left alone. -/
theorem evict_eq_self {queue : List Packet}
    (room : link.max_queue_length = 0 ∨ queue.length < link.max_queue_length) :
    link.evict queue draw = queue := by
  rw [evict, if_neg (by omega)]

/-- A queue at its limit loses exactly one packet. -/
theorem evict_length_full {queue : List Packet} (limited : link.max_queue_length ≠ 0)
    (full : queue.length = link.max_queue_length) :
    (link.evict queue draw).length + 1 = queue.length := by
  rw [evict, if_pos ⟨limited, full.ge⟩]
  dsimp only
  have inside : (if draw ≥ link.max_queue_length then link.max_queue_length - 1 else draw) <
      queue.length := by
    split <;> omega
  rw [if_pos inside, List.length_eraseIdx_of_lt inside]
  omega

/-- What `sendPacket` does when its assertion holds. -/
theorem sendPacket_eq_some (h : link.sendPacket now port packet draw = some (link', sends)) :
    (link.max_queue_length = 0 ∨
      (link.evict (link.outputQueue port) draw).length < link.max_queue_length) ∧
    link' = { link with
      outputQueue := Function.update link.outputQueue port
        (link.evict (link.outputQueue port) draw ++ [packet]) } ∧
    sends = if link.evict (link.outputQueue port) draw = [] then
      [⟨link.id, link.id, .checkQueue port, waitTime (link.nextAvailable port) now⟩] else [] := by
  unfold sendPacket at h
  dsimp only at h
  split at h
  next room =>
    refine ⟨room, ?_⟩
    rw [List.length_append, List.length_singleton] at h
    split at h
    next one =>
      obtain ⟨rfl, rfl⟩ : _ = link' ∧ _ = sends := by simpa using h
      rw [if_pos (List.length_eq_zero_iff.mp (by omega))]
      exact ⟨rfl, rfl⟩
    next more =>
      obtain ⟨rfl, rfl⟩ : _ = link' ∧ [] = sends := by simpa using h
      rw [if_neg (fun empty => more (by rw [empty]; rfl))]
      exact ⟨rfl, rfl⟩
  · simp at h

/-- The assertion of `sendPacket` holds for a queue within its limit. -/
theorem sendPacket_isSome
    (bound : link.max_queue_length ≠ 0 →
      (link.outputQueue port).length ≤ link.max_queue_length) :
    (link.sendPacket now port packet draw).isSome := by
  have room : link.max_queue_length = 0 ∨
      (link.evict (link.outputQueue port) draw).length < link.max_queue_length := by
    rcases Nat.eq_zero_or_pos link.max_queue_length with zero | positive
    · exact .inl zero
    · right
      have limit := bound (by omega)
      rcases Nat.lt_or_eq_of_le limit with below | full
      · rw [evict_eq_self (.inr below)]
        exact below
      · have shorter : (link.evict (link.outputQueue port) draw).length + 1 =
            (link.outputQueue port).length := evict_length_full (by omega) full
        omega
  unfold sendPacket
  dsimp only
  rw [if_pos room]
  split <;> rfl

/-- What a `CHECK_QUEUE` does when its assertions hold: nothing before the wire is free, and
then it hands the first packet to the wire. -/
theorem checkQueue_eq_some (h : link.checkQueue quotient now port = some (link', sends)) :
    ∃ packet queue, link.outputQueue port = packet :: queue ∧
      ((now < link.nextAvailable port ∧ link' = link ∧ sends = []) ∨
        (link.nextAvailable port ≤ now ∧
          link' = { link with
            nextAvailable := Function.update link.nextAvailable port
              ((now + transDelay quotient link.bps packet.getSize) % 2 ^ 64)
            outputQueue := Function.update link.outputQueue port queue } ∧
          sends =
            ⟨link.id, port, .packetToPort packet, transDelay quotient link.bps packet.getSize⟩ ::
              if queue = [] then [] else
                [⟨link.id, link.id, .checkQueue port,
                  transDelay quotient link.bps packet.getSize⟩])) := by
  unfold checkQueue at h
  split at h
  · simp at h
  next packet queue head =>
    refine ⟨packet, queue, head, ?_⟩
    split at h
    next free =>
      refine .inr ⟨free, ?_⟩
      dsimp only at h
      split at h
      next more =>
        split at h
        next wait =>
          obtain ⟨rfl, rfl⟩ := Prod.mk.inj (Option.some.inj h)
          rw [if_neg (List.ne_nil_of_length_pos more), wait]
          exact ⟨rfl, rfl⟩
        · simp at h
      next last =>
        obtain ⟨rfl, rfl⟩ := Prod.mk.inj (Option.some.inj h)
        rw [if_pos (List.length_eq_zero_iff.mp (by omega))]
        exact ⟨rfl, rfl⟩
    next busy =>
      obtain ⟨rfl, rfl⟩ := Prod.mk.inj (Option.some.inj h)
      exact .inl ⟨by omega, rfl, rfl⟩

/-- What a `CHECK_QUEUE` does once the wire is free, as long as the time does
not wrap: the first packet is handed to the wire, and the next check is due at
the end of its transmission. -/
theorem checkQueue_eq {queue : List Packet} (head : link.outputQueue port = packet :: queue)
    (free : link.nextAvailable port ≤ now)
    (small : now + transDelay quotient link.bps packet.getSize < 2 ^ 64) :
    link.checkQueue quotient now port =
      some ({ link with
          nextAvailable := Function.update link.nextAvailable port
            (now + transDelay quotient link.bps packet.getSize)
          outputQueue := Function.update link.outputQueue port queue },
        ⟨link.id, port, .packetToPort packet, transDelay quotient link.bps packet.getSize⟩ ::
          if queue = [] then [] else
            [⟨link.id, link.id, .checkQueue port,
              transDelay quotient link.bps packet.getSize⟩]) := by
  have wait : waitTime (now + transDelay quotient link.bps packet.getSize) now =
      transDelay quotient link.bps packet.getSize := by
    unfold waitTime
    split <;> omega
  simp only [checkQueue, head, ge_iff_le, free, ↓reduceIte, Nat.mod_eq_of_lt small, wait]
  cases queue with
  | nil => rfl
  | cons => rfl

end Link

end Kens
