/-
# The tables and the log

As long as the UUID counter does not wrap, every UUID in use has been issued before,
so that the assertion in `allocateUUID` never fails. As long as the clock does not
wrap either, the log tells which containers are pending.
-/

import Kens.System.Agreement
import Kens.System.Order

namespace Kens.System

open Semantics Machine

variable {M : Type} {c c' : Config M} {log new : List (Event M)} {a b : TimerContainer M}

/-- The agreement of queue, tables and log. -/
structure Tables (log : List (Event M)) (c : Config M) : Prop where
  ordered : Ordered log c
  current : ∀ a, c.control.current = some a → a ∈ pops log ∧ c.sys.currentTime = a.wakeup
  active : ∀ uuid a, c.sys.activeTimer uuid = some a ↔ a.uuid = uuid ∧ Pending c a
  used : ∀ uuid, uuid ∈ c.sys.activeUUID ↔ (c.sys.activeTimer uuid).isSome
  addressed : (sends log).Pairwise fun a b => a.address < b.address
  allocated : ∀ a ∈ sends log, a.address < c.sys.nextAddress

theorem tables_start : Tables [] ({} : Config M) where
  ordered := ordered_start
  current := by simp [Control.current]
  active := by simp [Pending, Control.current]
  used := by simp
  addressed := .nil
  allocated := by simp

theorem Tables.mem_sends (h : Tables log c) (pending : Pending c a) : a ∈ sends log := by
  rcases pending with queued | busy
  · exact (h.ordered.located a).mpr (.inl queued)
  · exact (h.ordered.located a).mpr (.inr (h.current a busy).1)

/-- A strictly increasing list determines an element by its key. -/
theorem eq_of_pairwise_key {key : TimerContainer M → ℕ} {l : List (TimerContainer M)}
    (sorted : l.Pairwise fun a b => key a < key b) (ha : a ∈ l) (hb : b ∈ l)
    (same : key a = key b) : a = b := by
  have distinct : (l.map key).Nodup := List.pairwise_map.mpr (sorted.imp fun hlt => hlt.ne)
  exact List.inj_on_of_nodup_map distinct ha hb same

theorem Ordered.eq_of_uuid (h : Ordered log c) (ha : a ∈ sends log) (hb : b ∈ sends log)
    (same : a.uuid = b.uuid) : a = b :=
  eq_of_pairwise_key h.inTurn ha hb same

theorem Tables.eq_of_address (h : Tables log c) (ha : a ∈ sends log) (hb : b ∈ sends log)
    (same : a.address = b.address) : a = b :=
  eq_of_pairwise_key h.addressed ha hb same

/-- A queued container has not been popped. -/
theorem Ordered.not_mem_pops (h : Ordered log c) (queued : a ∈ c.sys.timerQueue) :
    a ∉ pops log := fun popped => (lt_irrefl _ (h.ahead a popped a queued)).elim

/-- The part of the agreement that does not speak of the log. -/
theorem Tables.agreement (h : Tables log c) : Agreement c where
  active := h.active
  used := h.used
  distinct := h.ordered.queued.imp fun less same => less.ne (congrArg TimerContainer.uuid same)
  apart a busy queued := h.ordered.not_mem_pops queued (h.current a busy).1
  allocated a pending := h.allocated a (h.mem_sends pending)
  addressed _ _ ha hb := h.eq_of_address (h.mem_sends ha) (h.mem_sends hb)

/-! ## Every move keeps the agreement -/

/-- A step that changes neither queue nor tables, keeps the container being
dispatched and sends and pops nothing. -/
theorem Tables.frame (h : Tables log c) (queue : c'.sys.timerQueue = c.sys.timerQueue)
    (clock : c'.sys.currentTime = c.sys.currentTime)
    (counter : c'.sys.currentUUID = c.sys.currentUUID)
    (timers : c'.sys.activeTimer = c.sys.activeTimer)
    (uuids : c'.sys.activeUUID = c.sys.activeUUID)
    (addresses : c'.sys.nextAddress = c.sys.nextAddress)
    (busy : c'.control.current = c.control.current)
    (noSend : ∀ a now timeAfter, Event.sent a now timeAfter ∉ new)
    (noPop : ∀ a now, Event.popped a now ∉ new) : Tables (log ++ new) c' := by
  have same : sends (log ++ new) = sends log := by
    rw [sends_append, sends_eq_nil noSend, List.append_nil]
  have agreement := h.agreement.frame queue timers uuids addresses busy
  refine ⟨h.ordered.frame queue clock counter noSend noPop, ?_, agreement.active,
    agreement.used, ?_, ?_⟩
  · intro a hcurrent
    rw [busy] at hcurrent
    obtain ⟨popped, now⟩ := h.current a hcurrent
    rw [pops_append, clock]
    exact ⟨List.mem_append_left _ popped, now⟩
  · rw [same]
    exact h.addressed
  · rw [same, addresses]
    exact h.allocated

theorem Tables.send (h : Tables log c) {source target : ℕ} {message : M} {timeAfter : ℕ}
    (clock : c.sys.currentTime + timeAfter < 2 ^ 64) (counter : c.sys.currentUUID + 1 < 2 ^ 64)
    (built : a = c.sys.newContainer source target message timeAfter
      ((c.sys.currentUUID + 1) % 2 ^ 64)) :
    Tables (log ++ [.sent a c.sys.currentTime timeAfter]) { c with sys := c.sys.push a } := by
  have uuid : a.uuid = c.sys.currentUUID + 1 := by
    rw [built]
    exact Nat.mod_eq_of_lt counter
  have address : a.address = c.sys.nextAddress := by rw [built]; rfl
  have one : sends [Event.sent a c.sys.currentTime timeAfter] = [a] := rfl
  have fresh : a.uuid ∉ c.sys.activeUUID := by
    rw [h.used]
    intro used
    obtain ⟨b, active⟩ := Option.isSome_iff_exists.mp used
    -- every registered UUID has been issued before
    obtain ⟨same, pending⟩ := (h.active _ _).mp active
    have := h.ordered.issued b (h.mem_sends pending)
    omega
  have agreement := h.agreement.push fresh address
  refine ⟨h.ordered.send clock counter built, ?_, agreement.active, agreement.used, ?_, ?_⟩
  · intro b hcurrent
    obtain ⟨popped, now⟩ := h.current b hcurrent
    rw [pops_append]
    exact ⟨List.mem_append_left _ popped, now⟩
  · rw [sends_append, one]
    refine List.pairwise_append.mpr ⟨h.addressed, List.pairwise_singleton _ _, ?_⟩
    intro b member d hd
    obtain rfl := List.mem_singleton.mp hd
    rw [address]
    exact h.allocated b member
  · intro b member
    rw [sends_append, one, List.mem_append, List.mem_singleton] at member
    rw [push_nextAddress]
    rcases member with member | rfl
    · exact (h.allocated b member).trans (Nat.lt_succ_self _)
    · rw [address]
      exact Nat.lt_succ_self _

theorem Tables.pop (h : Tables log c) {s : System M} {control : Control M} {event : Event M}
    (idle : c.control.current = none) (busy : control.current = some a)
    (pop : c.sys.popTimer = some (a, s))
    (noSend : ∀ b now timeAfter, event ≠ .sent b now timeAfter)
    (noPop : ∀ b now, event ≠ .popped b now) :
    Tables (log ++ [.popped a s.currentTime, event]) { c with sys := s, control := control } := by
  have ordered := h.ordered.pop control pop noSend noPop
  have agreement := h.agreement.pop idle busy pop
  have same : sends (log ++ [Event.popped a s.currentTime, event]) = sends log := by
    have none : sends [Event.popped a s.currentTime, event] = [] := by
      apply sends_eq_nil
      intro b now timeAfter member
      rcases List.mem_cons.mp member with heq | member
      · cases heq
      · exact noSend b now timeAfter (List.mem_singleton.mp member).symm
    rw [sends_append, none, List.append_nil]
  refine ⟨ordered, ?_, agreement.active, agreement.used, ?_, ?_⟩
  · intro b hcurrent
    obtain rfl : a = b := by simpa [busy] using hcurrent
    obtain ⟨rest, -, rfl⟩ := popTimer_eq_some_iff.mp pop
    exact ⟨mem_pops_iff.mpr ⟨_, List.mem_append_right _ (List.mem_cons_self ..)⟩, rfl⟩
  · rw [same]
    exact h.addressed
  · obtain ⟨rest, -, rfl⟩ := popTimer_eq_some_iff.mp pop
    rw [same]
    exact h.allocated

theorem Tables.release (h : Tables log c) (busy : c.control.current = some a) :
    Tables (log ++ []) (c.endDispatch a) := by
  have agreement := h.agreement.release busy
  refine ⟨h.ordered.frame rfl rfl rfl (by simp) (by simp), nofun, agreement.active,
    agreement.used, ?_, ?_⟩
  · rw [List.append_nil]
    exact h.addressed
  · rw [List.append_nil]
    exact h.allocated

/-- One step keeps the agreement. -/
theorem Tables.move {act : Action M} (h : Tables log c) (allowed : NoWrap c act)
    (move : Move c act new c') : Tables (log ++ new) c' := by
  cases move with
  | quiet _ _ ready sys control inside =>
    have busy : c'.control.current = c.control.current := by
      rcases control with same | ⟨idle, idle'⟩
      · rw [same]
      · rw [idle, idle']
    apply h.frame <;> first | rw [sys] | exact busy | simp
  | send source target message timeAfter bound container fresh built =>
    exact h.send allowed.1 allowed.2 built
  | cancel _ uuid => apply h.frame <;> simp
  | deliver _ current sys idle pop live =>
    exact h.pop (by rw [idle]; rfl) rfl pop (by simp) (by simp)
  | drop _ current sys idle pop dead =>
    exact h.pop (by rw [idle]; rfl) rfl pop (by simp) (by simp)
  | finish _ current ret at_ => apply h.frame <;> simp [at_, Control.current]
  | respond _ current response at_ => apply h.frame <;> simp [at_, Control.current]
  | release _ current at_ =>
    apply h.release
    rcases at_ with at_ | at_ | at_ <;> rw [at_] <;> rfl

/-- Every run without wrap-around keeps the agreement. -/
theorem tables_of_run {acts : List (Action M)}
    (h : (machine M).Run NoWrap {} acts log c) : Tables log c :=
  h.invariant Tables tables_start fun _ _ _ _ _ inv allowed hstep =>
    inv.move allowed (move_of_step hstep)

/-! ## The UUID counter -/

/-- What a move does to the UUID counter, the pending containers and the messages sent:
either it sends one message, or it changes nothing but that a dispatch may end. -/
theorem counter_of_move {act : Action M} (move : Move c act new c') :
    (∃ container, sends new = [container] ∧
      c'.sys.currentUUID = (c.sys.currentUUID + 1) % 2 ^ 64 ∧
      container.uuid = (c.sys.currentUUID + 1) % 2 ^ 64 ∧
      ∀ a, Pending c' a → Pending c a ∨ a = container) ∨
    (sends new = [] ∧ c'.sys.currentUUID = c.sys.currentUUID ∧ ∀ a, Pending c' a → Pending c a) := by
  cases move with
  | quiet _ _ ready sys control inside =>
    refine .inr ⟨rfl, by rw [sys], ?_⟩
    intro a pending
    rw [Pending, sys] at pending
    rcases control with same | ⟨-, idle⟩
    · rwa [same] at pending
    · rw [idle] at pending
      exact .inl (pending.resolve_right (by simp))
  | send source target message timeAfter bound container fresh built =>
    have uuid : container.uuid = (c.sys.currentUUID + 1) % 2 ^ 64 := by rw [built]; rfl
    refine .inl ⟨container, rfl, uuid, uuid, ?_⟩
    intro a pending
    simp only [Pending, push_timerQueue, List.mem_append, List.mem_singleton] at pending ⊢
    tauto
  | cancel _ uuid =>
    refine .inr ⟨rfl, cancelMessage_currentUUID .., ?_⟩
    intro a pending
    rwa [Pending, cancelMessage_timerQueue] at pending
  | deliver _ current sys idle pop live =>
    exact .inr ⟨rfl, popTimer_currentUUID pop, fun a pending => pending.of_pop pop rfl⟩
  | drop _ current sys idle pop dead =>
    exact .inr ⟨rfl, popTimer_currentUUID pop, fun a pending => pending.of_pop pop rfl⟩
  | finish _ current ret at_ =>
    refine .inr ⟨rfl, rfl, ?_⟩
    rintro a (queued | same)
    · exact .inl queued
    · exact .inr (by rw [at_]; exact same)
  | respond _ current response at_ =>
    refine .inr ⟨rfl, rfl, ?_⟩
    rintro a (queued | same)
    · exact .inl queued
    · exact .inr (by rw [at_]; exact same)
  | release _ current at_ =>
    refine .inr ⟨rfl, rfl, ?_⟩
    rintro a (queued | same)
    · exact .inl queued
    · cases same

variable {acts : List (Action M)}

/-- As long as fewer than `2 ^ 64` messages are sent, the counter counts them. -/
theorem counted_of_run (run : (machine M).Run free {} acts log c)
    (few : (sends log).length < 2 ^ 64) :
    c.sys.currentUUID = (sends log).length ∧ ∀ a, Pending c a → a.uuid ≤ c.sys.currentUUID := by
  refine run.invariant (fun log c => (sends log).length < 2 ^ 64 →
    c.sys.currentUUID = (sends log).length ∧ ∀ a, Pending c a → a.uuid ≤ c.sys.currentUUID)
    ?_ ?_ few
  · intro _
    refine ⟨rfl, ?_⟩
    rintro a (queued | busy)
    · cases queued
    · cases busy
  · intro log c act c' new counted _ step few
    rw [sends_append, List.length_append] at few ⊢
    obtain ⟨counter, below⟩ := counted (by omega)
    obtain ⟨container, one, next, uuid, fewer⟩ | ⟨none, same, fewer⟩ :=
      counter_of_move (move_of_step step)
    · rw [one, List.length_singleton] at few ⊢
      -- fewer than `2 ^ 64` messages, so the counter goes up by one
      rw [Nat.mod_eq_of_lt (by omega)] at next uuid
      refine ⟨by omega, ?_⟩
      intro a pending
      rcases fewer a pending with old | rfl
      · have := below a old
        omega
      · omega
    · rw [none, List.length_nil, Nat.add_zero, same]
      exact ⟨counter, fun a pending => below a (fewer a pending)⟩

/-- In every reachable state, if fewer than `2 ^ 64` messages were sent: the tables hold
the queued containers and the one being dispatched, under their UUIDs, which are
distinct and have been issued; so the next send passes the assertion in `allocateUUID`,
and `cancelMessage` marks the queued container of a UUID and no other. -/
theorem tables_agree (run : (machine M).Run free {} acts log c)
    (few : (sends log).length < 2 ^ 64) :
    (c.control.current = none → ∀ uuid,
      uuid ∈ c.sys.activeUUID ↔ uuid ∈ c.sys.timerQueue.map TimerContainer.uuid) ∧
    (∀ current, c.control.current = some current →
      current.uuid ∉ c.sys.timerQueue.map TimerContainer.uuid ∧
      c.sys.activeTimer current.uuid = some current ∧
      ∀ uuid, uuid ∈ c.sys.activeUUID ↔
        uuid = current.uuid ∨ uuid ∈ c.sys.timerQueue.map TimerContainer.uuid) ∧
    (∀ uuid, uuid ∈ c.sys.activeUUID ↔ (c.sys.activeTimer uuid).isSome) ∧
    (c.sys.timerQueue.map TimerContainer.uuid).Nodup ∧
    (∀ a ∈ c.sys.timerQueue, c.sys.activeTimer a.uuid = some a) ∧
    (∀ uuid ∈ c.sys.activeUUID, uuid ≤ c.sys.currentUUID) ∧
    ((sends log).length + 1 < 2 ^ 64 → c.sys.allocateUUID.isSome) ∧
    ∀ a ∈ c.sys.timerQueue,
      c.sys.cancelMessage a.uuid =
        (true, { c.sys with canceled := insert a.address c.sys.canceled }) ∧
      ∀ b ∈ c.sys.timerQueue, b.address = a.address → b = a := by
  have h := agreement_of_run run
  obtain ⟨counter, below⟩ := counted_of_run run few
  have member : ∀ uuid, uuid ∈ c.sys.activeUUID ↔ ∃ a, a.uuid = uuid ∧ Pending c a := by
    intro uuid
    rw [h.used, Option.isSome_iff_exists]
    exact exists_congr fun a => h.active uuid a
  have issued : ∀ uuid ∈ c.sys.activeUUID, uuid ≤ c.sys.currentUUID := by
    intro uuid used
    obtain ⟨a, rfl, pending⟩ := (member uuid).mp used
    exact below a pending
  have registered : ∀ a ∈ c.sys.timerQueue, c.sys.activeTimer a.uuid = some a := fun a queued =>
    (h.active a.uuid a).mpr ⟨rfl, .inl queued⟩
  -- between two dispatches, during one, no UUID queued twice, room for the next, cancelling
  refine ⟨?_, ?_, h.used, ?_, registered, issued, ?_, ?_⟩
  · intro idle uuid
    rw [member, List.mem_map]
    refine exists_congr fun a => ?_
    rw [Pending, idle, and_comm]
    simp
  · intro current busy
    refine ⟨?_, (h.active _ _).mpr ⟨rfl, .inr busy⟩, ?_⟩
    · intro twice
      obtain ⟨a, queued, same⟩ := List.mem_map.mp twice
      obtain rfl := h.eq_of_uuid (.inl queued) (.inr busy) same
      exact h.apart a busy queued
    · intro uuid
      rw [member, List.mem_map]
      constructor
      · rintro ⟨a, rfl, queued | same⟩
        · exact .inr ⟨a, queued, rfl⟩
        · obtain rfl : current = a := Option.some.inj (busy.symm.trans same)
          exact .inl rfl
      · rintro (rfl | ⟨a, queued, rfl⟩)
        · exact ⟨current, rfl, .inr busy⟩
        · exact ⟨a, rfl, .inl queued⟩
  · refine List.Nodup.map_on ?_ h.distinct
    intro a ha b hb same
    exact h.eq_of_uuid (.inl ha) (.inl hb) same
  · intro room
    -- the counter has not come round, so the next UUID is above all in use
    have fresh : (c.sys.currentUUID + 1) % 2 ^ 64 ∉ c.sys.activeUUID := by
      intro used
      have := issued _ used
      rw [Nat.mod_eq_of_lt (by omega)] at this
      omega
    rw [allocateUUID, if_neg fresh]
    rfl
  · intro a queued
    refine ⟨by rw [cancelMessage, registered a queued], ?_⟩
    intro b queued' same
    exact h.addressed b a (.inl queued') (.inl queued) same

/-- A message is being dispatched while another one is queued. -/
theorem tables_agree_two :
    ∃ log c, (machine Unit).Run free {}
        [.sendMessage 1 2 () 5, .sendMessage 1 2 () 7, .run 0, .dispatch] log c ∧
      1 ∈ c.sys.activeUUID ∧ 1 ∉ c.sys.timerQueue.map TimerContainer.uuid ∧
      2 ∈ c.sys.timerQueue.map TimerContainer.uuid ∧ c.sys.allocateUUID.isSome := by
  have defined : ((machine Unit).exec {}
      [.sendMessage 1 2 () 5, .sendMessage 1 2 () 7, .run 0, .dispatch]).map (fun r =>
        (r.1.control.current.map TimerContainer.uuid, r.1.sys.timerQueue.map TimerContainer.uuid,
          (sends r.2).length)) = some (some 1, [2], 2) := by decide
  obtain ⟨⟨c, log⟩, value, same⟩ := Option.map_eq_some_iff.mp defined
  obtain ⟨current, queue, count⟩ : c.control.current.map TimerContainer.uuid = some 1 ∧
      c.sys.timerQueue.map TimerContainer.uuid = [2] ∧ (sends log).length = 2 := by
    simpa using same
  obtain ⟨a, busy, uuid⟩ := Option.map_eq_some_iff.mp current
  have run := Run.of_exec value
  obtain ⟨-, during, -, -, -, -, free, -⟩ := tables_agree run (by omega)
  obtain ⟨-, -, member⟩ := during a busy
  refine ⟨log, c, run, (member 1).mpr (.inl uuid.symm), ?_, ?_, free (by omega)⟩
  · rw [queue]
    decide
  · rw [queue]
    decide

end Kens.System
