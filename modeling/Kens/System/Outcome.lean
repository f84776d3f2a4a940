/-
# Exactly one outcome per message

A cancellation only sets a flag on the container that queue and tables share,
and the dispatch reads that flag once, when it takes the container out of the
queue. So the calls that count are those made between the send and the pop, and
the callbacks made for a message are fixed by them: either it is received and
then reported finished, or it is reported cancelled, always at its due time.
-/

import Kens.System.Tables

namespace Kens.System

open Semantics

variable {M : Type} {c c' : Config M} {log new : List (Event M)} {a b : TimerContainer M}

/-! ## Callbacks and cancellations in the log -/

/-- The UUID of the message that a callback is about. -/
def Event.subject : Event M → Option ℕ
  | .messageReceived _ a _ | .messageFinished _ a _ _ => some a.uuid
  | .responseFinished _ a _ _ | .messageCancelled _ a _ => some a.uuid
  | _ => none

@[simp] theorem Event.subject_popped (now : ℕ) : (Event.popped a now).subject = none := rfl

/-- The callbacks made for the message with the given UUID, in order. -/
def callbacks (uuid : ℕ) (log : List (Event M)) : List (Event M) :=
  log.filter fun event => event.subject = some uuid

/-- `cancelMessage` was called on the message after it was sent and before it
was taken out of the queue. -/
def CanceledInTime (a : TimerContainer M) (log : List (Event M)) : Prop :=
  ∃ before answer after, log = before ++ .cancelCalled a.uuid answer :: after ∧
    a ∈ sends before ∧ a ∉ pops before

/-- The callbacks of a delivered message: `messageReceived` on the destination,
`messageFinished` on the sender and, for a response, `messageFinished` on the
responder. -/
def delivery (a : TimerContainer M) (ret : Option M) : List (Event M) :=
  .messageReceived a.target a a.wakeup :: .messageFinished a.source a ret a.wakeup ::
    match ret with
    | none => []
    | some response => [.responseFinished a.target a response a.wakeup]

/-- The one callback of a cancelled message. -/
def cancellation (a : TimerContainer M) : List (Event M) :=
  [.messageCancelled a.source a a.wakeup]

/-- The message had exactly one of the two outcomes, and which one it was is
decided by the calls of `cancelMessage` made in time. -/
def Settled (a : TimerContainer M) (log : List (Event M)) : Prop :=
  (¬ CanceledInTime a log ∧ ∃ ret, callbacks a.uuid log = delivery a ret) ∨
    (CanceledInTime a log ∧ callbacks a.uuid log = cancellation a)

theorem callbacks_append (uuid : ℕ) :
    callbacks uuid (log ++ new) = callbacks uuid log ++ callbacks uuid new :=
  List.filter_append ..

theorem callbacks_append_of_other {uuid : ℕ}
    (other : ∀ event ∈ new, event.subject ≠ some uuid) :
    callbacks uuid (log ++ new) = callbacks uuid log := by
  have none : callbacks uuid new = [] := by
    apply List.filter_eq_nil_iff.mpr
    intro event member
    simpa using other event member
  rw [callbacks_append, none, List.append_nil]

/-- A cancellation counts in a longer log when it counted already, or when it
is one of the new calls and the message was queued at that moment. -/
theorem canceledInTime_append_iff :
    CanceledInTime a (log ++ new) ↔ CanceledInTime a log ∨
      ∃ before answer after, new = before ++ .cancelCalled a.uuid answer :: after ∧
        a ∈ sends (log ++ before) ∧ a ∉ pops (log ++ before) := by
  constructor
  · rintro ⟨before, answer, after, split, sent, waiting⟩
    rcases List.append_eq_append_iff.mp split with ⟨extra, rfl, rfl⟩ | ⟨extra, rfl, tail⟩
    · exact .inr ⟨extra, answer, after, rfl, sent, waiting⟩
    · cases extra with
      | nil =>
        refine .inr ⟨[], answer, after, by simpa using tail.symm, ?_, ?_⟩ <;> simpa
      | cons event rest =>
        obtain ⟨rfl, rfl⟩ : Event.cancelCalled a.uuid answer = event ∧ after = rest ++ new := by
          simpa using tail
        exact .inl ⟨before, answer, rest, rfl, sent, waiting⟩
  · rintro (⟨before, answer, after, rfl, sent, waiting⟩ |
      ⟨before, answer, after, rfl, sent, waiting⟩)
    · exact ⟨before, answer, after ++ new, by simp, sent, waiting⟩
    · exact ⟨log ++ before, answer, after, by simp, sent, waiting⟩

/-- Once a message has left the queue, no later call cancels it. -/
theorem canceledInTime_append_of_popped (popped : a ∈ pops log) :
    CanceledInTime a (log ++ new) ↔ CanceledInTime a log := by
  rw [canceledInTime_append_iff, or_iff_left]
  rintro ⟨before, answer, after, -, -, waiting⟩
  apply waiting
  rw [pops_append]
  exact List.mem_append_left _ popped

theorem canceledInTime_append_of_no_call
    (noCall : ∀ answer, Event.cancelCalled a.uuid answer ∉ new) :
    CanceledInTime a (log ++ new) ↔ CanceledInTime a log := by
  rw [canceledInTime_append_iff, or_iff_left]
  rintro ⟨before, answer, after, rfl, -, -⟩
  exact noCall answer (List.mem_append_right _ (List.mem_cons_self ..))

theorem Settled.append (h : Settled a log) (popped : a ∈ pops log)
    (other : ∀ event ∈ new, event.subject ≠ some a.uuid) : Settled a (log ++ new) := by
  unfold Settled
  rw [canceledInTime_append_of_popped popped, callbacks_append_of_other other]
  exact h

/-! ## The invariant -/

/-- How far the callbacks of the message being dispatched have come. -/
def Busy (log : List (Event M)) : Control M → Prop
  | .received a => ¬ CanceledInTime a log ∧
      callbacks a.uuid log = [.messageReceived a.target a a.wakeup]
  | .finished a ret => ¬ CanceledInTime a log ∧ callbacks a.uuid log =
      [.messageReceived a.target a a.wakeup, .messageFinished a.source a ret a.wakeup]
  | .responded a => ¬ CanceledInTime a log ∧
      ∃ response, callbacks a.uuid log = delivery a (some response)
  | .canceled a => CanceledInTime a log ∧ callbacks a.uuid log = cancellation a
  | .outside | .loop | .awake _ => True

/-- Flags, callbacks and cancellations fit together. -/
structure Outcomes (log : List (Event M)) (c : Config M) : Prop where
  tables : Tables log c
  named : ∀ event ∈ log, ∀ uuid, event.subject = some uuid → ∃ a ∈ pops log, a.uuid = uuid
  flagged : ∀ address ∈ c.sys.canceled, address < c.sys.nextAddress
  flags : ∀ a ∈ c.sys.timerQueue, a.address ∈ c.sys.canceled ↔ CanceledInTime a log
  settled : ∀ a ∈ pops log, c.control.current ≠ some a → Settled a log
  busy : Busy log c.control

theorem outcomes_start : Outcomes [] ({} : Config M) where
  tables := tables_start
  named := by simp
  flagged := by simp
  flags := by simp
  settled := by simp
  busy := trivial

/-- No callback is about a message that is still queued. -/
theorem Outcomes.callbacks_eq_nil (h : Outcomes log c) (sent : a ∈ sends log)
    (waiting : a ∉ pops log) : callbacks a.uuid log = [] := by
  apply List.filter_eq_nil_iff.mpr
  intro event member about
  obtain ⟨b, popped, same⟩ := h.named event member a.uuid (by simpa using about)
  have sentB : b ∈ sends log := (h.tables.ordered.located b).mpr (.inr popped)
  obtain rfl := h.tables.ordered.eq_of_uuid sentB sent same
  exact waiting popped

theorem Busy.append {control : Control M} (h : Busy log control)
    (popped : ∀ a, control.current = some a → a ∈ pops log)
    (silent : ∀ event ∈ new, event.subject = none) : Busy (log ++ new) control := by
  have other : ∀ uuid, ∀ event ∈ new, event.subject ≠ some uuid := by
    intro uuid event member
    rw [silent event member]
    simp
  cases control with
  | outside | loop | awake _ => trivial
  | received a | finished a ret | responded a | canceled a =>
    simp only [Busy] at h ⊢
    rw [canceledInTime_append_of_popped (popped a rfl), callbacks_append_of_other (other a.uuid)]
    exact h

/-- A step without pops and callbacks that keeps the flags in line. -/
theorem Outcomes.frame (h : Outcomes log c) (tables : Tables (log ++ new) c')
    (noPop : ∀ a now, Event.popped a now ∉ new) (silent : ∀ event ∈ new, event.subject = none)
    (flagged : ∀ address ∈ c'.sys.canceled, address < c'.sys.nextAddress)
    (flags : ∀ a ∈ c'.sys.timerQueue,
      a.address ∈ c'.sys.canceled ↔ CanceledInTime a (log ++ new))
    (control : c'.control = c.control ∨ c.control.current = none ∧ c'.control.current = none) :
    Outcomes (log ++ new) c' := by
  have same : pops (log ++ new) = pops log := by
    rw [pops_append, pops_eq_nil noPop, List.append_nil]
  have current : c'.control.current = c.control.current := by
    rcases control with same | ⟨idle, idle'⟩
    · rw [same]
    · rw [idle, idle']
  refine ⟨tables, ?_, flagged, flags, ?_, ?_⟩
  · intro event member uuid about
    rw [same]
    rcases List.mem_append.mp member with member | member
    · exact h.named event member uuid about
    · rw [silent event member] at about
      cases about
  · intro a popped idle
    rw [same] at popped
    rw [current] at idle
    refine (h.settled a popped idle).append popped fun event member => ?_
    rw [silent event member]
    simp
  · rcases control with same | ⟨-, idle⟩
    · rw [same]
      exact h.busy.append (fun a hcurrent => (h.tables.current a hcurrent).1) silent
    · cases hcontrol : c'.control with
      | outside | loop | awake _ => trivial
      | received a | finished a ret | responded a | canceled a =>
        rw [hcontrol] at idle
        cases idle

/-! ## Every move keeps it -/

theorem Outcomes.send (h : Outcomes log c) {source target : ℕ} {message : M} {timeAfter : ℕ}
    (clock : c.sys.currentTime + timeAfter < 2 ^ 64) (counter : c.sys.currentUUID + 1 < 2 ^ 64)
    (built : a = c.sys.newContainer source target message timeAfter
      ((c.sys.currentUUID + 1) % 2 ^ 64)) :
    Outcomes (log ++ [.sent a c.sys.currentTime timeAfter]) { c with sys := c.sys.push a } := by
  refine h.frame (h.tables.send clock counter built) (by simp) (by simp [Event.subject]) ?_ ?_
    (.inl rfl)
  · intro address member
    exact (h.flagged address member).trans (Nat.lt_succ_self _)
  · intro b queued
    rw [canceledInTime_append_of_no_call (by simp), push_canceled]
    rw [push_timerQueue, List.mem_append, List.mem_singleton] at queued
    rcases queued with queued | rfl
    · exact h.flags b queued
    · -- the flag of a new container is clear, and no earlier call concerned it
      have address : b.address = c.sys.nextAddress := by rw [built]; rfl
      constructor
      · intro member
        have := h.flagged _ member
        omega
      · rintro ⟨before, answer, after, rfl, sent, -⟩
        have := h.tables.allocated b (by
          rw [sends_append]
          exact List.mem_append_left _ sent)
        omega

theorem Outcomes.cancel (h : Outcomes log c) (uuid : ℕ)
    (tables : Tables (log ++ [.cancelCalled uuid (c.sys.cancelMessage uuid).1])
      { c with sys := (c.sys.cancelMessage uuid).2 }) :
    Outcomes (log ++ [.cancelCalled uuid (c.sys.cancelMessage uuid).1])
      { c with sys := (c.sys.cancelMessage uuid).2 } := by
  -- a flag is set on the address the UUID is registered for, which has been handed out
  refine h.frame tables (by simp) (by simp [Event.subject]) ?_ ?_ (.inl rfl)
  · intro address member
    rw [cancelMessage_nextAddress]
    rcases mem_cancelMessage_canceled.mp member with member | ⟨b, active, rfl⟩
    · exact h.flagged address member
    · exact h.tables.allocated b (h.tables.mem_sends ((h.tables.active _ _).mp active).2)
  · intro a queued
    rw [cancelMessage_timerQueue] at queued
    have sent := h.tables.mem_sends (.inl queued)
    have waiting := h.tables.ordered.not_mem_pops queued
    rw [mem_cancelMessage_canceled, h.flags a queued, canceledInTime_append_iff]
    refine or_congr_right ?_
    constructor
    · -- the registered container shares its address with `a`, so it is `a`
      rintro ⟨b, active, same⟩
      obtain ⟨hb, pending⟩ := (h.tables.active _ _).mp active
      obtain rfl := h.tables.eq_of_address (h.tables.mem_sends pending) sent same
      subst hb
      exact ⟨[], _, [], rfl, by simpa using sent, by simpa using waiting⟩
    · rintro ⟨before, answer, after, split, -, -⟩
      have same : uuid = a.uuid := by
        cases before with
        | nil =>
          simp only [List.nil_append, List.cons.injEq, Event.cancelCalled.injEq] at split
          exact split.1.1
        | cons event before => simp at split
      exact ⟨a, (h.tables.active uuid a).mpr ⟨same.symm, .inl queued⟩, rfl⟩

/-- When a container leaves the queue, its flag says whether it was cancelled in
time, and its first callback is the only one so far. -/
theorem Outcomes.first_callback (h : Outcomes log c) {s : System M} (event : Event M)
    (pop : c.sys.popTimer = some (a, s)) (about : event.subject = some a.uuid) :
    (CanceledInTime a (log ++ [.popped a s.currentTime, event]) ↔ a.address ∈ c.sys.canceled) ∧
      callbacks a.uuid (log ++ [.popped a s.currentTime, event]) = [event] := by
  have queued := mem_of_popTimer pop
  have silent := h.callbacks_eq_nil (h.tables.mem_sends (.inl queued))
    (h.tables.ordered.not_mem_pops queued)
  constructor
  · rw [canceledInTime_append_of_no_call, h.flags a queued]
    intro answer member
    rcases List.mem_cons.mp member with heq | member
    · cases heq
    · rw [← List.mem_singleton.mp member] at about
      cases about
  · rw [callbacks_append, silent]
    simp [callbacks, about]

/-- The dispatch of a container starts: its first callback is made. -/
theorem Outcomes.pop (h : Outcomes log c) {s : System M} {control : Control M} {event : Event M}
    (tables : Tables (log ++ [.popped a s.currentTime, event])
      { c with sys := s, control := control })
    (idle : c.control.current = none) (current : control.current = some a)
    (pop : c.sys.popTimer = some (a, s)) (about : event.subject = some a.uuid)
    (busy : Busy (log ++ [.popped a s.currentTime, event]) control) :
    Outcomes (log ++ [.popped a s.currentTime, event])
      { c with sys := s, control := control } := by
  have noCall : ∀ uuid answer,
      Event.cancelCalled uuid answer ∉ [Event.popped a s.currentTime, event] := by
    intro uuid answer member
    rcases List.mem_cons.mp member with heq | member
    · cases heq
    · rw [← List.mem_singleton.mp member] at about
      cases about
  have sent : a ∈ sends log := h.tables.mem_sends (.inl (mem_of_popTimer pop))
  have added : a ∈ pops (log ++ [.popped a s.currentTime, event]) :=
    mem_pops_iff.mpr ⟨_, List.mem_append_right _ (List.mem_cons_self ..)⟩
  have subject : ∀ e ∈ [Event.popped a s.currentTime, event], ∀ uuid,
      e.subject = some uuid → uuid = a.uuid := by
    intro e member uuid he
    rcases List.mem_cons.mp member with rfl | member
    · cases he
    · rw [List.mem_singleton.mp member, about] at he
      exact (Option.some.inj he).symm
  refine ⟨tables, ?_, ?_, ?_, ?_, busy⟩
  · intro e member uuid he
    rcases List.mem_append.mp member with member | member
    · obtain ⟨b, popped, same⟩ := h.named e member uuid he
      refine ⟨b, ?_, same⟩
      rw [pops_append]
      exact List.mem_append_left _ popped
    · exact ⟨a, added, (subject e member uuid he).symm⟩
  · obtain ⟨rest, -, rfl⟩ := popTimer_eq_some_iff.mp pop
    exact h.flagged
  · obtain ⟨rest, hmax, rfl⟩ := popTimer_eq_some_iff.mp pop
    intro b queued
    rw [canceledInTime_append_of_no_call (noCall b.uuid)]
    exact h.flags b ((popMax_sublist hmax).subset queued)
  · intro b popped other
    -- the others popped are settled, and the new events are not about them
    have different : a ≠ b := fun same => other (by rw [current, same])
    have old : b ∈ pops log := by
      rw [pops_append, List.mem_append] at popped
      rcases popped with popped | popped
      · exact popped
      · obtain ⟨now, member⟩ := mem_pops_iff.mp popped
        rcases List.mem_cons.mp member with heq | member
        · obtain ⟨rfl, -⟩ : b = a ∧ _ := by simpa using heq
          exact absurd rfl different
        · rw [← List.mem_singleton.mp member] at about
          cases about
    refine (h.settled b old (by rw [idle]; simp)).append old fun e member he => different ?_
    have sentB : b ∈ sends log := (h.tables.ordered.located b).mpr (.inr old)
    exact h.tables.ordered.eq_of_uuid sent sentB (subject e member _ he).symm

/-- The dispatch goes on: one more callback about the current container, or the
end of the dispatch. -/
theorem Outcomes.advance (h : Outcomes log c) (tables : Tables (log ++ new) c')
    (current : c.control.current = some a)
    (about : ∀ event ∈ new, event.subject = some a.uuid)
    (noPop : ∀ b now, Event.popped b now ∉ new)
    (queue : c'.sys.timerQueue = c.sys.timerQueue)
    (canceled : c'.sys.canceled = c.sys.canceled)
    (addresses : c'.sys.nextAddress = c.sys.nextAddress)
    (ends : c'.control.current ≠ some a → Settled a (log ++ new))
    (busy : Busy (log ++ new) c'.control) : Outcomes (log ++ new) c' := by
  have same : pops (log ++ new) = pops log := by
    rw [pops_append, pops_eq_nil noPop, List.append_nil]
  have popped := (h.tables.current a current).1
  have sent : a ∈ sends log := (h.tables.ordered.located a).mpr (.inr popped)
  have noCall : ∀ uuid answer, Event.cancelCalled uuid answer ∉ new := by
    intro uuid answer member
    cases about _ member
  refine ⟨tables, ?_, ?_, ?_, ?_, busy⟩
  · intro event member uuid he
    rw [same]
    rcases List.mem_append.mp member with member | member
    · exact h.named event member uuid he
    · rw [about event member] at he
      exact ⟨a, popped, Option.some.inj he⟩
  · rw [canceled, addresses]
    exact h.flagged
  · rw [queue, canceled]
    intro b queued
    rw [canceledInTime_append_of_no_call (noCall b.uuid)]
    exact h.flags b queued
  · intro b hb other
    rw [same] at hb
    -- `a` itself is settled when its dispatch ends here
    by_cases different : a = b
    · subst different
      exact ends other
    · refine (h.settled b hb ?_).append hb fun event member he => different ?_
      · rw [current]
        simpa using different
      · rw [about event member] at he
        have sentB : b ∈ sends log := (h.tables.ordered.located b).mpr (.inr hb)
        exact h.tables.ordered.eq_of_uuid sent sentB (Option.some.inj he)

/-- One step keeps the invariant. -/
theorem Outcomes.move {act : Action M} (h : Outcomes log c) (allowed : NoWrap c act)
    (move : Move c act new c') : Outcomes (log ++ new) c' := by
  have tables := h.tables.move allowed move
  cases move with
  | quiet _ _ ready sys control inside =>
    refine h.frame tables (by simp) (by simp) ?_ ?_ control
    · rw [sys]
      exact h.flagged
    · rw [sys, List.append_nil]
      exact h.flags
  | send source target message timeAfter bound container fresh built =>
    exact h.send allowed.1 allowed.2 built
  | cancel _ uuid => exact h.cancel uuid tables
  | deliver _ current sys idle pop live =>
    obtain ⟨flag, first⟩ := h.first_callback
      (.messageReceived current.target current sys.currentTime) pop rfl
    refine h.pop tables (by rw [idle]; rfl) rfl pop rfl ⟨?_, ?_⟩
    · rw [flag]
      exact live
    · rw [first, popTimer_currentTime pop]
  | drop _ current sys idle pop dead =>
    obtain ⟨flag, first⟩ := h.first_callback
      (.messageCancelled current.source current sys.currentTime) pop rfl
    refine h.pop tables (by rw [idle]; rfl) rfl pop rfl ⟨?_, ?_⟩
    · rw [flag]
      exact dead
    · rw [first, popTimer_currentTime pop]
      rfl
  | finish _ current ret at_ =>
    have hcurrent : c.control.current = some current := by rw [at_]; rfl
    obtain ⟨popped, now⟩ := h.tables.current current hcurrent
    -- the second callback of a delivery
    have busy := h.busy
    rw [at_] at busy
    refine h.advance tables hcurrent (by simp [Event.subject]) (by simp) rfl rfl rfl ?_ ?_
    · exact fun ended => absurd rfl ended
    · refine ⟨?_, ?_⟩
      · rw [canceledInTime_append_of_popped popped]
        exact busy.1
      · rw [callbacks_append, busy.2, now]
        simp [callbacks, Event.subject]
  | respond _ current response at_ =>
    have hcurrent : c.control.current = some current := by rw [at_]; rfl
    obtain ⟨popped, now⟩ := h.tables.current current hcurrent
    have busy := h.busy
    rw [at_] at busy
    refine h.advance tables hcurrent (by simp [Event.subject]) (by simp) rfl rfl rfl ?_ ?_
    · exact fun ended => absurd rfl ended
    · refine ⟨?_, response, ?_⟩
      · rw [canceledInTime_append_of_popped popped]
        exact busy.1
      · rw [callbacks_append, busy.2, now]
        simp [callbacks, Event.subject, delivery]
  | release _ current at_ =>
    have hcurrent : c.control.current = some current := by
      rcases at_ with at_ | at_ | at_ <;> rw [at_] <;> rfl
    -- the dispatch is over: with no response, with one, or cancelled
    have busy := h.busy
    refine h.advance tables hcurrent (by simp) (by simp) rfl rfl rfl (fun _ => ?_) trivial
    rw [List.append_nil]
    rcases at_ with at_ | at_ | at_ <;> rw [at_] at busy
    · exact .inl ⟨busy.1, none, busy.2⟩
    · obtain ⟨live, response, done⟩ := busy
      exact .inl ⟨live, some response, done⟩
    · exact .inr busy

/-- Every run without wrap-around keeps the invariant. -/
theorem outcomes_of_run {acts : List (Action M)}
    (h : (machine M).Run NoWrap {} acts log c) : Outcomes log c :=
  h.invariant Outcomes outcomes_start fun _ _ _ _ _ inv allowed hstep =>
    inv.move allowed (move_of_step hstep)

/-! ## The outcome of a message -/

/-- The callbacks of a message whose dispatch has begun and is not over. -/
def Underway (a : TimerContainer M) (log : List (Event M)) : Prop :=
  (¬ CanceledInTime a log ∧ callbacks a.uuid log ≠ [] ∧
      ∃ ret, callbacks a.uuid log <+: delivery a ret) ∨
    (CanceledInTime a log ∧ callbacks a.uuid log = cancellation a)

theorem underway_of_busy (h : Busy log c.control) (current : c.control.current = some a) :
    Underway a log := by
  cases hcontrol : c.control with
  | outside | loop | awake _ =>
    rw [hcontrol] at current
    cases current
  | received b =>
    rw [hcontrol] at h current
    obtain rfl : b = a := Option.some.inj current
    exact .inl ⟨h.1, by simp [h.2], none, by rw [h.2]; exact ⟨_, rfl⟩⟩
  | finished b ret =>
    rw [hcontrol] at h current
    obtain rfl : b = a := Option.some.inj current
    exact .inl ⟨h.1, by simp [h.2], ret, by rw [h.2]; exact ⟨_, rfl⟩⟩
  | responded b =>
    rw [hcontrol] at h current
    obtain rfl : b = a := Option.some.inj current
    obtain ⟨live, response, done⟩ := h
    exact .inl ⟨live, by simp [done, delivery], some response, by rw [done]⟩
  | canceled b =>
    rw [hcontrol] at h current
    obtain rfl : b = a := Option.some.inj current
    exact .inr h

end Kens.System
