/-
# What `cancelMessage` says

`cancelMessage` looks its UUID up in `activeTimer`. An entry is there from the send to
the end of the dispatch, so it is still there while the handlers of the message run.
The answer is true to what becomes of the message at every other moment; for a message
that is being handed to its receiver it says that the message was cancelled.

UUIDs are reused when the counter wraps. A UUID names the last message it was issued
for, and nothing here needs that the counter does not wrap.
-/

import Kens.System.Tables

namespace Kens.System

open Semantics Machine

variable {M : Type} {c c' : Config M} {a b : TimerContainer M} {log new base : List (Event M)}
  {acts : List (Action M)} {uuid : ℕ}

/-- The container that a UUID was last issued for. -/
def named (log : List (Event M)) (uuid : ℕ) : Option (TimerContainer M) :=
  (sends log).reverse.find? fun a => a.uuid = uuid

/-- The message was handed to its receiver. -/
def Delivered (a : TimerContainer M) (log : List (Event M)) : Prop :=
  ∃ callee now, .messageReceived callee a now ∈ log

/-- The sender was told at the due time that its message is cancelled. -/
def Reported (a : TimerContainer M) (log : List (Event M)) : Prop :=
  .messageCancelled a.source a a.wakeup ∈ log

/-- The message whose delivery is underway. -/
def Control.delivering : Control M → Option (TimerContainer M)
  | received current | finished current _ | responded current => some current
  | _ => none

/-- The message of the UUID is being handed to its receiver. -/
def Handing (c : Config M) (uuid : ℕ) : Prop :=
  ∃ a, c.control.delivering = some a ∧ a.uuid = uuid

/-- What a call of `cancelMessage` promises. If it returns true, the message has not
been and never will be delivered, and its sender is told so at the due time. It returns
false and changes nothing if the UUID was never issued or its message was handed to its
receiver. -/
structure Truthful (log : List (Event M)) (c : Config M) (uuid : ℕ) : Prop where
  never : (c.sys.cancelMessage uuid).1 = true →
    ∃ a, named log uuid = some a ∧ ¬ Delivered a log ∧
      ∀ acts' log' c',
        (machine M).Run free { c with sys := (c.sys.cancelMessage uuid).2 } acts' log' c' →
        ¬ Delivered a log' ∧ (a ∈ c'.sys.timerQueue ∨ Reported a (log ++ log'))
  handed : (∀ a, named log uuid = some a → Delivered a log) →
    c.sys.cancelMessage uuid = (false, c.sys)

/-! ## The log and the pending containers -/

theorem delivered_append : Delivered a (log ++ new) ↔ Delivered a log ∨ Delivered a new := by
  simp only [Delivered, List.mem_append]
  constructor
  · rintro ⟨callee, now, member | member⟩
    · exact .inl ⟨callee, now, member⟩
    · exact .inr ⟨callee, now, member⟩
  · rintro (⟨callee, now, member⟩ | ⟨callee, now, member⟩)
    · exact ⟨callee, now, .inl member⟩
    · exact ⟨callee, now, .inr member⟩

theorem named_append_of_nil (none : sends new = []) : named (log ++ new) uuid = named log uuid := by
  rw [named, sends_append, none, List.append_nil, named]

theorem named_append_sent {now timeAfter : ℕ} :
    named (log ++ [.sent a now timeAfter]) uuid =
      if a.uuid = uuid then some a else named log uuid := by
  have one : sends [Event.sent a now timeAfter] = [a] := rfl
  rw [named, sends_append, one, List.reverse_append, List.reverse_singleton,
    List.singleton_append, List.find?_cons]
  by_cases same : a.uuid = uuid <;> simp [same, named]

/-- What the log knows of the containers. -/
structure Known (log : List (Event M)) (c : Config M) : Prop where
  agreement : Agreement c
  last : ∀ a, Pending c a → named log a.uuid = some a
  early : ∀ a, Delivered a log → a.address < c.sys.nextAddress ∧ a ∉ c.sys.timerQueue
  handing : ∀ a, c.control.delivering = some a → Delivered a log
  dropped : ∀ a, c.control = .canceled a → ¬ Delivered a log ∧ Reported a log

theorem known_start : Known [] ({} : Config M) where
  agreement := agreement_start
  last := by simp [Pending, Control.current]
  early := by simp [Delivered]
  handing := nofun
  dropped := nofun

/-- A step that changes neither queue nor log, keeps or ends a dispatch and hands over
nothing. -/
theorem Known.frame (h : Known log c) (agreement : Agreement c')
    (queue : c'.sys.timerQueue = c.sys.timerQueue)
    (addresses : c'.sys.nextAddress = c.sys.nextAddress)
    (quiet : sends new = []) (still : ∀ a, ¬ Delivered a new)
    (current : ∀ a, c'.control.current = some a → c.control.current = some a)
    (handing : ∀ a, c'.control.delivering = some a → c.control.delivering = some a)
    (dropped : ∀ a, c'.control = .canceled a → c.control = .canceled a) :
    Known (log ++ new) c' := by
  refine ⟨agreement, ?_, ?_, ?_, ?_⟩
  · intro a pending
    rw [named_append_of_nil quiet]
    apply h.last
    rcases pending with queued | busy
    · exact .inl (queue ▸ queued)
    · exact .inr (current a busy)
  · intro a delivered
    rw [queue, addresses]
    exact h.early a ((delivered_append.mp delivered).resolve_right (still a))
  · intro a at_
    exact delivered_append.mpr (.inl (h.handing a (handing a at_)))
  · intro a at_
    obtain ⟨live, reported⟩ := h.dropped a (dropped a at_)
    refine ⟨?_, List.mem_append_left _ reported⟩
    rw [delivered_append]
    exact not_or.mpr ⟨live, still a⟩

/-- What becomes of the containers when one is sent. -/
theorem Known.push (h : Known log c) (timeAfter : ℕ) (fresh : a.uuid ∉ c.sys.activeUUID)
    (address : a.address = c.sys.nextAddress) :
    Known (log ++ [.sent a c.sys.currentTime timeAfter]) { c with sys := c.sys.push a } := by
  have still : ∀ b, ¬ Delivered b [Event.sent a c.sys.currentTime timeAfter] := by
    simp [Delivered]
  refine ⟨h.agreement.push fresh address, ?_, ?_, ?_, ?_⟩
  · intro b pending
    rw [named_append_sent]
    by_cases same : a.uuid = b.uuid
    · -- a pending container would have its UUID in use
      have new : ¬ Pending c b := fun old => fresh (same ▸ h.agreement.mem_activeUUID old)
      rcases pending with queued | busy
      · rw [push_timerQueue, List.mem_append, List.mem_singleton] at queued
        obtain rfl := queued.resolve_left fun old => new (.inl old)
        exact if_pos rfl
      · exact absurd (.inr busy) new
    · rw [if_neg same]
      apply h.last
      rcases pending with queued | busy
      · rw [push_timerQueue, List.mem_append, List.mem_singleton] at queued
        exact .inl (queued.resolve_right fun heq => same (by rw [heq]))
      · exact .inr busy
  · intro b delivered
    obtain ⟨old, unqueued⟩ := h.early b ((delivered_append.mp delivered).resolve_right (still b))
    rw [push_nextAddress, push_timerQueue, List.mem_append, List.mem_singleton]
    refine ⟨old.trans (Nat.lt_succ_self _), ?_⟩
    rintro (queued | rfl)
    · exact unqueued queued
    · omega
  · intro b at_
    exact delivered_append.mpr (.inl (h.handing b at_))
  · intro b at_
    obtain ⟨live, reported⟩ := h.dropped b at_
    refine ⟨?_, List.mem_append_left _ reported⟩
    rw [delivered_append]
    exact not_or.mpr ⟨live, still b⟩

/-- A queued container has not been delivered. -/
theorem Known.not_delivered (h : Known log c) (queued : a ∈ c.sys.timerQueue) :
    ¬ Delivered a log := fun delivered => (h.early a delivered).2 queued

theorem Known.move {act : Action M} (h : Known log c) (move : Move c act new c') :
    Known (log ++ new) c' := by
  have agreement := h.agreement.move move
  cases move with
  | quiet _ _ ready sys control inside =>
    refine h.frame agreement (by rw [sys]) (by rw [sys]) rfl (by simp [Delivered]) ?_ ?_ ?_
    · intro a busy
      rcases control with same | ⟨-, idle⟩
      · rwa [← same]
      · rw [idle] at busy
        cases busy
    · intro a at_
      rcases control with same | ⟨-, idle⟩
      · rwa [← same]
      -- a control that hands a container over has that container as its current one
      · cases heq : c'.control <;> rw [heq] at at_ idle <;> cases at_ <;> cases idle
    · intro a at_
      rcases control with same | ⟨-, idle⟩
      · rwa [← same]
      · rw [at_] at idle
        cases idle
  | send source target message timeAfter bound container fresh built =>
    exact h.push timeAfter (by rw [built]; exact fresh) (by rw [built]; rfl)
  | cancel _ uuid =>
    exact h.frame agreement (by simp) (by simp) rfl (by simp [Delivered]) (fun _ => id)
      (fun _ => id) (fun _ => id)
  | deliver _ current sys idle pop live =>
    obtain ⟨rest, hmax, rfl⟩ := popTimer_eq_some_iff.mp pop
    have perm := popMax_perm hmax
    have distinct := List.nodup_cons.mp (perm.nodup_iff.mp h.agreement.distinct)
    have queued := mem_of_popMax hmax
    refine ⟨agreement, ?_, ?_, ?_, nofun⟩
    · intro b pending
      rw [named_append_of_nil rfl]
      exact h.last b (pending.of_pop pop rfl)
    · intro b delivered
      rcases delivered_append.mp delivered with old | now
      · obtain ⟨bound, unqueued⟩ := h.early b old
        exact ⟨bound, fun waiting => unqueued ((popMax_sublist hmax).subset waiting)⟩
      -- the container just popped is delivered, and it was queued only once
      · obtain rfl : b = current := by simpa [Delivered] using now
        exact ⟨h.agreement.allocated b (.inl queued), distinct.1⟩
    · intro b at_
      obtain rfl : current = b := Option.some.inj at_
      exact ⟨_, _, List.mem_append_right _ (List.mem_cons_of_mem _ (List.mem_singleton.mpr rfl))⟩
  | drop _ current sys idle pop dead =>
    obtain ⟨rest, hmax, rfl⟩ := popTimer_eq_some_iff.mp pop
    have queued := mem_of_popMax hmax
    -- a cancelled container is reported but not delivered
    have still : ∀ b, ¬ Delivered b [Event.popped current current.wakeup,
        .messageCancelled current.source current current.wakeup] := by
      simp [Delivered]
    refine ⟨agreement, ?_, ?_, nofun, ?_⟩
    · intro b pending
      rw [named_append_of_nil rfl]
      exact h.last b (pending.of_pop pop rfl)
    · intro b delivered
      obtain ⟨bound, unqueued⟩ :=
        h.early b ((delivered_append.mp delivered).resolve_right (still b))
      exact ⟨bound, fun waiting => unqueued ((popMax_sublist hmax).subset waiting)⟩
    · intro b at_
      obtain rfl : current = b := by simpa using at_
      refine ⟨?_, List.mem_append_right _ (List.mem_cons_of_mem _ (List.mem_singleton.mpr rfl))⟩
      rw [delivered_append]
      exact not_or.mpr ⟨h.not_delivered queued, still current⟩
  | finish _ current ret at_ =>
    refine h.frame agreement rfl rfl rfl (by simp [Delivered]) ?_ ?_ nofun
    · rw [at_]
      exact fun _ => id
    · rw [at_]
      exact fun _ => id
  | respond _ current response at_ =>
    refine h.frame agreement rfl rfl rfl (by simp [Delivered]) ?_ ?_ nofun
    · rw [at_]
      exact fun _ => id
    · rw [at_]
      exact fun _ => id
  | release _ current at_ =>
    exact h.frame agreement rfl rfl rfl (by simp [Delivered]) nofun nofun nofun

theorem known_of_run (run : (machine M).Run free {} acts log c) : Known log c :=
  run.invariant Known known_start fun _ _ _ _ _ h _ step => h.move (move_of_step step)

/-! ## The rest of a cancelled message's life -/

/-- A container that is cancelled: it waits in the queue with its flag set, or its sender
has been told. `base` is what happened before. -/
structure Doomed (base : List (Event M)) (a : TimerContainer M) (log : List (Event M))
    (c : Config M) : Prop where
  agreement : Agreement c
  old : a.address < c.sys.nextAddress
  live : ¬ Delivered a log
  place : a ∈ c.sys.timerQueue ∧ a.address ∈ c.sys.canceled ∨
    a ∉ c.sys.timerQueue ∧ Reported a (base ++ log)

/-- A step that keeps the container in its place and hands over nothing. -/
theorem Doomed.frame (h : Doomed base a log c) (agreement : Agreement c')
    (queue : a ∈ c'.sys.timerQueue ↔ a ∈ c.sys.timerQueue)
    (canceled : c.sys.canceled ⊆ c'.sys.canceled)
    (addresses : c.sys.nextAddress ≤ c'.sys.nextAddress) (still : ¬ Delivered a new) :
    Doomed base a (log ++ new) c' := by
  refine ⟨agreement, h.old.trans_le addresses, ?_, ?_⟩
  · rw [delivered_append]
    exact not_or.mpr ⟨h.live, still⟩
  · rw [queue, ← List.append_assoc]
    rcases h.place with ⟨queued, flag⟩ | ⟨gone, reported⟩
    · exact .inl ⟨queued, canceled flag⟩
    · exact .inr ⟨gone, List.mem_append_left _ reported⟩

theorem Doomed.move {act : Action M} (h : Doomed base a log c) (move : Move c act new c') :
    Doomed base a (log ++ new) c' := by
  have agreement := h.agreement.move move
  cases move with
  | quiet _ _ ready sys control inside =>
    exact h.frame agreement (by rw [sys]) (by rw [sys]) (by rw [sys]) (by simp [Delivered])
  | send source target message timeAfter bound container fresh built =>
    have address : container.address = c.sys.nextAddress := by rw [built]; rfl
    refine h.frame agreement ?_ (by simp) (by simp) (by simp [Delivered])
    rw [push_timerQueue, List.mem_append, List.mem_singleton]
    refine or_iff_left ?_
    rintro rfl
    exact h.old.ne address
  | cancel _ uuid =>
    refine h.frame agreement (by simp) ?_ (by simp) (by simp [Delivered])
    intro address flag
    exact mem_cancelMessage_canceled.mpr (.inl flag)
  | deliver _ current sys idle pop live =>
    obtain ⟨rest, hmax, rfl⟩ := popTimer_eq_some_iff.mp pop
    -- the container that is handed over has its flag clear, or it is not in the queue
    have other : a ≠ current := by
      rintro rfl
      rcases h.place with ⟨-, flag⟩ | ⟨gone, -⟩
      · exact live flag
      · exact gone (mem_of_popMax hmax)
    refine h.frame agreement ?_ (Finset.Subset.refl _) le_rfl (by simpa [Delivered] using other)
    rw [(popMax_perm hmax).mem_iff, List.mem_cons, or_iff_right other]
  | drop _ current sys idle pop dead =>
    obtain ⟨rest, hmax, rfl⟩ := popTimer_eq_some_iff.mp pop
    have distinct := List.nodup_cons.mp ((popMax_perm hmax).nodup_iff.mp h.agreement.distinct)
    have still : ¬ Delivered a [Event.popped current current.wakeup,
        .messageCancelled current.source current current.wakeup] := by
      simp [Delivered]
    by_cases same : a = current
    · subst same
      refine ⟨agreement, h.old, ?_, .inr ⟨distinct.1, ?_⟩⟩
      · rw [delivered_append]
        exact not_or.mpr ⟨h.live, still⟩
      · simp [Reported]
    · refine h.frame agreement ?_ (Finset.Subset.refl _) le_rfl still
      rw [(popMax_perm hmax).mem_iff, List.mem_cons, or_iff_right same]
  | finish _ current ret at_ =>
    exact h.frame agreement Iff.rfl (Finset.Subset.refl _) le_rfl (by simp [Delivered])
  | respond _ current response at_ =>
    exact h.frame agreement Iff.rfl (Finset.Subset.refl _) le_rfl (by simp [Delivered])
  | release _ current at_ =>
    exact h.frame agreement Iff.rfl (Finset.Subset.refl _) le_rfl (by simp [Delivered])

theorem Doomed.run (h : Doomed base a [] c) (run : (machine M).Run free c acts log c') :
    Doomed base a log c' :=
  run.invariant (Doomed base a) h fun _ _ _ _ _ inv _ step => inv.move (move_of_step step)

/-! ## The answer of `cancelMessage` -/

theorem cancelMessage_fst : (c.sys.cancelMessage uuid).1 = (c.sys.activeTimer uuid).isSome := by
  unfold cancelMessage
  split <;> rename_i found <;> rw [found] <;> rfl

/-- A pending message that is not being delivered is cancelled for good by the call. -/
theorem Known.doomed (h : Known log c) (pending : Pending c a)
    (handing : c.control.delivering ≠ some a) :
    Doomed log a [] { c with sys := (c.sys.cancelMessage a.uuid).2 } ∧ ¬ Delivered a log := by
  have agreement : Agreement { c with sys := (c.sys.cancelMessage a.uuid).2 } := by
    apply h.agreement.frame <;> simp
  have active := (h.agreement.active a.uuid a).mpr ⟨rfl, pending⟩
  have flag : a.address ∈ (c.sys.cancelMessage a.uuid).2.canceled :=
    mem_cancelMessage_canceled.mpr (.inr ⟨a, active, rfl⟩)
  have old := h.agreement.allocated a pending
  rcases pending with queued | busy
  · refine ⟨⟨agreement, by simpa using old, by simp [Delivered], .inl ⟨?_, flag⟩⟩,
      h.not_delivered queued⟩
    rw [cancelMessage_timerQueue]
    exact queued
  · -- the message is being dispatched as a cancelled one
    have at_ : c.control = .canceled a := by
      cases heq : c.control <;> rw [heq] at busy handing
      case canceled current =>
        obtain rfl : current = a := Option.some.inj busy
        rfl
      all_goals exact absurd busy handing
    obtain ⟨live, reported⟩ := h.dropped a at_
    refine ⟨⟨agreement, by simpa using old, by simp [Delivered], .inr ⟨?_, ?_⟩⟩, live⟩
    · rw [cancelMessage_timerQueue]
      exact h.agreement.apart a busy
    · rw [List.append_nil]
      exact reported

/-- While a message is being handed to its receiver, the answer of `cancelMessage` is
wrong: the entry of the message is still there. -/
theorem Known.not_truthful (h : Known log c) (handing : Handing c uuid) :
    ¬ Truthful log c uuid := by
  obtain ⟨a, at_, rfl⟩ := handing
  have busy : c.control.current = some a := by
    cases heq : c.control <;> rw [heq] at at_ <;> first | exact at_ | cases at_
  have active := (h.agreement.active a.uuid a).mpr ⟨rfl, .inr busy⟩
  intro truthful
  obtain ⟨b, same, live, -⟩ := truthful.never (by rw [cancelMessage_fst, active]; rfl)
  obtain rfl : a = b := Option.some.inj ((h.last a (.inr busy)).symm.trans same)
  exact live (h.handing a at_)

/-- `cancelMessage` keeps its promise exactly when the message of its UUID is not being
handed to its receiver. -/
theorem cancelMessage_truthful_iff (run : (machine M).Run free {} acts log c) (uuid : ℕ) :
    Truthful log c uuid ↔ ¬ Handing c uuid := by
  have h := known_of_run run
  constructor
  · exact fun truthful handing => h.not_truthful handing truthful
  · intro apart
    have notHanding : ∀ a, a.uuid = uuid → c.control.delivering ≠ some a :=
      fun a same at_ => apart ⟨a, at_, same⟩
    refine ⟨?_, ?_⟩
    · intro answer
      rw [cancelMessage_fst] at answer
      obtain ⟨a, active⟩ := Option.isSome_iff_exists.mp answer
      obtain ⟨rfl, pending⟩ := (h.agreement.active uuid a).mp active
      obtain ⟨doomed, live⟩ := h.doomed pending (notHanding a rfl)
      refine ⟨a, h.last a pending, live, ?_⟩
      intro acts' log' c' later
      have final := doomed.run later
      exact ⟨final.live, final.place.imp And.left And.right⟩
    · intro delivered
      have missing : c.sys.activeTimer uuid = none := by
        cases active : c.sys.activeTimer uuid with
        | none => rfl
        | some a =>
          obtain ⟨rfl, pending⟩ := (h.agreement.active uuid a).mp active
          exact absurd (delivered a (h.last a pending))
            (h.doomed pending (notHanding a rfl)).2
      rw [cancelMessage, missing]

/-- The handler of a message cancels another one, which is never delivered. -/
theorem cancelMessage_truthful_iff_other :
    ∃ log c, (machine Unit).Run free {}
        [.sendMessage 1 2 () 5, .sendMessage 1 2 () 7, .run 0, .dispatch] log c ∧
      (c.sys.cancelMessage 2).1 = true ∧ Truthful log c 2 := by
  have defined : ((machine Unit).exec {}
      [.sendMessage 1 2 () 5, .sendMessage 1 2 () 7, .run 0, .dispatch]).map (fun r =>
        (r.1.control.delivering.map TimerContainer.uuid, (r.1.sys.cancelMessage 2).1)) =
      some (some 1, true) := by decide
  obtain ⟨⟨c, log⟩, value, same⟩ := Option.map_eq_some_iff.mp defined
  obtain ⟨current, answer⟩ : c.control.delivering.map TimerContainer.uuid = some 1 ∧
      (c.sys.cancelMessage 2).1 = true := by
    simpa using same
  have run := Run.of_exec value
  refine ⟨log, c, run, answer, (cancelMessage_truthful_iff run 2).mpr ?_⟩
  rintro ⟨a, at_, uuid⟩
  rw [at_] at current
  obtain one : a.uuid = 1 := Option.some.inj current
  omega

/-- The handler of a message cancels the message itself: the answer is that the
cancellation was successful. -/
theorem not_cancelMessage_truthful :
    ¬ ∀ (acts : List (Action Unit)) (log : List (Event Unit)) (c : Config Unit) (uuid : ℕ),
      (machine Unit).Run free {} acts log c → c.control.isUser → Truthful log c uuid := by
  intro claimed
  have defined : ((machine Unit).exec {} [.sendMessage 1 2 () 5, .run 0, .dispatch]).map (fun r =>
      (r.1.control.isUser, r.1.control.delivering.map TimerContainer.uuid)) =
      some (true, some 1) := by decide
  obtain ⟨⟨c, log⟩, value, same⟩ := Option.map_eq_some_iff.mp defined
  obtain ⟨user, current⟩ : c.control.isUser = true ∧
      c.control.delivering.map TimerContainer.uuid = some 1 := by
    simpa using same
  obtain ⟨a, at_, uuid⟩ := Option.map_eq_some_iff.mp current
  have run := Run.of_exec value
  exact (known_of_run run).not_truthful ⟨a, at_, uuid⟩ (claimed _ log c 1 run user)

end Kens.System
