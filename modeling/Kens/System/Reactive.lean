/-
# Modules on the scheduler

Modules react to messages: a handler changes their memory and calls
`sendMessage`. Here a dispatch is one step, from taking the message out of the
queue to the end of its handler, and code outside of the modules may make them
act between two dispatches. The handlers are a parameter; the scheduler is the
one of `Kens.System`.
-/

import Mathlib
import Kens.Semantics.Machine
import Kens.System.Execution

namespace Kens

open Semantics

/-- A call of `sendMessage` by a module. -/
structure Send (M : Type) where
  source : ℕ
  target : ℕ
  message : M
  timeAfter : ℕ

/-- Modules with a common memory. `receive` is `messageReceived` of the target of
a container, at the given time; `act` is what other code makes the modules do.
Both return the sends in program order, and `none` when an assertion fails. -/
structure Reactive (M σ α : Type) where
  receive : σ → ℕ → TimerContainer M → Option (σ × List (Send M))
  act : σ → ℕ → α → Option (σ × List (Send M))

namespace Reactive

variable {M σ α : Type}

/-- The scheduler and the memory of the modules. -/
structure State (M σ : Type) where
  sys : System M
  memory : σ

inductive Input (α : Type)
  | dispatch
  | act (a : α)

/-- The log: what the modules were made to do and what they received. -/
inductive Record (M α : Type)
  | acted (a : α) (now : ℕ) (sends : List (Send M))
  | received (container : TimerContainer M) (sends : List (Send M))

/-- Call `sendMessage` for each send. -/
def sendAll (s : System M) : List (Send M) → Option (System M)
  | [] => some s
  | send :: rest =>
    match s.sendMessage send.source send.target send.message send.timeAfter with
    | none => none
    | some (_, s) => sendAll s rest

/-- One step. A canceled message reaches no module. -/
def step (R : Reactive M σ α) (x : State M σ) :
    Input α → Option (State M σ × List (Record M α))
  | .act a =>
    match R.act x.memory x.sys.currentTime a with
    | none => none
    | some (memory, sends) =>
      (sendAll x.sys sends).map fun sys =>
        (⟨sys, memory⟩, [.acted a x.sys.currentTime sends])
  | .dispatch =>
    match x.sys.popTimer with
    | none => none
    | some (current, sys) =>
      if current.address ∈ sys.canceled then some (⟨sys.release current, x.memory⟩, [])
      else
        match R.receive x.memory sys.currentTime current with
        | none => none
        | some (memory, sends) =>
          (sendAll sys sends).map fun sys =>
            (⟨sys.release current, memory⟩, [.received current sends])

def machine (R : Reactive M σ α) : Machine (State M σ) (Input α) (Record M α) where
  step := R.step

namespace Record

/-- The time at which a module acted or received a message. -/
def time : Record M α → ℕ
  | .acted _ now _ => now
  | .received container _ => container.wakeup

def sends : Record M α → List (Send M)
  | .acted _ _ sends => sends
  | .received _ sends => sends

end Record

/-- No due time recorded in a log wraps. -/
def LogFits (log : List (Record M α)) : Prop :=
  ∀ record ∈ log, ∀ send ∈ record.sends, record.time + send.timeAfter < 2 ^ 64

/-- No message in flight is due before the current time. -/
def Future (s : System M) : Prop := ∀ c ∈ s.timerQueue, s.currentTime ≤ c.wakeup

/-! ## Sends without wrap -/

/-- The containers of some sends made at one time, from the next UUID on. -/
def stamp (now address uuid : ℕ) : List (Send M) → List (TimerContainer M)
  | [] => []
  | send :: rest =>
    ⟨address, send.source, send.target, now + send.timeAfter, send.message, uuid + 1⟩ ::
      stamp now (address + 1) (uuid + 1) rest

/-- No due time and no UUID wraps when the sends are made. -/
def Fits (s : System M) (sends : List (Send M)) : Prop :=
  (∀ send ∈ sends, s.currentTime + send.timeAfter < 2 ^ 64) ∧
    s.currentUUID + sends.length < 2 ^ 64

instance (s : System M) (sends : List (Send M)) : Decidable (Fits s sends) :=
  inferInstanceAs (Decidable (_ ∧ _))

/-- What the scheduler keeps as long as nothing wraps and nothing is canceled:
queued messages are in the future, and UUIDs increase along the queue. -/
structure Sound (s : System M) : Prop where
  future : ∀ c ∈ s.timerQueue, s.currentTime ≤ c.wakeup
  sorted : s.timerQueue.Pairwise fun a b => a.uuid < b.uuid
  issued : ∀ c ∈ s.timerQueue, c.uuid ≤ s.currentUUID
  active : ∀ uuid ∈ s.activeUUID, uuid ≤ s.currentUUID
  uncanceled : s.canceled = ∅

theorem sound_start : Sound ({} : System M) where
  future := by simp
  sorted := List.Pairwise.nil
  issued := by simp
  active := by simp
  uncanceled := rfl

variable {s s' : System M} {sends : List (Send M)} {now address uuid : ℕ}

theorem mem_stamp {c : TimerContainer M} (member : c ∈ stamp now address uuid sends) :
    uuid < c.uuid ∧ c.uuid ≤ uuid + sends.length ∧
      ∃ send ∈ sends, c.source = send.source ∧ c.target = send.target ∧
        c.message = send.message ∧ c.wakeup = now + send.timeAfter := by
  induction sends generalizing address uuid with
  | nil => simp [stamp] at member
  | cons send rest ih =>
    rw [stamp, List.mem_cons] at member
    rcases member with rfl | member
    · exact ⟨by simp, by simp, send, by simp, rfl, rfl, rfl, rfl⟩
    · obtain ⟨low, high, other, mem, same⟩ := ih member
      refine ⟨by omega, ?_, other, by simp [mem], same⟩
      rw [List.length_cons]
      omega

theorem stamp_append (early late : List (Send M)) :
    stamp now address uuid (early ++ late) = stamp now address uuid early ++
      stamp now (address + early.length) (uuid + early.length) late := by
  induction early generalizing address uuid with
  | nil => rfl
  | cons send rest ih =>
    rw [List.cons_append, stamp, stamp, ih, List.cons_append, List.length_cons]
    congr 3 <;> omega

/-- The first of some sends fits by itself. -/
theorem Fits.head {send : Send M} {rest : List (Send M)} (fits : Fits s (send :: rest)) :
    Fits s [send] := by
  obtain ⟨due, count⟩ := fits
  rw [List.length_cons] at count
  refine ⟨fun other member => ?_, ?_⟩
  · rw [List.mem_singleton.mp member]
    exact due send List.mem_cons_self
  · rw [List.length_singleton]
    omega

/-- The others fit after it. -/
theorem Fits.tail {send : Send M} {rest : List (Send M)} (fits : Fits s (send :: rest))
    (time : s'.currentTime = s.currentTime) (uuid : s'.currentUUID = s.currentUUID + 1) :
    Fits s' rest := by
  obtain ⟨due, count⟩ := fits
  rw [List.length_cons] at count
  refine ⟨fun other member => ?_, ?_⟩
  · rw [time]
    exact due other (List.mem_cons_of_mem _ member)
  · rw [uuid]
    omega

/-- A new container that is due now or later keeps the scheduler sound. -/
theorem Sound.push (sound : Sound s) {container : TimerContainer M}
    (due : s.currentTime ≤ container.wakeup) (fresh : container.uuid = s.currentUUID + 1) :
    Sound (s.push container) where
  future := by
    intro c member
    rw [System.push_timerQueue, List.mem_append, List.mem_singleton] at member
    rcases member with member | rfl
    · exact sound.future c member
    · exact due
  sorted := by
    rw [System.push_timerQueue, List.pairwise_append]
    refine ⟨sound.sorted, List.pairwise_singleton _ _, ?_⟩
    intro a member b last
    rw [List.mem_singleton] at last
    rw [last, fresh]
    exact Nat.lt_succ_of_le (sound.issued a member)
  issued := by
    intro c member
    change c.uuid ≤ container.uuid
    rw [System.push_timerQueue, List.mem_append, List.mem_singleton] at member
    rcases member with member | rfl
    · rw [fresh]
      exact Nat.le_succ_of_le (sound.issued c member)
    · exact le_rfl
  active := by
    intro uuid member
    change uuid ≤ container.uuid
    rw [System.push_activeUUID, Finset.mem_insert] at member
    rcases member with rfl | member
    · exact le_rfl
    · rw [fresh]
      exact Nat.le_succ_of_le (sound.active uuid member)
  uncanceled := sound.uncanceled

/-- A sequence of sends that fits succeeds and appends its containers. -/
theorem sendAll_eq (sound : Sound s) (fits : Fits s sends) :
    ∃ s', sendAll s sends = some s' ∧ Sound s' ∧ s'.currentTime = s.currentTime ∧
      s'.currentUUID = s.currentUUID + sends.length ∧
      s'.timerQueue =
        s.timerQueue ++ stamp s.currentTime s.nextAddress s.currentUUID sends := by
  induction sends generalizing s with
  | nil => exact ⟨s, rfl, sound, rfl, rfl, by simp [stamp]⟩
  | cons send rest ih =>
    have count := fits.2
    rw [List.length_cons] at count
    have next : (s.currentUUID + 1) % 2 ^ 64 = s.currentUUID + 1 := Nat.mod_eq_of_lt (by omega)
    have small : (s.currentTime + send.timeAfter) % 2 ^ 64 = s.currentTime + send.timeAfter :=
      Nat.mod_eq_of_lt (fits.1 send List.mem_cons_self)
    -- the container as the unbounded arithmetic has it
    let container : TimerContainer M :=
      ⟨s.nextAddress, send.source, send.target, s.currentTime + send.timeAfter, send.message,
        s.currentUUID + 1⟩
    have sent : s.sendMessage send.source send.target send.message send.timeAfter =
        some (container, s.push container) := by
      rw [System.sendMessage_eq_some_iff, next]
      refine ⟨fun used => ?_, ?_, rfl⟩
      · have := sound.active _ used
        omega
      · simp only [container, System.newContainer, small]
    -- the next send starts from a sound system again
    have sound' : Sound (s.push container) := sound.push (Nat.le_add_right ..) rfl
    have fits' : Fits (s.push container) rest := fits.tail rfl rfl
    obtain ⟨t, all, sound_t, time, uuid, queue⟩ := ih sound' fits'
    refine ⟨t, ?_, sound_t, time, ?_, ?_⟩
    · rw [sendAll, sent]
      exact all
    · rw [uuid, List.length_cons]
      change s.currentUUID + 1 + rest.length = _
      omega
    · rw [queue, System.push_timerQueue, List.append_assoc]
      rfl

/-! ## What one step can do -/

/-- The effect of a step on memory, clock and queue, as long as nothing wraps.
`least` says that the dispatched container comes first in the order of the
scheduler. -/
inductive Effect (R : Reactive M σ α) (x : State M σ) :
    Input α → List (Record M α) → State M σ → Prop
  | act (a : α) (memory : σ) (sends : List (Send M)) (address : ℕ) (y : State M σ)
      (handled : R.act x.memory x.sys.currentTime a = some (memory, sends))
      (memory_eq : y.memory = memory)
      (clock : y.sys.currentTime = x.sys.currentTime)
      (queue : y.sys.timerQueue =
        x.sys.timerQueue ++ stamp x.sys.currentTime address x.sys.currentUUID sends) :
      Effect R x (.act a) [.acted a x.sys.currentTime sends] y
  | dispatch (current : TimerContainer M) (front back : List (TimerContainer M)) (memory : σ)
      (sends : List (Send M)) (address : ℕ) (y : State M σ)
      (split : x.sys.timerQueue = front ++ current :: back)
      (least : ∀ c ∈ x.sys.timerQueue, current.key ≤ c.key)
      (handled : R.receive x.memory current.wakeup current = some (memory, sends))
      (memory_eq : y.memory = memory)
      (clock : y.sys.currentTime = current.wakeup)
      (queue : y.sys.timerQueue =
        front ++ back ++ stamp current.wakeup address x.sys.currentUUID sends) :
      Effect R x .dispatch [.received current sends] y

/-- Nothing wraps in the step that an input causes. -/
def NoWrap (R : Reactive M σ α) (x : State M σ) : Input α → Prop
  | .act a => ∀ result ∈ R.act x.memory x.sys.currentTime a, Fits x.sys result.2
  | .dispatch => ∀ popped ∈ x.sys.popTimer,
      ∀ result ∈ R.receive x.memory popped.2.currentTime popped.1, Fits popped.2 result.2

instance (R : Reactive M σ α) (x : State M σ) : DecidablePred (R.NoWrap x)
  | .act a => inferInstanceAs
      (Decidable (∀ result ∈ R.act x.memory x.sys.currentTime a, Fits x.sys result.2))
  | .dispatch => inferInstanceAs (Decidable (∀ popped ∈ x.sys.popTimer,
      ∀ result ∈ R.receive x.memory popped.2.currentTime popped.1, Fits popped.2 result.2))

variable {R : Reactive M σ α} {x y : State M σ} {input : Input α} {new : List (Record M α)}

theorem Sound.pop {current : TimerContainer M} (sound : Sound s)
    (pop : s.popTimer = some (current, s')) :
    Sound s' ∧ s'.currentTime = current.wakeup ∧ s'.currentUUID = s.currentUUID ∧
      (∀ c ∈ s.timerQueue, current.key ≤ c.key) ∧
      ∃ front back, s.timerQueue = front ++ current :: back ∧ s'.timerQueue = front ++ back := by
  have least := System.popTimer_key_le pop
  obtain ⟨rest, hmax, rfl⟩ := System.popTimer_eq_some_iff.mp pop
  obtain ⟨front, back, queue, rest_eq⟩ := popMax_split hmax
  have sub := popMax_sublist hmax
  refine ⟨?_, rfl, rfl, least, front, back, queue, rest_eq⟩
  constructor
  · intro c member
    have order := TimerContainer.key_le_iff.mp (least c (sub.subset member))
    change current.wakeup ≤ c.wakeup
    omega
  · exact sound.sorted.sublist sub
  · exact fun c member => sound.issued c (sub.subset member)
  · exact sound.active
  · exact sound.uncanceled

theorem Sound.release (sound : Sound s) (container : TimerContainer M) :
    Sound (s.release container) where
  future := sound.future
  sorted := sound.sorted
  issued := sound.issued
  active uuid member := sound.active uuid (Finset.mem_of_mem_erase member)
  uncanceled := sound.uncanceled

/-- What a step can do, whether or not something wraps: an act, a canceled message, or a message
that is received at its due time. -/
theorem step_cases (h : R.machine.step x input = some (y, new)) :
    (∃ a sends, input = .act a ∧
      R.act x.memory x.sys.currentTime a = some (y.memory, sends) ∧
      sendAll x.sys sends = some y.sys ∧ new = [.acted a x.sys.currentTime sends]) ∨
    (∃ c sys, input = .dispatch ∧ x.sys.popTimer = some (c, sys) ∧ c.address ∈ sys.canceled ∧
      y = ⟨sys.release c, x.memory⟩ ∧ new = []) ∨
    ∃ c sys later sends, input = .dispatch ∧ x.sys.popTimer = some (c, sys) ∧
      R.receive x.memory c.wakeup c = some (y.memory, sends) ∧
      sendAll sys sends = some later ∧ y.sys = later.release c ∧ new = [.received c sends] := by
  cases input with
  | act a =>
    change R.step x (.act a) = some (y, new) at h
    rw [step] at h
    split at h
    · simp at h
    next memory sends handled =>
      obtain ⟨sys, all, same⟩ := Option.map_eq_some_iff.mp h
      obtain ⟨rfl, rfl⟩ := Prod.mk.inj same
      exact .inl ⟨a, sends, rfl, handled, all, rfl⟩
  | dispatch =>
    change R.step x .dispatch = some (y, new) at h
    rw [step] at h
    split at h
    · simp at h
    next current sys pop =>
      split at h
      next canceled =>
        obtain ⟨rfl, rfl⟩ := Prod.mk.inj (Option.some.inj h)
        exact .inr (.inl ⟨current, sys, rfl, pop, canceled, rfl, rfl⟩)
      · split at h
        · simp at h
        next memory sends handled =>
          obtain ⟨later, all, same⟩ := Option.map_eq_some_iff.mp h
          obtain ⟨rfl, rfl⟩ := Prod.mk.inj same
          rw [System.popTimer_currentTime pop] at handled
          exact .inr (.inr ⟨current, sys, later, sends, rfl, pop, handled, all, rfl, rfl⟩)

/-- A step that does not wrap keeps the scheduler sound and has one of the two
effects. -/
theorem effect_of_step (sound : Sound x.sys) (fits : R.NoWrap x input)
    (h : R.machine.step x input = some (y, new)) : Effect R x input new y ∧ Sound y.sys := by
  rcases step_cases h with ⟨a, sends, rfl, handled, all, rfl⟩ |
    ⟨c, sys, rfl, pop, canceled, -⟩ |
    ⟨current, sys, later, sends, rfl, pop, handled, all, sys_eq, rfl⟩
  · obtain ⟨t, all', sound_t, time, -, queue⟩ := sendAll_eq sound (fits _ handled)
    rw [all] at all'
    obtain rfl := Option.some.inj all'
    exact ⟨.act a _ sends _ _ handled rfl time queue, sound_t⟩
  · -- nothing is ever canceled
    obtain ⟨sound_sys, -⟩ := sound.pop pop
    rw [sound_sys.uncanceled] at canceled
    exact absurd canceled (Finset.notMem_empty _)
  · obtain ⟨sound_sys, time_sys, uuid_sys, least, front, back, split_eq, rest_eq⟩ := sound.pop pop
    have handled' := handled
    rw [← time_sys] at handled'
    obtain ⟨t, all', sound_t, time, -, queue⟩ := sendAll_eq sound_sys (fits _ pop _ handled')
    rw [all] at all'
    obtain rfl := Option.some.inj all'
    rw [time_sys, rest_eq, uuid_sys] at queue
    rw [sys_eq]
    refine ⟨.dispatch current front back _ sends sys.nextAddress _ split_eq least handled rfl ?_ ?_,
      sound_t.release current⟩
    · rw [sys_eq]
      exact time.trans time_sys
    · rw [sys_eq]
      exact queue

/-- What a dispatch hands over was taken out of the queue. -/
theorem popTimer_of_dispatch {current : TimerContainer M}
    (h : R.machine.step x .dispatch = some (y, [.received current sends])) :
    ∃ sys, x.sys.popTimer = some (current, sys) := by
  rcases step_cases h with ⟨a, _, act, -⟩ | ⟨c, sys, -, -, -, -, none⟩ |
    ⟨c, sys, later, made, -, pop, -, -, -, record⟩
  · simp at act
  · simp at none
  · obtain ⟨rfl, -⟩ : current = c ∧ sends = made := by simpa using record
    exact ⟨sys, pop⟩

/-- A step is refused only by its handler, or for lack of a message. -/
theorem step_isSome (sound : Sound x.sys) (fits : R.NoWrap x input)
    (handled : match input with
      | .act a => (R.act x.memory x.sys.currentTime a).isSome
      | .dispatch => ∃ current sys, x.sys.popTimer = some (current, sys) ∧
          (R.receive x.memory current.wakeup current).isSome) :
    (R.machine.step x input).isSome := by
  cases input with
  | act a =>
    obtain ⟨⟨memory, sends⟩, value⟩ := Option.isSome_iff_exists.mp handled
    obtain ⟨t, all, -⟩ := sendAll_eq sound (fits _ value)
    change (R.step x (.act a)).isSome
    simp [step, value, all]
  | dispatch =>
    obtain ⟨current, sys, pop, defined⟩ := handled
    obtain ⟨⟨memory, sends⟩, value⟩ := Option.isSome_iff_exists.mp defined
    obtain ⟨sound_sys, time_sys, -⟩ := sound.pop pop
    rw [← time_sys] at value
    obtain ⟨t, all, -⟩ := sendAll_eq sound_sys (fits _ pop _ value)
    have live : current.address ∉ sys.canceled := by simp [sound_sys.uncanceled]
    change (R.step x .dispatch).isSome
    simp [step, pop, live, value, all]

/-- A dispatch succeeds when the first message can be handled. -/
theorem dispatch_isSome (sound : Sound x.sys) (fits : R.NoWrap x .dispatch)
    (busy : x.sys.timerQueue ≠ [])
    (handled : ∀ popped ∈ x.sys.popTimer, popped.1 ∈ x.sys.timerQueue →
      (R.receive x.memory popped.1.wakeup popped.1).isSome) :
    (R.machine.step x .dispatch).isSome := by
  refine step_isSome sound fits ?_
  cases pop : x.sys.popTimer with
  | none =>
    rw [System.popTimer] at pop
    split at pop
    next none => exact absurd (popMax_eq_none_iff.mp none) busy
    · simp at pop
  | some popped =>
    obtain ⟨current, sys⟩ := popped
    exact ⟨current, sys, rfl, handled _ pop (System.mem_of_popTimer pop)⟩

/-! ## The clock -/

theorem Future.sendAll (future : Future s)
    (fits : ∀ send ∈ sends, s.currentTime + send.timeAfter < 2 ^ 64)
    (h : sendAll s sends = some s') : Future s' ∧ s'.currentTime = s.currentTime := by
  induction sends generalizing s with
  | nil =>
    obtain rfl : s = s' := by simpa [Reactive.sendAll] using h
    exact ⟨future, rfl⟩
  | cons send rest ih =>
    rw [Reactive.sendAll] at h
    split at h
    · simp at h
    next container middle sent =>
      obtain ⟨-, built, rfl⟩ := System.sendMessage_eq_some_iff.mp sent
      have due : container.wakeup = s.currentTime + send.timeAfter := by
        rw [built]
        exact Nat.mod_eq_of_lt (fits send List.mem_cons_self)
      refine @ih (s.push container) (fun c member => ?_) (fun other member => fits other ?_) h
      · rw [System.push_timerQueue, List.mem_append, List.mem_singleton] at member
        rcases member with member | rfl
        · exact future c member
        · rw [System.push_currentTime, due]
          exact Nat.le_add_right _ _
      · exact List.mem_cons_of_mem _ member

theorem Future.pop {current : TimerContainer M} (future : Future s)
    (pop : s.popTimer = some (current, s')) : Future s' ∧ s.currentTime ≤ s'.currentTime := by
  have least := System.popTimer_key_le pop
  have now_le := future current (System.mem_of_popTimer pop)
  obtain ⟨rest, hmax, rfl⟩ := System.popTimer_eq_some_iff.mp pop
  refine ⟨fun c member => ?_, now_le⟩
  have order := TimerContainer.key_le_iff.mp (least c ((popMax_sublist hmax).subset member))
  change current.wakeup ≤ c.wakeup
  omega

/-- As long as no due time wraps, the clock does not run backwards, and what happens in a step
happens at the time it leads to. UUIDs play no part in this. -/
theorem Future.step (future : Future x.sys) (fits : LogFits new)
    (h : R.machine.step x input = some (y, new)) :
    Future y.sys ∧ x.sys.currentTime ≤ y.sys.currentTime ∧
      ∀ record ∈ new, record.time = y.sys.currentTime := by
  rcases step_cases h with ⟨a, sends, -, -, all, rfl⟩ | ⟨c, sys, -, pop, -, rfl, rfl⟩ |
    ⟨c, sys, later, sends, -, pop, -, all, sys_eq, rfl⟩
  · obtain ⟨future', clock⟩ := future.sendAll (fits _ (List.mem_singleton_self _)) all
    refine ⟨future', clock.ge, fun record member => ?_⟩
    rw [List.mem_singleton.mp member]
    exact clock.symm
  · obtain ⟨popped, forward⟩ := future.pop pop
    exact ⟨popped, forward, by simp⟩
  · obtain ⟨popped, forward⟩ := future.pop pop
    have due : sys.currentTime = c.wakeup := System.popTimer_currentTime pop
    have within := fits _ (List.mem_singleton_self _)
    change ∀ send ∈ sends, c.wakeup + send.timeAfter < 2 ^ 64 at within
    rw [← due] at within
    obtain ⟨future', clock⟩ := popped.sendAll within all
    rw [sys_eq]
    refine ⟨future', forward.trans clock.ge, fun record member => ?_⟩
    rw [List.mem_singleton.mp member]
    exact due.symm.trans clock.symm

theorem LogFits.left {log late : List (Record M α)} (h : LogFits (log ++ late)) : LogFits log :=
  fun record member => h record (List.mem_append_left _ member)

theorem LogFits.right {log late : List (Record M α)} (h : LogFits (log ++ late)) : LogFits late :=
  fun record member => h record (List.mem_append_right _ member)

end Reactive

end Kens
