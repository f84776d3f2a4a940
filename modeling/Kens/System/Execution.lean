/-
# Running the scheduler

`run` alternates between waking ready runnables and dispatching the first
message of the queue. While it waits for a handler or a runnable, that code may
call back into the scheduler; so may code outside `run` between two runs. The
machine below makes every such call one action, so that a run of the machine is
an arbitrary interleaving: user code sends, cancels and returns as it likes,
and the actions of the scheduler itself are those of the loop in `run`.

The log of a run records each message sent, each cancellation asked for, each
message taken out of the queue and each callback made, with the virtual time.
-/

import Kens.Semantics.Machine
import Kens.System.Basic

namespace Kens

open Semantics

variable {M : Type}

namespace System

/-- Where control is. The last four name the callback that `run` waits for and
the container being dispatched. -/
inductive Control (M : Type)
  | outside
  | loop
  | awake (runnable : ℕ)
  | received (current : TimerContainer M)
  | finished (current : TimerContainer M) (ret : Option M)
  | responded (current : TimerContainer M)
  | canceled (current : TimerContainer M)

namespace Control

/-- The container being dispatched. -/
def current : Control M → Option (TimerContainer M)
  | outside | loop | awake _ => none
  | received c | finished c _ | responded c | canceled c => some c

/-- User code has control everywhere but in the loop of `run` itself. -/
def isUser : Control M → Bool
  | loop => false
  | _ => true

end Control

/-- The scheduler, its runnables, the place of control and the argument of the
`run` in progress. -/
structure Config (M : Type) where
  sys : System M := {}
  runnables : ℕ → Runnable.State := fun _ => .created
  control : Control M := .outside
  till : ℕ := 0

/-- What can happen next. The first six are calls by user code, the next one
starts `run`, the next three are the moves of its loop, and the last two give
control back to it. -/
inductive Action (M : Type)
  | sendMessage (source target : ℕ) (message : M) (timeAfter : ℕ)
  | cancelMessage (uuid : ℕ)
  | start (runnable : ℕ)
  | ready (runnable : ℕ)
  | addRunnable (runnable : ℕ)
  | delRunnable (runnable : ℕ)
  | run (till : ℕ)
  | wake (runnable : ℕ)
  | dispatch
  | leave
  | yields (terminates : Bool)
  | returns (ret : Option M)

/-- What a run records. The callbacks name the module they are called on. -/
inductive Event (M : Type)
  | sent (container : TimerContainer M) (now timeAfter : ℕ)
  | cancelCalled (uuid : ℕ) (answer : Bool)
  | popped (container : TimerContainer M) (now : ℕ)
  | messageReceived (callee : ℕ) (container : TimerContainer M) (now : ℕ)
  | messageFinished (callee : ℕ) (container : TimerContainer M) (response : Option M) (now : ℕ)
  | responseFinished (callee : ℕ) (container : TimerContainer M) (response : M) (now : ℕ)
  | messageCancelled (callee : ℕ) (container : TimerContainer M) (now : ℕ)

namespace Config

/-- The two exits of the loop: the queue is empty, or its first container wakes
up after `till`. -/
def stops (c : Config M) : Bool :=
  match c.sys.topTimer with
  | none => true
  | some first => c.till ≠ 0 && first.wakeup > c.till

/-- Change one runnable's state, unless the transition's assertion fails. -/
def setRunnable (c : Config M) (runnable : ℕ)
    (transition : Runnable.State → Option Runnable.State) : Option (Config M) :=
  (transition (c.runnables runnable)).map fun state =>
    { c with runnables := Function.update c.runnables runnable state }

/-- The runnable gave control back in state `next`. -/
def afterWake (c : Config M) (runnable : ℕ) (next : Runnable.State) : Config M :=
  { c with
    runnables := Function.update c.runnables runnable next
    control := .loop
    sys :=
      if next ≠ .ready then
        { c.sys with runnableReady := c.sys.runnableReady.erase runnable }
      else c.sys }

/-- The dispatch of `current` is over. -/
def endDispatch (c : Config M) (current : TimerContainer M) : Config M :=
  { c with sys := c.sys.release current, control := .loop }

/-- One action of the machine. -/
def step (c : Config M) : Action M → Option (Config M × List (Event M))
  | .sendMessage source target message timeAfter =>
    if c.control.isUser ∧ timeAfter < 2 ^ 64 then
      match c.sys.sendMessage source target message timeAfter with
      | none => none
      | some (container, sys) =>
        some ({ c with sys := sys }, [.sent container c.sys.currentTime timeAfter])
    else none
  | .cancelMessage uuid =>
    if c.control.isUser then
      let (answer, sys) := c.sys.cancelMessage uuid
      some ({ c with sys := sys }, [.cancelCalled uuid answer])
    else none
  | .start runnable =>
    if c.control.isUser then
      (c.setRunnable runnable Runnable.start).map fun c => (c, [])
    else none
  | .ready runnable =>
    if c.control.isUser then
      (c.setRunnable runnable Runnable.ready).map fun c => (c, [])
    else none
  | .addRunnable runnable =>
    if c.control.isUser ∧ c.runnables runnable = .ready then
      some ({ c with
        sys := { c.sys with runnableReady := insert runnable c.sys.runnableReady } }, [])
    else none
  | .delRunnable runnable =>
    if c.control.isUser then
      some ({ c with
        sys := { c.sys with runnableReady := c.sys.runnableReady.erase runnable } }, [])
    else none
  | .run till =>
    match c.control with
    | .outside => if till < 2 ^ 64 then some ({ c with control := .loop, till := till }, []) else none
    | _ => none
  -- The hash order of the ready set is arbitrary: any member may be visited next.
  | .wake runnable =>
    match c.control with
    | .loop =>
      if runnable ∈ c.sys.runnableReady then
        (c.setRunnable runnable Runnable.wake).map fun c =>
          ({ c with control := .awake runnable }, [])
      else none
    | _ => none
  | .dispatch =>
    match c.control with
    | .loop =>
      if c.sys.runnableReady = ∅ ∧ c.stops = false then
        match c.sys.popTimer with
        | none => none
        | some (current, sys) =>
          if current.address ∉ sys.canceled then
            some ({ c with sys := sys, control := .received current },
              [.popped current sys.currentTime,
                .messageReceived current.target current sys.currentTime])
          else
            some ({ c with sys := sys, control := .canceled current },
              [.popped current sys.currentTime,
                .messageCancelled current.source current sys.currentTime])
      else none
    | _ => none
  | .leave =>
    match c.control with
    | .loop =>
      if c.sys.runnableReady = ∅ ∧ c.stops then
        some ({ c with control := .outside, till := 0 }, [])
      else none
    | _ => none
  | .yields terminates =>
    match c.control with
    | .awake runnable =>
      (if terminates then Runnable.finish (c.runnables runnable)
        else Runnable.wait (c.runnables runnable)).map fun next => (c.afterWake runnable next, [])
    | _ => none
  | .returns ret =>
    match c.control with
    | .received current =>
      some ({ c with control := .finished current ret },
        [.messageFinished current.source current ret c.sys.currentTime])
    | .finished current none => some (c.endDispatch current, [])
    | .finished current (some response) =>
      some ({ c with control := .responded current },
        [.responseFinished current.target current response c.sys.currentTime])
    | .responded current => some (c.endDispatch current, [])
    | .canceled current => some (c.endDispatch current, [])
    | _ => none

end Config

/-- The scheduler as a machine. -/
def machine (M : Type) : Machine (Config M) (Action M) (Event M) where
  step := Config.step

/-! ## What one step can do

Every invariant of the scheduler is derived from the following list of moves. -/

/-- The effect of a step on the queue, the tables, the clock and the log. A
quiet move changes at most the runnables, and control between two dispatches. -/
inductive Move (c : Config M) : Action M → List (Event M) → Config M → Prop
  | quiet (a : Action M) (c' : Config M) (ready : Finset ℕ)
      (sys : c'.sys = { c.sys with runnableReady := ready })
      (control : c'.control = c.control ∨ c.control.current = none ∧ c'.control.current = none)
      (inside : a ≠ .leave → c.control ≠ .outside → c'.control ≠ .outside) :
      Move c a [] c'
  | send (source target : ℕ) (message : M) (timeAfter : ℕ) (bound : timeAfter < 2 ^ 64)
      (container : TimerContainer M)
      (fresh : (c.sys.currentUUID + 1) % 2 ^ 64 ∉ c.sys.activeUUID)
      (built : container = c.sys.newContainer source target message timeAfter
        ((c.sys.currentUUID + 1) % 2 ^ 64)) :
      Move c (.sendMessage source target message timeAfter)
        [.sent container c.sys.currentTime timeAfter]
        { c with sys := c.sys.push container }
  | cancel (a : Action M) (uuid : ℕ) :
      Move c a [.cancelCalled uuid (c.sys.cancelMessage uuid).1]
        { c with sys := (c.sys.cancelMessage uuid).2 }
  | deliver (a : Action M) (current : TimerContainer M) (sys : System M) (idle : c.control = .loop)
      (pop : c.sys.popTimer = some (current, sys)) (live : current.address ∉ c.sys.canceled)
      (drained : c.sys.runnableReady = ∅) (goesOn : c.stops = false) :
      Move c a [.popped current sys.currentTime,
          .messageReceived current.target current sys.currentTime]
        { c with sys := sys, control := .received current }
  | drop (a : Action M) (current : TimerContainer M) (sys : System M) (idle : c.control = .loop)
      (pop : c.sys.popTimer = some (current, sys)) (dead : current.address ∈ c.sys.canceled)
      (drained : c.sys.runnableReady = ∅) (goesOn : c.stops = false) :
      Move c a [.popped current sys.currentTime,
          .messageCancelled current.source current sys.currentTime]
        { c with sys := sys, control := .canceled current }
  | finish (a : Action M) (current : TimerContainer M) (ret : Option M)
      (at_ : c.control = .received current) :
      Move c a [.messageFinished current.source current ret c.sys.currentTime]
        { c with control := .finished current ret }
  | respond (a : Action M) (current : TimerContainer M) (response : M)
      (at_ : c.control = .finished current (some response)) :
      Move c a [.responseFinished current.target current response c.sys.currentTime]
        { c with control := .responded current }
  | release (a : Action M) (current : TimerContainer M)
      (at_ : c.control = .finished current none ∨ c.control = .responded current ∨
        c.control = .canceled current) :
      Move c a [] (c.endDispatch current)

variable {c c' : Config M} {new : List (Event M)}

theorem popTimer_canceled {s s' : System M} {current : TimerContainer M}
    (h : s.popTimer = some (current, s')) : s'.canceled = s.canceled := by
  obtain ⟨rest, -, rfl⟩ := popTimer_eq_some_iff.mp h
  rfl

theorem setRunnable_eq_some {runnable : ℕ} {transition : Runnable.State → Option Runnable.State}
    (h : c.setRunnable runnable transition = some c') :
    c'.sys = c.sys ∧ c'.control = c.control ∧ c'.till = c.till := by
  obtain ⟨state, -, rfl⟩ := Option.map_eq_some_iff.mp h
  exact ⟨rfl, rfl, rfl⟩

/-- Every step of the machine is one of the listed moves. -/
theorem move_of_step {a : Action M} (h : (machine M).step c a = some (c', new)) :
    Move c a new c' := by
  -- the guards of a step are opened in the order `Config.step` tests them
  change c.step a = some (c', new) at h
  cases a with
  | sendMessage source target message timeAfter =>
    simp only [Config.step] at h
    split at h
    next user =>
      split at h
      · simp at h
      next container sys hsend =>
        obtain ⟨rfl, rfl⟩ : _ = c' ∧ _ = new := by simpa using h
        obtain ⟨fresh, built, rfl⟩ := sendMessage_eq_some_iff.mp hsend
        exact .send source target message timeAfter user.2 container fresh built
    · simp at h
  | cancelMessage uuid =>
    simp only [Config.step] at h
    split at h
    · obtain ⟨rfl, rfl⟩ : _ = c' ∧ _ = new := by simpa using h
      exact .cancel _ uuid
    · simp at h
  | start runnable =>
    simp only [Config.step] at h
    split at h
    · obtain ⟨d, hset, heq⟩ := Option.map_eq_some_iff.mp h
      obtain ⟨rfl, rfl⟩ : d = c' ∧ [] = new := by simpa using heq
      obtain ⟨hsys, hcontrol, -⟩ := setRunnable_eq_some hset
      exact .quiet _ _ c.sys.runnableReady hsys (.inl hcontrol) fun _ h => hcontrol ▸ h
    · simp at h
  | ready runnable =>
    simp only [Config.step] at h
    split at h
    · obtain ⟨d, hset, heq⟩ := Option.map_eq_some_iff.mp h
      obtain ⟨rfl, rfl⟩ : d = c' ∧ [] = new := by simpa using heq
      obtain ⟨hsys, hcontrol, -⟩ := setRunnable_eq_some hset
      exact .quiet _ _ c.sys.runnableReady hsys (.inl hcontrol) fun _ h => hcontrol ▸ h
    · simp at h
  | addRunnable runnable =>
    simp only [Config.step] at h
    split at h
    · obtain ⟨rfl, rfl⟩ : _ = c' ∧ [] = new := by simpa using h
      exact .quiet _ _ _ rfl (.inl rfl) fun _ h => h
    · simp at h
  | delRunnable runnable =>
    simp only [Config.step] at h
    split at h
    · obtain ⟨rfl, rfl⟩ : _ = c' ∧ [] = new := by simpa using h
      exact .quiet _ _ _ rfl (.inl rfl) fun _ h => h
    · simp at h
  | run till =>
    simp only [Config.step] at h
    split at h
    next hcontrol =>
      split at h
      · obtain ⟨rfl, rfl⟩ : _ = c' ∧ [] = new := by simpa using h
        exact .quiet _ _ c.sys.runnableReady rfl (.inr ⟨by rw [hcontrol]; rfl, rfl⟩)
          fun _ _ => nofun
      · simp at h
    · simp at h
  | wake runnable =>
    simp only [Config.step] at h
    split at h
    next hcontrol =>
      split at h
      · obtain ⟨d, hset, heq⟩ := Option.map_eq_some_iff.mp h
        obtain ⟨rfl, rfl⟩ : _ = c' ∧ [] = new := by simpa using heq
        -- a wake moves only the runnable and the control, so no message is current before or after
        obtain ⟨hsys, -, -⟩ := setRunnable_eq_some hset
        exact .quiet _ _ c.sys.runnableReady hsys (.inr ⟨by rw [hcontrol]; rfl, rfl⟩)
          fun _ _ => nofun
      · simp at h
    · simp at h
  | dispatch =>
    simp only [Config.step] at h
    split at h
    next hcontrol =>
      split at h
      next going =>
        split at h
        · simp at h
        next current sys hpop =>
          -- whether the popped message is called or cancelled was decided before the pop
          rw [popTimer_canceled hpop] at h
          split at h
          next live =>
            obtain ⟨rfl, rfl⟩ : _ = c' ∧ _ = new := by simpa using h
            exact .deliver _ current sys hcontrol hpop live going.1 going.2
          next dead =>
            obtain ⟨rfl, rfl⟩ : _ = c' ∧ _ = new := by simpa using h
            exact .drop _ current sys hcontrol hpop (not_not.mp dead) going.1 going.2
      · simp at h
    · simp at h
  | leave =>
    simp only [Config.step] at h
    split at h
    next hcontrol =>
      split at h
      · obtain ⟨rfl, rfl⟩ : _ = c' ∧ [] = new := by simpa using h
        exact .quiet _ _ c.sys.runnableReady rfl (.inr ⟨by rw [hcontrol]; rfl, rfl⟩)
          fun leaves => absurd rfl leaves
      · simp at h
    · simp at h
  | yields terminates =>
    simp only [Config.step] at h
    split at h
    next runnable hcontrol =>
      obtain ⟨next, -, heq⟩ := Option.map_eq_some_iff.mp h
      obtain ⟨rfl, rfl⟩ : _ = c' ∧ [] = new := by simpa using heq
      have idle : c.control.current = none ∧ (c.afterWake runnable next).control.current = none :=
        ⟨by rw [hcontrol]; rfl, rfl⟩
      -- a runnable that is still ready keeps its place in the set of ready ones
      by_cases same : next = .ready
      · exact .quiet _ _ c.sys.runnableReady (by simp [Config.afterWake, same]) (.inr idle)
          fun _ _ => nofun
      · exact .quiet _ _ (c.sys.runnableReady.erase runnable) (by simp [Config.afterWake, same])
          (.inr idle) fun _ _ => nofun
    · simp at h
  | returns ret =>
    simp only [Config.step] at h
    split at h
    next current hcontrol =>
      obtain ⟨rfl, rfl⟩ : _ = c' ∧ _ = new := by simpa using h
      -- `messageReceived` has returned: its value is what the source is told
      exact .finish _ current ret hcontrol
    next current hcontrol =>
      obtain ⟨rfl, rfl⟩ : _ = c' ∧ [] = new := by simpa using h
      exact .release _ current (.inl hcontrol)
    next current response hcontrol =>
      obtain ⟨rfl, rfl⟩ : _ = c' ∧ _ = new := by simpa using h
      exact .respond _ current response hcontrol
    next current hcontrol =>
      obtain ⟨rfl, rfl⟩ : _ = c' ∧ [] = new := by simpa using h
      exact .release _ current (.inr (.inl hcontrol))
    next current hcontrol =>
      obtain ⟨rfl, rfl⟩ : _ = c' ∧ [] = new := by simpa using h
      exact .release _ current (.inr (.inr hcontrol))
    · simp at h

end System

end Kens
