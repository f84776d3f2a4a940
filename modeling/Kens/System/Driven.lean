/-
# Modules under the scheduler

`Kens.Reactive` takes a dispatch for one step. In the scheduler it is many: the message is taken out
of the queue, its handler sends one message after the other and returns, the source is told, and
only then the message is released. Here the handlers of some modules drive the scheduler of
`Kens.System.Execution` call by call. What they do is what the one-step model says they do.
-/

import Mathlib
import Kens.System.Prompt

namespace Kens.Reactive

open Semantics Kens.System

variable {M σ α : Type}

/-- The scheduler, the memory of the modules, and the sends that the code in control has yet to
make. -/
structure Driven (M σ : Type) where
  config : Config M := {}
  memory : σ
  pending : List (Send M) := []

/-- What can happen next. Other code acts between two calls of `run`; a handler sends and returns;
the rest are moves of `run`. -/
inductive Drive (α : Type)
  | act (a : α)
  | send
  | returns
  | run (till : ℕ)
  | dispatch
  | leave

namespace Driven

/-- An action of the scheduler, by code that has nothing left to send. -/
def plain (d : Driven M σ) (a : Action M) : Option (Driven M σ × List (Event M)) :=
  match d.pending with
  | [] => (d.config.step a).map fun next => (⟨next.1, d.memory, []⟩, next.2)
  | _ :: _ => none

/-- One step. `dispatch` calls the handler of the message, unless it was canceled. -/
def step (R : Reactive M σ α) (d : Driven M σ) :
    Drive α → Option (Driven M σ × List (Event M))
  | .act a =>
    match d.config.control, d.pending with
    | .outside, [] => (R.act d.memory d.config.sys.currentTime a).map fun result =>
        (⟨d.config, result.1, result.2⟩, [])
    | _, _ => none
  | .send =>
    match d.pending with
    | [] => none
    | send :: rest =>
      (d.config.step (.sendMessage send.source send.target send.message send.timeAfter)).map
        fun next => (⟨next.1, d.memory, rest⟩, next.2)
  | .returns => d.plain (.returns none)
  | .run till => d.plain (.run till)
  | .leave => d.plain .leave
  | .dispatch =>
    match d.plain .dispatch with
    | none => none
    | some (next, new) =>
      match next.config.control with
      | .received current =>
        (R.receive d.memory next.config.sys.currentTime current).map fun result =>
          (⟨next.config, result.1, result.2⟩, new)
      | _ => some (next, new)

def machine (R : Reactive M σ α) : Machine (Driven M σ) (Drive α) (Event M) where
  step := step R

/-- The state of the one-step model at the beginning of a step. -/
def state (d : Driven M σ) : State M σ := ⟨d.config.sys, d.memory⟩

/-- A condition on the steps of the one-step model, for those that begin one of them. -/
def Guard (ok : State M σ → Input α → Prop) (d : Driven M σ) : Drive α → Prop
  | .act a => ok d.state (.act a)
  | .dispatch => ok d.state .dispatch
  | _ => True

instance (ok : State M σ → Input α → Prop) [∀ x, DecidablePred (ok x)] (d : Driven M σ) :
    DecidablePred (Guard ok d)
  | .act a => inferInstanceAs (Decidable (ok d.state (.act a)))
  | .dispatch => inferInstanceAs (Decidable (ok d.state .dispatch))
  | .send | .returns | .run _ | .leave => isTrue trivial

end Driven

/-- The containers that handlers receive, according to the log of the scheduler. -/
def receivedEvent : Event M → Option (TimerContainer M)
  | .messageReceived _ container _ => some container
  | _ => none

/-- The sends in the log of the scheduler. -/
def sentEvent : Event M → Option (Send M)
  | .sent container _ timeAfter =>
    some ⟨container.source, container.target, container.message, timeAfter⟩
  | _ => none

/-- The containers that handlers receive, according to the log of the one-step model. -/
def Record.container : Record M α → Option (TimerContainer M)
  | .received container _ => some container
  | .acted _ _ _ => none

/-- The state in which the one-step model is already: all sends are made, and the message whose
handler is running is released. -/
structure Completes (d : Driven M σ) (x : State M σ) : Prop where
  memory : x.memory = d.memory
  sys : ∃ s, sendAll d.config.sys d.pending = some s ∧
    x.sys = d.config.control.current.elim s s.release
  drained : d.config.control = .loop → d.pending = []

variable {R : Reactive M σ α} {d d' : Driven M σ} {x : State M σ} {new : List (Event M)}

namespace Driven

theorem plain_eq_some {a : Action M} (h : d.plain a = some (d', new)) :
    d.pending = [] ∧ d'.pending = [] ∧ d'.memory = d.memory ∧
      d.config.step a = some (d'.config, new) := by
  unfold plain at h
  split at h
  next empty =>
    obtain ⟨⟨config, events⟩, step, same⟩ := Option.map_eq_some_iff.mp h
    obtain ⟨rfl, rfl⟩ := Prod.mk.inj same
    exact ⟨empty, rfl, rfl, step⟩
  · simp at h

end Driven

theorem sendAll_nil (s : System M) : sendAll s [] = some s := rfl

/-- The messages in flight are the same when nothing is left to be sent. -/
theorem Completes.timerQueue_eq (h : Completes d x) (empty : d.pending = []) :
    x.sys.timerQueue = d.config.sys.timerQueue := by
  obtain ⟨s, sent, same⟩ := h.sys
  rw [empty, sendAll_nil] at sent
  obtain rfl := Option.some.inj sent
  rw [same]
  cases d.config.control.current <;> rfl

/-! ## One step -/

/-- The sends and the release that a step of the scheduler leaves to be done stay the same. -/
theorem Completes.stutter (h : Completes d x) (memory : d'.memory = d.memory)
    (sys : ∀ s, sendAll d.config.sys d.pending = some s →
      ∃ s', sendAll d'.config.sys d'.pending = some s' ∧
        d'.config.control.current.elim s' s'.release = d.config.control.current.elim s s.release)
    (drained : d'.config.control = .loop → d'.pending = []) : Completes d' x := by
  obtain ⟨s, sent, same⟩ := h.sys
  obtain ⟨s', sent', same'⟩ := sys s sent
  exact ⟨h.memory.trans memory.symm, ⟨s', sent', same.trans same'.symm⟩, drained⟩

/-- A handler makes its next send. -/
theorem Completes.send (h : Completes d x) (step : d.step R .send = some (d', new)) :
    Completes d' x ∧ new.filterMap receivedEvent = [] ∧
      d.pending = new.filterMap sentEvent ++ d'.pending := by
  rw [Driven.step] at step
  split at step
  · simp at step
  next send rest pending =>
    obtain ⟨⟨config, events⟩, sends, same⟩ := Option.map_eq_some_iff.mp step
    obtain ⟨rfl, rfl⟩ := Prod.mk.inj same
    simp only [Config.step] at sends
    split at sends
    next user =>
      split at sends
      · simp at sends
      next container sys sent =>
        obtain ⟨rfl, rfl⟩ := Prod.mk.inj (Option.some.inj sends)
        obtain ⟨-, built, -⟩ := System.sendMessage_eq_some_iff.mp sent
        refine ⟨h.stutter rfl (fun s all => ?_) fun loop => ?_, rfl, ?_⟩
        · rw [pending, sendAll, sent] at all
          exact ⟨s, all, rfl⟩
        · rw [loop] at user
          simp [Control.isUser] at user
        · rw [pending, built]
          rfl
    · simp at sends

/-- Nothing is left to be sent, before and after. -/
theorem Completes.idle (h : Completes d x) (memory : d'.memory = d.memory)
    (empty : d.pending = []) (empty' : d'.pending = [])
    (sys : d'.config.control.current.elim d'.config.sys d'.config.sys.release =
      d.config.control.current.elim d.config.sys d.config.sys.release) : Completes d' x := by
  refine h.stutter memory (fun s all => ?_) fun _ => empty'
  rw [empty, sendAll_nil] at all
  obtain rfl := Option.some.inj all
  exact ⟨_, by rw [empty']; rfl, sys⟩

/-- A handler returns, or the call that tells the source returns. -/
theorem Completes.returns (h : Completes d x) (step : d.step R .returns = some (d', new)) :
    Completes d' x ∧ new.filterMap receivedEvent = [] ∧
      d.pending = new.filterMap sentEvent ++ d'.pending := by
  obtain ⟨empty, empty', memory, step⟩ := Driven.plain_eq_some step
  have kept := @Completes.idle _ _ _ d' _ h memory empty empty'
  rw [empty, empty']
  simp only [Config.step] at step
  split at step
  next current control =>
    obtain ⟨same, rfl⟩ := Prod.mk.inj (Option.some.inj step)
    exact ⟨kept (by rw [← same, control]; rfl), rfl, rfl⟩
  next current control =>
    obtain ⟨same, rfl⟩ := Prod.mk.inj (Option.some.inj step)
    exact ⟨kept (by rw [← same, control]; rfl), rfl, rfl⟩
  next current response control =>
    obtain ⟨same, rfl⟩ := Prod.mk.inj (Option.some.inj step)
    exact ⟨kept (by rw [← same, control]; rfl), rfl, rfl⟩
  next current control =>
    obtain ⟨same, rfl⟩ := Prod.mk.inj (Option.some.inj step)
    exact ⟨kept (by rw [← same, control]; rfl), rfl, rfl⟩
  next current control =>
    obtain ⟨same, rfl⟩ := Prod.mk.inj (Option.some.inj step)
    exact ⟨kept (by rw [← same, control]; rfl), rfl, rfl⟩
  · simp at step

/-- `run` begins or ends. -/
theorem Completes.run_or_leave {input : Drive α} (h : Completes d x)
    (kind : input = .leave ∨ ∃ till, input = .run till)
    (step : d.step R input = some (d', new)) :
    Completes d' x ∧ new.filterMap receivedEvent = [] ∧
      d.pending = new.filterMap sentEvent ++ d'.pending := by
  rcases kind with rfl | ⟨till, rfl⟩
  · obtain ⟨empty, empty', memory, step⟩ := Driven.plain_eq_some step
    rw [empty, empty']
    simp only [Config.step] at step
    split at step
    next control =>
      split at step
      · obtain ⟨same, rfl⟩ := Prod.mk.inj (Option.some.inj step)
        refine ⟨h.idle memory empty empty' ?_, rfl, rfl⟩
        rw [← same, control]
        rfl
      · simp at step
    · simp at step
  · obtain ⟨empty, empty', memory, step⟩ := Driven.plain_eq_some step
    rw [empty, empty']
    simp only [Config.step] at step
    split at step
    next control =>
      split at step
      · obtain ⟨same, rfl⟩ := Prod.mk.inj (Option.some.inj step)
        refine ⟨h.idle memory empty empty' ?_, rfl, rfl⟩
        rw [← same, control]
        rfl
      · simp at step
    · simp at step

/-- Where nothing is dispatched, both models have the same scheduler. -/
theorem Completes.state_eq (h : Completes d x) (empty : d.pending = [])
    (idle : d.config.control.current = none) : x = d.state := by
  obtain ⟨s, sent, same⟩ := h.sys
  rw [empty, sendAll_nil] at sent
  obtain rfl := Option.some.inj sent
  rw [idle] at same
  obtain ⟨sys, memory⟩ := x
  have memory_eq : memory = d.memory := h.memory
  have sys_eq : sys = d.config.sys := same
  rw [memory_eq, sys_eq]
  rfl

/-- Other code acts: the one-step model does so at once. -/
theorem Completes.act {a : α} (h : Completes d x) (sound : Sound x.sys)
    (fits : R.NoWrap d.state (.act a)) (step : d.step R (.act a) = some (d', new)) :
    ∃ y, x = d.state ∧ R.machine.step x (.act a) =
        some (y, [.acted a x.sys.currentTime d'.pending]) ∧
      Completes d' y ∧ new = [] ∧ d.pending = [] := by
  rw [Driven.step] at step
  split at step
  next control empty =>
    obtain ⟨⟨memory, sends⟩, handled, same⟩ := Option.map_eq_some_iff.mp step
    obtain ⟨rfl, rfl⟩ := Prod.mk.inj same
    obtain rfl := h.state_eq empty (by rw [control]; rfl)
    obtain ⟨s, all, -⟩ := sendAll_eq sound (fits _ handled)
    refine ⟨⟨s, memory⟩, rfl, ?_, ⟨rfl, ⟨s, all, ?_⟩, ?_⟩, rfl, empty⟩
    · change Reactive.step R d.state (.act a) = _
      rw [Reactive.step]
      have handled' : R.act d.state.memory d.state.sys.currentTime a = some (memory, sends) :=
        handled
      have all' : sendAll d.state.sys sends = some s := all
      rw [handled']
      dsimp only
      rw [all']
      rfl
    · change s = d.config.control.current.elim s s.release
      rw [control]
      rfl
    · intro loop
      change d.config.control = .loop at loop
      rw [control] at loop
      simp at loop
  · simp at step

/-- The first message of the queue is dispatched: the one-step model completes its handler. -/
theorem Completes.dispatch (h : Completes d x) (sound : Sound x.sys)
    (fits : R.NoWrap d.state .dispatch) (step : d.step R .dispatch = some (d', new)) :
    ∃ y current, x = d.state ∧
      R.machine.step x .dispatch = some (y, [.received current d'.pending]) ∧ Completes d' y ∧
      new.filterMap receivedEvent = [current] ∧ new.filterMap sentEvent = [] ∧
      d.pending = [] := by
  rw [Driven.step] at step
  split at step
  · simp at step
  next next events plain =>
    obtain ⟨empty, empty', memory, dispatched⟩ := Driven.plain_eq_some plain
    simp only [Config.step] at dispatched
    split at dispatched
    next control =>
      split at dispatched
      next going =>
        split at dispatched
        · simp at dispatched
        next current sys pop =>
          obtain rfl := h.state_eq empty (by rw [control]; rfl)
          have pop' : d.state.sys.popTimer = some (current, sys) := pop
          obtain ⟨sound_sys, time, -⟩ := sound.pop pop
          have live : current.address ∉ sys.canceled := by
            rw [sound_sys.uncanceled]
            exact Finset.notMem_empty _
          rw [if_pos live] at dispatched
          obtain ⟨same, rfl⟩ := Prod.mk.inj (Option.some.inj dispatched)
          rw [← same] at step
          obtain ⟨⟨memory', sends⟩, handled, done⟩ := Option.map_eq_some_iff.mp step
          obtain ⟨rfl, rfl⟩ := Prod.mk.inj done
          have handled' :
              R.receive d.state.memory sys.currentTime current = some (memory', sends) := handled
          obtain ⟨s, all, -⟩ := sendAll_eq sound_sys (fits _ pop' _ handled')
          refine ⟨⟨s.release current, memory'⟩, current, rfl, ?_, ⟨rfl, ⟨s, all, rfl⟩, ?_⟩, rfl,
            rfl, empty⟩
          · change Reactive.step R d.state .dispatch = _
            rw [Reactive.step, pop']
            dsimp only
            rw [if_neg live, handled']
            dsimp only
            rw [all]
            rfl
          · intro loop
            simp at loop
      · simp at dispatched
    · simp at dispatched

/-! ## Runs -/

/-- Every run of the scheduler with the handlers of some modules is a run of the one-step model:
the same messages reach the handlers, in the same order, and the same sends are made. The one-step
model is ahead by what the code in control has yet to do. -/
theorem driven_refines {ok : State M σ → Input α → Prop} {memory : σ} {drives : List (Drive α)}
    {log : List (Event M)} (noWrap : ∀ x input, ok x input → R.NoWrap x input)
    (run : (Driven.machine R).Run (Driven.Guard ok) { memory := memory } drives log d) :
    ∃ inputs records x, R.machine.Run ok ⟨{}, memory⟩ inputs records x ∧ Completes d x ∧
      records.filterMap Record.container = log.filterMap receivedEvent ∧
      records.flatMap Record.sends = log.filterMap sentEvent ++ d.pending := by
  suffices inv : ∃ inputs records x, R.machine.Run ok ⟨{}, memory⟩ inputs records x ∧
      Completes d x ∧ Sound x.sys ∧
      records.filterMap Record.container = log.filterMap receivedEvent ∧
      records.flatMap Record.sends = log.filterMap sentEvent ++ d.pending by
    obtain ⟨inputs, records, x, run', completes, -, received, sent⟩ := inv
    exact ⟨inputs, records, x, run', completes, received, sent⟩
  induction run with
  | nil =>
    exact ⟨[], [], _, .nil, ⟨rfl, ⟨_, rfl, rfl⟩, fun _ => rfl⟩, sound_start, rfl, rfl⟩
  | @snoc drives log new d d' drive before guard step ih =>
    obtain ⟨inputs, records, x, run', completes, sound, received, sent⟩ := ih
    change d.step R drive = some (d', new) at step
    -- steps of the scheduler that the one-step model has already taken
    have stutter (kept : Completes d' x ∧ new.filterMap receivedEvent = [] ∧
        d.pending = new.filterMap sentEvent ++ d'.pending) :
        ∃ inputs records x, R.machine.Run ok ⟨{}, memory⟩ inputs records x ∧
          Completes d' x ∧ Sound x.sys ∧
          records.filterMap Record.container = (log ++ new).filterMap receivedEvent ∧
          records.flatMap Record.sends = (log ++ new).filterMap sentEvent ++ d'.pending := by
      obtain ⟨completes', nothing, moved⟩ := kept
      refine ⟨inputs, records, x, run', completes', sound, ?_, ?_⟩
      · rw [List.filterMap_append, nothing, List.append_nil, received]
      · rw [List.filterMap_append, List.append_assoc, ← moved, sent]
    cases drive with
    | send => exact stutter (completes.send step)
    | returns => exact stutter (completes.returns step)
    | run till => exact stutter (completes.run_or_leave (.inr ⟨till, rfl⟩) step)
    | leave => exact stutter (completes.run_or_leave (.inl rfl) step)
    | act a =>
      obtain ⟨y, same, step', completes', rfl, empty⟩ :=
        completes.act sound (noWrap _ _ guard) step
      have allowed : ok x (.act a) := same ▸ guard
      obtain ⟨-, sound_y⟩ := effect_of_step sound (noWrap _ _ allowed) step'
      refine ⟨_, _, y, run'.snoc allowed step', completes', sound_y, ?_, ?_⟩
      · rw [List.filterMap_append, received, List.append_nil]
        exact List.append_nil _
      · rw [List.flatMap_append, sent, empty, List.append_nil, List.append_nil,
          List.flatMap_singleton]
        rfl
    | dispatch =>
      obtain ⟨y, current, same, step', completes', arrived, nothing, empty⟩ :=
        completes.dispatch sound (noWrap _ _ guard) step
      have allowed : ok x .dispatch := same ▸ guard
      obtain ⟨-, sound_y⟩ := effect_of_step sound (noWrap _ _ allowed) step'
      refine ⟨_, _, y, run'.snoc allowed step', completes', sound_y, ?_, ?_⟩
      · rw [List.filterMap_append, received, List.filterMap_append, arrived]
        rfl
      · rw [List.flatMap_append, sent, empty, List.append_nil, List.filterMap_append, nothing,
          List.append_nil, List.flatMap_singleton]
        rfl

/-! The logs of both models, seen through what the messages carry. -/

variable {P : Type} {carry : ℕ → M → Option P}

theorem filterMap_taken (records : List (Record M α)) :
    records.filterMap (Record.taken carry) =
      (records.filterMap Record.container).filterMap fun c => carry c.target c.message := by
  rw [List.filterMap_filterMap]
  refine List.filterMap_congr fun record _ => ?_
  cases record <;> rfl

theorem flatMap_given (records : List (Record M α)) :
    records.flatMap (Record.given carry) =
      (records.flatMap Record.sends).filterMap fun send => carry send.target send.message := by
  rw [List.filterMap_flatMap]
  rfl

end Kens.Reactive
