/-
# Handing control between the scheduler and the applications

Each application runs in a thread of its own, but only one of these threads or the
scheduler has control at a time. Control passes in `start` and `wake`, where the
scheduler waits on the condition variable of a thread, and in `wait` and at the
end of `main`, where the thread gives it back. The state of the thread and the
ready set of the scheduler are updated by different functions, so between two of
them they disagree.

The machine below takes these functions apart: one action is one transition of the
state that the condition variable guards, and the place of control names what the
scheduler is in the middle of. Handlers and code outside of `run` launch
applications and return system calls in any order, and applications call and end
as they like. A failed assertion aborts the program.
-/

import Mathlib
import Kens.Semantics.Machine
import Kens.System.Basic

namespace Kens

open Semantics Machine

namespace Runnable

/-- The first half of `start`, before the scheduler waits. -/
def enter : State → Option State
  | .created => some .starting
  | _ => none

/-- `pre_main` is over, and the scheduler goes on. -/
def prepared : State → Option State
  | .starting => some .ready
  | _ => none

theorem start_eq (state : State) : start state = (enter state).bind prepared := by
  cases state <;> rfl

end Runnable

namespace Handover

/-- Where control is. `user` is a handler or code outside of `run`, `started` and
`answered` lie between the change of the state and `addRunnable`, `loop` is the test
of the drain loop and `pass` its inner loop with what is left to visit. Control is
with a thread in `inStart` and `inWake`. -/
inductive Control (ι κ : Type)
  | user
  | inStart (runnable : ι)
  | started (runnable : ι)
  | answered (syscallUUID : κ) (runnable : ι)
  | loop
  | pass (rest : List ι)
  | inWake (runnable : ι) (rest : List ι)
  | woken (runnable : ι) (rest : List ι)
  | aborted
deriving DecidableEq

namespace Control

variable {ι κ : Type}

/-- The runnable that is ready but not yet in the ready set. -/
@[grind] def adding : Control ι κ → Option ι
  | started runnable | answered _ runnable => some runnable
  | _ => none

/-- The runnable that the drain loop is visiting. -/
@[grind] def visiting : Control ι κ → Option ι
  | inWake runnable _ | woken runnable _ => some runnable
  | _ => none

/-- The call that is being answered. -/
@[grind] def answering : Control ι κ → Option κ
  | answered syscallUUID _ => some syscallUUID
  | _ => none

/-- What the pass has not finished with. -/
@[grind] def left : Control ι κ → Option (List ι)
  | pass rest => some rest
  | inWake runnable rest | woken runnable rest => some (runnable :: rest)
  | _ => none

end Control

/-- The threads of all hosts, named by `ι`, and the calls that wait for an answer,
named by `κ`. `posted` has the callers of the system calls in flight and `exiting` the
applications whose end is in flight. `launched` records for which applications
`launchApplication` was called. -/
structure State (ι κ : Type) where
  state : ι → Runnable.State := fun _ => .created
  runnableReady : Finset ι := ∅
  syscallMap : List (κ × ι) := []
  posted : List ι := []
  exiting : List ι := []
  launched : Finset ι := ∅
  control : Control ι κ := .user

/-- `preMain`, `syscall` and `finish` are done by the thread in control, the others
by the scheduler or by code that it calls. -/
inductive Action (ι κ : Type)
  | launchApplication (runnable : ι)
  | preMain
  | addRunnable
  | returnSystemCall (syscallUUID : κ)
  | run
  | drain (order : List ι)
  | next
  | syscall (running : Bool)
  | finish
  | register (syscallUUID : κ) (runnable : ι)
  | lose (runnable : ι)
  | exit (runnable : ι)
  | leave

/-- The value that `wake` returned. -/
inductive Event (ι : Type)
  | wakeReturned (runnable : ι) (next : Runnable.State)
deriving DecidableEq

namespace State

variable {ι κ : Type} [DecidableEq ι] [DecidableEq κ]

/-- Change the state of a runnable and move on, unless the assertion fails. -/
def attempt (s : State ι κ) (runnable : ι)
    (transition : Runnable.State → Option Runnable.State) (control : Control ι κ) : State ι κ :=
  match transition (s.state runnable) with
  | none => { s with control := .aborted }
  | some next => { s with state := Function.update s.state runnable next, control := control }

/-- `addRunnable`, and on with `control`. -/
def addRunnable (s : State ι κ) (runnable : ι) (control : Control ι κ) : State ι κ :=
  if s.state runnable = .ready then
    { s with runnableReady := insert runnable s.runnableReady, control := control }
  else { s with control := .aborted }

def step (s : State ι κ) (a : Action ι κ) : Option (State ι κ × List (Event ι)) :=
  match s.control, a with
  -- `launchApplication`
  | .user, .launchApplication runnable =>
    some (({ s with launched := insert runnable s.launched } : State ι κ).attempt runnable
      Runnable.enter (.inStart runnable), [])
  | .inStart runnable, .preMain => some (s.attempt runnable Runnable.prepared (.started runnable), [])
  | .started runnable, .addRunnable => some (s.addRunnable runnable .user, [])
  -- `returnSystemCall`; unknown calls are ignored
  | .user, .returnSystemCall syscallUUID =>
    match s.syscallMap.lookup syscallUUID with
    | none => some (s, [])
    | some runnable =>
      some (s.attempt runnable Runnable.ready (.answered syscallUUID runnable), [])
  | .answered syscallUUID runnable, .addRunnable =>
    let s := s.addRunnable runnable .user
    some ({ s with
      syscallMap := s.syscallMap.filter fun entry => entry.1 ≠ syscallUUID }, [])
  -- the drain loop; a pass visits the set in some order
  | .user, .run => some ({ s with control := .loop }, [])
  | .loop, .drain order =>
    if s.runnableReady ≠ ∅ ∧ order.Nodup ∧ order.toFinset = s.runnableReady then
      some ({ s with control := .pass order }, [])
    else none
  | .pass [], .next => some ({ s with control := .loop }, [])
  | .pass (runnable :: rest), .next =>
    some (s.attempt runnable Runnable.wake (.inWake runnable rest), [])
  | .woken runnable rest, .next =>
    let next := s.state runnable
    some ({ s with
      runnableReady :=
        if next ≠ .ready then s.runnableReady.erase runnable else s.runnableReady
      control := .pass rest }, [.wakeReturned runnable next])
  -- `E_Syscall` returns at once unless the host is running
  | .inWake runnable rest, .syscall running =>
    if running then
      some (({ s with posted := s.posted ++ [runnable] } : State ι κ).attempt runnable
        Runnable.wait (.woken runnable rest), [])
    else some (s, [])
  | .inWake runnable rest, .finish =>
    some (({ s with exiting := s.exiting ++ [runnable] } : State ι κ).attempt runnable
      Runnable.finish (.woken runnable rest), [])
  -- dispatches, once the ready set is empty: a system call, with and without an
  -- interface for it, the end of a process, and any other message or the end of `run`
  | .loop, .register syscallUUID runnable =>
    if s.runnableReady = ∅ ∧ runnable ∈ s.posted ∧ s.syscallMap.lookup syscallUUID = none then
      some ({ s with
        posted := s.posted.erase runnable
        syscallMap := (syscallUUID, runnable) :: s.syscallMap
        control := .user }, [])
    else none
  | .loop, .lose runnable =>
    if s.runnableReady = ∅ ∧ runnable ∈ s.posted then
      some ({ s with posted := s.posted.erase runnable, control := .user }, [])
    else none
  | .loop, .exit runnable =>
    if s.runnableReady = ∅ ∧ runnable ∈ s.exiting then
      if s.syscallMap.any fun entry => entry.2 = runnable then
        some ({ s with control := .aborted }, [])
      else some ({ s with
        exiting := s.exiting.erase runnable
        runnableReady := s.runnableReady.erase runnable
        control := .user }, [])
    else none
  | .loop, .leave => if s.runnableReady = ∅ then some ({ s with control := .user }, []) else none
  | _, _ => none

end State

variable {ι κ : Type} [DecidableEq ι] [DecidableEq κ]

def machine (ι κ : Type) [DecidableEq ι] [DecidableEq κ] :
    Machine (State ι κ) (Action ι κ) (Event ι) where
  step := State.step

/-- Each application is launched at most once. -/
def LaunchOnce (s : State ι κ) : Action ι κ → Prop
  | .launchApplication runnable => runnable ∉ s.launched
  | _ => True

/-! ## The states of the threads and the ready set agree -/

/-- The callers whose call is in flight or waits for an answer. -/
def State.asking (s : State ι κ) : List ι :=
  s.posted ++ (s.syscallMap.filter fun entry => s.control.answering ≠ some entry.1).map Prod.snd

/-- What holds in every reachable state. -/
structure Agree (s : State ι κ) : Prop where
  alive : s.control ≠ .aborted
  created : ∀ r, r ∉ s.launched → s.state r = .created
  starting : ∀ r, s.state r = .starting ↔ s.control = .inStart r
  running : ∀ r, s.state r = .running ↔ ∃ rest, s.control = .inWake r rest
  ready : ∀ r, s.state r = .ready ↔
    s.control.adding = some r ∨ r ∈ s.runnableReady ∧ s.control.visiting ≠ some r
  left : ∀ left, s.control.left = some left → left.Nodup ∧ left.toFinset = s.runnableReady
  once : (s.posted ++ s.syscallMap.map Prod.snd).Nodup
  waiting : ∀ r ∈ s.asking, s.state r = .waiting
  ended : ∀ r ∈ s.exiting, s.state r = .terminated

theorem agree_start : Agree ({} : State ι κ) where
  alive := nofun
  created _ _ := rfl
  starting _ := ⟨nofun, nofun⟩
  running _ := ⟨nofun, nofun⟩
  ready _ := by simp [Control.adding]
  left _ := nofun
  once := List.nodup_nil
  waiting _ := by simp [State.asking]
  ended _ := by simp

/-! Each transition restores the agreement. The assertion of each transition holds
because the agreement fixes the state of the runnable at that place of control. -/

variable {s : State ι κ} {runnable : ι} {rest : List ι}

omit [DecidableEq ι] in
theorem mem_asking {r : ι} :
    r ∈ s.asking ↔
      r ∈ s.posted ∨ ∃ key, (key, r) ∈ s.syscallMap ∧ s.control.answering ≠ some key := by
  simp [State.asking]

omit [DecidableEq κ] in
theorem attempt_eq {transition : Runnable.State → Option Runnable.State} {control : Control ι κ}
    {n : Runnable.State} (done : transition (s.state runnable) = some n) :
    s.attempt runnable transition control =
      { s with state := Function.update s.state runnable n, control := control } := by
  rw [State.attempt, done]

omit [DecidableEq κ] in
theorem addRunnable_eq {control : Control ι κ} (ready : s.state runnable = .ready) :
    s.addRunnable runnable control =
      { s with runnableReady := insert runnable s.runnableReady, control := control } := by
  rw [State.addRunnable, if_pos ready]

theorem Agree.launchApplication (h : Agree s) (at_ : s.control = .user)
    (first : runnable ∉ s.launched) :
    Agree (({ s with launched := insert runnable s.launched } : State ι κ).attempt runnable
      Runnable.enter (.inStart runnable)) := by
  have created := h.created runnable first
  rw [attempt_eq (n := .starting) (by simp only [created]; rfl)]
  obtain ⟨-, made, starting, running, ready, -, once, waiting, ended⟩ := h
  constructor <;> grind [mem_asking, Function.update_apply]

theorem Agree.preMain (h : Agree s) (at_ : s.control = .inStart runnable) :
    Agree (s.attempt runnable Runnable.prepared (.started runnable)) := by
  have isStarting := (h.starting runnable).mpr at_
  rw [attempt_eq (n := .ready) (by rw [isStarting]; rfl)]
  obtain ⟨-, made, starting, running, ready, -, once, waiting, ended⟩ := h
  constructor <;> grind [mem_asking, Function.update_apply]

theorem Agree.addRunnable (h : Agree s) (at_ : s.control = .started runnable) :
    Agree (s.addRunnable runnable .user) := by
  have isReady : s.state runnable = .ready := (h.ready runnable).mpr (.inl (by rw [at_]; rfl))
  rw [addRunnable_eq isReady]
  obtain ⟨-, made, starting, running, ready, -, once, waiting, ended⟩ := h
  constructor <;> grind [mem_asking]

/-- Only the caller of the answered call changes its state: no other call is its. -/
theorem Agree.returnSystemCall (h : Agree s) (at_ : s.control = .user) {key : κ}
    (found : (key, runnable) ∈ s.syscallMap) :
    Agree (s.attempt runnable Runnable.ready (.answered key runnable)) := by
  have isWaiting : s.state runnable = .waiting :=
    h.waiting runnable (mem_asking.mpr (.inr ⟨key, found, by simp [at_, Control.answering]⟩))
  rw [attempt_eq (n := .ready) (by rw [isWaiting]; rfl)]
  obtain ⟨-, made, starting, running, ready, -, once, waiting, ended⟩ := h
  have distinct := List.nodup_append.mp once
  have alone : ∀ other, (other, runnable) ∈ s.syscallMap → other = key := by
    intro other member
    have same := List.inj_on_of_nodup_map distinct.2.1 member found rfl
    exact congrArg Prod.fst same
  have unposted : runnable ∉ s.posted := fun posted =>
    distinct.2.2 runnable posted runnable (List.mem_map_of_mem found) rfl
  constructor <;> grind [mem_asking, Function.update_apply]

theorem Agree.answered (h : Agree s) {key : κ} (at_ : s.control = .answered key runnable) :
    Agree { s.addRunnable runnable .user with
      syscallMap := (s.addRunnable runnable .user).syscallMap.filter fun e => e.1 ≠ key } := by
  have isReady : s.state runnable = .ready := (h.ready runnable).mpr (.inl (by rw [at_]; rfl))
  rw [addRunnable_eq isReady]
  obtain ⟨-, made, starting, running, ready, -, once, waiting, ended⟩ := h
  have fewer : (s.posted ++ (s.syscallMap.filter fun e => e.1 ≠ key).map Prod.snd).Sublist
      (s.posted ++ s.syscallMap.map Prod.snd) :=
    (List.Sublist.refl _).append (List.filter_sublist.map _)
  have once' := once.sublist fewer
  constructor <;> grind [mem_asking]

/-- Places of control at which the agreement is the same. -/
theorem Agree.goto (h : Agree s) (control : Control ι κ) (alive : control ≠ .aborted)
    (idle : s.control.adding = none ∧ s.control.visiting = none ∧ s.control.answering = none)
    (idle' : control.adding = none ∧ control.visiting = none ∧ control.answering = none)
    (blocked : ∀ r, s.control ≠ .inStart r ∧ control ≠ .inStart r)
    (left : ∀ left, control.left = some left → left.Nodup ∧ left.toFinset = s.runnableReady) :
    Agree { s with control := control } := by
  obtain ⟨-, made, starting, running, ready, -, once, waiting, ended⟩ := h
  constructor <;> grind [mem_asking]

theorem Agree.wake (h : Agree s) (at_ : s.control = .pass (runnable :: rest)) :
    Agree (s.attempt runnable Runnable.wake (.inWake runnable rest)) := by
  obtain ⟨distinct, same⟩ := h.left (runnable :: rest) (by rw [at_]; rfl)
  have member : runnable ∈ s.runnableReady := by rw [← same]; simp
  have isReady : s.state runnable = .ready :=
    (h.ready runnable).mpr (.inr ⟨member, by simp [at_, Control.visiting]⟩)
  rw [attempt_eq (n := .running) (by rw [isReady]; rfl)]
  obtain ⟨-, made, starting, running, ready, -, once, waiting, ended⟩ := h
  constructor
  case running =>
    intro r
    by_cases other : r = runnable
    · subst other
      simp
    · simp [Function.update_of_ne other, running r, at_, Ne.symm other]
  all_goals grind [mem_asking, Function.update_apply]

theorem Agree.notReady (h : Agree s) (at_ : s.control = .woken runnable rest) :
    s.state runnable ≠ .ready := by
  intro isReady
  have placed := (h.ready runnable).mp isReady
  simp [at_, Control.adding, Control.visiting] at placed

theorem Agree.woken (h : Agree s) (at_ : s.control = .woken runnable rest) :
    Agree { s with
      runnableReady :=
        if s.state runnable ≠ .ready then s.runnableReady.erase runnable else s.runnableReady
      control := .pass rest } := by
  have notReady := h.notReady at_
  rw [if_pos notReady]
  obtain ⟨distinct, same⟩ := h.left (runnable :: rest) (by rw [at_]; rfl)
  have outside : runnable ∉ rest := (List.nodup_cons.mp distinct).1
  have others : rest.toFinset = s.runnableReady.erase runnable := by
    rw [← same, List.toFinset_cons, Finset.erase_insert (by simpa using outside)]
  obtain ⟨-, made, starting, running, ready, -, once, waiting, ended⟩ := h
  constructor <;> grind [mem_asking]

theorem Agree.syscall (h : Agree s) (at_ : s.control = .inWake runnable rest) :
    Agree (({ s with posted := s.posted ++ [runnable] } : State ι κ).attempt runnable
      Runnable.wait (.woken runnable rest)) := by
  have isRunning : s.state runnable = .running := (h.running runnable).mpr ⟨rest, at_⟩
  rw [attempt_eq (n := .waiting) (by simp only [isRunning]; rfl)]
  obtain ⟨-, made, starting, running, ready, left, once, waiting, ended⟩ := h
  -- a running application has no call open
  have silent : runnable ∉ s.posted ∧ ∀ key, (key, runnable) ∉ s.syscallMap := by
    grind [mem_asking]
  have once' : ((s.posted ++ [runnable]) ++ s.syscallMap.map Prod.snd).Nodup := by
    grind
  constructor <;> grind [mem_asking, Function.update_apply]

theorem Agree.finish (h : Agree s) (at_ : s.control = .inWake runnable rest) :
    Agree (({ s with exiting := s.exiting ++ [runnable] } : State ι κ).attempt runnable
      Runnable.finish (.woken runnable rest)) := by
  have isRunning : s.state runnable = .running := (h.running runnable).mpr ⟨rest, at_⟩
  rw [attempt_eq (n := .terminated) (by simp only [isRunning]; rfl)]
  obtain ⟨-, made, starting, running, ready, left, once, waiting, ended⟩ := h
  constructor <;> grind [mem_asking, Function.update_apply]

theorem Agree.register (h : Agree s) (at_ : s.control = .loop) (key : κ)
    (member : runnable ∈ s.posted) :
    Agree { s with
      posted := s.posted.erase runnable
      syscallMap := (key, runnable) :: s.syscallMap
      control := .user } := by
  obtain ⟨-, made, starting, running, ready, -, once, waiting, ended⟩ := h
  have once' : (s.posted.erase runnable ++ ((key, runnable) :: s.syscallMap).map Prod.snd).Nodup := by
    have moved : (s.posted.erase runnable ++ ((key, runnable) :: s.syscallMap).map Prod.snd).Perm
        (s.posted ++ s.syscallMap.map Prod.snd) :=
      List.perm_middle.trans ((List.perm_cons_erase member).symm.append_right _)
    exact moved.nodup_iff.mpr once
  have fewer : ∀ r ∈ s.posted.erase runnable, r ∈ s.posted := fun _ => List.mem_of_mem_erase
  constructor <;> grind [mem_asking]

theorem Agree.lose (h : Agree s) (at_ : s.control = .loop) :
    Agree { s with posted := s.posted.erase runnable, control := .user } := by
  obtain ⟨-, made, starting, running, ready, -, once, waiting, ended⟩ := h
  have once' : (s.posted.erase runnable ++ s.syscallMap.map Prod.snd).Nodup :=
    once.sublist (List.erase_sublist.append_right _)
  have fewer : ∀ r ∈ s.posted.erase runnable, r ∈ s.posted := fun _ => List.mem_of_mem_erase
  constructor <;> grind [mem_asking]

theorem Agree.exit (h : Agree s) (at_ : s.control = .loop) (drained : s.runnableReady = ∅) :
    Agree { s with
      exiting := s.exiting.erase runnable
      runnableReady := s.runnableReady.erase runnable
      control := .user } := by
  obtain ⟨-, made, starting, running, ready, -, once, waiting, ended⟩ := h
  have fewer : ∀ r ∈ s.exiting.erase runnable, r ∈ s.exiting := fun _ => List.mem_of_mem_erase
  constructor <;> grind [mem_asking]

/-- An application that has ended has no call open. -/
theorem Agree.not_any (h : Agree s) (at_ : s.control = .loop) (member : runnable ∈ s.exiting) :
    (s.syscallMap.any fun entry => entry.2 = runnable) = false := by
  rw [List.any_eq_false]
  rintro ⟨key, r⟩ found same
  obtain rfl : r = runnable := by simpa using same
  have isWaiting := h.waiting r (mem_asking.mpr (.inr ⟨key, found, by simp [at_, Control.answering]⟩))
  rw [h.ended r member] at isWaiting
  cases isWaiting

variable {a : Action ι κ} {t : State ι κ} {new : List (Event ι)} {acts : List (Action ι κ)}
  {log : List (Event ι)}

theorem Agree.step (h : Agree s) (once : LaunchOnce s a) (step : s.step a = some (t, new)) :
    Agree t := by
  -- one case for each place the control can be in, in the order of `State.step`
  unfold State.step at step
  split at step
  next at_ =>
    obtain ⟨rfl, -⟩ : _ = t ∧ [] = new := by simpa using step
    exact h.launchApplication at_ once
  next at_ =>
    obtain ⟨rfl, -⟩ : _ = t ∧ [] = new := by simpa using step
    exact h.preMain at_
  next at_ =>
    obtain ⟨rfl, -⟩ : _ = t ∧ [] = new := by simpa using step
    exact h.addRunnable at_
  next at_ =>
    split at step
    -- an unknown id is a no-op
    · obtain ⟨rfl, -⟩ : s = t ∧ [] = new := by simpa using step
      exact h
    next r found =>
      obtain ⟨rfl, -⟩ : _ = t ∧ [] = new := by simpa using step
      obtain ⟨front, back, split, -⟩ := List.lookup_eq_some_iff.mp found
      exact h.returnSystemCall at_ (by simp [split])
  next at_ =>
    obtain ⟨rfl, -⟩ : _ = t ∧ [] = new := by simpa using step
    simpa using h.answered at_
  next at_ =>
    obtain ⟨rfl, -⟩ : _ = t ∧ [] = new := by simpa using step
    exact h.goto .loop nofun (by simp [at_, Control.adding, Control.visiting, Control.answering])
      ⟨rfl, rfl, rfl⟩ (by simp [at_]) nofun
  next order at_ =>
    split at step
    next whole =>
      obtain ⟨rfl, -⟩ : _ = t ∧ [] = new := by simpa using step
      refine h.goto (.pass order) nofun
        (by simp [at_, Control.adding, Control.visiting, Control.answering]) ⟨rfl, rfl, rfl⟩
        (by simp [at_]) ?_
      intro left same
      obtain rfl : order = left := Option.some.inj same
      exact whole.2
    · simp at step
  next at_ =>
    obtain ⟨rfl, -⟩ : _ = t ∧ [] = new := by simpa using step
    exact h.goto .loop nofun (by simp [at_, Control.adding, Control.visiting, Control.answering])
      ⟨rfl, rfl, rfl⟩ (by simp [at_]) nofun
  next at_ =>
    obtain ⟨rfl, -⟩ : _ = t ∧ [] = new := by simpa using step
    exact h.wake at_
  next at_ =>
    obtain ⟨rfl, -⟩ : _ = t ∧ _ = new := by simpa using step
    simpa using h.woken at_
  next at_ =>
    split at step
    · obtain ⟨rfl, -⟩ : _ = t ∧ [] = new := by simpa using step
      exact h.syscall at_
    · obtain ⟨rfl, -⟩ : s = t ∧ [] = new := by simpa using step
      exact h
  next at_ =>
    obtain ⟨rfl, -⟩ : _ = t ∧ [] = new := by simpa using step
    exact h.finish at_
  next key r at_ =>
    split at step
    next free =>
      obtain ⟨rfl, -⟩ : _ = t ∧ [] = new := by simpa using step
      exact h.register at_ key free.2.1
    · simp at step
  next at_ =>
    split at step
    · obtain ⟨rfl, -⟩ : _ = t ∧ [] = new := by simpa using step
      exact h.lose at_
    · simp at step
  next at_ =>
    split at step
    next ends =>
      -- a terminated runnable has no call registered, so there is none to drop
      rw [h.not_any at_ ends.2] at step
      obtain ⟨rfl, -⟩ : _ = t ∧ [] = new := by simpa using step
      exact h.exit at_ ends.1
    · simp at step
  next at_ =>
    split at step
    · obtain ⟨rfl, -⟩ : _ = t ∧ [] = new := by simpa using step
      exact h.goto .user nofun (by simp [at_, Control.adding, Control.visiting, Control.answering])
        ⟨rfl, rfl, rfl⟩ (by simp [at_]) nofun
    · simp at step
  · simp at step

/-- `wake` does not return while the runnable is ready. -/
theorem Agree.returned (h : Agree s) (step : s.step a = some (t, new)) {next : Runnable.State}
    (member : .wakeReturned runnable next ∈ new) : next ≠ .ready := by
  unfold State.step at step
  split at step
  case h_10 r rest at_ =>
    obtain ⟨-, rfl⟩ : _ = t ∧ [.wakeReturned r (s.state r)] = new := by simpa using step
    obtain ⟨rfl, rfl⟩ : runnable = r ∧ next = s.state r := by simpa using member
    exact h.notReady at_
  all_goals
    try split at step
    all_goals grind

/-- In every run: at most one thread is starting or running, and while one is the
scheduler waits for it; whenever the scheduler has control and is not in the middle of
`launchApplication`, `returnSystemCall` or the drain loop, the ready set has exactly the
ready threads; no assertion fails, `wake` never returns a ready thread, and a pass of the
drain loop ends with an empty ready set. -/
theorem one_runnable_at_a_time (run : (machine ι κ).Run LaunchOnce {} acts log s) :
    (∀ r r', (s.state r = .starting ∨ s.state r = .running) →
      (s.state r' = .starting ∨ s.state r' = .running) → r = r') ∧
    (∀ r, s.state r = .starting → s.control = .inStart r) ∧
    (∀ r, s.state r = .running → ∃ rest, s.control = .inWake r rest) ∧
    (s.control = .user ∨ s.control = .loop → ∀ r, r ∈ s.runnableReady ↔ s.state r = .ready) ∧
    s.control ≠ .aborted ∧
    (∀ r next, .wakeReturned r next ∈ log → next ≠ .ready) ∧
    (s.control = .pass [] → s.runnableReady = ∅) := by
  obtain ⟨h, returned⟩ := run.invariant
    (fun log s => Agree s ∧ ∀ r next, .wakeReturned r next ∈ log → next ≠ .ready)
    ⟨agree_start, by simp⟩ (by
      rintro log s a t new ⟨h, returned⟩ once step
      refine ⟨h.step once step, ?_⟩
      intro r next member
      rcases List.mem_append.mp member with member | member
      · exact returned r next member
      · exact h.returned step member)
  refine ⟨?_, fun r => (h.starting r).mp, fun r => (h.running r).mp, ?_, h.alive, returned, ?_⟩
  · intro r r' busy busy'
    rw [h.starting, h.running] at busy busy'
    grind
  · intro at_ r
    rw [h.ready]
    rcases at_ with at_ | at_ <;> simp [at_, Control.adding, Control.visiting]
  · intro at_
    have same := (h.left [] (by rw [at_]; rfl)).2
    simpa using same.symm

instance (s : State ι κ) : (a : Action ι κ) → Decidable (LaunchOnce s a)
  | .launchApplication runnable => inferInstanceAs (Decidable (runnable ∉ s.launched))
  | .preMain | .addRunnable | .returnSystemCall _ | .run | .drain _ | .next | .syscall _ | .finish
  | .register _ _ | .lose _ | .exit _ | .leave => .isTrue trivial

/-- Two applications are launched. The first calls and the second ends in one pass of
the drain loop; then the first gets its answer. -/
def twoApplications : List (Action ℕ ℕ) :=
  [.launchApplication 0, .preMain, .addRunnable, .launchApplication 1, .preMain, .addRunnable, .run,
    .drain [1, 0], .next, .finish, .next, .next, .syscall true, .next, .next, .exit 1, .run,
    .register 7 0, .returnSystemCall 7, .addRunnable]

theorem one_runnable_at_a_time_two :
    ∃ log s, (machine ℕ ℕ).Run LaunchOnce {} twoApplications log s ∧
      .wakeReturned 1 .terminated ∈ log ∧ .wakeReturned 0 .waiting ∈ log ∧
      s.control ≠ .aborted ∧ (0 ∈ s.runnableReady ↔ s.state 0 = .ready) := by
  have defined : ((machine ℕ ℕ).execIf LaunchOnce {} twoApplications).map Prod.snd =
      some [.wakeReturned 1 .terminated, .wakeReturned 0 .waiting] := by decide
  have last : ((machine ℕ ℕ).execIf LaunchOnce {} twoApplications).map (fun r => r.1.control) =
      some .user := by decide
  obtain ⟨⟨s, log⟩, value, rfl⟩ := Option.map_eq_some_iff.mp defined
  have run := Run.of_execIf value
  obtain ⟨-, -, -, ready, alive, -⟩ := one_runnable_at_a_time run
  rw [value, Option.map_some, Option.some.injEq] at last
  exact ⟨_, s, run, by decide, by decide, alive, ready (.inl last) 0⟩

end Handover

end Kens
