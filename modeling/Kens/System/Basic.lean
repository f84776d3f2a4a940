/-
# The scheduler's data and its table operations

`System` keeps a priority queue of timer containers, a map from the UUID of
each pending message to its container, and the set of UUIDs in use. The queue
and the map share each container through a pointer, and the only field written
after construction is `canceled`. A container is therefore modelled by its
address together with the fields that never change, and the flags of all
containers live in the scheduler, indexed by address.

Times and UUIDs are 64-bit unsigned numbers, modelled by natural numbers whose
sums are taken modulo `2 ^ 64`; modules and runnables are named by numbers. An
operation that ends in a failed assertion returns `none`.
-/

import Kens.Semantics.PriorityQueue
import Mathlib

namespace Kens

open Semantics

/-! ## Runnables -/

namespace Runnable

/-- The states of an application thread. -/
inductive State | created | starting | ready | running | waiting | terminated
  deriving DecidableEq, Repr

/-- `start` hands control to the thread until `pre_main` is over. -/
def start : State → Option State
  | .created => some .ready
  | _ => none

/-- `wake` hands control to the thread, which is then running. -/
def wake : State → Option State
  | .ready => some .running
  | _ => none

/-- `ready` marks a waiting thread as able to run. -/
def ready : State → Option State
  | .waiting => some .ready
  | _ => none

/-- `wait`, called by the running thread, gives control back. -/
def wait : State → Option State
  | .running => some .waiting
  | _ => none

/-- The end of `main`, which also gives control back. -/
def finish : State → Option State
  | .running => some .terminated
  | _ => none

end Runnable

/-! ## Timer containers -/

/-- A message with its delivery data. `address` is the identity of the shared
object; `source` and `target` are the fields `from` and `to` of the code. -/
structure TimerContainer (M : Type) where
  address : ℕ
  source : ℕ
  target : ℕ
  wakeup : ℕ
  message : M
  uuid : ℕ

namespace TimerContainer

variable {M : Type}

/-- The comparator of the priority queue. The queue returns a maximum, so the
container that wakes up first compares greatest. -/
def less (a b : TimerContainer M) : Bool :=
  if a.wakeup ≠ b.wakeup then a.wakeup > b.wakeup else a.uuid > b.uuid

/-- Wake-up time and UUID, ordered lexicographically. -/
def key (c : TimerContainer M) : ℕ ×ₗ ℕ := toLex (c.wakeup, c.uuid)

theorem key_lt_iff {a b : TimerContainer M} :
    a.key < b.key ↔ a.wakeup < b.wakeup ∨ a.wakeup = b.wakeup ∧ a.uuid < b.uuid :=
  Prod.Lex.toLex_lt_toLex

theorem key_le_iff {a b : TimerContainer M} :
    a.key ≤ b.key ↔ a.wakeup < b.wakeup ∨ a.wakeup = b.wakeup ∧ a.uuid ≤ b.uuid :=
  Prod.Lex.toLex_le_toLex

theorem less_iff (a b : TimerContainer M) : less a b = true ↔ b.key < a.key := by
  rw [key_lt_iff, less]
  split <;> simp only [decide_eq_true_eq] <;> omega

end TimerContainer

/-! ## The scheduler -/

/-- The data members of `System` that its operations read. `canceled` is the
set of addresses of the containers whose `canceled` flag is set, `nextAddress`
stands for the allocator of containers. -/
structure System (M : Type) where
  currentTime : ℕ := 0
  currentUUID : ℕ := 0
  timerQueue : List (TimerContainer M) := []
  activeTimer : ℕ → Option (TimerContainer M) := fun _ => none
  activeUUID : Finset ℕ := ∅
  canceled : Finset ℕ := ∅
  nextAddress : ℕ := 0
  runnableReady : Finset ℕ := ∅

namespace System

variable {M : Type}

/-- `++currentUUID`, which must not be in use. -/
def allocateUUID (s : System M) : Option (ℕ × System M) :=
  let candidate := (s.currentUUID + 1) % 2 ^ 64
  if candidate ∈ s.activeUUID then
    none
  else
    some (candidate,
      { s with currentUUID := candidate, activeUUID := insert candidate s.activeUUID })

/-- `unordered_map::insert`, which leaves an existing entry alone. -/
def insertNew (table : ℕ → Option (TimerContainer M)) (uuid : ℕ)
    (container : TimerContainer M) : ℕ → Option (TimerContainer M) :=
  if (table uuid).isNone then Function.update table uuid (some container) else table

/-- The container that `sendMessage` builds under a given UUID. -/
def newContainer (s : System M) (source target : ℕ) (message : M) (timeAfter : ℕ)
    (uuid : ℕ) : TimerContainer M where
  address := s.nextAddress
  source := source
  target := target
  wakeup := (s.currentTime + timeAfter) % 2 ^ 64
  message := message
  uuid := uuid

/-- `sendMessage`. The code returns the UUID of the container returned here. -/
def sendMessage (s : System M) (source target : ℕ) (message : M) (timeAfter : ℕ) :
    Option (TimerContainer M × System M) :=
  match s.allocateUUID with
  | none => none
  | some (uuid, s') =>
    let container := s.newContainer source target message timeAfter uuid
    some (container,
      { s' with
        nextAddress := s.nextAddress + 1
        activeTimer := insertNew s'.activeTimer uuid container
        timerQueue := s'.timerQueue ++ [container] })

/-- `cancelMessage`: set the flag of the container registered under the UUID. -/
def cancelMessage (s : System M) (uuid : ℕ) : Bool × System M :=
  match s.activeTimer uuid with
  | none => (false, s)
  | some container => (true, { s with canceled := insert container.address s.canceled })

/-- Take the first container out of the queue and move the clock to it. -/
def popTimer (s : System M) : Option (TimerContainer M × System M) :=
  match popMax TimerContainer.less s.timerQueue with
  | none => none
  | some (current, rest) =>
    some (current, { s with timerQueue := rest, currentTime := current.wakeup })

/-- The end of a dispatch: the UUID leaves both tables. -/
def release (s : System M) (container : TimerContainer M) : System M :=
  { s with
    activeTimer := Function.update s.activeTimer container.uuid none
    activeUUID := s.activeUUID.erase container.uuid }

/-- `timerQueue.top()`. -/
def topTimer (s : System M) : Option (TimerContainer M) :=
  top TimerContainer.less s.timerQueue

/-! ## What each operation does -/

variable {s s' : System M} {source target : ℕ} {message : M} {timeAfter : ℕ}
  {container : TimerContainer M}

/-- The scheduler after a successful `sendMessage` of `container`. -/
def push (s : System M) (container : TimerContainer M) : System M :=
  { s with
    currentUUID := container.uuid
    activeUUID := insert container.uuid s.activeUUID
    nextAddress := s.nextAddress + 1
    activeTimer := insertNew s.activeTimer container.uuid container
    timerQueue := s.timerQueue ++ [container] }

/-- `sendMessage` succeeds exactly when the next UUID is not in use, and then it
appends one container to the queue and enters it in both tables. -/
theorem sendMessage_eq_some_iff :
    s.sendMessage source target message timeAfter = some (container, s') ↔
      (s.currentUUID + 1) % 2 ^ 64 ∉ s.activeUUID ∧
      container = s.newContainer source target message timeAfter ((s.currentUUID + 1) % 2 ^ 64) ∧
      s' = s.push container := by
  unfold sendMessage allocateUUID
  by_cases used : (s.currentUUID + 1) % 2 ^ 64 ∈ s.activeUUID
  · simp only [used, if_true, reduceCtorEq, not_true_eq_false, false_and]
  · simp only [used, if_false, Option.some.injEq, Prod.mk.injEq, not_false_eq_true, true_and]
    constructor
    · rintro ⟨rfl, rfl⟩
      exact ⟨rfl, rfl⟩
    · rintro ⟨rfl, rfl⟩
      exact ⟨rfl, rfl⟩

@[simp] theorem push_timerQueue : (s.push container).timerQueue = s.timerQueue ++ [container] :=
  rfl

@[simp] theorem push_currentTime : (s.push container).currentTime = s.currentTime := rfl

@[simp] theorem push_currentUUID : (s.push container).currentUUID = container.uuid := rfl

@[simp] theorem push_activeUUID :
    (s.push container).activeUUID = insert container.uuid s.activeUUID := rfl

@[simp] theorem push_canceled : (s.push container).canceled = s.canceled := rfl

@[simp] theorem push_nextAddress : (s.push container).nextAddress = s.nextAddress + 1 := rfl

/-! `cancelMessage` touches nothing but a flag. -/

@[simp] theorem cancelMessage_timerQueue (s : System M) (uuid : ℕ) :
    (s.cancelMessage uuid).2.timerQueue = s.timerQueue := by
  unfold cancelMessage
  split <;> rfl

@[simp] theorem cancelMessage_currentTime (s : System M) (uuid : ℕ) :
    (s.cancelMessage uuid).2.currentTime = s.currentTime := by
  unfold cancelMessage
  split <;> rfl

@[simp] theorem cancelMessage_currentUUID (s : System M) (uuid : ℕ) :
    (s.cancelMessage uuid).2.currentUUID = s.currentUUID := by
  unfold cancelMessage
  split <;> rfl

@[simp] theorem cancelMessage_activeTimer (s : System M) (uuid : ℕ) :
    (s.cancelMessage uuid).2.activeTimer = s.activeTimer := by
  unfold cancelMessage
  split <;> rfl

@[simp] theorem cancelMessage_activeUUID (s : System M) (uuid : ℕ) :
    (s.cancelMessage uuid).2.activeUUID = s.activeUUID := by
  unfold cancelMessage
  split <;> rfl

@[simp] theorem cancelMessage_nextAddress (s : System M) (uuid : ℕ) :
    (s.cancelMessage uuid).2.nextAddress = s.nextAddress := by
  unfold cancelMessage
  split <;> rfl

theorem mem_cancelMessage_canceled {s : System M} {uuid address : ℕ} :
    address ∈ (s.cancelMessage uuid).2.canceled ↔
      address ∈ s.canceled ∨ ∃ c, s.activeTimer uuid = some c ∧ c.address = address := by
  unfold cancelMessage
  cases hactive : s.activeTimer uuid with
  | none => simp
  | some c => simp [or_comm, eq_comm]

theorem popTimer_eq_some_iff :
    s.popTimer = some (container, s') ↔
      ∃ rest, popMax TimerContainer.less s.timerQueue = some (container, rest) ∧
        s' = { s with timerQueue := rest, currentTime := container.wakeup } := by
  unfold popTimer
  cases hpop : popMax TimerContainer.less s.timerQueue with
  | none => simp
  | some r =>
    obtain ⟨current, rest⟩ := r
    simp only [Option.some.injEq, Prod.mk.injEq]
    constructor
    · rintro ⟨rfl, rfl⟩
      exact ⟨rest, ⟨rfl, rfl⟩, rfl⟩
    · rintro ⟨rest', ⟨rfl, rfl⟩, rfl⟩
      exact ⟨rfl, rfl⟩

theorem topTimer_eq_none_iff : s.topTimer = none ↔ s.timerQueue = [] := top_eq_none_iff

theorem popTimer_currentTime (h : s.popTimer = some (container, s')) :
    s'.currentTime = container.wakeup := by
  obtain ⟨rest, -, rfl⟩ := popTimer_eq_some_iff.mp h
  rfl

theorem popTimer_currentUUID (h : s.popTimer = some (container, s')) :
    s'.currentUUID = s.currentUUID := by
  obtain ⟨rest, -, rfl⟩ := popTimer_eq_some_iff.mp h
  rfl

theorem mem_of_popTimer (h : s.popTimer = some (container, s')) : container ∈ s.timerQueue := by
  obtain ⟨rest, hpop, -⟩ := popTimer_eq_some_iff.mp h
  exact mem_of_popMax hpop

/-- The popped container has the least key of the queue. -/
theorem popTimer_key_le (h : s.popTimer = some (container, s')) :
    ∀ c ∈ s.timerQueue, container.key ≤ c.key := by
  obtain ⟨rest, hpop, -⟩ := popTimer_eq_some_iff.mp h
  exact popMax_key_le TimerContainer.less_iff hpop

/-- The first container of the queue has the least key. -/
theorem topTimer_key_le (h : s.topTimer = some container) :
    ∀ c ∈ s.timerQueue, container.key ≤ c.key := by
  obtain ⟨⟨current, rest⟩, hpop, rfl⟩ := Option.map_eq_some_iff.mp h
  exact popMax_key_le TimerContainer.less_iff hpop

theorem topTimer_of_popTimer (h : s.popTimer = some (container, s')) :
    s.topTimer = some container := by
  obtain ⟨rest, hpop, -⟩ := popTimer_eq_some_iff.mp h
  simp [topTimer, top, hpop]

end System

end Kens
