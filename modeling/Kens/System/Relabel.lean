/-
# The scheduler does not look into messages

Due times and UUIDs decide everything that the scheduler does. A system whose messages are
renamed therefore does the same with the new names, and a system with several kinds of messages can
be seen as one that knows only some of them.
-/

import Mathlib
import Kens.System.Reactive

namespace Kens

open Semantics

variable {M M' : Type} {f : M → M'}

/-- Rename the message of a container. -/
def TimerContainer.map (f : M → M') (c : TimerContainer M) : TimerContainer M' where
  address := c.address
  source := c.source
  target := c.target
  wakeup := c.wakeup
  message := f c.message
  uuid := c.uuid

def Send.map (f : M → M') (send : Send M) : Send M' :=
  ⟨send.source, send.target, f send.message, send.timeAfter⟩

/-- Rename all messages of a system. -/
def System.map (f : M → M') (s : System M) : System M' where
  currentTime := s.currentTime
  currentUUID := s.currentUUID
  timerQueue := s.timerQueue.map (TimerContainer.map f)
  activeTimer uuid := (s.activeTimer uuid).map (TimerContainer.map f)
  activeUUID := s.activeUUID
  canceled := s.canceled
  nextAddress := s.nextAddress
  runnableReady := s.runnableReady

/-- A queue whose elements are renamed. -/
theorem Semantics.popMax_map {α β : Type*} {less : α → α → Bool} {less' : β → β → Bool} {g : α → β}
    (same : ∀ a b, less' (g a) (g b) = less a b) (queue : List α) :
    popMax less' (queue.map g) = (popMax less queue).map fun r => (g r.1, r.2.map g) := by
  induction queue with
  | nil => rfl
  | cons a queue ih =>
    rw [List.map_cons, popMax, popMax, ih]
    cases popMax less queue with
    | none => rfl
    | some r =>
      dsimp only [Option.map_some]
      rw [same]
      split <;> rfl

namespace System

variable {s s' : System M} {c : TimerContainer M}

@[simp] theorem map_timerQueue : (s.map f).timerQueue = s.timerQueue.map (TimerContainer.map f) :=
  rfl

theorem popTimer_map :
    (s.map f).popTimer = s.popTimer.map fun r => (r.1.map f, r.2.map f) := by
  have popped : popMax TimerContainer.less (s.map f).timerQueue =
      (popMax TimerContainer.less s.timerQueue).map fun r =>
        (r.1.map f, r.2.map (TimerContainer.map f)) :=
    popMax_map (fun _ _ => rfl) s.timerQueue
  rw [popTimer, popTimer, popped]
  cases popMax TimerContainer.less s.timerQueue <;> rfl

theorem push_map : (s.push c).map f = (s.map f).push (c.map f) := by
  have table : (fun uuid => (insertNew s.activeTimer c.uuid c uuid).map (TimerContainer.map f)) =
      insertNew (s.map f).activeTimer c.uuid (c.map f) := by
    have none_iff : ((s.map f).activeTimer c.uuid).isNone = (s.activeTimer c.uuid).isNone := by
      change ((s.activeTimer c.uuid).map (TimerContainer.map f)).isNone = _
      rw [Option.isNone_map]
    rw [insertNew, insertNew, none_iff]
    split
    · funext uuid
      by_cases same : uuid = c.uuid
      · simp [same]
      · simp [same, System.map]
    · rfl
  simp only [System.map, push, List.map_append, List.map_cons, List.map_nil] at table ⊢
  rw [table]
  rfl

theorem sendMessage_map (source target : ℕ) (message : M) (timeAfter : ℕ) :
    (s.map f).sendMessage source target (f message) timeAfter =
      (s.sendMessage source target message timeAfter).map fun r => (r.1.map f, r.2.map f) := by
  by_cases used : (s.currentUUID + 1) % 2 ^ 64 ∈ s.activeUUID
  · have used' : ((s.map f).currentUUID + 1) % 2 ^ 64 ∈ (s.map f).activeUUID := used
    rw [sendMessage, sendMessage, allocateUUID, allocateUUID, if_pos used, if_pos used']
    rfl
  · have sent : s.sendMessage source target message timeAfter = some (_, _) :=
      sendMessage_eq_some_iff.mpr ⟨used, rfl, rfl⟩
    rw [sent, Option.map_some, sendMessage_eq_some_iff, push_map]
    exact ⟨used, rfl, rfl⟩

theorem release_map : (s.release c).map f = (s.map f).release (c.map f) := by
  have table : (fun uuid => (Function.update s.activeTimer c.uuid none uuid).map
      (TimerContainer.map f)) = Function.update (s.map f).activeTimer c.uuid none := by
    funext uuid
    by_cases same : uuid = c.uuid
    · simp [same]
    · simp [same, System.map]
  simp only [System.map, release] at table ⊢
  rw [table]
  rfl

end System

namespace Reactive

variable {s s' : System M} {c : TimerContainer M} {sends : List (Send M)}

theorem sendAll_map (s : System M) (sends : List (Send M)) :
    sendAll (s.map f) (sends.map (Send.map f)) = (sendAll s sends).map (System.map f) := by
  induction sends generalizing s with
  | nil => rfl
  | cons send rest ih =>
    rw [List.map_cons, sendAll, sendAll]
    have sent := @System.sendMessage_map M M' f s send.source send.target send.message
      send.timeAfter
    cases sends : s.sendMessage send.source send.target send.message send.timeAfter with
    | none =>
      rw [sends] at sent
      dsimp only [Send.map]
      rw [sent]
      rfl
    | some r =>
      rw [sends] at sent
      dsimp only [Send.map]
      rw [sent]
      exact ih r.2

theorem sendAll_cons (send : Send M) (rest : List (Send M)) :
    sendAll s (send :: rest) = (sendAll s [send]).bind (sendAll · rest) := by
  rw [sendAll, sendAll]
  cases s.sendMessage send.source send.target send.message send.timeAfter <;> rfl

/-- A new container and one that is released do not get into each other's way. -/
theorem push_release {container : TimerContainer M} (different : container.uuid ≠ c.uuid) :
    (s.release c).push container = (s.push container).release c := by
  have table : System.insertNew (Function.update s.activeTimer c.uuid none) container.uuid
      container = Function.update (System.insertNew s.activeTimer container.uuid container)
        c.uuid none := by
    rw [System.insertNew, System.insertNew, Function.update_of_ne different]
    split
    · exact Function.update_comm different.symm ..
    · rfl
  have uuids : insert container.uuid (s.activeUUID.erase c.uuid) =
      (insert container.uuid s.activeUUID).erase c.uuid :=
    (Finset.erase_insert_of_ne different).symm
  simp only [System.push, System.release, table, uuids]

/-- It does not matter whether a handler sends before or after the end of its dispatch. -/
theorem sendAll_release (sound : Sound s) (fits : Fits s sends) (old : c.uuid ≤ s.currentUUID) :
    sendAll (s.release c) sends = (sendAll s sends).map (System.release · c) := by
  induction sends generalizing s with
  | nil => rfl
  | cons send rest ih =>
    have count := fits.2
    rw [List.length_cons] at count
    have next : (s.currentUUID + 1) % 2 ^ 64 = s.currentUUID + 1 := Nat.mod_eq_of_lt (by omega)
    have free : (s.currentUUID + 1) % 2 ^ 64 ∉ s.activeUUID := by
      rw [next]
      intro used
      have := sound.active _ used
      omega
    obtain ⟨container, built⟩ : ∃ container, container = s.newContainer send.source send.target
        send.message send.timeAfter ((s.currentUUID + 1) % 2 ^ 64) := ⟨_, rfl⟩
    have sent : s.sendMessage send.source send.target send.message send.timeAfter =
        some (container, s.push container) :=
      System.sendMessage_eq_some_iff.mpr ⟨free, built, rfl⟩
    have released : (s.release c).sendMessage send.source send.target send.message send.timeAfter =
        some (container, (s.release c).push container) :=
      System.sendMessage_eq_some_iff.mpr
        ⟨fun used => free (Finset.mem_of_mem_erase used), built, rfl⟩
    -- the scheduler after the first send is sound again
    have fresh : container.uuid = s.currentUUID + 1 := by
      rw [built]
      exact next
    have later : s.currentTime ≤ container.wakeup := by
      rw [built]
      change s.currentTime ≤ (s.currentTime + send.timeAfter) % 2 ^ 64
      rw [Nat.mod_eq_of_lt (fits.1 send List.mem_cons_self)]
      exact Nat.le_add_right ..
    have sound' : Sound (s.push container) := sound.push later fresh
    have fits' : Fits (s.push container) rest := fits.tail rfl fresh
    have old' : c.uuid ≤ (s.push container).currentUUID := by
      change c.uuid ≤ container.uuid
      omega
    rw [sendAll, sendAll, sent, released]
    dsimp only
    rw [push_release (by omega), ih sound' fits' old']

theorem Sound.map (sound : Sound s) : Sound (s.map f) where
  future := by
    intro c member
    obtain ⟨d, queued, rfl⟩ := List.mem_map.mp member
    exact sound.future d queued
  sorted := by
    rw [System.map_timerQueue, List.pairwise_map]
    exact sound.sorted
  issued := by
    intro c member
    obtain ⟨d, queued, rfl⟩ := List.mem_map.mp member
    exact sound.issued d queued
  active := sound.active
  uncanceled := sound.uncanceled

/-! ## Views of modules -/

variable {σ τ α β : Type} {g : σ → τ} {h : α → β}

def Input.map (h : α → β) : Input α → Input β
  | .dispatch => .dispatch
  | .act a => .act (h a)

def Record.map (f : M → M') (h : α → β) : Record M α → Record M' β
  | .acted a now sends => .acted (h a) now (sends.map (Send.map f))
  | .received c sends => .received (c.map f) (sends.map (Send.map f))

/-- The same scheduler with other names for the messages and another view of the memory. -/
def State.view (f : M → M') (g : σ → τ) (x : State M σ) : State M' τ := ⟨x.sys.map f, g x.memory⟩

/-- Modules that do under a view what others do. -/
structure Views (R : Reactive M σ α) (R' : Reactive M' τ β) (f : M → M') (g : σ → τ)
    (h : α → β) : Prop where
  acts : ∀ memory now a, R'.act (g memory) now (h a) =
    (R.act memory now a).map fun r => (g r.1, r.2.map (Send.map f))
  receives : ∀ memory now c, R'.receive (g memory) now (c.map f) =
    (R.receive memory now c).map fun r => (g r.1, r.2.map (Send.map f))

variable {R : Reactive M σ α} {R' : Reactive M' τ β} {x y : State M σ} {inputs : List (Input α)}
  {log : List (Record M α)} {ok : State M σ → Input α → Prop} {ok' : State M' τ → Input β → Prop}

/-- They take the same steps. -/
theorem Views.step (views : Views R R' f g h) (x : State M σ) (input : Input α) :
    R'.machine.step (x.view f g) (input.map h) =
      (R.machine.step x input).map fun r => (r.1.view f g, r.2.map (Record.map f h)) := by
  cases input with
  | act a =>
    change R'.step (x.view f g) (.act (h a)) = (R.step x (.act a)).map _
    simp only [Reactive.step, State.view]
    rw [views.acts, show (x.sys.map f).currentTime = x.sys.currentTime from rfl]
    cases R.act x.memory x.sys.currentTime a with
    | none => rfl
    | some r =>
      dsimp only [Option.map_some]
      rw [sendAll_map]
      cases sendAll x.sys r.2 <;> rfl
  | dispatch =>
    change R'.step (x.view f g) .dispatch = (R.step x .dispatch).map _
    simp only [Reactive.step, State.view]
    rw [System.popTimer_map]
    cases x.sys.popTimer with
    | none => rfl
    | some popped =>
      dsimp only [Option.map_some]
      by_cases canceled : popped.1.address ∈ popped.2.canceled
      · have canceled' : (popped.1.map f).address ∈ (popped.2.map f).canceled := canceled
        rw [if_pos canceled, if_pos canceled', ← System.release_map]
        rfl
      · have live : (popped.1.map f).address ∉ (popped.2.map f).canceled := canceled
        rw [if_neg canceled, if_neg live, views.receives,
          show (popped.2.map f).currentTime = popped.2.currentTime from rfl]
        cases R.receive x.memory popped.2.currentTime popped.1 with
        | none => rfl
        | some r =>
          dsimp only [Option.map_some]
          rw [sendAll_map]
          cases sendAll popped.2 r.2 with
          | none => rfl
          | some sys =>
            dsimp only [Option.map_some]
            rw [← System.release_map]
            rfl

theorem Fits.map {sends : List (Send M)} (fits : Fits s sends) :
    Fits (s.map f) (sends.map (Send.map f)) := by
  refine ⟨fun send member => ?_, ?_⟩
  · obtain ⟨other, listed, rfl⟩ := List.mem_map.mp member
    exact fits.1 other listed
  · rw [List.length_map]
    exact fits.2

/-- Nothing wraps for the ones that does not for the others. -/
theorem Views.noWrap (views : Views R R' f g h) {input : Input α} (fits : R.NoWrap x input) :
    R'.NoWrap (x.view f g) (input.map h) := by
  cases input with
  | act a =>
    intro result handled
    change R'.act (g x.memory) x.sys.currentTime (h a) = some result at handled
    rw [views.acts] at handled
    obtain ⟨r, value, rfl⟩ := Option.map_eq_some_iff.mp handled
    exact (fits r value).map
  | dispatch =>
    intro popped pop result handled
    change (x.sys.map f).popTimer = some popped at pop
    rw [System.popTimer_map] at pop
    obtain ⟨r, first, rfl⟩ := Option.map_eq_some_iff.mp pop
    change R'.receive (g x.memory) r.2.currentTime (r.1.map f) = some result at handled
    rw [views.receives] at handled
    obtain ⟨r', value, rfl⟩ := Option.map_eq_some_iff.mp handled
    exact (fits r first r' value).map

/-- Their runs are the same under the view. -/
theorem Views.run (views : Views R R' f g h)
    (guard : ∀ x input, ok x input → ok' (x.view f g) (input.map h))
    (run : R.machine.Run ok x inputs log y) :
    R'.machine.Run ok' (x.view f g) (inputs.map (Input.map h)) (log.map (Record.map f h))
      (y.view f g) := by
  induction run with
  | nil => exact .nil
  | snoc before allowed step ih =>
    rw [List.map_append, List.map_append]
    refine ih.snoc (guard _ _ allowed) ?_
    rw [views.step, step]
    rfl

end Reactive

end Kens
