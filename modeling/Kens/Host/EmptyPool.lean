/-
# The code of a host on an empty pool

What the code of a host does does not depend on the messages in flight and on the processes that are
ready: it adds to both. So it can be run on an empty pool, and what it leaves there is what it asks
of the scheduler.
-/

import Mathlib
import Kens.Host.Simulation

namespace Kens.Host

open Semantics

/-! ## More messages and more ready processes -/

/-- A state that code has reached from an empty pool, with the pool and the ready processes of
another state put under it. -/
def State.onto (s base : State) : State where
  host := s.host
  pool := base.pool ++ s.pool
  runnableReady := base.runnableReady ∪ s.runnableReady
  awake := base.awake

variable {s base : State} {pid id now : ℕ} {val : ℤ}

theorem onto_blank (base : State) : ({ host := base.host } : State).onto base = base := by
  simp [State.onto]

theorem post_onto {message : HostMessage} {timeAfter : ℕ} :
    (s.onto base).post message timeAfter = (s.post message timeAfter).onto base := by
  simp [State.onto, State.post]

theorem launchApplication_onto : (s.onto base).launchApplication pid =
    (s.launchApplication pid).map fun r => (r.1.onto base, r.2) := by
  unfold State.launchApplication
  have same : (s.onto base).host = s.host := rfl
  rw [same]
  cases s.host.processInfoMap pid with
  | none => rfl
  | some info =>
    dsimp only
    split
    · rw [Option.map_map]
      congr 1
      funext state
      simp [State.onto, State.setApplication, Finset.union_insert]
    · rfl

theorem returnSystemCall_onto : (s.onto base).returnSystemCall id val =
    (s.returnSystemCall id val).map fun r => (r.1.onto base, r.2) := by
  unfold State.returnSystemCall
  have same : (s.onto base).host = s.host := rfl
  rw [same]
  cases s.host.syscallMap.lookup id with
  | none => rfl
  | some pid =>
    dsimp only
    cases s.host.processInfoMap pid with
    | none => rfl
    | some info =>
      dsimp only
      rw [Option.map_map]
      congr 1
      funext state
      simp [State.onto, State.setApplication, Finset.union_insert]

theorem returnAll_onto {ids : List ℕ} : (s.onto base).returnAll val ids =
    (s.returnAll val ids).map fun r => (r.1.onto base, r.2) := by
  induction ids generalizing s with
  | nil => rfl
  | cons id rest ih =>
    rw [State.returnAll, State.returnAll, returnSystemCall_onto]
    cases s.returnSystemCall id val with
    | none => rfl
    | some r =>
      change ((r.1.onto base).returnAll val rest).map _ = _
      rw [ih, Option.map_map, Option.map_map]
      rfl

theorem cleanUp_onto {order : List ℕ} : (s.onto base).cleanUp order =
    (s.cleanUp order).map fun r => (r.1.onto base, r.2) := by
  unfold State.cleanUp
  have same : (s.onto base).host = s.host := rfl
  rw [same]
  split
  -- the host stops before the first call is answered
  · have stopped : ({ s.onto base with host := { s.host with running := false } } : State) =
        ({ s with host := { s.host with running := false } } : State).onto base := rfl
    rw [stopped, returnAll_onto, Option.map_map, Option.map_map]
    rfl
  · rfl

theorem sendPacketToModule_onto {fromModule : Option String} {toModule : String} {packet : Packet}
    {junk : Mac} : (s.onto base).sendPacketToModule fromModule toModule packet junk =
      (s.sendPacketToModule fromModule toModule packet junk).map fun r => (r.1.onto base, r.2) := by
  unfold State.sendPacketToModule
  have same : (s.onto base).host = s.host := rfl
  rw [same]
  split
  · cases packet.readArray 6 junk with
    | none => rfl
    | some my_mac =>
      dsimp only
      cases s.host.selectPort my_mac (List.range s.host.ports.length) with
      | none => rfl
      | some selected_port =>
        dsimp only
        unfold State.sendPacket
        rw [same]
        cases s.host.ports[selected_port]? with
        | none => rfl
        | some portID =>
          dsimp only
          split <;> rfl
  · split
    · rw [post_onto]
      rfl
    · rfl

theorem defaultSystemCallback_onto {param : SystemCallParameter} :
    (s.onto base).defaultSystemCallback now id param =
      (s.defaultSystemCallback now id param).map fun r => (r.1.onto base, r.2) := by
  unfold State.defaultSystemCallback
  split
  -- to sleep is to post a timer
  · rw [Option.map_map]
    congr 1
    funext timeAfter
    simp [post_onto]
  · split
    · dsimp only
      split
      · exact returnSystemCall_onto
      · split
        · rfl
        · rw [returnSystemCall_onto, Option.map_map, Option.map_map]
          rfl
    · rfl
  · rfl

theorem syscallReceived_onto {param : SystemCallParameter} :
    (s.onto base).syscallReceived now pid param =
      (s.syscallReceived now pid param).map fun r => (r.1.onto base, r.2) := by
  unfold State.syscallReceived
  have same : (s.onto base).host = s.host := rfl
  rw [same]
  cases s.host.processInfoMap pid with
  | none => rfl
  | some info =>
    dsimp only
    split
    · rfl
    · cases namespaceOf info param with
      | none => rfl
      | some ns =>
        dsimp only
        split
        · cases s.host.nextSyscallID with
          | none => rfl
          | some curSyscallID =>
            dsimp only
            split
            · rfl
            · split
              -- the host serves the call itself, after the call was registered
              · have entered (host : Host) : ({ s.onto base with host := host } : State) =
                    ({ s with host := host } : State).onto base := rfl
                rw [entered, defaultSystemCallback_onto, Option.map_map, Option.map_map]
                rfl
              · rfl
        · rfl

/-- When no process is ready, all messages are handled as on an empty pool. -/
theorem messageReceived_onto {message : HostMessage} (drained : base.runnableReady = ∅) :
    (s.onto base).messageReceived now message =
      (s.messageReceived now message).map fun r => (r.1.onto base, r.2) := by
  have same : (s.onto base).host = s.host := rfl
  cases message with
  | packetFromPort packet =>
    rw [State.messageReceived, State.messageReceived, same]
    split
    · exact sendPacketToModule_onto
    · rfl
  | packetPass fromModule toModule packet =>
    rw [State.messageReceived, State.messageReceived, same]
    split <;> rfl
  | syscall pid param => exact syscallReceived_onto
  | timer payload =>
    cases payload with
    | none => rfl
    | some id => exact returnSystemCall_onto
  | ret pid returnValue =>
    change (s.onto base).returnReceived pid = (s.returnReceived pid).map _
    unfold State.returnReceived
    rw [same]
    cases s.host.processInfoMap pid with
    | none => rfl
    | some info =>
      dsimp only
      split
      · rfl
      -- the process is erased from the ready ones, on both sides from the empty set
      · simp [State.onto, drained]

/-- The calls of `Action` that modules and outside code make, apart from those that a step of the
scheduler stands for. -/
def Action.isCall : Action → Bool
  | .addInterface _ | .cleanUp _ | .returnSystemCall _ _ | .createFileDescriptor _ _
  | .removeFileDescriptor _ _ | .addTimer _ | .sendPacket _ _ _ _ => true
  | _ => false

theorem stepIdle_onto {a : Action} (call : a.isCall = true) :
    (s.onto base).stepIdle a = (s.stepIdle a).map fun r => (r.1.onto base, r.2) := by
  have same : (s.onto base).host = s.host := rfl
  cases a with
  | addInterface ns =>
    rw [State.stepIdle, State.stepIdle, same]
    split <;> rfl
  | cleanUp order => exact cleanUp_onto
  | returnSystemCall syscallUUID val => exact returnSystemCall_onto
  | createFileDescriptor ns processID =>
    rw [State.stepIdle, State.stepIdle, same]
    split
    · rw [Option.map_map]
      rfl
    · rfl
  | removeFileDescriptor processID fd => rfl
  | addTimer timeAfter =>
    rw [State.stepIdle, State.stepIdle, post_onto]
    rfl
  | sendPacket fromModule toModule packet junk => exact sendPacketToModule_onto
  -- the others are not calls
  | addApplication => simp [Action.isCall] at call
  | launchApplication pid => simp [Action.isCall] at call
  | packetFromPort packet => simp [Action.isCall] at call
  | cancelTimer index => simp [Action.isCall] at call
  | wake pid => simp [Action.isCall] at call
  | dispatch index now => simp [Action.isCall] at call
  | syscall param => simp [Action.isCall] at call
  | finish returnValue => simp [Action.isCall] at call

/-! ## The applications that code makes ready -/

/-- The state of the application of a process. -/
def stateOf (host : Host) (pid : ℕ) : Option Runnable.State :=
  (host.processInfoMap pid).map fun info => info.application.state

/-- From an empty pool, code has made the processes ready that it lists, and no others. -/
structure Readies (transition : Runnable.State → Option Runnable.State) (host : Host)
    (s : State) : Prop where
  ready : ∀ pid ∈ s.runnableReady,
    (stateOf host pid).bind transition = some .ready ∧ stateOf s.host pid = some .ready
  rest : ∀ pid, pid ∉ s.runnableReady → stateOf s.host pid = stateOf host pid

variable {s' : State} {new : List Event} {host : Host}
  {transition : Runnable.State → Option Runnable.State}

/-- A process that becomes ready was there before. -/
theorem Readies.present (h : Readies transition host s) (member : pid ∈ s.runnableReady) :
    (stateOf host pid).isSome := by
  obtain ⟨state, found, -⟩ := Option.bind_eq_some_iff.mp (h.ready pid member).1
  rw [found]
  rfl

theorem Readies.isSome_iff (h : Readies transition host s) (pid : ℕ) :
    (stateOf s.host pid).isSome ↔ (stateOf host pid).isSome := by
  by_cases member : pid ∈ s.runnableReady
  · rw [(h.ready pid member).2]
    exact iff_of_true rfl (h.present member)
  · rw [h.rest pid member]

theorem readies_blank (host : Host) : Readies transition host { host := host } where
  ready := by simp
  rest _ _ := rfl

/-- Code that leaves the applications alone. -/
theorem Readies.frame (h : Readies transition host s)
    (states : ∀ pid, stateOf s'.host pid = stateOf s.host pid)
    (ready : s'.runnableReady = s.runnableReady) : Readies transition host s' where
  ready pid member := by
    rw [states]
    exact h.ready pid (ready ▸ member)
  rest pid outside := by
    rw [states]
    exact h.rest pid (ready ▸ outside)

theorem stateOf_setProcess {info : ProcessInfo} {p : ℕ} :
    stateOf (host.setProcess pid info) p =
      if p = pid then some info.application.state else stateOf host p := by
  by_cases same : p = pid
  · simp [stateOf, setProcess, same]
  · simp [stateOf, setProcess, same]

/-- Descriptors are not part of the state of an application. -/
theorem stateOf_update_fds {info : ProcessInfo} {fds : List (ℤ × Namespace)} {p : ℕ}
    (found : host.processInfoMap pid = some info) :
    stateOf (host.setProcess pid { info with fdToDomain := fds }) p = stateOf host p := by
  rw [stateOf_setProcess]
  split
  next same => rw [same, stateOf, found, Option.map_some]
  · rfl

/-- One more application becomes ready. -/
theorem Readies.insert (h : Readies transition host s) {state : Runnable.State}
    (before : stateOf s.host pid = some state) (moves : transition state = some .ready)
    (unready : state ≠ .ready)
    (states : ∀ p, stateOf s'.host p = if p = pid then some .ready else stateOf s.host p)
    (ready : s'.runnableReady = Insert.insert pid s.runnableReady) :
    Readies transition host s' := by
  -- an application that is ready already does not become ready again
  have first : pid ∉ s.runnableReady := by
    intro member
    have already := (h.ready pid member).2
    rw [before] at already
    exact unready (Option.some.inj already)
  constructor
  · intro p member
    rw [ready, Finset.mem_insert] at member
    by_cases same : p = pid
    · subst same
      rw [states, if_pos rfl, ← h.rest p first, before]
      exact ⟨moves, rfl⟩
    · rw [states, if_neg same]
      exact h.ready p (member.resolve_left same)
  · intro p outside
    rw [ready, Finset.mem_insert, not_or] at outside
    rw [states, if_neg outside.1]
    exact h.rest p outside.2

theorem created_of_start {before after : Runnable.State}
    (h : Runnable.start before = some after) : before = .created ∧ after = .ready := by
  cases before <;> simp [Runnable.start] at h ⊢
  exact h.symm

theorem readies_launchApplication (h : s.launchApplication pid = some (s', new))
    (base : Readies Runnable.start host s) : Readies Runnable.start host s' := by
  unfold State.launchApplication at h
  split at h
  · simp at h
  next info found =>
    split at h
    · obtain ⟨state, started, same⟩ := Option.map_eq_some_iff.mp h
      obtain ⟨rfl, -⟩ := Prod.mk.inj same
      obtain ⟨before, rfl⟩ := created_of_start started
      refine base.insert (by rw [stateOf, found]; rfl) started (by simp [before])
        (fun p => ?_) rfl
      exact stateOf_setProcess
    · simp at h

theorem readies_returnSystemCall (h : s.returnSystemCall id val = some (s', new))
    (base : Readies Runnable.ready host s) : Readies Runnable.ready host s' := by
  obtain ⟨-, ⟨-, rfl⟩ | ⟨pid, info, -, found, waiting, rfl⟩⟩ := returnSystemCall_cases h
  · exact base
  · have before : stateOf s.host pid = some .waiting := by
      rw [stateOf, found, Option.map_some, waiting]
    refine base.insert before rfl (by simp) (fun p => ?_) rfl
    exact stateOf_setProcess

theorem readies_returnAll {ids : List ℕ} (h : s.returnAll val ids = some (s', new))
    (base : Readies Runnable.ready host s) : Readies Runnable.ready host s' := by
  induction ids generalizing s new with
  | nil =>
    obtain ⟨rfl, -⟩ : s = s' ∧ [] = new := by simpa [State.returnAll] using h
    exact base
  | cons id rest ih =>
    rw [State.returnAll] at h
    split at h
    · simp at h
    next middle first answered =>
      obtain ⟨⟨t, later⟩, all, same⟩ := Option.map_eq_some_iff.mp h
      obtain ⟨rfl, -⟩ := Prod.mk.inj same
      exact ih all (readies_returnSystemCall answered base)

theorem readies_cleanUp {order : List ℕ} (h : s.cleanUp order = some (s', new))
    (base : Readies Runnable.ready host s) : Readies Runnable.ready host s' := by
  unfold State.cleanUp at h
  split at h
  · obtain ⟨⟨t, returns⟩, all, same⟩ := Option.map_eq_some_iff.mp h
    obtain ⟨rfl, -⟩ := Prod.mk.inj same
    exact readies_returnAll all (base.frame (fun _ => rfl) rfl)
  · simp at h

theorem readies_sendPacketToModule {fromModule : Option String} {toModule : String}
    {packet : Packet} {junk : Mac}
    (h : s.sendPacketToModule fromModule toModule packet junk = some (s', new))
    (base : Readies transition host s) : Readies transition host s' := by
  unfold State.sendPacketToModule at h
  split at h
  · split at h
    · simp at h
    · split at h
      · simp at h
      · unfold State.sendPacket at h
        split at h
        · simp at h
        · split at h
          · obtain ⟨rfl, -⟩ := Prod.mk.inj (Option.some.inj h)
            exact base
          · obtain ⟨rfl, -⟩ := Prod.mk.inj (Option.some.inj h)
            exact base
  · split at h
    · obtain ⟨rfl, -⟩ := Prod.mk.inj (Option.some.inj h)
      exact base.frame (fun _ => rfl) rfl
    · obtain ⟨rfl, -⟩ := Prod.mk.inj (Option.some.inj h)
      exact base

theorem readies_defaultSystemCallback {param : SystemCallParameter}
    (h : s.defaultSystemCallback now id param = some (s', new))
    (base : Readies Runnable.ready host s) : Readies Runnable.ready host s' := by
  unfold State.defaultSystemCallback at h
  split at h
  · obtain ⟨timeAfter, -, same⟩ := Option.map_eq_some_iff.mp h
    obtain ⟨rfl, -⟩ := Prod.mk.inj same
    exact base.frame (fun _ => rfl) rfl
  · split at h
    · dsimp only at h
      split at h
      · exact readies_returnSystemCall h base
      · split at h
        · simp at h
        · obtain ⟨⟨t, later⟩, answered, same⟩ := Option.map_eq_some_iff.mp h
          obtain ⟨rfl, -⟩ := Prod.mk.inj same
          exact readies_returnSystemCall answered base
    · simp at h
  · simp at h

theorem readies_syscallReceived {param : SystemCallParameter}
    (h : s.syscallReceived now pid param = some (s', new))
    (base : Readies Runnable.ready host s) : Readies Runnable.ready host s' := by
  obtain ⟨info, ns, -, -, ⟨-, rfl, -⟩ | ⟨id, later, -, -, -, served⟩⟩ := syscallReceived_cases h
  · exact base
  · have entered : Readies Runnable.ready host (s.registered id pid) :=
      base.frame (fun _ => rfl) rfl
    obtain ⟨-, rfl, -⟩ | ⟨-, called⟩ := served
    · exact entered
    · exact readies_defaultSystemCallback called entered

/-- Messages other than the end of a process answer calls and do nothing else to applications. -/
theorem readies_messageReceived {message : HostMessage}
    (going : ∀ pid val, message ≠ .ret pid val)
    (h : s.messageReceived now message = some (s', new))
    (base : Readies Runnable.ready host s) : Readies Runnable.ready host s' := by
  cases message with
  | packetFromPort packet =>
    rw [State.messageReceived] at h
    split at h
    · exact readies_sendPacketToModule h base
    · obtain ⟨rfl, -⟩ := Prod.mk.inj (Option.some.inj h)
      exact base
  | packetPass fromModule toModule packet =>
    rw [State.messageReceived] at h
    split at h
    · obtain ⟨rfl, -⟩ := Prod.mk.inj (Option.some.inj h)
      exact base
    · obtain ⟨rfl, -⟩ := Prod.mk.inj (Option.some.inj h)
      exact base
  | syscall pid param => exact readies_syscallReceived h base
  | timer payload =>
    cases payload with
    | none =>
      obtain ⟨rfl, -⟩ := Prod.mk.inj (Option.some.inj h)
      exact base
    | some id => exact readies_returnSystemCall h base
  | ret pid val => exact absurd rfl (going pid val)

theorem readies_stepIdle {a : Action} (call : a.isCall = true)
    (h : s.stepIdle a = some (s', new)) (base : Readies Runnable.ready host s) :
    Readies Runnable.ready host s' := by
  cases a with
  | addInterface ns =>
    rw [State.stepIdle] at h
    split at h
    · simp at h
    · obtain ⟨rfl, -⟩ := Prod.mk.inj (Option.some.inj h)
      exact base.frame (fun _ => rfl) rfl
  | cleanUp order => exact readies_cleanUp h base
  | returnSystemCall syscallUUID val => exact readies_returnSystemCall h base
  | createFileDescriptor ns processID =>
    rw [State.stepIdle] at h
    split at h
    · obtain ⟨⟨fd, host'⟩, created, same⟩ := Option.map_eq_some_iff.mp h
      obtain ⟨rfl, -⟩ := Prod.mk.inj same
      refine base.frame (fun p => ?_) rfl
      unfold createFileDescriptor at created
      split at created
      · simp at created
      next info found =>
        dsimp only at created
        split at created
        -- no number is free
        · obtain ⟨-, rfl⟩ := Prod.mk.inj (Option.some.inj created)
          rfl
        · obtain ⟨-, rfl⟩ := Prod.mk.inj (Option.some.inj created)
          exact stateOf_update_fds found
    · simp at h
  | removeFileDescriptor processID fd =>
    obtain ⟨rfl, -⟩ := Prod.mk.inj (Option.some.inj h)
    refine base.frame (fun p => ?_) rfl
    change stateOf (s.host.removeFileDescriptor processID fd) p = _
    unfold removeFileDescriptor
    split
    · rfl
    next info found => exact stateOf_update_fds found
  | addTimer timeAfter =>
    obtain ⟨rfl, -⟩ := Prod.mk.inj (Option.some.inj h)
    exact base.frame (fun _ => rfl) rfl
  | sendPacket fromModule toModule packet junk => exact readies_sendPacketToModule h base
  | addApplication => simp [Action.isCall] at call
  | launchApplication pid => simp [Action.isCall] at call
  | packetFromPort packet => simp [Action.isCall] at call
  | cancelTimer index => simp [Action.isCall] at call
  | wake pid => simp [Action.isCall] at call
  | dispatch index now => simp [Action.isCall] at call
  | syscall param => simp [Action.isCall] at call
  | finish returnValue => simp [Action.isCall] at call

/-! ## Applications in control -/

/-- What an application does when it gets control or gives it back: its own state changes, and no
other process becomes ready. -/
structure Turns (host : Host) (pid : ℕ) (before after : Runnable.State) (s : State) : Prop where
  quiet : s.runnableReady = ∅
  before : stateOf host pid = some before
  after : ∀ p, stateOf s.host p = if p = pid then some after else stateOf host p

theorem Turns.isSome_iff {host : Host} {before after : Runnable.State}
    (turns : Turns host pid before after s) (p : ℕ) :
    (stateOf s.host p).isSome ↔ (stateOf host p).isSome := by
  rw [turns.after]
  split
  next same => simp [same, turns.before]
  · rfl

theorem ready_of_wake {before after : Runnable.State} (h : Runnable.wake before = some after) :
    before = .ready ∧ after = .running := by
  cases before <;> simp [Runnable.wake] at h ⊢
  exact h.symm

theorem running_of_wait {before after : Runnable.State} (h : Runnable.wait before = some after) :
    before = .running ∧ after = .waiting := by
  cases before <;> simp [Runnable.wait] at h ⊢
  exact h.symm

theorem running_of_finish {before after : Runnable.State}
    (h : Runnable.finish before = some after) : before = .running ∧ after = .terminated := by
  cases before <;> simp [Runnable.finish] at h ⊢
  exact h.symm

theorem wake_blank {host : Host} (h : ({ host := host } : State).wake pid = some (s, new)) :
    Turns host pid .ready .running s ∧ s.pool = [] ∧ (∀ event ∈ new, event.pid = some pid) ∧
      ∀ base : State, base.host = host →
        base.wake pid = some ({ base with host := s.host, awake := some pid }, new) := by
  unfold State.wake at h
  split at h
  · simp at h
  next info found =>
    obtain ⟨state, woken, same⟩ := Option.map_eq_some_iff.mp h
    obtain ⟨rfl, rfl⟩ := Prod.mk.inj same
    obtain ⟨before, rfl⟩ := ready_of_wake woken
    refine ⟨⟨rfl, ?_, fun p => stateOf_setProcess⟩, rfl, ?_, ?_⟩
    · change host.processInfoMap pid = some info at found
      rw [stateOf, found, Option.map_some, before]
    · split <;> simp [Event.pid]
    · rintro base rfl
      change base.host.processInfoMap pid = some info at found
      simp only [State.wake, found, woken, Option.map_some]
      rfl

/-- A call by an application, unless the host is not running. -/
theorem issue_blank {host : Host} {param : SystemCallParameter}
    (h : ({ host := host } : State).issue pid param = some (s, new)) :
    (host.running = false ∧ s = { host := host } ∧ (∀ event ∈ new, event.pid = some pid) ∧
      (stateOf host pid).isSome ∧ ∀ base : State, base.host = host →
        base.issue pid param = some (base, new)) ∨
    (host.running = true ∧ Turns host pid .running .waiting s ∧ ∀ base : State, base.host = host →
      base.issue pid param = some ({ base with
        host := s.host
        pool := base.pool ++ s.pool
        runnableReady := base.runnableReady.erase pid
        awake := none }, new)) := by
  unfold State.issue at h
  split at h
  · simp at h
  next info found =>
    change host.processInfoMap pid = some info at found
    split at h
    -- the call is refused, and the application keeps control
    next stopped =>
      obtain ⟨rfl, rfl⟩ := Prod.mk.inj (Option.some.inj h)
      refine .inl ⟨stopped, rfl, by simp [Event.pid], by simp [stateOf, found], ?_⟩
      rintro base rfl
      change base.host.running = false at stopped
      simp only [State.issue, found, stopped, if_true]
    next going =>
      change ¬ host.running = false at going
      obtain ⟨state, waits, same⟩ := Option.map_eq_some_iff.mp h
      obtain ⟨rfl, rfl⟩ := Prod.mk.inj same
      obtain ⟨before, rfl⟩ := running_of_wait waits
      refine .inr ⟨by simpa using going, ⟨rfl, ?_, fun p => stateOf_setProcess⟩, ?_⟩
      · rw [stateOf, found, Option.map_some, before]
      · rintro base rfl
        simp only [State.issue, found, waits, Option.map_some, if_neg going]
        rfl

theorem terminate_blank {host : Host} {returnValue : ℤ}
    (h : ({ host := host } : State).terminate pid returnValue = some (s, new)) :
    Turns host pid .running .terminated s ∧ ∀ base : State, base.host = host →
      base.terminate pid returnValue = some ({ base with
        host := s.host
        pool := base.pool ++ s.pool
        runnableReady := base.runnableReady.erase pid
        awake := none }, new) := by
  unfold State.terminate at h
  split at h
  · simp at h
  next info found =>
    change host.processInfoMap pid = some info at found
    obtain ⟨state, ends, same⟩ := Option.map_eq_some_iff.mp h
    obtain ⟨rfl, rfl⟩ := Prod.mk.inj same
    obtain ⟨before, rfl⟩ := running_of_finish ends
    refine ⟨⟨rfl, ?_, fun p => stateOf_setProcess⟩, ?_⟩
    · rw [stateOf, found, Option.map_some, before]
    · rintro base rfl
      simp only [State.terminate, found, ends, Option.map_some]
      rfl

/-- The end of a process takes its entry away. -/
theorem returnReceived_blank {host : Host}
    (h : ({ host := host } : State).returnReceived pid = some (s, new)) :
    s.runnableReady = ∅ ∧ s.pool = [] ∧ (∀ event ∈ new, event.pid = some pid) ∧
      ∀ p, stateOf s.host p = if p = pid then none else stateOf host p := by
  unfold State.returnReceived at h
  split at h
  · simp at h
  · split at h
    · simp at h
    · obtain ⟨rfl, rfl⟩ := Prod.mk.inj (Option.some.inj h)
      refine ⟨by simp, rfl, by simp [Event.pid], fun p => ?_⟩
      by_cases same : p = pid
      · simp [stateOf, same]
      · simp [stateOf, same]

end Kens.Host
