/-
# What a host knows about one process

It is spread over the tables of the host, the messages in flight and the state of
the application thread, and all of it is determined by the phase of the process.
-/

import Mathlib
import Kens.Semantics.Lookup
import Kens.Host.Protocol

namespace Kens.Host

open Semantics

/-! ## The view of one process -/

def isSyscall (pid : ℕ) (posted : Posted) : Bool :=
  match posted.message with
  | .syscall p _ => p = pid
  | _ => false

def isReturn (pid : ℕ) (posted : Posted) : Bool :=
  match posted.message with
  | .ret p _ => p = pid
  | _ => false

/-- What concerns one process: its application, the number of its system calls in
flight, the ids of its registered calls, the number of its `Return` messages in
flight, and whether the scheduler holds it ready or has given it control. -/
structure View where
  application : Option Application
  calls : ℕ
  entries : List ℕ
  returns : ℕ
  ready : Prop
  awake : Prop

def State.view (s : State) (pid : ℕ) : View where
  application := (s.host.processInfoMap pid).map ProcessInfo.application
  calls := s.pool.countP (isSyscall pid)
  entries := (s.host.syscallMap.filter fun entry => entry.2 = pid).map Prod.fst
  returns := s.pool.countP (isReturn pid)
  ready := pid ∈ s.runnableReady
  awake := s.awake = some pid

namespace Phase

/-- The state of the application thread. -/
def state : Phase → Option Runnable.State
  | absent => none
  | created => some .created
  | launched => some .ready
  | running => some .running
  | issued => some .waiting
  | registered _ => some .waiting
  | lost => some .waiting
  | answered _ => some .ready
  | terminated => some .terminated

def entries : Phase → List ℕ
  | registered id => [id]
  | _ => []

def isReady : Phase → Bool
  | launched | running | answered _ => true
  | _ => false

def isAwake : Phase → Bool
  | running => true
  | _ => false

end Phase

/-- A phase determines the view. -/
structure Shows (pid : ℕ) (phase : Phase) (v : View) : Prop where
  application : v.application.map (fun app => (app.pid, app.state, app.inSyscall)) =
    phase.state.map fun state => (pid, state, phase.inCall)
  value : ∀ val, phase = .answered val → ∀ app ∈ v.application, app.syscallRet = val
  small : phase ≠ .absent → pid < MAX_PID
  calls : v.calls = if phase = .issued then 1 else 0
  entries : v.entries = phase.entries
  returns : v.returns = if phase = .terminated then 1 else 0
  ready : v.ready ↔ phase.isReady = true
  awake : v.awake ↔ phase.isAwake = true

variable {pid : ℕ} {phase : Phase} {s s' s'' : State} {info : ProcessInfo}
  {new new' : List Event} {event : Event}

/-- A process that has an entry is in a phase with a state. -/
theorem Shows.of_info (h : Shows pid phase (s.view pid))
    (found : s.host.processInfoMap pid = some info) :
    info.application.pid = pid ∧ phase.state = some info.application.state ∧
      info.application.inSyscall = phase.inCall := by
  have equation := h.application
  rw [State.view, found] at equation
  cases state : phase.state with
  | none => simp [state] at equation
  | some t =>
    rw [state] at equation
    obtain ⟨same_pid, same_state, same_call⟩ :
        info.application.pid = pid ∧ info.application.state = t ∧
          info.application.inSyscall = phase.inCall := by
      simpa using equation
    exact ⟨same_pid, same_state ▸ rfl, same_call⟩

theorem Shows.exists_info (h : Shows pid phase (s.view pid)) (present : phase ≠ .absent) :
    ∃ info, s.host.processInfoMap pid = some info := by
  have equation := h.application
  rw [State.view] at equation
  cases found : s.host.processInfoMap pid with
  | none =>
    rw [found] at equation
    cases phase <;> simp [Phase.state] at equation present
  | some info => exact ⟨info, rfl⟩

/-- A registered call of a process is the only one, and the process waits for it. -/
theorem Shows.registered {id : ℕ} (h : Shows pid phase (s.view pid))
    (member : (id, pid) ∈ s.host.syscallMap) : phase = .registered id := by
  have listed : id ∈ phase.entries := by
    rw [← h.entries]
    exact List.mem_map.mpr ⟨(id, pid), List.mem_filter.mpr ⟨member, by simp⟩, rfl⟩
  cases phase with
  | registered id' =>
    obtain rfl : id = id' := by simpa [Phase.entries] using listed
    rfl
  | _ => simp [Phase.entries] at listed

/-- The call of a process that is in its registered phase is in the table. -/
theorem Shows.mem_syscallMap {id : ℕ} (h : Shows pid (.registered id) (s.view pid)) :
    (id, pid) ∈ s.host.syscallMap := by
  have listed : id ∈ (s.view pid).entries := by simp [h.entries, Phase.entries]
  obtain ⟨entry, member, rfl⟩ := List.mem_map.mp listed
  have both := List.mem_filter.mp member
  simpa [← of_decide_eq_true both.2] using both.1

/-! ## Simulation -/

/-- Each process goes from its phase along the events, and the tables follow. -/
def Simulates (s : State) (new : List Event) (s' : State) : Prop :=
  ∀ pid phase, Shows pid phase (s.view pid) →
    ∃ phase' : Phase, phase.follow pid new = some phase' ∧ Shows pid phase' (s'.view pid)

theorem Simulates.trans (first : Simulates s new s') (second : Simulates s' new' s'') :
    Simulates s (new ++ new') s'' := by
  intro pid phase h
  obtain ⟨middle, follow, h⟩ := first pid phase h
  obtain ⟨phase', follow', h⟩ := second pid middle h
  refine ⟨phase', ?_, h⟩
  rw [Phase.follow_append, follow]
  exact follow'

/-- Every process is in some phase. -/
def Represented (s : State) : Prop := ∀ pid, ∃ phase, Shows pid phase (s.view pid)

theorem Simulates.represented (h : Simulates s new s') (rep : Represented s) : Represented s' := by
  intro pid
  obtain ⟨phase, shows⟩ := rep pid
  obtain ⟨phase', -, shows'⟩ := h pid phase shows
  exact ⟨phase', shows'⟩

/-- A step that does not concern any process. -/
theorem Simulates.quiet (same : ∀ pid, s'.view pid = s.view pid)
    (about : ∀ event ∈ new, event.pid = none ∧ ∀ id val, event ≠ .returnCalled id val) :
    Simulates s new s' := by
  intro pid phase h
  refine ⟨phase, ?_, ?_⟩
  · exact Phase.follow_of_other (fun event member => by rw [(about event member).1]; simp)
      (fun event member => (about event member).2)
  · rw [same pid]
    exact h

/-- A step that concerns one process. -/
theorem Simulates.single (about : event.pid = some pid)
    (others : ∀ p, p ≠ pid → s'.view p = s.view p)
    (own : ∀ phase, Shows pid phase (s.view pid) →
      ∃ phase' : Phase, phase.own event = some phase' ∧ Shows pid phase' (s'.view pid)) :
    Simulates s [event] s' := by
  have no_return : ∀ id val, event ≠ .returnCalled id val := by
    rintro id val rfl
    simp [Event.pid] at about
  intro p phase h
  rw [Phase.follow_singleton]
  by_cases same : p = pid
  · subst same
    obtain ⟨phase', step, h⟩ := own phase h
    refine ⟨phase', ?_, h⟩
    unfold Phase.next
    split
    next id val => exact absurd rfl (no_return id val)
    next event _ => rw [if_pos about, step]
  · refine ⟨phase, Phase.next_of_other ?_ no_return, ?_⟩
    · rw [about]
      simpa using Ne.symm same
    · rw [others p same]
      exact h

/-! ## What the operations do to the views -/

theorem view_setApplication_self (app : Application) :
    (s.setApplication pid info app).view pid = { s.view pid with application := some app } := by
  simp [State.view, State.setApplication, setProcess]

/-- Control and readiness of other processes. -/
theorem view_yields_of_ne {p : ℕ} (app : Application) (other : p ≠ pid)
    (awake : s.awake = some pid) : (s.yields pid info app).view p = s.view p := by
  simp [State.view, State.yields, State.setApplication, setProcess, other, awake, Ne.symm other]

theorem view_yields_self (app : Application) :
    (s.yields pid info app).view pid =
      { s.view pid with application := some app, ready := False, awake := False } := by
  simp [State.view, State.yields, State.setApplication, setProcess]

theorem view_post {message : HostMessage} {timeAfter : ℕ} :
    (s.post message timeAfter).view pid =
      { s.view pid with
        calls := (s.view pid).calls + if isSyscall pid ⟨message, timeAfter⟩ then 1 else 0
        returns := (s.view pid).returns + if isReturn pid ⟨message, timeAfter⟩ then 1 else 0 } := by
  simp [State.view, State.post, List.countP_append, List.countP_singleton]

/-- A message other than a system call and a `Return` is nobody's. -/
theorem view_post_of_other {message : HostMessage} {timeAfter : ℕ}
    (no_call : ∀ p param, message ≠ .syscall p param) (no_return : ∀ p val, message ≠ .ret p val) :
    (s.post message timeAfter).view pid = s.view pid := by
  rw [view_post]
  cases message with
  | syscall p param => exact absurd rfl (no_call p param)
  | ret p val => exact absurd rfl (no_return p val)
  | timer | packetPass | packetFromPort => simp [isSyscall, isReturn]

/-! ## Tables -/

/-- What holds of the tables of a host: call ids are unique 64-bit numbers, process
ids are 16-bit numbers, and descriptors belong to registered interfaces other than
`DefaultSystemCall`. -/
structure Tables (host : Host) : Prop where
  keys : (host.syscallMap.map Prod.fst).Nodup
  idStart : host.syscallIDStart < 2 ^ 64
  pidStart : host.pidStart < MAX_PID
  default : (0, 0) ∈ host.interfaceMap
  owners : ∀ pid info, host.processInfoMap pid = some info →
    ∀ entry ∈ info.fdToDomain, entry.2 ∈ host.interfaceMap ∧ entry.2 ≠ (0, 0)

theorem Tables.setApplication {host : Host} (h : Tables host)
    (found : host.processInfoMap pid = some info) (app : Application) :
    Tables (host.setProcess pid { info with application := app }) := by
  refine ⟨h.keys, h.idStart, h.pidStart, h.default, fun p other present => ?_⟩
  by_cases same : p = pid
  · subst same
    obtain rfl : { info with application := app } = other := by
      simpa [setProcess] using present
    exact h.owners p info found
  · exact h.owners p other (by simpa [setProcess, same] using present)

/-- `registerProcess` stores a process under a free id, or there is none. -/
theorem Tables.registerProcess_cases {host : Host} (h : Tables host) :
    (∃ current < MAX_PID, host.processInfoMap current = none ∧
      host.registerProcess = ((current : ℤ), { host with
        processInfoMap :=
          Function.update host.processInfoMap current (some { application := { pid := current } })
        pidStart := (current + 1) % MAX_PID })) ∨
    host.registerProcess = (-1, host) := by
  unfold registerProcess
  cases found : search (fun pid => (host.processInfoMap pid).isSome) MAX_FD host.pidStart with
  | none => exact .inr rfl
  | some current =>
    obtain ⟨small, unused⟩ := search_eq_some h.pidStart found
    rw [Option.isSome_eq_false_iff, Option.isNone_iff_eq_none] at unused
    exact .inl ⟨current, small, unused, rfl⟩

/-- An id belongs to one process only. -/
theorem Tables.unique {host : Host} {id p q : ℕ} (h : Tables host)
    (left : (id, p) ∈ host.syscallMap) (right : (id, q) ∈ host.syscallMap) : p = q := by
  have same := List.inj_on_of_nodup_map h.keys left right rfl
  exact congrArg Prod.snd same

end Kens.Host
