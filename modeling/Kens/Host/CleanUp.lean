/-
# `cleanUp` silences a host

`cleanUp` answers every registered call with -1 and marks the host as not running. The
mark is tested separately where packets come in, where they are passed between modules,
where they go out and where an application raises a system call. Timers still fire and
calls are still answered, but nothing that happens later starts the host again.
-/

import Mathlib
import Kens.Host.Bookkeeping
import Kens.Host.Changes
import Kens.Host.Events

namespace Kens.Host

open Semantics Machine

variable {s s' : State} {new log : List Event} {ids order : List ℕ} {val : ℤ} {pid : ℕ}

/-- The effect of answering several calls. -/
structure Released (s : State) (ids : List ℕ) (val : ℤ) (new : List Event) (s' : State) :
    Prop where
  events : new = ids.map fun id => .returnCalled id val
  calls : s'.host.syscallMap = s.host.syscallMap.filter fun entry => entry.1 ∉ ids
  freed : ∀ id ∈ ids, ∀ pid, (id, pid) ∈ s.host.syscallMap →
    ∃ info, s.host.processInfoMap pid = some info ∧ info.application.state = .waiting ∧
      s'.host.processInfoMap pid = some { info with
        application := { info.application with state := .ready, syscallRet := val } } ∧
      pid ∈ s'.runnableReady
  others : ∀ pid, (∀ id ∈ ids, (id, pid) ∉ s.host.syscallMap) →
    s'.host.processInfoMap pid = s.host.processInfoMap pid ∧
      (pid ∈ s'.runnableReady ↔ pid ∈ s.runnableReady)
  running : s'.host.running = s.host.running

theorem released_returnSystemCall {id : ℕ} (keys : (s.host.syscallMap.map Prod.fst).Nodup)
    (h : s.returnSystemCall id val = some (s', new)) : Released s [id] val new s' := by
  obtain ⟨rfl, ⟨missing, rfl⟩ | ⟨p, info, found, present, state, rfl⟩⟩ := returnSystemCall_cases h
  · have absent : ∀ pid, (id, pid) ∉ s'.host.syscallMap := fun pid => not_mem_of_lookup missing
    refine ⟨rfl, ?_, ?_, fun _ _ => ⟨rfl, Iff.rfl⟩, rfl⟩
    · refine (List.filter_eq_self.mpr ?_).symm
      rintro ⟨key, pid⟩ member
      have different : key ≠ id := by
        rintro rfl
        exact absent pid member
      simpa using different
    · intro key member pid entry
      rw [List.mem_singleton.mp member] at entry
      exact absurd entry (absent pid)
  · have entry := mem_of_lookup found
    -- the caller has no other call, and the call no other caller
    have caller : ∀ pid, (id, pid) ∈ s.host.syscallMap → pid = p := by
      intro pid other
      exact congrArg Prod.snd (List.inj_on_of_nodup_map keys other entry rfl)
    refine ⟨rfl, ?_, ?_, ?_, rfl⟩
    · simp [State.answered]
    · intro key member pid other
      rw [List.mem_singleton.mp member] at other
      obtain rfl := caller pid other
      refine ⟨info, present, state, ?_, ?_⟩
      · simp [State.answered, setProcess]
      · simp [State.answered]
    · intro pid apart
      have different : pid ≠ p := by
        rintro rfl
        exact apart id (List.mem_singleton.mpr rfl) entry
      simp [State.answered, setProcess, different]

theorem Released.nodup (released : Released s ids val new s')
    (keys : (s.host.syscallMap.map Prod.fst).Nodup)
    (pids : (s.host.syscallMap.map Prod.snd).Nodup) :
    (s'.host.syscallMap.map Prod.fst).Nodup ∧ (s'.host.syscallMap.map Prod.snd).Nodup := by
  rw [released.calls]
  exact ⟨keys.sublist (List.filter_sublist.map _), pids.sublist (List.filter_sublist.map _)⟩

/-- Two groups of calls are answered one after the other. -/
theorem Released.trans {t u : State} {first second : List Event} {ids' : List ℕ}
    (pids : (s.host.syscallMap.map Prod.snd).Nodup) (h : Released s ids val first t)
    (h' : Released t ids' val second u) : Released s (ids ++ ids') val (first ++ second) u := by
  have mem_calls : ∀ {entry}, entry ∈ t.host.syscallMap ↔
      entry ∈ s.host.syscallMap ∧ entry.1 ∉ ids := by
    intro entry
    rw [h.calls, List.mem_filter, decide_eq_true_eq]
  have key_eq : ∀ {id id' pid}, (id, pid) ∈ s.host.syscallMap → (id', pid) ∈ s.host.syscallMap →
      id = id' := by
    intro id id' pid one two
    exact congrArg Prod.fst (List.inj_on_of_nodup_map pids one two rfl)
  refine ⟨?_, ?_, ?_, ?_, h'.running.trans h.running⟩
  · rw [h.events, h'.events, List.map_append]
  · rw [h'.calls, h.calls, List.filter_filter]
    refine List.filter_congr fun entry _ => ?_
    simp [Bool.and_comm]
  · intro id member pid entry
    by_cases early : id ∈ ids
    · -- later answers do not concern the caller of an earlier call
      obtain ⟨info, present, state, freed, ready⟩ := h.freed id early pid entry
      have apart : ∀ id' ∈ ids', (id', pid) ∉ t.host.syscallMap := by
        intro id' _ other
        obtain ⟨old, later⟩ := mem_calls.mp other
        exact later (key_eq entry old ▸ early)
      obtain ⟨same, iff⟩ := h'.others pid apart
      exact ⟨info, present, state, same.trans freed, iff.mpr ready⟩
    · have late : id ∈ ids' := (List.mem_append.mp member).resolve_left early
      obtain ⟨info, present, state, freed, ready⟩ :=
        h'.freed id late pid (mem_calls.mpr ⟨entry, early⟩)
      -- nor do earlier answers concern the caller of a later one
      have apart : ∀ id' ∈ ids, (id', pid) ∉ s.host.syscallMap := by
        intro id' listed other
        exact early (key_eq other entry ▸ listed)
      exact ⟨info, (h.others pid apart).1 ▸ present, state, freed, ready⟩
  · intro pid apart
    obtain ⟨same, iff⟩ := h.others pid fun id member => apart id (List.mem_append_left _ member)
    obtain ⟨same', iff'⟩ := h'.others pid fun id member entry =>
      apart id (List.mem_append_right _ member) (mem_calls.mp entry).1
    exact ⟨same'.trans same, iff'.trans iff⟩

theorem released_returnAll (keys : (s.host.syscallMap.map Prod.fst).Nodup)
    (pids : (s.host.syscallMap.map Prod.snd).Nodup) (h : s.returnAll val ids = some (s', new)) :
    Released s ids val new s' := by
  induction ids generalizing s new with
  | nil =>
    obtain ⟨rfl, rfl⟩ : s = s' ∧ [] = new := by simpa [State.returnAll] using h
    exact ⟨rfl, by simp, by simp, fun _ _ => ⟨rfl, Iff.rfl⟩, rfl⟩
  | cons id rest ih =>
    rw [State.returnAll] at h
    split at h
    · simp at h
    next middle first answered =>
      obtain ⟨⟨t, later⟩, all, same⟩ := Option.map_eq_some_iff.mp h
      obtain ⟨rfl, rfl⟩ : t = s' ∧ first ++ later = new := by simpa using same
      have released := released_returnSystemCall keys answered
      obtain ⟨keys', pids'⟩ := released.nodup keys pids
      exact released.trans pids (ih keys' pids' all)

/-- The host as `cleanUp` marks it before it answers the calls. -/
def State.stopped (s : State) : State := { s with host := { s.host with running := false } }

theorem released_cleanUp (keys : (s.host.syscallMap.map Prod.fst).Nodup)
    (pids : (s.host.syscallMap.map Prod.snd).Nodup)
    (permuted : order.Perm (s.host.syscallMap.map Prod.fst))
    (h : s.cleanUp order = some (s', new)) :
    ∃ returns, new = returns ++ [.cleanedUp order.length] ∧
      Released s.stopped order (-1) returns s' := by
  rw [State.cleanUp, if_pos permuted] at h
  obtain ⟨⟨t, returns⟩, answered, same⟩ := Option.map_eq_some_iff.mp h
  obtain ⟨rfl, rfl⟩ : t = s' ∧ returns ++ [.cleanedUp order.length] = new := by simpa using same
  exact ⟨returns, rfl, released_returnAll (s := s.stopped) keys pids answered⟩

/-! ## A host that is down -/

theorem Change.down (change : Change s new s') (stopped : s.host.running = false) :
    s'.host.running = false := by
  cases change with
  | steady steady => exact steady.down stopped
  | full => exact stopped
  | added _ _ _ running | exited _ _ running | created _ _ _ _ _ _ running
  | removed _ _ _ running => exact running.trans stopped

/-- The events that a host that is down does not cause. -/
def Event.isTraffic : Event → Prop
  | .packetToPort _ _ | .packetArrived _ _ _ | .issued _ _ => True
  | _ => False

theorem not_isTraffic_of_down {event : Event} {a : Action} (stopped : s.host.running = false)
    (emitted : Emitted s a event) : ¬ event.isTraffic := by
  intro traffic
  cases event <;> simp [Event.isTraffic] at traffic <;> simp [Emitted, stopped] at emitted

/-- Once a host is down, it stays so, and nothing moves. -/
structure Down (log : List Event) (s : State) : Prop where
  represented : Represented s
  tables : Tables s.host
  stopped : s.host.running = false
  silent : ∀ event ∈ log, ¬ event.isTraffic

theorem Down.step {a : Action} (h : Down log s) (step : machine.step s a = some (s', new)) :
    Down (log ++ new) s' := by
  obtain ⟨simulates, tables⟩ := simulates_step h.represented h.tables step
  refine ⟨simulates.represented h.represented, tables,
    (change_of_step h.tables step).down h.stopped, ?_⟩
  intro event member
  rcases List.mem_append.mp member with member | member
  · exact h.silent event member
  · exact not_isTraffic_of_down h.stopped (emitted_of_step step event member)

/-- A system call that is raised now returns -1 at once. -/
theorem Down.refused (h : Down log s) (awake : s.awake = some pid) (param : SystemCallParameter) :
    machine.step s (.syscall param) = some (s, [.refused pid]) := by
  obtain ⟨phase, shows⟩ := h.represented pid
  have running : phase.isAwake = true := shows.awake.mp awake
  obtain ⟨info, found⟩ := shows.exists_info (by rintro rfl; cases running)
  change s.step (.syscall param) = _
  simp only [State.step, awake, State.issue, found, h.stopped, if_true]

variable {hostModuleMap : Finset String} {ports : List ℕ} {routing : RoutingInfo}
  {acts : List Action}

/-- In every reachable state, whatever order the table is visited in: `cleanUp` returns the
number of registered calls, answers each of them once with -1, which makes its caller ready
and changes no other process, and leaves none. In everything that follows no packet is handed
to a wire or to a module, no system call is issued, and a call that an application raises
returns -1 at once. -/
theorem cleanUp_silences (run : machine.Run free (start hostModuleMap ports routing) acts log s)
    (order : List ℕ) (permuted : order.Perm (s.host.syscallMap.map Prod.fst)) :
    order.Nodup ∧ (s.host.syscallMap.map Prod.snd).Nodup ∧
    ∃ s', s.cleanUp order = some (s', (order.map fun id => .returnCalled id (-1)) ++
        [.cleanedUp s.host.syscallMap.length]) ∧
      s'.host.syscallMap = [] ∧
      (∀ entry ∈ s.host.syscallMap, ∃ info, s.host.processInfoMap entry.2 = some info ∧
        info.application.state = .waiting ∧
        s'.host.processInfoMap entry.2 = some { info with
          application := { info.application with state := .ready, syscallRet := -1 } } ∧
        entry.2 ∈ s'.runnableReady) ∧
      (∀ pid ∉ s.host.syscallMap.map Prod.snd,
        s'.host.processInfoMap pid = s.host.processInfoMap pid ∧
          (pid ∈ s'.runnableReady ↔ pid ∈ s.runnableReady)) ∧
      ∀ acts' log' s'', machine.Run free s' acts' log' s'' →
        (∀ event ∈ log', ¬ event.isTraffic) ∧
        ∀ pid param, s''.awake = some pid →
          machine.step s'' (.syscall param) = some (s'', [.refused pid]) := by
  have inv := inv_of_run run
  have rep := inv.represented
  have keys := inv.tables.keys
  refine ⟨permuted.nodup_iff.mpr keys, rep.nodup, ?_⟩
  obtain ⟨⟨s', new⟩, cleaned⟩ :=
    Option.isSome_iff_exists.mp (rep.cleanUp_isSome inv.tables permuted)
  obtain ⟨simulates, tables⟩ := simulates_cleanUp inv.tables cleaned
  obtain ⟨returns, rfl, released⟩ := released_cleanUp keys rep.nodup permuted cleaned
  have listed : ∀ entry ∈ s.host.syscallMap, entry.1 ∈ order := fun entry member =>
    permuted.mem_iff.mpr (List.mem_map_of_mem member)
  refine ⟨s', ?_, ?_, ?_, ?_, ?_⟩
  · rw [cleaned, released.events, permuted.length_eq, List.length_map]
  · rw [released.calls]
    refine List.filter_eq_nil_iff.mpr fun entry member => ?_
    simpa using listed entry member
  · exact fun entry member => released.freed entry.1 (listed entry member) entry.2 member
  · intro pid apart
    exact released.others pid fun id _ entry => apart (List.mem_map_of_mem entry)
  · intro acts' log' s'' later
    -- the host stays down whatever happens
    have down : Down [] s' := ⟨simulates.represented rep, tables, released.running, by simp⟩
    have final := later.invariant Down down fun _ _ _ _ _ h _ step => h.step step
    exact ⟨final.silent, fun pid param awake => final.refused awake param⟩

/-- A process sleeps when its host is cleaned up. It is woken with -1 and tries to sleep
again. -/
theorem cleanUp_silences_sleeper :
    ∃ log s s' s'', machine.Run free (start ∅ [] .empty)
        [.addApplication, .launchApplication 0, .wake 0, .syscall (TCPApplication.nsleep 5),
          .dispatch 0 0] log s ∧
      s.cleanUp [0] = some (s', [.returnCalled 0 (-1), .cleanedUp 1]) ∧
      machine.step s' (.wake 0) = some (s'', [.returned 0 (-1)]) ∧
      machine.step s'' (.syscall (TCPApplication.nsleep 5)) = some (s'', [.refused 0]) := by
  have state : (machine.exec (start ∅ [] .empty) [.addApplication, .launchApplication 0, .wake 0,
      .syscall (TCPApplication.nsleep 5), .dispatch 0 0]).map (fun r => r.1.host.syscallMap) =
      some [(0, 0)] := by decide
  have woken : ((machine.exec (start ∅ [] .empty) [.addApplication, .launchApplication 0, .wake 0,
      .syscall (TCPApplication.nsleep 5), .dispatch 0 0]).bind fun r => (r.1.cleanUp [0]).bind
        fun r => (machine.step r.1 (.wake 0)).map fun r => (r.2, r.1.awake)) =
      some ([.returned 0 (-1)], some 0) := by decide
  obtain ⟨⟨s, log⟩, value, calls⟩ := Option.map_eq_some_iff.mp state
  change s.host.syscallMap = [(0, 0)] at calls
  have run := Run.of_exec value
  obtain ⟨-, -, s', cleaned, -, -, -, later⟩ :=
    cleanUp_silences run [0] (by rw [calls]; rfl)
  rw [calls] at cleaned
  rw [value, Option.bind_some, cleaned, Option.bind_some] at woken
  obtain ⟨⟨s'', new⟩, step, same⟩ := Option.map_eq_some_iff.mp woken
  obtain ⟨rfl, awake⟩ : new = [.returned 0 (-1)] ∧ s''.awake = some 0 := by simpa using same
  have after : machine.Run free s' [.wake 0] [.returned 0 (-1)] s'' := .single trivial step
  exact ⟨log, s, s', s'', run, cleaned, step, (later _ _ _ after).2 0 _ awake⟩

end Kens.Host
