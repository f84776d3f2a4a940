/-
# System call bookkeeping

Consequences of the simulation for every run of a host: a process has at most one
registered call and waits for it, an id for a new call is always found and never in
use, no assertion about waiting threads fails, and each registered call returns
once, with the value of the first answer.
-/

import Mathlib
import Kens.Host.Simulation

namespace Kens.Host

open Semantics Machine

variable {pid : ℕ} {s s' : State} {log : List Event}

/-- No two registered calls are of the same process. -/
theorem Represented.nodup (rep : Represented s) : (s.host.syscallMap.map Prod.snd).Nodup := by
  rw [List.nodup_iff_count_le_one]
  intro pid
  obtain ⟨phase, shows⟩ := rep pid
  have short : phase.entries.length ≤ 1 := by
    cases phase <;> simp [Phase.entries]
  rw [← shows.entries] at short
  simp only [State.view, List.length_map, ← List.countP_eq_length_filter] at short
  rw [List.count_eq_countP, List.countP_map]
  refine le_trans (le_of_eq (List.countP_congr fun entry _ => ?_)) short
  simp

/-- The process of a registered call exists and waits. -/
theorem Represented.waiting (rep : Represented s) {entry : ℕ × ℕ}
    (member : entry ∈ s.host.syscallMap) :
    ∃ info, s.host.processInfoMap entry.2 = some info ∧ info.application.state = .waiting := by
  obtain ⟨phase, shows⟩ := rep entry.2
  obtain rfl := shows.registered member
  obtain ⟨info, found⟩ := shows.exists_info (by simp)
  obtain ⟨-, state, -⟩ := shows.of_info found
  exact ⟨info, found, (Option.some.inj state).symm⟩

/-- There are never more registered calls than process ids. -/
theorem Represented.length_le (rep : Represented s) : s.host.syscallMap.length ≤ MAX_PID := by
  have sub : (s.host.syscallMap.map Prod.snd).toFinset ⊆ Finset.range MAX_PID := by
    intro pid member
    obtain ⟨entry, listed, rfl⟩ := List.mem_map.mp (List.mem_toFinset.mp member)
    obtain ⟨phase, shows⟩ := rep entry.2
    obtain rfl := shows.registered listed
    exact Finset.mem_range.mpr (shows.small (by simp))
  have card := Finset.card_le_card sub
  rwa [List.toFinset_card_of_nodup rep.nodup, List.length_map, Finset.card_range] at card

/-- An id for a new call is always found. -/
theorem Represented.nextSyscallID (rep : Represented s) (tables : Tables s.host) :
    ∃ id, s.host.nextSyscallID = some id ∧ id ∉ s.host.syscallMap.map Prod.fst := by
  have found : s.host.nextSyscallID.isSome := by
    refine @search_isSome _ _ _ (s.host.syscallMap.map Prod.fst) tables.idStart ?_ ?_
    · intro id used
      obtain ⟨p, value⟩ := Option.isSome_iff_exists.mp used
      exact List.mem_map.mpr ⟨(id, p), mem_of_lookup value, rfl⟩
    · have few := rep.length_le
      rw [List.length_map]
      exact lt_of_le_of_lt few (by decide)
  obtain ⟨id, value⟩ := Option.isSome_iff_exists.mp found
  exact ⟨id, value, (tables.fresh value).2⟩

/-- The assertion of `ready` holds whenever a call is answered. -/
theorem Represented.returnSystemCall_isSome (rep : Represented s) (id : ℕ) (val : ℤ) :
    (s.returnSystemCall id val).isSome := by
  unfold State.returnSystemCall
  cases found : s.host.syscallMap.lookup id with
  | none => rfl
  | some pid =>
    obtain ⟨info, present, state⟩ := rep.waiting (mem_of_lookup found)
    dsimp only at present
    simp [present, state, Runnable.ready]

theorem Represented.returnAll_isSome (rep : Represented s) (tables : Tables s.host) (val : ℤ)
    (ids : List ℕ) : (s.returnAll val ids).isSome := by
  induction ids generalizing s with
  | nil => rfl
  | cons id rest ih =>
    obtain ⟨⟨middle, first⟩, answered⟩ :=
      Option.isSome_iff_exists.mp (rep.returnSystemCall_isSome id val)
    obtain ⟨simulates, tables'⟩ := simulates_returnSystemCall tables answered
    rw [State.returnAll, answered]
    simpa using ih (simulates.represented rep) tables'

/-- `cleanUp` releases all callers. -/
theorem Represented.cleanUp_isSome (rep : Represented s) (tables : Tables s.host) {order : List ℕ}
    (permuted : order.Perm (s.host.syscallMap.map Prod.fst)) : (s.cleanUp order).isSome := by
  have stopped : Tables { s.host with running := false } :=
    ⟨tables.keys, tables.idStart, tables.pidStart, tables.default, tables.owners⟩
  have same : Represented { s with host := { s.host with running := false } } := rep
  rw [State.cleanUp, if_pos permuted, Option.isSome_map]
  exact same.returnAll_isSome stopped (-1) order

/-- The process of a `Return` message has no registered call. -/
theorem Represented.returnReceived_isSome (rep : Represented s) {val : ℤ} {timeAfter : ℕ}
    (member : ⟨.ret pid val, timeAfter⟩ ∈ s.pool) : (s.returnReceived pid).isSome := by
  obtain ⟨phase, shows⟩ := rep pid
  obtain rfl := shows.terminated member
  obtain ⟨info, found⟩ := shows.exists_info (by simp)
  have none : ¬ s.host.syscallMap.any (fun entry => entry.2 = info.application.pid) = true := by
    intro pending
    obtain ⟨⟨id, p⟩, listed, same⟩ := List.any_eq_true.mp pending
    rw [rep.pid_eq found, decide_eq_true_eq] at same
    dsimp only at same
    subst same
    have registered := shows.registered listed
    simp at registered
  simp only [State.returnReceived, found, if_neg none, Option.isSome_some]

/-- The assertion of `wake` holds for all threads that the scheduler holds ready. -/
theorem Represented.wake_isSome (rep : Represented s) (asleep : s.awake = none)
    (member : pid ∈ s.runnableReady) : (s.wake pid).isSome := by
  obtain ⟨phase, shows⟩ := rep pid
  have ready := shows.ready.mp member
  have not_running : phase ≠ .running := by
    rintro rfl
    have control := shows.awake.mpr rfl
    simp [State.view, asleep] at control
  obtain ⟨info, found⟩ := shows.exists_info (by rintro rfl; simp [Phase.isReady] at ready)
  obtain ⟨-, state, -⟩ := shows.of_info found
  have is_ready : info.application.state = .ready := by
    cases phase <;> simp_all [Phase.isReady, Phase.state]
  simp [State.wake, found, is_ready, Runnable.wake]

/-! ## Whole runs -/

variable {hostModuleMap : Finset String} {ports : List ℕ} {routing : RoutingInfo}
  {acts : List Action}

/-- System call bookkeeping, in every state that a host can reach. -/
theorem bookkeeping (run : machine.Run free (start hostModuleMap ports routing) acts log s) :
    (s.host.syscallMap.map Prod.snd).Nodup ∧
    (∀ entry ∈ s.host.syscallMap, ∃ info, s.host.processInfoMap entry.2 = some info ∧
      info.application.state = .waiting) ∧
    (∃ id, s.host.nextSyscallID = some id ∧ id ∉ s.host.syscallMap.map Prod.fst) ∧
    (∀ id val, (s.returnSystemCall id val).isSome) ∧
    (∀ id val, id ∉ s.host.syscallMap.map Prod.fst →
      s.returnSystemCall id val = some (s, [.returnCalled id val])) ∧
    (∀ order, order.Perm (s.host.syscallMap.map Prod.fst) → (s.cleanUp order).isSome) ∧
    (∀ pid val timeAfter, ⟨.ret pid val, timeAfter⟩ ∈ s.pool → (s.returnReceived pid).isSome) ∧
    (s.awake = none → ∀ pid ∈ s.runnableReady, (s.wake pid).isSome) ∧
    ∀ early late id pid ns param, log = early ++ .registered id pid ns param :: late →
      ∃ phase, Outcome id pid late phase ∧ Shows pid phase (s.view pid) := by
  have inv := inv_of_run run
  have rep := inv.represented
  refine ⟨rep.nodup, fun _ => rep.waiting, rep.nextSyscallID inv.tables,
    rep.returnSystemCall_isSome, ?_, fun _ => rep.cleanUp_isSome inv.tables,
    fun _ _ _ => rep.returnReceived_isSome, fun asleep _ => rep.wake_isSome asleep, ?_⟩
  · intro id val unknown
    have missing : s.host.syscallMap.lookup id = none := by
      by_contra found
      obtain ⟨p, value⟩ := Option.ne_none_iff_exists'.mp found
      exact unknown (List.mem_map.mpr ⟨(id, p), mem_of_lookup value, rfl⟩)
    rw [State.returnSystemCall, missing]
  · rintro early late id pid ns param rfl
    obtain ⟨phase, follow, shows⟩ := inv.phases pid
    exact ⟨phase, outcome_of_follow follow, shows⟩

/-- A process that sleeps once: it is added, launched and woken, its call is
registered, its timer fires, a second answer comes too late, and it is woken. -/
def sleeper : List Action :=
  [.addApplication, .launchApplication 0, .wake 0, .syscall (TCPApplication.nsleep 5),
    .dispatch 0 0, .dispatch 0 5, .returnSystemCall 0 7, .wake 0]

theorem bookkeeping_sleeper :
    ∃ log s, machine.Run free (start ∅ [] .empty) sleeper log s ∧
      log.filter (fun event => event.pid = some 0) =
        [.added 0, .launched 0, .started 0, .issued 0 (TCPApplication.nsleep 5),
          .registered 0 0 (0, 0) (TCPApplication.nsleep 5), .returned 0 0] ∧
      (s.host.syscallMap.map Prod.snd).Nodup := by
  have defined : (machine.exec (start ∅ [] .empty) sleeper).isSome := by decide
  have events : (machine.exec (start ∅ [] .empty) sleeper).map
      (fun r => r.2.filter fun event => event.pid = some 0) =
      some [.added 0, .launched 0, .started 0, .issued 0 (TCPApplication.nsleep 5),
        .registered 0 0 (0, 0) (TCPApplication.nsleep 5), .returned 0 0] := by decide
  obtain ⟨⟨s, log⟩, value⟩ := Option.isSome_iff_exists.mp defined
  rw [value, Option.map_some, Option.some.injEq] at events
  have run := Run.of_exec value
  exact ⟨log, s, run, events, (bookkeeping run).1⟩

end Kens.Host
