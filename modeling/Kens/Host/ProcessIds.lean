/-
# Process ids

`registerProcess` tries the process ids one after the other, beginning behind the last one it
gave and wrapping around, until it finds a free one or is back at its beginning. The loop
compares with the beginning only, so it would not end for a beginning out of range; that the
beginning stays in range is an invariant of every sequence of registrations and exits.
-/

import Mathlib
import Kens.Host.Simulation

namespace Kens.Host

open Semantics Machine

/-! ## The loop -/

/-- The application is stored with its process id, and the next search begins behind it. -/
def insertProcess (host : Host) (app : Application) (current : ℕ) : Host :=
  { host with
    processInfoMap := Function.update host.processInfoMap current
      (some { application := { app with pid := current } })
    pidStart := (current + 1) % MAX_PID }

/-- `registerProcess` of an application in any state, unless its loop is still running after
some iterations. -/
def registerProcessWithin (host : Host) (app : Application) (iterations : ℕ) :
    Option (ℤ × Host) :=
  (searchLoop (fun pid => (host.processInfoMap pid).isSome) MAX_FD host.pidStart iterations
    host.pidStart).map fun
    | some current => (current, host.insertProcess app current)
    | none => (-1, host)

variable {host host' : Host} {app : Application} {iterations pid : ℕ} {log new : List ℤ}

/-- What the loop comes to: the first free id of the round, or the end of the round. -/
theorem registerProcessWithin_cases (inside : host.pidStart < MAX_PID) (app : Application) :
    (∃ i < MAX_FD, (∀ iterations ≥ MAX_FD, host.registerProcessWithin app iterations =
        some ((((host.pidStart + i) % MAX_FD : ℕ) : ℤ),
          host.insertProcess app ((host.pidStart + i) % MAX_FD))) ∧
      host.processInfoMap ((host.pidStart + i) % MAX_FD) = none ∧
      ∀ j < i, (host.processInfoMap ((host.pidStart + j) % MAX_FD)).isSome = true) ∨
    ((∀ iterations ≥ MAX_FD, host.registerProcessWithin app iterations = some (-1, host)) ∧
      ∀ pid < MAX_FD, (host.processInfoMap pid).isSome = true) := by
  -- the search goes round modulo the other constant
  have within : host.pidStart < MAX_FD := inside
  have ends : ∀ iterations ≥ MAX_FD, searchLoop (fun pid => (host.processInfoMap pid).isSome)
      MAX_FD host.pidStart iterations host.pidStart =
        some (search (fun pid => (host.processInfoMap pid).isSome) MAX_FD host.pidStart) :=
    fun iterations enough => searchLoop_search within enough
  rcases search_cases (fun pid => (host.processInfoMap pid).isSome) within with
    ⟨i, below, found, unused, passed⟩ | ⟨vain, full⟩
  · refine .inl ⟨i, below, fun iterations enough => ?_, by simpa using unused, passed⟩
    rw [registerProcessWithin, ends iterations enough, found]
    rfl
  · refine .inr ⟨fun iterations enough => ?_, full⟩
    rw [registerProcessWithin, ends iterations enough, vain]
    rfl

/-- For a new application this is `registerProcess`. -/
theorem registerProcessWithin_new (inside : host.pidStart < MAX_PID)
    (enough : MAX_FD ≤ iterations) :
    host.registerProcessWithin { pid := pid } iterations = some host.registerProcess := by
  have within : host.pidStart < MAX_FD := inside
  rw [registerProcessWithin, searchLoop_search within enough, registerProcess]
  cases search (fun pid => (host.processInfoMap pid).isSome) MAX_FD host.pidStart <;> rfl

/-! ## Sequences of registrations and exits -/

/-- A call of `registerProcess`, or the message about the end of a process. -/
inductive ProcessCall
  | registerProcess (app : Application)
  | exitProcess (pid : ℕ)

/-- Any sequence of these. The log has the process ids returned. -/
def processCalls : Machine Host ProcessCall ℤ where
  step host
    | .registerProcess app =>
      (host.registerProcessWithin app MAX_FD).map fun r => (r.2, [r.1])
    | .exitProcess pid =>
      (({ host := host } : State).returnReceived pid).map fun r => (r.1.host, [])

/-- Exits leave the beginning of the next search alone. -/
theorem pidStart_returnReceived {s s' : State} {events : List Event}
    (exits : s.returnReceived pid = some (s', events)) : s'.host.pidStart = s.host.pidStart := by
  unfold State.returnReceived at exits
  split at exits
  · simp at exits
  · split at exits
    · simp at exits
    · obtain ⟨rfl, -⟩ := Prod.mk.inj (Option.some.inj exits)
      rfl

/-- One call keeps the beginning of the next search in range. -/
theorem pidStart_step {call : ProcessCall} (inside : host.pidStart < MAX_PID)
    (step : processCalls.step host call = some (host', new)) : host'.pidStart < MAX_PID := by
  cases call with
  | registerProcess app =>
    obtain ⟨⟨pid, after⟩, registered, same⟩ := Option.map_eq_some_iff.mp step
    obtain ⟨rfl, -⟩ : after = host' ∧ [pid] = new := by simpa using same
    rcases registerProcessWithin_cases inside app with ⟨i, -, found, -⟩ | ⟨vain, -⟩
    · rw [found MAX_FD le_rfl] at registered
      obtain ⟨-, rfl⟩ := Prod.mk.inj (Option.some.inj registered)
      exact Nat.mod_lt _ (by decide)
    · rw [vain MAX_FD le_rfl] at registered
      obtain ⟨-, rfl⟩ := Prod.mk.inj (Option.some.inj registered)
      exact inside
  | exitProcess pid =>
    obtain ⟨⟨s, events⟩, exits, same⟩ := Option.map_eq_some_iff.mp step
    obtain ⟨rfl, -⟩ : s.host = host' ∧ [] = new := by simpa using same
    rwa [pidStart_returnReceived exits]

theorem pidStart_of_run {calls : List ProcessCall} (inside : host.pidStart < MAX_PID)
    (run : processCalls.Run free host calls log host') : host'.pidStart < MAX_PID :=
  run.invariant (fun _ host => host.pidStart < MAX_PID) inside
    fun _ _ _ _ _ inside _ step => pidStart_step inside step

/-- What `registerProcess` does with a host, for any application: its loop ends; it returns the
first id of the round from `pidStart` on that is free, stores the application under it and
leaves the other processes alone; and it returns -1 and changes nothing exactly if all ids are
in use. -/
structure Allocates (host : Host) (app : Application) : Prop where
  range : host.pidStart < 65536
  ends : ∃ pid after, (∀ iterations ≥ 65536,
      host.registerProcessWithin app iterations = some (pid, after)) ∧
    (pid = -1 ↔ ∀ k < 65536, (host.processInfoMap k).isSome = true) ∧
    (pid = -1 → after = host) ∧
    (pid ≠ -1 → ∃ i < 65536, ∃ current, current = (host.pidStart + i) % 65536 ∧ pid = current ∧
      (∀ j < i, (host.processInfoMap ((host.pidStart + j) % 65536)).isSome = true) ∧
      host.processInfoMap current = none ∧
      after.processInfoMap current = some { application := { app with pid := current } } ∧
      (∀ other, other ≠ current → after.processInfoMap other = host.processInfoMap other) ∧
      after.pidStart = (current + 1) % 65536)

theorem allocates (inside : host.pidStart < MAX_PID) (app : Application) : Allocates host app := by
  refine ⟨inside, ?_⟩
  rcases registerProcessWithin_cases inside app with
    ⟨i, below, found, unused, passed⟩ | ⟨vain, full⟩
  · have natural : ((((host.pidStart + i) % MAX_FD : ℕ) : ℤ)) ≠ -1 := by omega
    refine ⟨_, _, found, iff_of_false natural fun full => ?_,
      fun failed => absurd failed natural, ?_⟩
    · have taken := full _ (Nat.mod_lt (host.pidStart + i) (by decide : 0 < 65536))
      change (host.processInfoMap ((host.pidStart + i) % MAX_FD)).isSome = true at taken
      rw [unused] at taken
      exact absurd taken Bool.false_ne_true
    · intro _
      refine ⟨i, below, _, rfl, rfl, passed, unused, Function.update_self ..,
        fun other differs => ?_, rfl⟩
      exact Function.update_of_ne differs _ _
  · exact ⟨-1, host, vain, iff_of_true rfl full, fun _ => rfl, fun other => absurd rfl other⟩

variable {hostModuleMap : Finset String} {ports : List ℕ} {routing : RoutingInfo}

/-- After every sequence of registrations and exits, for every application. -/
theorem process_ids {calls : List ProcessCall}
    (run : processCalls.Run free (start hostModuleMap ports routing).host calls log host)
    (app : Application) : Allocates host app :=
  allocates (pidStart_of_run (by decide : 0 < 65536) run) app

/-- Three processes are registered and two of them end. The next id is 3 all the same. -/
theorem process_ids_reuse :
    ∃ log host, processCalls.Run free (start ∅ [] RoutingInfo.empty).host
        [.registerProcess { pid := 0 }, .registerProcess { pid := 0 },
          .registerProcess { pid := 0 }, .exitProcess 1, .exitProcess 0,
          .registerProcess { pid := 0 }] log host ∧
      log = [0, 1, 2, 3] ∧ Allocates host { pid := 0 } := by
  have run : processCalls.Run free (start ∅ [] RoutingInfo.empty).host _ _ _ :=
    Run.of_exec (rfl : processCalls.exec (start ∅ [] RoutingInfo.empty).host
      [.registerProcess { pid := 0 }, .registerProcess { pid := 0 },
        .registerProcess { pid := 0 }, .exitProcess 1, .exitProcess 0,
        .registerProcess { pid := 0 }] = some _)
  exact ⟨_, _, run, rfl, process_ids run { pid := 0 }⟩

/-- The same holds throughout every run of a host, whatever else happens in it, and its
applications are registered so. -/
theorem allocates_of_host_run {acts : List Action} {events : List Event} {s : State}
    (run : machine.Run free (start hostModuleMap ports routing) acts events s) :
    (∀ app, Allocates s.host app) ∧ ∀ pid iterations, 65536 ≤ iterations →
      s.host.registerProcessWithin { pid := pid } iterations = some s.host.registerProcess := by
  have inside := (inv_of_run run).tables.pidStart
  exact ⟨allocates inside, fun pid iterations enough => registerProcessWithin_new inside enough⟩

end Kens.Host
