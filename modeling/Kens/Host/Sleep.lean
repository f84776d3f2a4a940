/-
# Sleeping and the clock

A sleep call travels through up to three products to `DefaultSystemCall`, which
sends a timer, and from there to the scheduler, which adds the current time. All
of these are numbers modulo `2 ^ 64`. The timer is due no earlier than the caller
asked for exactly when the exact sum lies below `2 ^ 64`.
-/

import Mathlib
import Kens.System.Clock
import Kens.Host.Servable

namespace Kens.Host

open Semantics Machine

/-- The sleep calls and their units, in nanoseconds. -/
def sleeps : List ((ℕ → SystemCallParameter) × ℕ) :=
  [(TCPApplication.nsleep, 1), (TCPApplication.usleep, 10 ^ 3), (TCPApplication.msleep, 10 ^ 6),
    (TCPApplication.sleep, 10 ^ 9)]

/-- All sleep calls end in `nsleep`. -/
theorem sleeps_eq {call : ℕ → SystemCallParameter} {unit n : ℕ} (member : (call, unit) ∈ sleeps)
    (small : n < 2 ^ 64) : call n = TCPApplication.nsleep (unit * n % 2 ^ 64) := by
  have cases : (call = TCPApplication.nsleep ∧ unit = 1) ∨
      (call = TCPApplication.usleep ∧ unit = 10 ^ 3) ∨
      (call = TCPApplication.msleep ∧ unit = 10 ^ 6) ∨
      (call = TCPApplication.sleep ∧ unit = 10 ^ 9) := by
    simpa only [sleeps, List.mem_cons, List.not_mem_nil, or_false, Prod.mk.injEq] using member
  rcases cases with ⟨rfl, rfl⟩ | ⟨rfl, rfl⟩ | ⟨rfl, rfl⟩ | ⟨rfl, rfl⟩
  · rw [Nat.one_mul, Nat.mod_eq_of_lt small]
  · rfl
  · rw [TCPApplication.msleep, TCPApplication.usleep, Nat.mul_mod_mod, ← Nat.mul_assoc]
    norm_num
  · rw [TCPApplication.sleep, TCPApplication.msleep, TCPApplication.usleep, Nat.mul_mod_mod,
      ← Nat.mul_assoc, Nat.mul_mod_mod, ← Nat.mul_assoc]
    norm_num

variable {M : Type} {pid index now timeAfter unit n : ℕ} {s : State}
  {call : ℕ → SystemCallParameter}

/-- A timer for a wrapped duration is due late enough exactly when the exact sum
does not wrap. -/
theorem le_due_iff {duration due : ℕ}
    (due_eq : due = (now + duration % 2 ^ 64) % 2 ^ 64) :
    now + duration ≤ due ↔ now + duration < 2 ^ 64 := by
  rw [due_eq, Nat.add_mod_mod]
  constructor
  · intro late
    exact lt_of_le_of_lt late (Nat.mod_lt _ (by decide))
  · intro fits
    rw [Nat.mod_eq_of_lt fits]

/-- The dispatch of a sleep call registers it and sends one timer for it. -/
theorem dispatch_sleep (now : ℕ) (rep : Represented s) (tables : Tables s.host)
    (asleep : s.awake = none) (drained : s.runnableReady = ∅) (member : (call, unit) ∈ sleeps) (small : n < 2 ^ 64)
    (found : s.pool[index]? = some ⟨.syscall pid (call n), timeAfter⟩) :
    ∃ s' id, machine.step s (.dispatch index now) =
        some (s', [.registered id pid (0, 0) (call n)]) ∧
      s'.pool = s.pool.eraseIdx index ++ [⟨.timer (some id), unit * n % 2 ^ 64⟩] := by
  rw [sleeps_eq member small] at found ⊢
  have servable : Servable s.host pid (TCPApplication.nsleep (unit * n % 2 ^ 64)) := rfl
  obtain ⟨s', id, ns, later, step, -⟩ :=
    dispatch_of_servable now rep tables asleep drained found servable
  have received := step
  rw [step_dispatch asleep drained found] at received
  obtain ⟨info, ns', -, chosen, ⟨-, -, same⟩ | ⟨id', later', -, -, same, served⟩⟩ :=
    syscallReceived_cases received
  · simp at same
  · obtain rfl : (0, 0) = ns' := Option.some.inj chosen
    obtain ⟨⟨rfl, rfl⟩, rfl⟩ : (id = id' ∧ ns = (0, 0)) ∧ later = later' := by simpa using same
    obtain ⟨special, -⟩ | ⟨-, called⟩ := served
    · exact absurd rfl special
    · obtain ⟨rfl, rfl⟩ : ((s.taken index).registered id pid).post (.timer (some id))
          (unit * n % 2 ^ 64) = s' ∧ [] = later := by
        simpa [State.defaultSystemCallback, TCPApplication.nsleep, SystemCallParameter.first,
          Value.getUInt64] using called
      exact ⟨_, id, step, rfl⟩

variable {acts : List (System.Action M)} {log : List (System.Event M)} {c : System.Config M}

/-- The clock, in every run of the scheduler. All messages are due in the future
exactly when no sum of current time and delay wraps, and then the clock never runs
backwards; and a sleep call ends no earlier than asked for exactly when the exact end
lies below `2 ^ 64`. -/
theorem clock_runs_forward (run : (System.machine M).Run free {} acts log c) :
    (System.DueInFuture log ↔ System.LogFits log) ∧
    (∀ acts' log' c', (System.machine M).Run free c acts' log' c' →
      System.LogFits (log ++ log') → c.sys.currentTime ≤ c'.sys.currentTime) ∧
    ∀ hostModuleMap ports routing hostActs hostLog s,
      machine.Run free (start hostModuleMap ports routing) hostActs hostLog s →
      ∀ call unit, (call, unit) ∈ sleeps → ∀ n < 2 ^ 64, ∀ index pid timeAfter,
      s.awake = none → s.runnableReady = ∅ →
      s.pool[index]? = some ⟨.syscall pid (call n), timeAfter⟩ →
      ∃ s' id delay, machine.step s (.dispatch index c.sys.currentTime) =
          some (s', [.registered id pid (0, 0) (call n)]) ∧
        s'.pool = s.pool.eraseIdx index ++ [⟨.timer (some id), delay⟩] ∧
        ∀ source target message container sys,
          c.sys.sendMessage source target message delay = some (container, sys) →
          (c.sys.currentTime + unit * n ≤ container.wakeup ↔
            c.sys.currentTime + unit * n < 2 ^ 64) := by
  refine ⟨System.dueInFuture_iff_logFits run,
    fun _ _ _ later fits => System.currentTime_mono run later fits, ?_⟩
  intro hostModuleMap ports routing hostActs hostLog s hostRun call unit member n small index pid
    timeAfter asleep drained found
  have inv := inv_of_run hostRun
  obtain ⟨s', id, step, pool⟩ := dispatch_sleep c.sys.currentTime inv.represented
    inv.tables asleep drained member small found
  refine ⟨s', id, unit * n % 2 ^ 64, step, pool, ?_⟩
  intro source target message container sys sent
  obtain ⟨-, built, -⟩ := System.sendMessage_eq_some_iff.mp sent
  exact le_due_iff (by rw [built]; rfl)

/-- A process has asked for a nap of five microseconds, and its call is in flight. -/
def napping : List Action :=
  [.addApplication, .launchApplication 0, .wake 0, .syscall (TCPApplication.usleep 5)]

theorem clock_runs_forward_nap :
    ∃ (log : List (System.Event Unit)) (c : System.Config Unit)
        (s s' : State) (id delay : ℕ) (container : TimerContainer Unit) (sys : System Unit),
      (System.machine Unit).Run free {}
        [.sendMessage 0 0 () 7, .run 0, .dispatch] log c ∧
      c.sys.currentTime = 7 ∧ System.DueInFuture log ∧
      machine.step s (.dispatch 0 c.sys.currentTime) =
        some (s', [.registered id 0 (0, 0) (TCPApplication.usleep 5)]) ∧
      s'.pool = [⟨.timer (some id), delay⟩] ∧
      c.sys.sendMessage 0 0 () delay = some (container, sys) ∧ 7 + 5000 ≤ container.wakeup := by
  have clock : ((System.machine Unit).exec {} [.sendMessage 0 0 () 7, .run 0, .dispatch]).map
      (fun r => (r.1.sys.currentTime, r.1.sys.currentUUID, r.1.sys.activeUUID)) =
      some (7, 1, {1}) := by decide
  obtain ⟨⟨c, log⟩, value, same⟩ := Option.map_eq_some_iff.mp clock
  obtain ⟨now, uuid, uuids⟩ :
      c.sys.currentTime = 7 ∧ c.sys.currentUUID = 1 ∧ c.sys.activeUUID = {1} := by
    simpa using same
  have run := Run.of_exec value
  have state : (machine.exec (start ∅ [] .empty) napping).map
      (fun r => (r.1.awake, r.1.runnableReady, r.1.pool)) =
      some (none, ∅, [⟨.syscall 0 (TCPApplication.usleep 5), 0⟩]) := by decide
  obtain ⟨⟨s, hostLog⟩, hostValue, hostSame⟩ := Option.map_eq_some_iff.mp state
  obtain ⟨asleep, drained, pool⟩ : s.awake = none ∧ s.runnableReady = ∅ ∧
      s.pool = [⟨.syscall 0 (TCPApplication.usleep 5), 0⟩] := by
    simpa using hostSame
  obtain ⟨due, -, sleep⟩ := clock_runs_forward run
  obtain ⟨s', id, delay, step, later, sum⟩ := sleep ∅ [] .empty napping hostLog s
    (Run.of_exec hostValue) TCPApplication.usleep (10 ^ 3)
    (List.mem_cons_of_mem _ (List.mem_cons_self ..)) 5 (by norm_num) 0 0 0 asleep drained
    (by rw [pool]; rfl)
  have sends : c.sys.sendMessage 0 0 () delay = some (c.sys.newContainer 0 0 () delay 2, _) :=
    System.sendMessage_eq_some_iff.mpr
      ⟨by rw [uuid, uuids]; decide, by rw [uuid]; rfl, rfl⟩
  refine ⟨log, c, s, s', id, delay, _, _, run, now, ?_, step, ?_, sends, ?_⟩
  · have fits : ((System.machine Unit).exec {} [.sendMessage 0 0 () 7, .run 0, .dispatch]).map
        (fun r => r.2) = some [.sent ⟨0, 0, 0, 7, (), 1⟩ 0 7, .popped ⟨0, 0, 0, 7, (), 1⟩ 7,
          .messageReceived 0 ⟨0, 0, 0, 7, (), 1⟩ 7] := rfl
    obtain rfl : log = _ := by simpa [value] using fits
    apply due.mpr
    intro a sentAt timeAfter member
    obtain ⟨-, rfl, rfl⟩ : a = ⟨0, 0, 0, 7, (), 1⟩ ∧ sentAt = 0 ∧ timeAfter = 7 := by
      simpa using member
    norm_num
  · rw [later, pool]
    rfl
  · have late := (sum 0 0 () _ _ sends).mpr (by rw [now]; norm_num)
    rw [now] at late
    exact late

/-- A nap of `2 ^ 64 - 1` nanoseconds that is asked for at time one ends at time zero,
and the clock follows it back. -/
theorem not_clock_runs_forward :
    ¬ ∀ (acts acts' : List (System.Action Unit)) (log log' : List (System.Event Unit))
        (c c' : System.Config Unit), (System.machine Unit).Run free {} acts log c →
      (System.machine Unit).Run free c acts' log' c' →
      System.DueInFuture log ∧ c.sys.currentTime ≤ c'.sys.currentTime := by
  intro claimed
  have before : ((System.machine Unit).exec {}
      [.sendMessage 0 0 () 1, .run 0, .dispatch, .sendMessage 0 0 () (2 ^ 64 - 1)]).map
      (fun r => r.1.sys.currentTime) = some 1 := by decide
  have whole : ((System.machine Unit).exec {}
      ([.sendMessage 0 0 () 1, .run 0, .dispatch, .sendMessage 0 0 () (2 ^ 64 - 1)] ++
        [.returns none, .returns none, .dispatch])).map
      (fun r => r.1.sys.currentTime) = some 0 := by decide
  obtain ⟨⟨c, log⟩, value, one⟩ := Option.map_eq_some_iff.mp before
  obtain ⟨⟨c', log'⟩, value', zero⟩ := Option.map_eq_some_iff.mp whole
  obtain ⟨mid, early, late, run, later, -⟩ := (Run.of_exec value').split
  obtain ⟨rfl, rfl⟩ := run.unique (Run.of_exec value)
  have order := (claimed _ _ _ _ _ _ run later).2
  change mid.sys.currentTime = 1 at one
  change c'.sys.currentTime = 0 at zero
  omega

end Kens.Host
