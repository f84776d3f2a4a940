/-
# The order in which ready runnables are visited

The drain loop of `run` visits a hash set of pointers, in an order that differs between
executions. Each runnable that it wakes may send messages, whose UUIDs then follow this
order and break ties between messages due at one time. A simulation is therefore
determined by its modules and applications only as long as no two runnables are ready at
once.
-/

import Kens.Host.Basic
import Kens.System.Horizon

namespace Kens.System

open Semantics Machine

variable {M σ : Type}

/-- The whole simulation. The input of a step names the member of the ready set that the
drain loop visits, and is ignored in other steps; everything else is up to the program. -/
def Program.simulation (P : Program M σ) : Machine (World M σ) ℕ (Event M) where
  step w visited :=
    let chosen := ({ P with visit := fun _ _ _ => visited } : Program M σ).choose w
    (w.config.step chosen.1).map fun next => (⟨chosen.2, next.1⟩, next.2)

/-- Source, destination, due time and content of a message that leaves the queue. -/
def dispatched : Event M → Option (ℕ × ℕ × ℕ × M)
  | .popped container _ =>
    some (container.source, container.target, container.wakeup, container.message)
  | _ => none

/-- The drain loop has no choice. -/
def Single (w : World M σ) (_ : ℕ) : Prop :=
  w.config.control = .loop → w.config.sys.runnableReady.card ≤ 1

instance (w : World M σ) (visited : ℕ) : Decidable (Single w visited) :=
  match h : w.config.control with
  | .loop => decidable_of_iff (w.config.sys.runnableReady.card ≤ 1) (by simp [Single, h])
  | .outside | .awake _ | .received _ | .finished _ _ | .responded _ | .canceled _ =>
    isTrue (by simp [Single, h])

variable {P : Program M σ} {w x y : World M σ} {log log' : List (Event M)} {order order' : List ℕ}

/-- A runnable that is visited is ready. -/
theorem mem_of_step_wake {c c' : Config M} {r : ℕ} {new : List (Event M)}
    (h : c.step (.wake r) = some (c', new)) : r ∈ c.sys.runnableReady := by
  simp only [Config.step] at h
  split at h
  · split at h
    next member => exact member
    · simp at h
  · simp at h

/-- Without a choice for the drain loop, the input does not matter. -/
theorem step_eq_of_single {a b : ℕ} {next next' : World M σ × List (Event M)}
    (single : Single w a) (h : P.simulation.step w a = some next)
    (h' : P.simulation.step w b = some next') : next = next' := by
  obtain ⟨result, step, rfl⟩ := Option.map_eq_some_iff.mp h
  obtain ⟨result', step', rfl⟩ := Option.map_eq_some_iff.mp h'
  suffices same : ({ P with visit := fun _ _ _ => a } : Program M σ).choose w =
      ({ P with visit := fun _ _ _ => b } : Program M σ).choose w by
    rw [← same] at step' ⊢
    rw [step] at step'
    rw [Option.some.inj step']
  -- both inputs were visited, so both are in the ready set, which has one member
  unfold Program.choose at step step' ⊢
  cases control : w.config.control with
  | loop =>
    by_cases drained : w.config.sys.runnableReady = ∅
    · simp only [drained, if_true]
    · simp only [control, if_neg drained] at step step' ⊢
      have equal : a = b := Finset.card_le_one.mp (single control) a (mem_of_step_wake step) b
        (mem_of_step_wake step')
      rw [equal]
  | _ => rfl

/-- As long as the drain loop never finds two runnables ready, the messages that are
dispatched do not depend on the order in which it visits them. -/
theorem dispatched_order_independent (run : P.simulation.Run Single w order log x)
    (run' : P.simulation.Run free w order' log' y) :
    (order'.length ≤ order.length → log'.filterMap dispatched <+: log.filterMap dispatched) ∧
      (order.length ≤ order'.length → log.filterMap dispatched <+: log'.filterMap dispatched) := by
  have decided : ∀ (w : World M σ) (a b : ℕ) (next next' : World M σ × List (Event M)),
      Single w a → P.simulation.step w a = some next → P.simulation.step w b = some next' →
        next = next' := fun _ _ _ _ _ => step_eq_of_single
  constructor
  · intro shorter
    -- the longer run begins with the shorter one
    obtain ⟨u, front, back, early, rfl⟩ := run.beginning order'.length
    obtain ⟨-, rfl⟩ := early.agree decided run' (by rw [List.length_take]; omega)
    rw [List.filterMap_append]
    exact List.prefix_append _ _
  · intro longer
    obtain ⟨u, front, back, early, rfl⟩ := run'.beginning order.length
    obtain ⟨-, rfl⟩ := run.agree decided early (by rw [List.length_take]; omega)
    rw [List.filterMap_append]
    exact List.prefix_append _ _

/-! ## Applications that greet their host -/

/-- The test launches some applications on module 1 and runs the simulation. Each of them
raises one system call and waits. The memory holds how far the test is, and which
applications have raised their call. -/
def greeters (apps : List ℕ) : Program HostMessage (ℕ × List ℕ) where
  act memory _ _ control :=
    match control with
    | .outside =>
      let script := apps.flatMap (fun pid => [.start pid, .addRunnable pid]) ++ [.run 0]
      (script.getD memory.1 .leave, (memory.1 + 1, memory.2))
    | .awake pid =>
      if pid ∈ memory.2 then (.yields false, memory)
      else (.sendMessage 1 1 (.syscall pid (TCPApplication.nsleep 1)) 0,
        (memory.1, pid :: memory.2))
    | _ => (.returns none, memory)
  visit _ _ _ := 0

theorem dispatched_order_independent_alone :
    ∃ (log : List (Event HostMessage)) (x : World HostMessage (ℕ × List ℕ)),
      (greeters [0]).simulation.Run Single ⟨(0, []), {}⟩ (List.replicate 7 0) log x ∧
      log.filterMap dispatched = [(1, 1, 0, .syscall 0 (TCPApplication.nsleep 1))] ∧
      ∀ order' log' y, (greeters [0]).simulation.Run free ⟨(0, []), {}⟩ order' log' y →
        7 ≤ order'.length → log.filterMap dispatched <+: log'.filterMap dispatched := by
  have value : ((greeters [0]).simulation.execIf Single ⟨(0, []), {}⟩ (List.replicate 7 0)).map
      (fun r => r.2.filterMap dispatched) =
      some [(1, 1, 0, .syscall 0 (TCPApplication.nsleep 1))] := by decide
  obtain ⟨⟨x, log⟩, run, sent⟩ := Option.map_eq_some_iff.mp value
  refine ⟨log, x, .of_execIf run, sent, fun order' log' y run' long => ?_⟩
  exact (dispatched_order_independent (.of_execIf run) run').2 long

/-- Two applications are launched before the simulation starts. The one that the drain
loop visits first is the one whose call is dispatched first. -/
theorem not_dispatched_order_independent :
    ¬ ∀ (M σ : Type) (P : Program M σ) (w x y : World M σ) (order order' : List ℕ)
      (log log' : List (Event M)), P.simulation.Run free w order log x →
        P.simulation.Run free w order' log' y → order.length = order'.length →
        log.filterMap dispatched = log'.filterMap dispatched := by
  intro independent
  have first : ((greeters [0, 1]).simulation.exec ⟨(0, []), {}⟩
      [0, 0, 0, 0, 0, 0, 0, 0, 1, 0, 0, 0]).map (fun r => r.2.filterMap dispatched) =
      some [(1, 1, 0, .syscall 0 (TCPApplication.nsleep 1))] := by decide
  have second : ((greeters [0, 1]).simulation.exec ⟨(0, []), {}⟩
      [0, 0, 0, 0, 0, 1, 0, 0, 0, 0, 0, 0]).map (fun r => r.2.filterMap dispatched) =
      some [(1, 1, 0, .syscall 1 (TCPApplication.nsleep 1))] := by decide
  obtain ⟨⟨x, log⟩, run, sent⟩ := Option.map_eq_some_iff.mp first
  obtain ⟨⟨y, log'⟩, run', sent'⟩ := Option.map_eq_some_iff.mp second
  have same := independent _ _ _ _ _ _ _ _ _ _ (.of_exec run) (.of_exec run') rfl
  rw [sent, sent'] at same
  exact absurd same (by decide)

end Kens.System
