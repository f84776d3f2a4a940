/-
# Descriptor numbers

`createFileDescriptor` walks through the table of a process in step with a counter that
begins at 3. Since the table is ordered and holds no number below 3, the counter stops at the
lowest free number. Nothing checks this invariant of the tables; it is kept by every sequence
of calls.
-/

import Mathlib
import Kens.Host.Descriptors

namespace Kens.Host

open Semantics Machine

/-! ## One table -/

/-- What the loop relies on: the numbers are in order, and in the range for descriptors. -/
structure InOrder (table : List (ℤ × Namespace)) : Prop where
  sorted : Sorted table
  range : ∀ fd ∈ table.map Prod.fst, 3 ≤ fd ∧ fd < MAX_FD

section Table

variable {fd current : ℤ} {ns : Namespace} {table : List (ℤ × Namespace)}

theorem inOrder_nil : InOrder [] := ⟨List.Pairwise.nil, by simp⟩

/-- All numbers that the loop passes are open. -/
theorem mem_of_lt_lowestFree (passed : current ≤ fd) (before : fd < lowestFree current table) :
    fd ∈ table.map Prod.fst := by
  induction table generalizing current with
  | nil =>
    rw [lowestFree] at before
    omega
  | cons entry rest ih =>
    obtain ⟨first, ns⟩ := entry
    rw [lowestFree] at before
    rw [List.map_cons, List.mem_cons]
    split at before
    next same =>
      by_cases here : fd = first
      · exact .inl here
      · exact .inr (ih (by omega) before)
    · omega

theorem InOrder.lowestFree_spec (h : InOrder table) :
    3 ≤ lowestFree 3 table ∧ lowestFree 3 table ∉ table.map Prod.fst :=
  Host.lowestFree_spec h.sorted fun fd member => (h.range fd member).1

/-- The counter runs out of range exactly when all numbers are open. -/
theorem InOrder.full_iff (h : InOrder table) :
    lowestFree 3 table ≥ MAX_FD ↔ ∀ fd : ℤ, 3 ≤ fd → fd < MAX_FD → fd ∈ table.map Prod.fst := by
  constructor
  · intro full fd low high
    exact mem_of_lt_lowestFree low (by omega)
  · intro all
    obtain ⟨least, unused⟩ := h.lowestFree_spec
    by_contra room
    exact unused (all _ least (by omega))

theorem InOrder.insert (h : InOrder table) (room : ¬ lowestFree 3 table ≥ MAX_FD) :
    InOrder (insertFd (lowestFree 3 table) ns table) := by
  refine ⟨sorted_insertFd h.sorted, fun fd member => ?_⟩
  rcases mem_fst_insertFd member with rfl | old
  · exact ⟨h.lowestFree_spec.1, not_le.mp room⟩
  · exact h.range fd old

theorem InOrder.remove (h : InOrder table) :
    InOrder (table.filter fun entry => entry.1 ≠ fd) := by
  refine ⟨sorted_removeFd h.sorted, fun other member => ?_⟩
  obtain ⟨entry, kept, rfl⟩ := List.mem_map.mp member
  exact h.range _ (List.mem_map_of_mem (List.mem_of_mem_filter kept))

end Table

/-! ## All tables of a host -/

/-- A call on the tables, or the begin or end of a process. -/
inductive TableCall
  | createFileDescriptor (ns : Namespace) (processID : ℕ)
  | removeFileDescriptor (processID : ℕ) (fd : ℤ)
  | registerProcess
  | exitProcess (pid : ℕ)

/-- Any sequence of such calls. The log has the descriptors returned. -/
def tableCalls : Machine Host TableCall ℤ where
  step host
    | .createFileDescriptor ns processID =>
      (host.createFileDescriptor ns processID).map fun r => (r.2, [r.1])
    | .removeFileDescriptor processID fd => some (host.removeFileDescriptor processID fd, [])
    | .registerProcess => some (host.registerProcess.2, [])
    | .exitProcess pid =>
      some ({ host with processInfoMap := Function.update host.processInfoMap pid none }, [])

/-- The tables of all processes are in order. -/
def TablesInOrder (host : Host) : Prop :=
  ∀ pid info, host.processInfoMap pid = some info → InOrder info.fdToDomain

variable {host host' : Host} {info : ProcessInfo} {pid p : ℕ} {fd : ℤ} {ns : Namespace}
  {log new : List ℤ}

/-- A change of one table. -/
theorem TablesInOrder.update (h : TablesInOrder host) {entry : Option ProcessInfo}
    (processes : host'.processInfoMap = Function.update host.processInfoMap pid entry)
    (fresh : ∀ info, entry = some info → InOrder info.fdToDomain) : TablesInOrder host' := by
  intro p info found
  rw [processes] at found
  by_cases same : p = pid
  · rw [same, Function.update_self] at found
    exact fresh info found
  · rw [Function.update_of_ne same] at found
    exact h p info found

theorem createFileDescriptor_eq (found : host.processInfoMap pid = some info) :
    host.createFileDescriptor ns pid =
      if lowestFree 3 info.fdToDomain ≥ MAX_FD then some (-1, host)
      else some (lowestFree 3 info.fdToDomain, host.setProcess pid
        { info with fdToDomain := insertFd (lowestFree 3 info.fdToDomain) ns info.fdToDomain }) := by
  rw [createFileDescriptor, found]

theorem removeFileDescriptor_eq (found : host.processInfoMap pid = some info) :
    host.removeFileDescriptor pid fd = host.setProcess pid
      { info with fdToDomain := info.fdToDomain.filter fun entry => entry.1 ≠ fd } := by
  rw [removeFileDescriptor, found]

/-- One call keeps the tables in order. -/
theorem TablesInOrder.step (h : TablesInOrder host) {call : TableCall}
    (step : tableCalls.step host call = some (host', new)) : TablesInOrder host' := by
  cases call with
  | createFileDescriptor ns processID =>
    obtain ⟨⟨fd, result⟩, created, same⟩ := Option.map_eq_some_iff.mp step
    obtain ⟨rfl, -⟩ : result = host' ∧ [fd] = new := by simpa using same
    cases found : host.processInfoMap processID with
    | none => simp [createFileDescriptor, found] at created
    | some info =>
      rw [createFileDescriptor_eq found] at created
      split at created
      · obtain ⟨-, rfl⟩ := Prod.mk.inj (Option.some.inj created)
        exact h
      next room =>
        obtain ⟨-, rfl⟩ := Prod.mk.inj (Option.some.inj created)
        refine h.update rfl fun changed same => ?_
        rw [← Option.some.inj same]
        exact (h processID info found).insert room
  | removeFileDescriptor processID fd =>
    obtain ⟨rfl, -⟩ := Prod.mk.inj (Option.some.inj step)
    cases found : host.processInfoMap processID with
    | none =>
      rw [removeFileDescriptor, found]
      exact h
    | some info =>
      rw [removeFileDescriptor_eq found]
      refine h.update rfl fun changed same => ?_
      rw [← Option.some.inj same]
      exact (h processID info found).remove
  | registerProcess =>
    obtain ⟨rfl, -⟩ := Prod.mk.inj (Option.some.inj step)
    unfold registerProcess
    split
    · refine h.update rfl fun changed same => ?_
      rw [← Option.some.inj same]
      exact inOrder_nil
    · exact h
  | exitProcess pid =>
    obtain ⟨rfl, -⟩ := Prod.mk.inj (Option.some.inj step)
    exact h.update rfl (by simp)

theorem tablesInOrder_of_run {calls : List TableCall}
    (empty : ∀ pid info, host.processInfoMap pid = some info → info.fdToDomain = [])
    (run : tableCalls.Run free host calls log host') : TablesInOrder host' := by
  refine run.invariant (fun _ host => TablesInOrder host) ?_ ?_
  · intro pid info found
    rw [empty pid info found]
    exact inOrder_nil
  · exact fun _ _ _ _ _ h _ step => h.step step

/-- The tables of a running host are in order. -/
theorem tablesInOrder_of_host_run {hostModuleMap : Finset String} {ports : List ℕ}
    {routing : RoutingInfo} {acts : List Action} {events : List Event} {s : State}
    (run : machine.Run free (start hostModuleMap ports routing) acts events s) :
    TablesInOrder s.host := by
  have ordered : ∀ pid table, s.fdTable pid = some table → InOrder table := by
    have both := run.invariant (fun log s => Inv log s ∧
      ∀ pid table, s.fdTable pid = some table → InOrder table) ⟨inv_start, nofun⟩ (by
      rintro log s a s' new ⟨inv, h⟩ - step
      refine ⟨inv.step step, fun p table found => ?_⟩
      -- a change of one table, to one that is in order
      have update : ∀ (pid : ℕ) (entry : Option (List (ℤ × Namespace))),
          s'.fdTable = Function.update s.fdTable pid entry →
          (∀ table, entry = some table → InOrder table) → InOrder table := by
        intro pid entry tables fresh
        rw [tables] at found
        by_cases same : p = pid
        · rw [same, Function.update_self] at found
          exact fresh table found
        · rw [Function.update_of_ne same] at found
          exact h p table found
      cases change_of_step inv.tables step with
      | steady steady =>
        rw [steady.tables] at found
        exact h p table found
      | added pid free tables =>
        exact update pid _ tables fun table same => Option.some.inj same ▸ inOrder_nil
      | exited pid tables => exact update pid none tables nofun
      | created ns pid old present room tables =>
        refine update pid _ tables fun table same => ?_
        rw [← Option.some.inj same]
        exact (h pid old present).insert (not_le.mpr room)
      | full ns pid => exact h p table found
      | removed pid fd tables =>
        refine update pid _ tables fun table same => ?_
        obtain ⟨old, present, rfl⟩ := Option.map_eq_some_iff.mp same
        exact (h pid old present).remove)
    exact both.2
  intro pid info found
  exact ordered pid info.fdToDomain (by rw [State.fdTable, found]; rfl)

/-- After any sequence of calls: open descriptors are in range. `createFileDescriptor` returns
the lowest number from 3 on that is not open and adds it to the table with its interface; it
returns -1 and changes nothing exactly if all numbers are open. `removeFileDescriptor` removes
one descriptor. Both leave the tables of other processes alone. -/
theorem lowest_free {calls : List TableCall}
    (empty : ∀ pid info, host.processInfoMap pid = some info → info.fdToDomain = [])
    (run : tableCalls.Run free host calls log host') :
    (∀ pid info, host'.processInfoMap pid = some info →
      ∀ fd ∈ info.fdToDomain.map Prod.fst, 3 ≤ fd ∧ fd < MAX_FD) ∧
    (∀ pid info ns, host'.processInfoMap pid = some info →
      ∃ fd after, host'.createFileDescriptor ns pid = some (fd, after) ∧
        (fd = -1 ↔ ∀ k : ℤ, 3 ≤ k → k < MAX_FD → k ∈ info.fdToDomain.map Prod.fst) ∧
        (fd = -1 → after = host') ∧
        (fd ≠ -1 → 3 ≤ fd ∧ fd < MAX_FD ∧ fd ∉ info.fdToDomain.map Prod.fst ∧
          (∀ k : ℤ, 3 ≤ k → k < fd → k ∈ info.fdToDomain.map Prod.fst) ∧
          ∃ table, after.processInfoMap = Function.update host'.processInfoMap pid
              (some { info with fdToDomain := table }) ∧
            ∀ other, table.lookup other =
              if other = fd then some ns else info.fdToDomain.lookup other)) ∧
    ∀ pid fd, (host'.processInfoMap pid = none → host'.removeFileDescriptor pid fd = host') ∧
      ∀ info, host'.processInfoMap pid = some info →
        ∃ table, (host'.removeFileDescriptor pid fd).processInfoMap =
            Function.update host'.processInfoMap pid (some { info with fdToDomain := table }) ∧
          ∀ other, table.lookup other =
            if other = fd then none else info.fdToDomain.lookup other := by
  have ordered := tablesInOrder_of_run empty run
  refine ⟨fun pid info found => (ordered pid info found).range, ?_, ?_⟩
  · intro pid info ns found
    have h := ordered pid info found
    obtain ⟨least, unused⟩ := h.lowestFree_spec
    rw [createFileDescriptor_eq found, ← h.full_iff]
    by_cases full : lowestFree 3 info.fdToDomain ≥ MAX_FD
    · rw [if_pos full]
      exact ⟨-1, host', rfl, iff_of_true rfl full, fun _ => rfl, fun other => absurd rfl other⟩
    · rw [if_neg full]
      refine ⟨_, _, rfl, ⟨fun failed => ?_, fun failed => absurd failed full⟩, fun failed => ?_, ?_⟩
      · omega
      · omega
      · intro _
        refine ⟨least, not_le.mp full, unused, fun k low high => mem_of_lt_lowestFree low high, ?_⟩
        exact ⟨_, rfl, fun other => lookup_insertFd unused⟩
  · intro pid fd
    constructor
    · intro missing
      rw [removeFileDescriptor, missing]
    · intro info found
      rw [removeFileDescriptor_eq found]
      exact ⟨_, rfl, fun other => lookup_removeFd⟩

/-- Three descriptors are opened, and the second one is closed and opened again. -/
theorem lowest_free_reuse :
    ∃ log host, tableCalls.Run free {} [.registerProcess, .createFileDescriptor (2, 6) 0,
        .createFileDescriptor (2, 17) 0, .createFileDescriptor (2, 6) 0,
        .removeFileDescriptor 0 4, .createFileDescriptor (2, 6) 0] log host ∧
      log = [3, 4, 5, 4] ∧
      ∀ pid info, host.processInfoMap pid = some info →
        ∀ fd ∈ info.fdToDomain.map Prod.fst, 3 ≤ fd ∧ fd < MAX_FD := by
  have run : tableCalls.Run free {} _ _ _ := Run.of_exec (rfl : tableCalls.exec {}
    [.registerProcess, .createFileDescriptor (2, 6) 0, .createFileDescriptor (2, 17) 0,
      .createFileDescriptor (2, 6) 0, .removeFileDescriptor 0 4,
      .createFileDescriptor (2, 6) 0] = some _)
  exact ⟨_, _, run, rfl, (lowest_free (by simp) run).1⟩

end Kens.Host
