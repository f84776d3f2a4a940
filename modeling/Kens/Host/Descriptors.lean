/-
# Whose a descriptor is

A descriptor is open from the call that returned it until it is removed or its process
ends, and it belongs to the interface that made this call. The numbers are reused and
shared between processes, so that only the whole history tells whose a descriptor is. The
tables of the host hold exactly what the history says, and system calls go by the tables.
-/

import Mathlib
import Kens.Host.Changes
import Kens.Host.Servable

namespace Kens.Host

open Semantics Machine

variable {s s' : State} {new log : List Event} {pid index now : ℕ} {fd : ℤ} {ns : Namespace}
  {info : ProcessInfo}

/-! ## The log determines the tables -/

/-- A call of `createFileDescriptor` by interface `ns` for the process returned the
descriptor; since then the process has neither begun nor ended, and the descriptor was
neither removed nor returned again. -/
def Opened (log : List Event) (pid : ℕ) (fd : ℤ) (ns : Namespace) : Prop :=
  0 ≤ fd ∧ ∃ early late, log = early ++ .fdCreated ns pid fd :: late ∧
    ∀ event ∈ late, ¬ event.touches pid fd

theorem opened_nil : ¬ Opened [] pid fd ns := by
  rintro ⟨-, early, late, empty, -⟩
  simp at empty

theorem opened_snoc {event : Event} :
    Opened (log ++ [event]) pid fd ns ↔
      (event = .fdCreated ns pid fd ∧ 0 ≤ fd) ∨
        (¬ event.touches pid fd ∧ Opened log pid fd ns) := by
  constructor
  · rintro ⟨valid, early, late, split, untouched⟩
    rcases List.eq_nil_or_concat late with rfl | ⟨middle, last, rfl⟩
    · obtain ⟨-, same⟩ := List.append_inj' split rfl
      exact .inl ⟨List.singleton_inj.mp same, valid⟩
    · rw [List.concat_eq_append, ← List.cons_append, ← List.append_assoc] at split
      obtain ⟨rfl, same⟩ := List.append_inj' split rfl
      obtain rfl : event = last := by simpa using same
      refine .inr ⟨untouched event (by simp), valid, early, middle, rfl, ?_⟩
      intro other member
      exact untouched other (by simp [member])
  · rintro (⟨rfl, valid⟩ | ⟨apart, valid, early, late, rfl, untouched⟩)
    · exact ⟨valid, log, [], rfl, by simp⟩
    · refine ⟨valid, early, late ++ [event], by simp, ?_⟩
      intro other member
      rcases List.mem_append.mp member with member | member
      · exact untouched other member
      · rwa [List.mem_singleton.mp member]

theorem opened_append (silent : ∀ event ∈ new, ∀ pid fd, ¬ event.touches pid fd) :
    Opened (log ++ new) pid fd ns ↔ Opened log pid fd ns := by
  induction new using List.reverseRecOn with
  | nil => rw [List.append_nil]
  | append_singleton new event ih =>
    have apart := silent event (by simp)
    rw [← List.append_assoc, opened_snoc, ih fun other member => silent other (by simp [member])]
    constructor
    · rintro (⟨rfl, -⟩ | ⟨-, opened⟩)
      · exact absurd ⟨rfl, rfl⟩ (apart pid fd)
      · exact opened
    · exact fun opened => .inr ⟨apart pid fd, opened⟩

/-- The tables are ordered, have descriptors from 3 on, and hold what the log says. -/
structure Ledger (log : List Event) (s : State) : Prop where
  sorted : ∀ pid table, s.fdTable pid = some table → Sorted table
  above : ∀ pid table, s.fdTable pid = some table → ∀ fd ∈ table.map Prod.fst, 3 ≤ fd
  owned : ∀ pid fd ns, Opened log pid fd ns ↔
    ∃ table, s.fdTable pid = some table ∧ table.lookup fd = some ns

variable {hostModuleMap : Finset String} {ports : List ℕ} {routing : RoutingInfo}

theorem ledger_start : Ledger [] (start hostModuleMap ports routing) where
  sorted := nofun
  above := nofun
  owned pid fd ns := by
    constructor
    · exact fun opened => absurd opened opened_nil
    · exact nofun

/-- A change of one table by one event. -/
theorem Ledger.update (h : Ledger log s) {event : Event} (entry : Option (List (ℤ × Namespace)))
    (tables : s'.fdTable = Function.update s.fdTable pid entry)
    (others : ∀ p fd, p ≠ pid → ¬ event.touches p fd)
    (sorted : ∀ table, entry = some table → Sorted table)
    (above : ∀ table, entry = some table → ∀ fd ∈ table.map Prod.fst, 3 ≤ fd)
    (owned : ∀ fd ns, ((event = .fdCreated ns pid fd ∧ 0 ≤ fd) ∨
        (¬ event.touches pid fd ∧ Opened log pid fd ns)) ↔
      ∃ table, entry = some table ∧ table.lookup fd = some ns) :
    Ledger (log ++ [event]) s' := by
  have self : s'.fdTable pid = entry := by rw [tables, Function.update_self]
  have other : ∀ p, p ≠ pid → s'.fdTable p = s.fdTable p := fun p different => by
    rw [tables, Function.update_of_ne different]
  constructor
  · intro p table found
    by_cases same : p = pid
    · exact sorted table (by rw [← self, ← same, found])
    · exact h.sorted p table (by rw [← other p same, found])
  · intro p table found
    by_cases same : p = pid
    · exact above table (by rw [← self, ← same, found])
    · exact h.above p table (by rw [← other p same, found])
  · intro p fd ns
    rw [opened_snoc]
    by_cases same : p = pid
    · subst same
      rw [self]
      exact owned fd ns
    · rw [other p same, ← h.owned p fd ns]
      constructor
      · rintro (⟨rfl, -⟩ | ⟨-, opened⟩)
        · exact absurd ⟨rfl, rfl⟩ (others p fd same)
        · exact opened
      · exact fun opened => .inr ⟨others p fd same, opened⟩

theorem Ledger.created (h : Ledger log s) {table : List (ℤ × Namespace)}
    (present : s.fdTable pid = some table)
    (tables : s'.fdTable =
      Function.update s.fdTable pid (some (insertFd (lowestFree 3 table) ns table))) :
    Ledger (log ++ [.fdCreated ns pid (lowestFree 3 table)]) s' := by
  obtain ⟨least, unused⟩ := lowestFree_spec (h.sorted pid table present) (h.above pid table present)
  refine h.update (some (insertFd (lowestFree 3 table) ns table)) tables
    (fun p fd different same => different same.1.symm) ?_ ?_ ?_
  · rintro _ ⟨rfl⟩
    exact sorted_insertFd (h.sorted pid table present)
  · rintro _ ⟨rfl⟩ fd member
    rcases mem_fst_insertFd member with rfl | member
    · exact least
    · exact h.above pid table present fd member
  · intro fd ns'
    simp only [Option.some.injEq, exists_eq_left', lookup_insertFd unused, h.owned, present,
      Event.fdCreated.injEq, true_and, Event.touches]
    -- the descriptor was free before, so its last event is this one
    by_cases same : fd = lowestFree 3 table
    · rw [if_pos same, Option.some.injEq]
      constructor
      · rintro (⟨⟨rfl, -⟩, -⟩ | ⟨different, -⟩)
        · rfl
        · exact absurd same.symm different
      · rintro rfl
        exact .inl ⟨⟨rfl, same.symm⟩, by omega⟩
    · rw [if_neg same]
      constructor
      · rintro (⟨⟨-, equal⟩, -⟩ | ⟨-, found⟩)
        · exact absurd equal.symm same
        · exact found
      · exact fun found => .inr ⟨fun equal => same equal.symm, found⟩

theorem Ledger.removed (h : Ledger log s)
    (tables : s'.fdTable = Function.update s.fdTable pid
      ((s.fdTable pid).map fun table => table.filter fun entry => entry.1 ≠ fd)) :
    Ledger (log ++ [.fdRemoved pid fd]) s' := by
  refine h.update _ tables (fun p fd different same => different same.1.symm) ?_ ?_ ?_
  · intro table found
    obtain ⟨old, present, rfl⟩ := Option.map_eq_some_iff.mp found
    exact sorted_removeFd (h.sorted pid old present)
  · intro table found f member
    obtain ⟨old, present, rfl⟩ := Option.map_eq_some_iff.mp found
    obtain ⟨entry, kept, rfl⟩ := List.mem_map.mp member
    exact h.above pid old present _ (List.mem_map_of_mem (List.mem_of_mem_filter kept))
  · intro f ns
    have removed : (∃ table, ((s.fdTable pid).map fun table =>
          table.filter fun entry => entry.1 ≠ fd) = some table ∧ table.lookup f = some ns) ↔
        f ≠ fd ∧ ∃ table, s.fdTable pid = some table ∧ table.lookup f = some ns := by
      -- a process that is gone has no table to remove from
      cases s.fdTable pid with
      | none => simp
      | some old =>
        simp only [Option.map_some, Option.some.injEq, exists_eq_left', lookup_removeFd]
        by_cases same : f = fd <;> simp [same]
    rw [removed, ← h.owned pid f ns]
    simp only [reduceCtorEq, false_and, false_or, Event.touches, true_and]
    rw [eq_comm, ne_eq]

theorem Ledger.change (h : Ledger log s) (change : Change s new s') : Ledger (log ++ new) s' := by
  cases change with
  | steady steady =>
    constructor
    · rw [steady.tables]
      exact h.sorted
    · rw [steady.tables]
      exact h.above
    · intro pid fd ns
      rw [steady.tables, opened_append steady.silent]
      exact h.owned pid fd ns
  | added pid free tables =>
    refine h.update (some []) tables (fun p fd different same => different same.symm) ?_ ?_ ?_
    · rintro _ ⟨rfl⟩
      exact List.Pairwise.nil
    · rintro _ ⟨rfl⟩
      simp
    · simp [Event.touches]
  | exited pid tables =>
    refine h.update none tables (fun p fd different same => different same.symm) ?_ ?_ ?_
    · simp
    · simp
    · simp [Event.touches]
  | created ns pid table present room tables => exact h.created present tables
  | full ns pid =>
    -- the failed call returns no descriptor
    refine ⟨h.sorted, h.above, fun p fd ns' => ?_⟩
    rw [opened_snoc, ← h.owned]
    constructor
    · rintro (⟨same, valid⟩ | ⟨-, opened⟩)
      · obtain ⟨-, -, rfl⟩ : ns = ns' ∧ pid = p ∧ -1 = fd := by simpa using same
        omega
      · exact opened
    · intro opened
      refine .inr ⟨?_, opened⟩
      rintro ⟨-, rfl⟩
      exact absurd opened.1 (by omega)
  | removed pid fd tables => exact h.removed tables

variable {acts : List Action}

theorem ledger_of_run (run : machine.Run free (start hostModuleMap ports routing) acts log s) :
    Ledger log s := by
  have both := run.invariant (fun log s => Inv log s ∧ Ledger log s) ⟨inv_start, ledger_start⟩ (by
    rintro log s a s' new ⟨inv, h⟩ - step
    exact ⟨inv.step step, h.change (change_of_step inv.tables step)⟩)
  exact both.2

/-! ## Whom a call goes to -/

/-- The descriptor that a system call is about. -/
def descriptorOf (param : SystemCallParameter) : Option ℤ :=
  match param.syscallNumber with
  | .socket | .nsleep | .gettimeofday => none
  | .close | .read | .write | .connect | .listen | .accept | .bind | .getsockname
  | .getpeername => param.first.getInt

variable {param : SystemCallParameter} {timeAfter : ℕ}

/-- A call about a descriptor goes to the interface under which the descriptor is. -/
theorem namespaceOf_descriptor (about : descriptorOf param = some fd) :
    namespaceOf info param = info.fdToDomain.lookup fd := by
  unfold descriptorOf at about
  unfold namespaceOf
  cases number : param.syscallNumber with
  | socket | nsleep | gettimeofday => simp [number] at about
  | _ =>
    rw [number] at about
    exact bind_of_eq_some about

/-- A call about an open descriptor is servable. -/
theorem servable_of_descriptor (about : descriptorOf param = some fd)
    (present : s.host.processInfoMap pid = some info)
    (found : info.fdToDomain.lookup fd = some ns) : Servable s.host pid param := by
  have member := mem_map_fst_iff_lookup.mpr ⟨ns, found⟩
  unfold descriptorOf at about
  unfold Servable
  cases number : param.syscallNumber with
  | socket | nsleep | gettimeofday => simp [number] at about
  | _ =>
    rw [number] at about
    exact ⟨info, present, fd, about, member⟩

/-- In the dispatch of a system call only this call is registered, with the interface that
the tables name for it. -/
theorem registered_of_dispatch (found : s.pool[index]? = some ⟨.syscall pid param, timeAfter⟩)
    (step : machine.step s (.dispatch index now) = some (s', new)) {syscallUUID : ℕ} {p : ℕ}
    {param' : SystemCallParameter} (member : .registered syscallUUID p ns param' ∈ new) :
    p = pid ∧ param' = param ∧
      ∃ info, s.host.processInfoMap pid = some info ∧ namespaceOf info param = some ns := by
  obtain ⟨index', now', timeAfter', info, same, found', present, chosen⟩ :=
    emitted_of_step step _ member
  obtain ⟨rfl, rfl⟩ : index = index' ∧ now = now' := by simpa using same
  rw [found] at found'
  obtain ⟨⟨rfl, rfl⟩, rfl⟩ : (pid = p ∧ param = param') ∧ timeAfter = timeAfter' := by
    simpa using found'
  exact ⟨rfl, rfl, info, present, chosen⟩

/-- In every run: a system call about a descriptor that is open in the process of the
caller is handed to the interface whose `createFileDescriptor` returned the descriptor, and
to no other; `nsleep` and `gettimeofday` are handed to `DefaultSystemCall` and to no other. -/
theorem owner_serves (run : machine.Run free (start hostModuleMap ports routing) acts log s)
    (now : ℕ) (asleep : s.awake = none) (drained : s.runnableReady = ∅)
    (found : s.pool[index]? = some ⟨.syscall pid param, timeAfter⟩) :
    (∀ fd ns, descriptorOf param = some fd → Opened log pid fd ns →
      ∃ s' syscallUUID, machine.step s (.dispatch index now) =
        some (s', [.registered syscallUUID pid ns param])) ∧
    (param.syscallNumber = .nsleep ∨ param.syscallNumber = .gettimeofday →
      (Servable s.host pid param → ∃ s' syscallUUID later, machine.step s (.dispatch index now) =
        some (s', .registered syscallUUID pid (0, 0) param :: later)) ∧
      ∀ s' new, machine.step s (.dispatch index now) = some (s', new) →
        ∀ syscallUUID p ns param', .registered syscallUUID p ns param' ∈ new → ns = (0, 0)) := by
  have inv := inv_of_run run
  constructor
  · intro fd ns about opened
    obtain ⟨table, owner, value⟩ := ((ledger_of_run run).owned pid fd ns).mp opened
    obtain ⟨info, present, rfl⟩ := Option.map_eq_some_iff.mp owner
    -- descriptors never belong to `DefaultSystemCall`
    have special := (inv.tables.owners pid info present _ (mem_of_lookup value)).2
    obtain ⟨s', syscallUUID, ns', later, step, -⟩ := dispatch_of_servable now inv.represented
      inv.tables asleep drained found (servable_of_descriptor about present value)
    have received := step
    rw [step_dispatch asleep drained found] at received
    obtain ⟨info', chosen, present', named, ⟨-, -, same⟩ | ⟨uuid, rest, -, -, same, served⟩⟩ :=
      syscallReceived_cases received
    · simp at same
    -- the call is registered with the entry of the table, which is what the log says
    · obtain rfl : info = info' := Option.some.inj (present.symm.trans present')
      rw [namespaceOf_descriptor about, value, Option.some.injEq] at named
      obtain ⟨-, -, rfl⟩ | ⟨default, -⟩ := served
      · rw [same, ← named] at step
        exact ⟨s', uuid, step⟩
      · exact absurd (named.trans default) special
  · intro sleeps
    have always : ∀ info, namespaceOf info param = some (0, 0) := by
      intro info
      unfold namespaceOf
      rcases sleeps with number | number <;> rw [number]
    have only : ∀ s' new, machine.step s (.dispatch index now) = some (s', new) →
        ∀ syscallUUID p ns param', .registered syscallUUID p ns param' ∈ new → ns = (0, 0) := by
      intro s' new step syscallUUID p ns param' member
      obtain ⟨-, -, info, -, chosen⟩ := registered_of_dispatch found step member
      exact Option.some.inj (chosen.symm.trans (always info))
    refine ⟨fun servable => ?_, only⟩
    obtain ⟨s', syscallUUID, ns, later, step, -⟩ := dispatch_of_servable now inv.represented
      inv.tables asleep drained found servable
    obtain rfl := only s' _ step syscallUUID pid ns param (List.mem_cons_self ..)
    exact ⟨s', syscallUUID, later, step⟩

/-- Two interfaces open the same descriptor number in two processes, and one of the
processes closes its descriptor. -/
def twoOwners : List Action :=
  [.addInterface (2, 6), .addInterface (2, 17), .addApplication, .addApplication,
    .createFileDescriptor (2, 17) 0, .createFileDescriptor (2, 6) 1, .launchApplication 0, .wake 0,
    .syscall (TCPApplication.close 3)]

/-- Their log. -/
def twoOwnersLog : List Event :=
  [.added 0, .added 1, .fdCreated (2, 17) 0 3, .fdCreated (2, 6) 1 3, .launched 0, .started 0,
    .issued 0 (TCPApplication.close 3)]

theorem owner_serves_two :
    ∃ s s' syscallUUID, machine.Run free (start ∅ [] .empty) twoOwners twoOwnersLog s ∧
      Opened twoOwnersLog 0 3 (2, 17) ∧ Opened twoOwnersLog 1 3 (2, 6) ∧
      machine.step s (.dispatch 0 0) =
        some (s', [.registered syscallUUID 0 (2, 17) (TCPApplication.close 3)]) := by
  have events : (machine.exec (start ∅ [] .empty) twoOwners).map Prod.snd =
      some twoOwnersLog := by decide
  have state : (machine.exec (start ∅ [] .empty) twoOwners).map
      (fun r => (r.1.awake, r.1.runnableReady, r.1.pool)) =
      some (none, ∅, [⟨.syscall 0 (TCPApplication.close 3), 0⟩]) := by decide
  obtain ⟨⟨s, log⟩, value, same⟩ := Option.map_eq_some_iff.mp events
  change log = twoOwnersLog at same
  subst same
  obtain ⟨asleep, drained, pool⟩ : s.awake = none ∧ s.runnableReady = ∅ ∧
      s.pool = [⟨.syscall 0 (TCPApplication.close 3), 0⟩] := by
    simpa [value] using state
  have run := Run.of_exec value
  have udp : Opened twoOwnersLog 0 3 (2, 17) :=
    ⟨by norm_num, twoOwnersLog.take 2, twoOwnersLog.drop 3, rfl,
      by simp [twoOwnersLog, Event.touches]⟩
  have tcp : Opened twoOwnersLog 1 3 (2, 6) :=
    ⟨by norm_num, twoOwnersLog.take 3, twoOwnersLog.drop 4, rfl,
      by simp [twoOwnersLog, Event.touches]⟩
  have found : s.pool[0]? = some ⟨.syscall 0 (TCPApplication.close 3), 0⟩ := by
    rw [pool]
    rfl
  obtain ⟨s', syscallUUID, step⟩ := (owner_serves run 0 asleep drained found).1 3 (2, 17) rfl udp
  exact ⟨s, s', syscallUUID, run, udp, tcp, step⟩

end Kens.Host
