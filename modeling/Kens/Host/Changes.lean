/-
# What a step does to the descriptor tables

The operations on one descriptor table, and the effect of each step of the host on the
tables of all its processes. Most steps are steady: they leave the tables alone and do
not start a host that is down.
-/

import Mathlib
import Kens.Host.Simulation

namespace Kens.Host

open Semantics Machine

/-! ## One table -/

section Table

variable {fd other current : ℤ} {ns : Namespace} {table : List (ℤ × Namespace)}

/-- The entries of an ordered map. -/
def Sorted (table : List (ℤ × Namespace)) : Prop :=
  (table.map Prod.fst).Pairwise (· < ·)

/-- The loop stops at the first gap, where no descriptor is open. -/
theorem lowestFree_spec (sorted : Sorted table) (above : ∀ fd ∈ table.map Prod.fst, current ≤ fd) :
    current ≤ lowestFree current table ∧ lowestFree current table ∉ table.map Prod.fst := by
  induction table generalizing current with
  | nil => simp [lowestFree]
  | cons entry rest ih =>
    obtain ⟨first, ns⟩ := entry
    obtain ⟨below, sorted⟩ := List.pairwise_cons.mp sorted
    have low : current ≤ first := above first (by simp)
    simp only [lowestFree, List.map_cons, List.mem_cons, not_or]
    split
    next same =>
      have above' : ∀ fd ∈ rest.map Prod.fst, current + 1 ≤ fd := by
        intro fd member
        have := below fd member
        dsimp only at this
        omega
      obtain ⟨least, free⟩ := ih sorted above'
      exact ⟨by omega, by omega, free⟩
    next gap =>
      refine ⟨le_rfl, Ne.symm gap, fun member => ?_⟩
      have := below current member
      dsimp only at this
      omega

theorem lookup_insertFd (unused : fd ∉ table.map Prod.fst) :
    (insertFd fd ns table).lookup other = if other = fd then some ns else table.lookup other := by
  induction table with
  | nil => rw [insertFd, lookup_entry]
  | cons entry rest ih =>
    obtain ⟨first, ns'⟩ := entry
    obtain ⟨different, unused⟩ : fd ≠ first ∧ fd ∉ rest.map Prod.fst := by
      simpa only [List.map_cons, List.mem_cons, not_or] using unused
    rw [insertFd, if_neg different]
    split
    · rw [lookup_entry]
    · rw [lookup_entry, lookup_entry, ih unused]
      by_cases same : other = first
      · rw [if_pos same, if_pos same, if_neg (same ▸ Ne.symm different)]
      · rw [if_neg same, if_neg same]

theorem mem_fst_insertFd (member : other ∈ (insertFd fd ns table).map Prod.fst) :
    other = fd ∨ other ∈ table.map Prod.fst := by
  obtain ⟨entry, inserted, rfl⟩ := List.mem_map.mp member
  rcases mem_insertFd inserted with rfl | old
  · exact .inl rfl
  · exact .inr (List.mem_map_of_mem old)

theorem sorted_insertFd (sorted : Sorted table) : Sorted (insertFd fd ns table) := by
  induction table with
  | nil => exact List.pairwise_singleton _ _
  | cons entry rest ih =>
    obtain ⟨first, ns'⟩ := entry
    obtain ⟨below, sorted'⟩ := List.pairwise_cons.mp sorted
    rw [insertFd]
    split
    next less =>
      refine List.pairwise_cons.mpr ⟨fun other member => ?_, sorted⟩
      rcases List.mem_cons.mp member with rfl | member
      · exact less
      · exact less.trans (below other member)
    · split
      · exact sorted
      · refine List.pairwise_cons.mpr ⟨fun other member => ?_, ih sorted'⟩
        rcases mem_fst_insertFd member with rfl | member
        · omega
        · exact below other member

theorem lookup_removeFd :
    (table.filter fun entry => entry.1 ≠ fd).lookup other =
      if other = fd then none else table.lookup other := by
  induction table with
  | nil => simp
  | cons entry rest ih =>
    obtain ⟨first, ns'⟩ := entry
    by_cases gone : first = fd
    · rw [List.filter_cons_of_neg (by simpa using gone), ih, lookup_entry, gone]
      by_cases same : other = fd
      · rw [if_pos same, if_pos same]
      · rw [if_neg same, if_neg same, if_neg same]
    · rw [List.filter_cons_of_pos (by simpa using gone), lookup_entry, lookup_entry, ih]
      by_cases same : other = first
      · rw [if_pos same, if_pos same, if_neg (same ▸ gone)]
      · rw [if_neg same, if_neg same]

theorem sorted_removeFd (sorted : Sorted table) :
    Sorted (table.filter fun entry => entry.1 ≠ fd) :=
  sorted.sublist (List.filter_sublist.map _)

end Table

/-! ## What a step does to the tables -/

variable {s s' t u : State} {new later log : List Event} {pid p index now : ℕ} {fd : ℤ}
  {ns : Namespace} {a : Action} {info : ProcessInfo}

/-- The descriptor table of a process. -/
def State.fdTable (s : State) (pid : ℕ) : Option (List (ℤ × Namespace)) :=
  (s.host.processInfoMap pid).map ProcessInfo.fdToDomain

/-- The event begins or ends a life of the process, or it concerns the descriptor. -/
def Event.touches (pid : ℕ) (fd : ℤ) : Event → Prop
  | .added p | .exited p => p = pid
  | .fdCreated _ p f | .fdRemoved p f => p = pid ∧ f = fd
  | _ => False

/-- The step leaves the tables alone, and it does not start a host that is down. -/
structure Steady (s : State) (new : List Event) (s' : State) : Prop where
  tables : s'.fdTable = s.fdTable
  down : s.host.running = false → s'.host.running = false
  silent : ∀ event ∈ new, ∀ pid fd, ¬ event.touches pid fd

theorem Steady.trans (h : Steady s new t) (h' : Steady t later u) : Steady s (new ++ later) u where
  tables := h'.tables.trans h.tables
  down stopped := h'.down (h.down stopped)
  silent event member := (List.mem_append.mp member).elim (h.silent event) (h'.silent event)

/-- Steps that change no process. -/
theorem Steady.of_eq (processes : s'.host.processInfoMap = s.host.processInfoMap)
    (down : s.host.running = false → s'.host.running = false)
    (silent : ∀ event ∈ new, ∀ pid fd, ¬ event.touches pid fd) : Steady s new s' := by
  refine ⟨?_, down, silent⟩
  funext pid
  rw [State.fdTable, State.fdTable, processes]

/-- Steps that change an application only. -/
theorem Steady.of_application {application : Application}
    (found : s.host.processInfoMap pid = some info)
    (processes : s'.host.processInfoMap = Function.update s.host.processInfoMap pid
      (some { info with application := application }))
    (running : s'.host.running = s.host.running)
    (silent : ∀ event ∈ new, ∀ pid fd, ¬ event.touches pid fd) : Steady s new s' := by
  refine ⟨?_, fun stopped => running.trans stopped, silent⟩
  funext p
  rw [State.fdTable, State.fdTable, processes]
  by_cases same : p = pid
  · subst same
    rw [Function.update_self, found]
    rfl
  · rw [Function.update_of_ne same]

theorem steady_returnSystemCall {syscallUUID : ℕ} {val : ℤ}
    (h : s.returnSystemCall syscallUUID val = some (s', new)) : Steady s new s' := by
  obtain ⟨rfl, ⟨-, rfl⟩ | ⟨pid, info, -, found, -, rfl⟩⟩ := returnSystemCall_cases h
  · exact .of_eq rfl id (by simp [Event.touches])
  · exact .of_application found rfl rfl (by simp [Event.touches])

theorem steady_returnAll {val : ℤ} {ids : List ℕ} (h : s.returnAll val ids = some (s', new)) :
    Steady s new s' := by
  induction ids generalizing s new with
  | nil =>
    obtain ⟨rfl, rfl⟩ : s = s' ∧ [] = new := by simpa [State.returnAll] using h
    exact .of_eq rfl id (by simp)
  | cons id rest ih =>
    rw [State.returnAll] at h
    split at h
    · simp at h
    next middle first answered =>
      obtain ⟨⟨t, later⟩, all, same⟩ := Option.map_eq_some_iff.mp h
      obtain ⟨rfl, rfl⟩ : t = s' ∧ first ++ later = new := by simpa using same
      exact (steady_returnSystemCall answered).trans (ih all)

theorem steady_cleanUp {order : List ℕ} (h : s.cleanUp order = some (s', new)) :
    Steady s new s' := by
  unfold State.cleanUp at h
  split at h
  · obtain ⟨⟨t, returns⟩, all, same⟩ := Option.map_eq_some_iff.mp h
    obtain ⟨rfl, rfl⟩ : t = s' ∧ returns ++ [.cleanedUp order.length] = new := by simpa using same
    have stopped : Steady s [] { s with host := { s.host with running := false } } :=
      .of_eq rfl (fun _ => rfl) (by simp)
    have counted : Steady t [.cleanedUp order.length] t := .of_eq rfl id (by simp [Event.touches])
    exact (stopped.trans (steady_returnAll all)).trans counted
  · simp at h

theorem steady_sendPacketToModule {fromModule : Option String} {toModule : String}
    {packet : Packet} {junk : Mac}
    (h : s.sendPacketToModule fromModule toModule packet junk = some (s', new)) :
    Steady s new s' := by
  unfold State.sendPacketToModule State.sendPacket at h
  split at h
  · split at h
    · simp at h
    · split at h
      · simp at h
      · split at h
        · simp at h
        · split at h
          · obtain ⟨rfl, rfl⟩ : s = s' ∧ [] = new := by simpa using h
            exact .of_eq rfl id (by simp)
          · obtain ⟨rfl, rfl⟩ : s = s' ∧ _ = new := by simpa using h
            exact .of_eq rfl id (by simp [Event.touches])
  · split at h
    · obtain ⟨rfl, rfl⟩ : _ = s' ∧ [] = new := by simpa using h
      exact .of_eq rfl id (by simp)
    · obtain ⟨rfl, rfl⟩ : s = s' ∧ [] = new := by simpa using h
      exact .of_eq rfl id (by simp)

theorem steady_defaultSystemCallback {syscallUUID : ℕ} {param : SystemCallParameter}
    (h : s.defaultSystemCallback now syscallUUID param = some (s', new)) : Steady s new s' := by
  unfold State.defaultSystemCallback at h
  split at h
  · obtain ⟨timeAfter, -, same⟩ := Option.map_eq_some_iff.mp h
    obtain ⟨rfl, rfl⟩ : _ = s' ∧ [] = new := by simpa using same
    exact .of_eq rfl id (by simp)
  · split at h
    · dsimp only at h
      split at h
      · exact steady_returnSystemCall h
      · split at h
        · simp at h
        · obtain ⟨⟨u, later⟩, answered, same⟩ := Option.map_eq_some_iff.mp h
          obtain ⟨rfl, rfl⟩ : u = s' ∧ _ :: later = new := by simpa using same
          obtain ⟨tables, down, silent⟩ := steady_returnSystemCall answered
          exact ⟨tables, down, by simpa [Event.touches] using silent⟩
    · simp at h
  · simp at h

/-- What a step does to the tables. -/
inductive Change (s : State) : List Event → State → Prop
  | steady {new : List Event} {s' : State} (h : Steady s new s') : Change s new s'
  | added {s' : State} (pid : ℕ) (free : s.fdTable pid = none)
      (tables : s'.fdTable = Function.update s.fdTable pid (some []))
      (running : s'.host.running = s.host.running) : Change s [.added pid] s'
  | exited {s' : State} (pid : ℕ) (tables : s'.fdTable = Function.update s.fdTable pid none)
      (running : s'.host.running = s.host.running) : Change s [.exited pid] s'
  | created {s' : State} (ns : Namespace) (pid : ℕ) (table : List (ℤ × Namespace))
      (present : s.fdTable pid = some table) (room : lowestFree 3 table < MAX_FD)
      (tables : s'.fdTable =
        Function.update s.fdTable pid (some (insertFd (lowestFree 3 table) ns table)))
      (running : s'.host.running = s.host.running) :
      Change s [.fdCreated ns pid (lowestFree 3 table)] s'
  | full (ns : Namespace) (pid : ℕ) : Change s [.fdCreated ns pid (-1)] s
  | removed {s' : State} (pid : ℕ) (fd : ℤ)
      (tables : s'.fdTable = Function.update s.fdTable pid
        ((s.fdTable pid).map fun table => table.filter fun entry => entry.1 ≠ fd))
      (running : s'.host.running = s.host.running) : Change s [.fdRemoved pid fd] s'

theorem change_addApplication (tables : Tables s.host)
    (h : s.stepIdle .addApplication = some (s', new)) : Change s new s' := by
  obtain ⟨rfl, rfl⟩ : { s with host := s.host.registerProcess.2 } = s' ∧
      (if s.host.registerProcess.1 = -1 then []
        else [.added s.host.registerProcess.1.toNat]) = new := by
    simpa [State.stepIdle] using h
  rcases tables.registerProcess_cases with ⟨current, -, unused, registered⟩ | registered
  · rw [registered]
    dsimp only
    rw [if_neg (by omega), Int.toNat_natCast]
    refine .added current (by rw [State.fdTable, unused]; rfl) ?_ rfl
    funext p
    by_cases same : p = current
    · subst same
      simp [State.fdTable]
    · simp [State.fdTable, same]
  · rw [registered, if_pos rfl]
    exact .steady (.of_eq rfl id (by simp))

theorem fdTable_setProcess {fds : List (ℤ × Namespace)} :
    ({ s with host := s.host.setProcess pid { info with fdToDomain := fds } } : State).fdTable =
      Function.update s.fdTable pid (some fds) := by
  funext p
  by_cases same : p = pid
  · subst same
    simp [State.fdTable, setProcess]
  · simp [State.fdTable, setProcess, same]

theorem change_createFileDescriptor
    (h : s.stepIdle (.createFileDescriptor ns pid) = some (s', new)) : Change s new s' := by
  simp only [State.stepIdle] at h
  split at h
  · obtain ⟨⟨fd, host⟩, created, same⟩ := Option.map_eq_some_iff.mp h
    obtain ⟨rfl, rfl⟩ : { s with host := host } = s' ∧ [.fdCreated ns pid fd] = new := by
      simpa using same
    unfold createFileDescriptor at created
    split at created
    · simp at created
    next info found =>
      dsimp only at created
      split at created
      · obtain ⟨rfl, rfl⟩ : -1 = fd ∧ s.host = host := by simpa using created
        exact .full ns pid
      next room =>
        obtain ⟨rfl, rfl⟩ : lowestFree 3 info.fdToDomain = fd ∧ _ = host := by
          simpa using created
        exact .created ns pid info.fdToDomain (by rw [State.fdTable, found]; rfl)
          (not_le.mp room) fdTable_setProcess rfl
  · simp at h

theorem change_removeFileDescriptor
    (h : s.stepIdle (.removeFileDescriptor pid fd) = some (s', new)) : Change s new s' := by
  obtain ⟨rfl, rfl⟩ : { s with host := s.host.removeFileDescriptor pid fd } = s' ∧
      [.fdRemoved pid fd] = new := by
    simpa [State.stepIdle] using h
  refine .removed pid fd ?_ ?_
  · unfold removeFileDescriptor
    split
    next missing =>
      have none : s.fdTable pid = none := by rw [State.fdTable, missing]; rfl
      rw [none, Option.map_none, ← none, Function.update_eq_self]
    next info found =>
      rw [fdTable_setProcess, State.fdTable, found]
      rfl
  · unfold removeFileDescriptor
    split <;> rfl

theorem change_messageReceived (posted : Posted)
    (h : (s.taken index).messageReceived now posted.message = some (s', new)) :
    Change s new s' := by
  have taken : Steady s [] (s.taken index) := .of_eq rfl id (by simp)
  obtain ⟨message, timeAfter⟩ := posted
  cases message with
  | syscall pid param =>
    obtain ⟨info, ns, -, -, ⟨-, rfl, rfl⟩ | ⟨syscallUUID, later, -, -, rfl, served⟩⟩ :=
      syscallReceived_cases h
    · exact .steady (taken.trans (.of_eq rfl id (by simp [Event.touches])))
    · have registered : Steady s [.registered syscallUUID pid ns param]
          ((s.taken index).registered syscallUUID pid) :=
        .of_eq rfl id (by simp [Event.touches])
      obtain ⟨-, rfl, rfl⟩ | ⟨-, called⟩ := served
      · exact .steady registered
      · exact .steady (registered.trans (steady_defaultSystemCallback called))
  | ret pid val =>
    simp only [State.messageReceived, State.returnReceived] at h
    split at h
    · simp at h
    · split at h
      · simp at h
      · obtain ⟨rfl, rfl⟩ : _ = s' ∧ [.exited pid] = new := by simpa using h
        -- the table goes with the process, and the other tables stay
        refine .exited pid ?_ rfl
        funext p
        by_cases same : p = pid
        · subst same
          simp [State.fdTable, State.taken]
        · simp [State.fdTable, State.taken, same]
  | timer payload =>
    cases payload with
    | none =>
      obtain ⟨rfl, rfl⟩ : s.taken index = s' ∧ [] = new := by
        simpa [State.messageReceived] using h
      exact .steady taken
    | some syscallUUID => exact .steady (taken.trans (steady_returnSystemCall h))
  | packetPass fromModule toModule packet =>
    rw [State.messageReceived] at h
    split at h
    · obtain ⟨rfl, rfl⟩ : s.taken index = s' ∧ _ = new := by simpa using h
      exact .steady (.of_eq rfl id (by simp [Event.touches]))
    · obtain ⟨rfl, rfl⟩ : s.taken index = s' ∧ [] = new := by simpa using h
      exact .steady taken
  | packetFromPort packet =>
    rw [State.messageReceived] at h
    split at h
    · exact .steady (taken.trans (steady_sendPacketToModule h))
    · obtain ⟨rfl, rfl⟩ : s.taken index = s' ∧ [] = new := by simpa using h
      exact .steady taken

/-- Every step is one of the changes. -/
theorem change_of_step (tables : Tables s.host) (h : machine.step s a = some (s', new)) :
    Change s new s' := by
  change s.step a = some (s', new) at h
  -- a descriptor table changes only by adding or exiting a process, and by the two calls on it
  unfold State.step at h
  split at h
  · cases a with
    | addInterface ns =>
      simp only [State.stepIdle] at h
      split at h
      · simp at h
      · obtain ⟨rfl, rfl⟩ : _ = s' ∧ [] = new := by simpa using h
        exact .steady (.of_eq rfl id (by simp))
    | addApplication => exact change_addApplication tables h
    | launchApplication pid =>
      simp only [State.stepIdle, State.launchApplication] at h
      split at h
      · simp at h
      next info found =>
        split at h
        · obtain ⟨state, -, same⟩ := Option.map_eq_some_iff.mp h
          obtain ⟨rfl, rfl⟩ : _ = s' ∧ [.launched pid] = new := by simpa using same
          exact .steady (.of_application found rfl rfl (by simp [Event.touches]))
        · simp at h
    | cleanUp order => exact .steady (steady_cleanUp h)
    | packetFromPort packet =>
      obtain ⟨rfl, rfl⟩ : _ = s' ∧ [] = new := by simpa [State.stepIdle] using h
      exact .steady (.of_eq rfl id (by simp))
    | returnSystemCall syscallUUID val => exact .steady (steady_returnSystemCall h)
    | createFileDescriptor ns pid => exact change_createFileDescriptor h
    | removeFileDescriptor pid fd => exact change_removeFileDescriptor h
    | addTimer timeAfter =>
      obtain ⟨rfl, rfl⟩ : _ = s' ∧ [] = new := by simpa [State.stepIdle] using h
      exact .steady (.of_eq rfl id (by simp))
    | cancelTimer index =>
      simp only [State.stepIdle] at h
      split at h
      · obtain ⟨rfl, rfl⟩ : _ = s' ∧ [] = new := by simpa using h
        exact .steady (.of_eq rfl id (by simp))
      · simp at h
    | sendPacket fromModule toModule packet junk => exact .steady (steady_sendPacketToModule h)
    | wake pid =>
      simp only [State.stepIdle, State.wake] at h
      split at h
      · split at h
        · simp at h
        next info found =>
          obtain ⟨state, -, same⟩ := Option.map_eq_some_iff.mp h
          obtain ⟨rfl, rfl⟩ : _ = s' ∧ _ = new := by simpa using same
          refine .steady (.of_application found rfl rfl ?_)
          split <;> simp [Event.touches]
      · simp at h
    | dispatch index now =>
      simp only [State.stepIdle] at h
      split at h
      · split at h
        · simp at h
        next posted found => exact change_messageReceived posted h
      · simp at h
    | syscall param => simp [State.stepIdle] at h
    | finish returnValue => simp [State.stepIdle] at h
  · split at h
    · unfold State.issue at h
      split at h
      · simp at h
      next info found =>
        split at h
        · obtain ⟨rfl, rfl⟩ : s = s' ∧ _ = new := by simpa using h
          exact .steady (.of_eq rfl id (by simp [Event.touches]))
        · obtain ⟨state, -, same⟩ := Option.map_eq_some_iff.mp h
          obtain ⟨rfl, rfl⟩ : _ = s' ∧ _ = new := by simpa using same
          exact .steady (.of_application found rfl rfl (by simp [Event.touches]))
    · unfold State.terminate at h
      split at h
      · simp at h
      next info found =>
        obtain ⟨state, -, same⟩ := Option.map_eq_some_iff.mp h
        obtain ⟨rfl, rfl⟩ : _ = s' ∧ _ = new := by simpa using same
        exact .steady (.of_application found rfl rfl (by simp [Event.touches]))
    · simp at h

end Kens.Host
