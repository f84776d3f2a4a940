/-
# Lost system calls

The host looks for the interface of a system call when the caller is already
blocked. It finds one when the call is servable; otherwise the call runs into an
assertion, or it is dropped and its caller waits for ever, and not even `cleanUp`
can release it.
-/

import Mathlib
import Kens.Host.Bookkeeping
import Kens.Host.Events

namespace Kens.Host

open Semantics Machine

/-- The tables can serve a call: `socket` asks for a registered interface other than
`DefaultSystemCall`, a descriptor is open in the process of the caller, and
`gettimeofday` does not get two null pointers. -/
def Servable (host : Host) (pid : ℕ) (param : SystemCallParameter) : Prop :=
  match param.syscallNumber with
  | .socket => ∃ domain ∈ param.first.getInt, ∃ protocol ∈ param.third.getInt,
      (domain, protocol) ∈ host.interfaceMap ∧ (domain, protocol) ≠ (0, 0)
  | .nsleep => param.first.getUInt64.isSome
  | .gettimeofday => ∃ tv ∈ param.first.getPointer, ∃ tz ∈ param.second.getPointer,
      tv ≠ 0 ∨ tz ≠ 0
  | .close | .read | .write | .connect | .listen | .accept | .bind | .getsockname
  | .getpeername => ∃ info ∈ host.processInfoMap pid, ∃ fd ∈ param.first.getInt,
      fd ∈ info.fdToDomain.map Prod.fst

/-- Every waiting application has a system call in flight or a registered one. -/
def NoOrphan (s : State) : Prop :=
  ∀ pid info, s.host.processInfoMap pid = some info → info.application.state = .waiting →
    (∃ param timeAfter, ⟨.syscall pid param, timeAfter⟩ ∈ s.pool) ∨
      ∃ id, (id, pid) ∈ s.host.syscallMap

/-- The dispatch of a system call registers it once under a new id and hands it to a
registered interface, or it makes the caller ready with a failure value. -/
def Handles (s : State) (index now pid : ℕ) (param : SystemCallParameter) : Prop :=
  ∃ s' new, machine.step s (.dispatch index now) = some (s', new) ∧
    ((∃ id ns later, new = .registered id pid ns param :: later ∧ ns ∈ s.host.interfaceMap ∧
      id ∉ s.host.syscallMap.map Prod.fst ∧ ∀ event ∈ later, event.pid = none) ∨
    ∃ info, s'.host.processInfoMap pid = some info ∧ info.application.state = .ready ∧
      info.application.syscallRet < 0)

variable {pid index now timeAfter : ℕ} {param : SystemCallParameter} {s s' : State}
  {info : ProcessInfo} {ns : Namespace} {log new : List Event}

/-! ## Looking for the interface -/

/-- A call is served by `DefaultSystemCall` or by another registered interface. -/
theorem servable_iff (tables : Tables s.host) (found : s.host.processInfoMap pid = some info) :
    Servable s.host pid param ↔ ∃ ns, namespaceOf info param = some ns ∧
      ns ∈ s.host.interfaceMap ∧ (ns = (0, 0) →
        (param.syscallNumber = .nsleep ∧ param.first.getUInt64.isSome) ∨
        (param.syscallNumber = .gettimeofday ∧ ∃ tv ∈ param.first.getPointer,
          ∃ tz ∈ param.second.getPointer, tv ≠ 0 ∨ tz ≠ 0)) := by
  have descriptor : (∃ info ∈ s.host.processInfoMap pid, ∃ fd ∈ param.first.getInt,
      fd ∈ info.fdToDomain.map Prod.fst) ↔
      ∃ ns, (do let fd ← param.first.getInt; info.fdToDomain.lookup fd) = some ns ∧
        ns ∈ s.host.interfaceMap ∧ ns ≠ (0, 0) := by
    constructor
    · rintro ⟨info', found', fd, value, opened⟩
      obtain rfl : info = info' := Option.some.inj (found.symm.trans found')
      obtain ⟨ns, owner⟩ := mem_map_fst_iff_lookup.mp opened
      exact ⟨ns, Option.bind_eq_some_iff.mpr ⟨fd, value, owner⟩,
        tables.owners pid info found (fd, ns) (mem_of_lookup owner)⟩
    · rintro ⟨ns, chosen, -⟩
      obtain ⟨fd, value, owner⟩ := Option.bind_eq_some_iff.mp chosen
      exact ⟨info, found, fd, value, mem_map_fst_iff_lookup.mpr ⟨ns, owner⟩⟩
  -- only `socket` names its interface itself; all calls but two go by the descriptor
  unfold Servable namespaceOf
  cases number : param.syscallNumber with
  | socket =>
    constructor
    · rintro ⟨domain, first, protocol, third, served, special⟩
      exact ⟨(domain, protocol), by rw [first, third]; rfl, served, fun same => absurd same special⟩
    · rintro ⟨ns, chosen, served, special⟩
      obtain ⟨domain, first, chosen⟩ := Option.bind_eq_some_iff.mp chosen
      obtain ⟨protocol, third, chosen⟩ := Option.bind_eq_some_iff.mp chosen
      obtain rfl : (domain, protocol) = ns := Option.some.inj chosen
      exact ⟨domain, first, protocol, third, served, fun same => by simpa using special same⟩
  | nsleep => simp [tables.default]
  | gettimeofday => simp [tables.default]
  | _ => simpa using descriptor

/-! ## One dispatch -/

/-- `DefaultSystemCall` serves `nsleep` and `gettimeofday`. -/
theorem Represented.defaultSystemCallback {id : ℕ} (rep : Represented s)
    (known : (param.syscallNumber = .nsleep ∧ param.first.getUInt64.isSome) ∨
      (param.syscallNumber = .gettimeofday ∧ ∃ tv ∈ param.first.getPointer,
        ∃ tz ∈ param.second.getPointer, tv ≠ 0 ∨ tz ≠ 0)) :
    ∃ s' later, s.defaultSystemCallback now id param = some (s', later) ∧
      ∀ event ∈ later, event.pid = none := by
  obtain ⟨number, value⟩ | ⟨number, tv, first, tz, second, pointers⟩ := known
  · obtain ⟨timeAfter, value⟩ := Option.isSome_iff_exists.mp value
    refine ⟨s.post (.timer (some id)) timeAfter, [], ?_, by simp⟩
    simp only [State.defaultSystemCallback, number, value, Option.map_some]
  · have answered : ∀ val, ∃ t, s.returnSystemCall id val = some (t, [.returnCalled id val]) := by
      intro val
      obtain ⟨⟨t, new⟩, answered⟩ :=
        Option.isSome_iff_exists.mp (rep.returnSystemCall_isSome id val)
      obtain ⟨rfl, -⟩ := returnSystemCall_cases answered
      exact ⟨t, answered⟩
    by_cases zone : tz = 0
    -- a time zone is refused with `-EINVAL`; without one the time is written
    · have time : tv ≠ 0 := pointers.resolve_right (not_not.mpr zone)
      obtain ⟨t, value⟩ := answered 0
      refine ⟨t, [.timeWritten tv (now / 1000 / 1000000) (now / 1000 % 1000000),
        .returnCalled id 0], ?_, by simp [Event.pid]⟩
      rw [Option.mem_def] at first second
      simp only [State.defaultSystemCallback, number, first, second]
      rw [if_neg (not_not.mpr zone), if_neg time, value]
      rfl
    · obtain ⟨t, value⟩ := answered (-22)
      refine ⟨t, [.returnCalled id (-22)], ?_, by simp [Event.pid]⟩
      rw [Option.mem_def] at first second
      simp only [State.defaultSystemCallback, number, first, second]
      rw [if_pos zone, value]

/-- The dispatch of a system call is that of its message. -/
theorem step_dispatch (asleep : s.awake = none) (drained : s.runnableReady = ∅)
    (found : s.pool[index]? = some ⟨.syscall pid param, timeAfter⟩) :
    machine.step s (.dispatch index now) = (s.taken index).syscallReceived now pid param := by
  change s.step (.dispatch index now) = _
  unfold State.step
  rw [asleep]
  simp only [State.stepIdle, if_pos drained, found]
  rfl

/-- A servable call is registered and handed to its interface. -/
theorem dispatch_of_servable (now : ℕ) (rep : Represented s) (tables : Tables s.host)
    (asleep : s.awake = none) (drained : s.runnableReady = ∅)
    (found : s.pool[index]? = some ⟨.syscall pid param, timeAfter⟩)
    (servable : Servable s.host pid param) :
    ∃ s' id ns later, machine.step s (.dispatch index now) =
        some (s', .registered id pid ns param :: later) ∧ ns ∈ s.host.interfaceMap ∧
      id ∉ s.host.syscallMap.map Prod.fst ∧ ∀ event ∈ later, event.pid = none := by
  obtain ⟨phase, shows⟩ := rep pid
  obtain rfl := shows.issued (List.mem_of_getElem? found)
  obtain ⟨info, present⟩ := shows.exists_info (by simp)
  have same_pid := rep.pid_eq present
  obtain ⟨ns, chosen, served, default⟩ := (servable_iff tables present).mp servable
  obtain ⟨id, free, fresh⟩ := rep.nextSyscallID tables
  obtain ⟨small, -⟩ := tables.fresh free
  have next : ¬ id = (id + 1) % 2 ^ 64 := by omega
  -- the branches of the handler up to the interface
  have received : (s.taken index).syscallReceived now pid param =
      if ns = (0, 0) then
        (((s.taken index).registered id pid).defaultSystemCallback now id param).map
          fun r => (r.1, .registered id pid ns param :: r.2)
      else some ((s.taken index).registered id pid, [.registered id pid ns param]) := by
    have present' : (s.taken index).host.processInfoMap pid = some info := present
    have served' : ns ∈ (s.taken index).host.interfaceMap := served
    have free' : (s.taken index).host.nextSyscallID = some id := free
    unfold State.syscallReceived
    rw [present']
    dsimp only
    rw [if_neg (not_not.mpr same_pid), chosen]
    dsimp only
    rw [if_pos served', free']
    dsimp only
    rw [if_neg next]
    rfl
  rw [← step_dispatch asleep drained found] at received
  by_cases zero : ns = (0, 0)
  · have entered : Represented ((s.taken index).registered id pid) :=
      (@simulates_registered _ _ _ id timeAfter ns param found).represented rep
    obtain ⟨s', later, called, others⟩ := entered.defaultSystemCallback (default zero)
    rw [if_pos zero, called] at received
    exact ⟨s', id, ns, later, received, served, fresh, others⟩
  · rw [if_neg zero] at received
    exact ⟨_, id, ns, [], received, served, fresh, by simp⟩

/-- The dispatch of any other call that does not fail loses it. -/
theorem lost_of_not_servable (tables : Tables s.host) (asleep : s.awake = none)
    (drained : s.runnableReady = ∅)
    (found : s.pool[index]? = some ⟨.syscall pid param, timeAfter⟩)
    (unservable : ¬ Servable s.host pid param)
    (h : machine.step s (.dispatch index now) = some (s', new)) :
    s' = s.taken index ∧ new = [.lost pid] := by
  rw [step_dispatch asleep drained found] at h
  obtain ⟨info, ns, present, chosen, ⟨-, rfl, rfl⟩ | ⟨id, later, served, free, rfl, called⟩⟩ :=
    syscallReceived_cases h
  · exact ⟨rfl, rfl⟩
  · refine absurd ((servable_iff tables present).mpr ⟨ns, chosen, served, fun zero => ?_⟩) unservable
    obtain ⟨special, -, -⟩ | ⟨-, called⟩ := called
    · exact absurd zero special
    · -- `DefaultSystemCall` has no other branches
      unfold State.defaultSystemCallback at called
      split at called
      next number =>
        obtain ⟨timeAfter, value, -⟩ := Option.map_eq_some_iff.mp called
        exact .inl ⟨number, by rw [value]; rfl⟩
      next number =>
        split at called
        next tv tz first second =>
          refine .inr ⟨number, tv, first, tz, second, ?_⟩
          dsimp only at called
          split at called
          next zone => exact .inr zone
          · split at called
            · simp at called
            next time => exact .inl time
        · simp at called
      · simp at called

/-- Exactly the servable calls are handled. -/
theorem handles_iff_servable (rep : Represented s) (tables : Tables s.host)
    (asleep : s.awake = none) (drained : s.runnableReady = ∅)
    (found : s.pool[index]? = some ⟨.syscall pid param, timeAfter⟩) :
    Handles s index now pid param ↔ Servable s.host pid param := by
  constructor
  · rintro ⟨s', new, step, handled⟩
    by_contra unservable
    obtain ⟨rfl, rfl⟩ := lost_of_not_servable tables asleep drained found unservable step
    obtain ⟨id, ns, later, same, -⟩ | ⟨info, present, ready, -⟩ := handled
    · simp at same
    · -- the caller still waits
      obtain ⟨phase, shows⟩ := rep pid
      obtain rfl := shows.issued (List.mem_of_getElem? found)
      obtain ⟨-, state, -⟩ := shows.of_info present
      rw [ready] at state
      simp [Phase.state] at state
  · intro servable
    obtain ⟨s', id, ns, later, step, served, fresh, others⟩ :=
      dispatch_of_servable now rep tables asleep drained found servable
    exact ⟨s', _, step, .inl ⟨id, ns, later, rfl, served, fresh, others⟩⟩

/-! ## Lost processes -/

/-- A process in its lost phase has lost a call. -/
theorem lost_mem_of_follow {phase : Phase} (follow : phase.follow pid log = some .lost)
    (before : phase ≠ .lost) : .lost pid ∈ log := by
  induction log using List.reverseRecOn with
  | nil =>
    obtain rfl : phase = .lost := by simpa [Phase.follow] using follow
    exact absurd rfl before
  | append_singleton log event ih =>
    rw [Phase.follow_append, Option.bind_eq_some_iff] at follow
    obtain ⟨middle, follow, step⟩ := follow
    rw [Phase.follow_singleton] at step
    rcases Phase.next_cases step with ⟨id, val, -, same⟩ | ⟨own, owned⟩ | ⟨-, -, rfl⟩
    · have unchanged : middle = .lost := by
        cases middle with
        | registered id' =>
          rw [Phase.answer] at same
          split at same <;> simp at same
        | lost => rfl
        | _ => simp [Phase.answer] at same
      exact List.mem_append_left _ (ih (unchanged ▸ follow))
    · cases owned with
      | lost p =>
        obtain rfl : p = pid := by simpa [Event.pid] using own
        simp
    · exact List.mem_append_left _ (ih follow)

/-- No event leads out of the lost phase. -/
theorem follow_lost {phase' : Phase} (follow : Phase.lost.follow pid log = some phase') : phase' = .lost := by
  induction log using List.reverseRecOn generalizing phase' with
  | nil => simpa [Phase.follow] using follow.symm
  | append_singleton log event ih =>
    rw [Phase.follow_append, Option.bind_eq_some_iff] at follow
    obtain ⟨middle, follow, step⟩ := follow
    obtain rfl := ih follow
    rw [Phase.follow_singleton] at step
    rcases Phase.next_cases step with ⟨id, val, -, rfl⟩ | ⟨-, owned⟩ | ⟨-, -, rfl⟩
    · rfl
    · cases owned
    · rfl

/-- A process that has lost a call stays in its lost phase. -/
theorem lost_of_mem {phase phase' : Phase} (follow : phase.follow pid log = some phase')
    (member : .lost pid ∈ log) : phase' = .lost := by
  obtain ⟨early, late, rfl⟩ := List.append_of_mem member
  rw [Phase.follow_append, Option.bind_eq_some_iff] at follow
  obtain ⟨before, -, follow⟩ := follow
  rw [← List.singleton_append, Phase.follow_append, Option.bind_eq_some_iff] at follow
  obtain ⟨middle, step, follow⟩ := follow
  rw [Phase.follow_singleton] at step
  rcases Phase.next_cases step with ⟨_, _, same, -⟩ | ⟨-, owned⟩ | ⟨other, -, -⟩
  · simp at same
  · cases owned
    exact follow_lost follow
  · exact absurd rfl other

/-- Exactly the processes that have lost a call are orphans. -/
theorem Inv.noOrphan_iff (inv : Inv log s) : NoOrphan s ↔ ∀ pid, .lost pid ∉ log := by
  constructor
  · intro kept pid member
    obtain ⟨phase, follow, shows⟩ := inv.phases pid
    obtain rfl := lost_of_mem follow member
    obtain ⟨info, found⟩ := shows.exists_info (by simp)
    obtain ⟨-, state, -⟩ := shows.of_info found
    obtain ⟨param, timeAfter, flying⟩ | ⟨id, entered⟩ :=
      kept pid info found (Option.some.inj state).symm
    -- a process in its lost phase has nothing in flight and nothing registered
    · have := shows.issued flying
      simp at this
    · have := shows.registered entered
      simp at this
  · intro none pid info found waiting
    obtain ⟨phase, follow, shows⟩ := inv.phases pid
    obtain ⟨-, state, -⟩ := shows.of_info found
    rw [waiting] at state
    cases phase with
    | issued =>
      have one : 0 < s.pool.countP (isSyscall pid) := by
        have calls : s.pool.countP (isSyscall pid) = 1 := shows.calls
        omega
      obtain ⟨⟨message, timeAfter⟩, member, own⟩ := List.countP_pos_iff.mp one
      cases message with
      | syscall p param =>
        obtain rfl : p = pid := by simpa [isSyscall] using own
        exact .inl ⟨param, timeAfter, member⟩
      | _ => simp [isSyscall] at own
    | registered id => exact .inr ⟨id, shows.mem_syscallMap⟩
    | lost => exact absurd (lost_mem_of_follow follow (by simp)) (none pid)
    | _ => simp [Phase.state] at state

/-! ## Runs -/

/-- A dispatched system call is servable. -/
def Serves (s : State) : Action → Prop
  | .dispatch index _ => ∀ pid param timeAfter,
      s.pool[index]? = some ⟨.syscall pid param, timeAfter⟩ → Servable s.host pid param
  | _ => True

/-- Messages are dispatched when no application runs or wants to. -/
theorem dispatch_enabled (h : machine.step s (.dispatch index now) = some (s', new)) :
    s.awake = none ∧ s.runnableReady = ∅ := by
  change s.step (.dispatch index now) = some (s', new) at h
  unfold State.step at h
  split at h
  next asleep =>
    simp only [State.stepIdle] at h
    split at h
    next drained => exact ⟨asleep, drained⟩
    · simp at h
  · simp at h

/-- A step that serves a call loses none. -/
theorem Inv.lost_notMem {a : Action} (inv : Inv log s) (serves : Serves s a)
    (h : machine.step s a = some (s', new)) : .lost pid ∉ new := by
  intro member
  obtain ⟨index, now, param, timeAfter, rfl, found⟩ := emitted_of_step h _ member
  obtain ⟨asleep, drained⟩ := dispatch_enabled h
  obtain ⟨t, id, ns, later, step, -, -, others⟩ :=
    dispatch_of_servable now inv.represented inv.tables asleep drained found
      (serves pid param timeAfter found)
  obtain ⟨-, rfl⟩ : t = s' ∧ _ = new := by simpa using step.symm.trans h
  rcases List.mem_cons.mp member with same | member
  · simp at same
  · have nobody := others _ member
    simp [Event.pid] at nobody

/-- A step that loses no call serves one. -/
theorem Inv.serves {a : Action} (inv : Inv log s) (h : machine.step s a = some (s', new))
    (none : ∀ pid, .lost pid ∉ new) : Serves s a := by
  cases a with
  | dispatch index now =>
    intro pid param timeAfter found
    obtain ⟨asleep, drained⟩ := dispatch_enabled h
    by_contra unservable
    obtain ⟨-, rfl⟩ := lost_of_not_servable inv.tables asleep drained found unservable h
    exact none pid (by simp)
  | _ => trivial

variable {hostModuleMap : Finset String} {ports : List ℕ} {routing : RoutingInfo}
  {acts : List Action}

/-- The runs that lose no call are those in which every dispatched call is servable. -/
theorem run_serves_iff (run : machine.Run free (start hostModuleMap ports routing) acts log s) :
    (∀ pid, .lost pid ∉ log) ↔
      machine.Run Serves (start hostModuleMap ports routing) acts log s := by
  constructor
  · intro none
    induction run with
    | nil => exact .nil
    | @snoc acts log new t u a before _ step ih =>
      have earlier := ih fun pid member => none pid (List.mem_append_left _ member)
      exact earlier.snoc ((inv_of_run before).serves step
        fun pid member => none pid (List.mem_append_right _ member)) step
  · intro served
    induction served with
    | nil => simp
    | @snoc acts log new t u a before serves step ih =>
      intro pid member
      have before' := before.mono fun _ _ _ => trivial
      rcases List.mem_append.mp member with member | member
      · exact ih before' pid member
      · exact (inv_of_run before).lost_notMem serves step member

/-- In every reachable state: no application waits in vain exactly when all calls
dispatched so far were servable, and the dispatch of a call handles it exactly when
the call is servable. -/
theorem no_lost_call (run : machine.Run free (start hostModuleMap ports routing) acts log s) :
    (NoOrphan s ↔ machine.Run Serves (start hostModuleMap ports routing) acts log s) ∧
    ∀ index now pid param timeAfter, s.awake = none → s.runnableReady = ∅ →
      s.pool[index]? = some ⟨.syscall pid param, timeAfter⟩ →
      (Handles s index now pid param ↔ Servable s.host pid param) := by
  have inv := inv_of_run run
  refine ⟨inv.noOrphan_iff.trans (run_serves_iff run), ?_⟩
  intro index now pid param timeAfter asleep drained found
  exact handles_iff_servable inv.represented inv.tables asleep drained found

/-! A process asks for a socket of a domain and protocol. -/

def asks (ns : Namespace) : List Action :=
  [.addInterface (2, 6), .addApplication, .launchApplication 0, .wake 0,
    .syscall (TCPApplication.socket ns.1 1 ns.2)]

/-- The state in which its call is in flight. -/
def asked (ns : Namespace) : State :=
  ((machine.exec (start ∅ [] .empty) (asks ns)).map Prod.fst).getD {}

theorem no_lost_call_tcp :
    ∃ log, machine.Run free (start ∅ [] .empty) (asks (2, 6)) log (asked (2, 6)) ∧
      Handles (asked (2, 6)) 0 0 0 (TCPApplication.socket 2 1 6) := by
  have defined : (machine.exec (start ∅ [] .empty) (asks (2, 6))).isSome := by decide
  obtain ⟨⟨s, log⟩, value⟩ := Option.isSome_iff_exists.mp defined
  have last : asked (2, 6) = s := by rw [asked, value]; rfl
  have run : machine.Run free (start ∅ [] .empty) (asks (2, 6)) log (asked (2, 6)) :=
    last ▸ Run.of_exec value
  have servable : Servable (asked (2, 6)).host 0 (TCPApplication.socket 2 1 6) :=
    ⟨2, rfl, 6, rfl, by decide, by decide⟩
  exact ⟨log, run, ((no_lost_call run).2 0 0 0 _ 0 (by decide) (by decide) (by decide)).mpr
    servable⟩

/-- Nobody is registered for UDP: the call is lost, and its caller waits for ever. -/
theorem not_no_lost_call :
    ¬ ∀ (acts : List Action) (log : List Event) (s : State),
      machine.Run free (start ∅ [] .empty) acts log s →
      NoOrphan s ∧ ∀ index now pid param timeAfter, s.awake = none → s.runnableReady = ∅ →
        s.pool[index]? = some ⟨.syscall pid param, timeAfter⟩ →
        Handles s index now pid param := by
  intro claimed
  have lost : ((machine.exec (start ∅ [] .empty) (asks (2, 17) ++ [.dispatch 0 0])).map
      fun r => r.2.getLast?) = some (some (.lost 0)) := by decide
  obtain ⟨⟨s, log⟩, value, last⟩ := Option.map_eq_some_iff.mp lost
  have run := Run.of_exec value
  exact (inv_of_run run).noOrphan_iff.mp (claimed _ _ _ run).1 0 (List.mem_of_getLast? last)

end Kens.Host
