/-
# The tables follow the automaton

Every operation of the host moves each process along its automaton, whatever the
interfaces do, and the tables, the messages in flight and the threads show the
phase that is reached.
-/

import Mathlib
import Kens.Host.View

namespace Kens.Host

open Semantics

variable {pid : ℕ} {phase : Phase} {s s' : State} {info : ProcessInfo} {new : List Event}

/-! ## Applications -/

theorem Represented.pid_eq (rep : Represented s) (found : s.host.processInfoMap pid = some info) :
    info.application.pid = pid := by
  obtain ⟨phase, shows⟩ := rep pid
  exact (shows.of_info found).1

/-- The application part of a view, from the parts of the application. -/
theorem application_eq {v : View} {app : Application} (found : v.application = some app)
    (same_pid : app.pid = pid) (state : phase.state = some app.state)
    (call : app.inSyscall = phase.inCall) :
    v.application.map (fun app => (app.pid, app.state, app.inSyscall)) =
      phase.state.map fun state => (pid, state, phase.inCall) := by
  simp [found, same_pid, state, call]

theorem simulates_launchApplication (tables : Tables s.host)
    (h : s.launchApplication pid = some (s', new)) : Simulates s new s' ∧ Tables s'.host := by
  unfold State.launchApplication at h
  split at h
  · simp at h
  next info found =>
    split at h
    next same_pid =>
      cases state : info.application.state with
      | created =>
        simp only [state, Runnable.start, Option.map_some, Option.some.injEq, Prod.mk.injEq] at h
        obtain ⟨rfl, rfl⟩ := h
        refine ⟨.single rfl (fun p other => ?_) fun phase shows => ?_,
          tables.setApplication found _⟩
        · simp [State.view, State.setApplication, setProcess, other]
        · obtain ⟨-, phase_state, outside⟩ := shows.of_info found
          obtain rfl : phase = .created := by
            rw [state] at phase_state
            cases phase <;> simp [Phase.state] at phase_state ⊢
          have entry := congrArg View.application
            (@view_setApplication_self pid s info { info.application with state := .ready })
          exact ⟨.launched, rfl, application_eq entry same_pid rfl outside, by simp,
            fun _ => shows.small (by simp), shows.calls, shows.entries, shows.returns,
            by simp [State.view, Phase.isReady], shows.awake⟩
      | _ => simp [state, Runnable.start] at h
    · simp at h

/-- A thread that is woken begins with `main` or returns from its answered call. -/
theorem simulates_wake (tables : Tables s.host) (asleep : s.awake = none)
    (h : s.wake pid = some (s', new)) : Simulates s new s' ∧ Tables s'.host := by
  unfold State.wake at h
  split at h
  · simp at h
  next info found =>
    cases state : info.application.state with
    | ready =>
      simp only [state, Runnable.wake, Option.map_some, Option.some.injEq, Prod.mk.injEq] at h
      obtain ⟨rfl, rfl⟩ := h
      refine ⟨?_, tables.setApplication found _⟩
      have others : ∀ p, p ≠ pid →
          ({ s.setApplication pid info
            { info.application with state := .running, inSyscall := false } with
            awake := some pid } : State).view p = s.view p := by
        intro p other
        simp [State.view, State.setApplication, setProcess, other, asleep, Ne.symm other]
      have entry := congrArg View.application (@view_setApplication_self pid s info
        { info.application with state := .running, inSyscall := false })
      -- either its call has been answered, or it is launched and starts with `main`
      cases inside : info.application.inSyscall with
      | true =>
        rw [if_pos rfl]
        refine .single rfl others fun phase shows => ?_
        obtain ⟨same_pid, phase_state, same_call⟩ := shows.of_info found
        rw [state] at phase_state
        rw [inside] at same_call
        cases phase with
        | answered val =>
          have value : info.application.syscallRet = val :=
            shows.value val rfl info.application (by simp [State.view, found])
          refine ⟨.running, by rw [Phase.own, if_pos value.symm], ?_⟩
          exact ⟨application_eq entry same_pid rfl rfl, by simp, fun _ => shows.small (by simp),
            shows.calls, shows.entries, shows.returns, shows.ready,
            by simp [State.view, Phase.isAwake]⟩
        | _ => simp [Phase.state, Phase.inCall] at phase_state same_call
      | false =>
        rw [if_neg (by simp)]
        refine .single rfl others fun phase shows => ?_
        obtain ⟨same_pid, phase_state, same_call⟩ := shows.of_info found
        rw [state] at phase_state
        rw [inside] at same_call
        cases phase with
        | launched =>
          exact ⟨.running, rfl, application_eq entry same_pid rfl rfl, by simp,
            fun _ => shows.small (by simp), shows.calls, shows.entries, shows.returns, shows.ready,
            by simp [State.view, Phase.isAwake]⟩
        | _ => simp [Phase.state, Phase.inCall] at phase_state same_call
    | _ => simp [state, Runnable.wake] at h

/-- The application in control is running. -/
theorem Shows.running (shows : Shows pid phase (s.view pid)) (awake : s.awake = some pid) :
    phase = .running := by
  have control := shows.awake.mp awake
  cases phase <;> simp [Phase.isAwake] at control ⊢

theorem simulates_issue {param : SystemCallParameter} (rep : Represented s)
    (tables : Tables s.host) (awake : s.awake = some pid)
    (h : s.issue pid param = some (s', new)) : Simulates s new s' ∧ Tables s'.host := by
  unfold State.issue at h
  split at h
  · simp at h
  next info found =>
    have same_pid := rep.pid_eq found
    split at h
    next stopped =>
      obtain ⟨rfl, rfl⟩ : s = s' ∧ [.refused pid] = new := by simpa using h
      refine ⟨.single rfl (fun _ _ => rfl) fun phase shows => ?_, tables⟩
      obtain rfl := shows.running awake
      exact ⟨.running, rfl, shows⟩
    next going =>
      cases state : info.application.state with
      | running =>
        simp only [state, Runnable.wait, Option.map_some, Option.some.injEq, Prod.mk.injEq] at h
        obtain ⟨rfl, rfl⟩ := h
        refine ⟨.single rfl (fun p other => ?_) fun phase shows => ?_,
          tables.setApplication found _⟩
        · rw [view_yields_of_ne _ other (by exact awake), view_post]
          simp [isSyscall, isReturn, same_pid, Ne.symm other]
        · obtain rfl := shows.running awake
          refine ⟨.issued, rfl, ?_⟩
          rw [view_yields_self, view_post]
          refine ⟨application_eq rfl same_pid rfl rfl, by simp, fun _ => shows.small (by simp),
            ?_, shows.entries, ?_, by simp [Phase.isReady], by simp [Phase.isAwake]⟩
          · simp [isSyscall, same_pid, shows.calls]
          · simp [isReturn, shows.returns]
      | _ => simp [state, Runnable.wait] at h

theorem simulates_terminate {returnValue : ℤ} (rep : Represented s) (tables : Tables s.host)
    (awake : s.awake = some pid) (h : s.terminate pid returnValue = some (s', new)) :
    Simulates s new s' ∧ Tables s'.host := by
  unfold State.terminate at h
  split at h
  · simp at h
  next info found =>
    have same_pid := rep.pid_eq found
    cases state : info.application.state with
    | running =>
      simp only [state, Runnable.finish, Option.map_some, Option.some.injEq, Prod.mk.injEq] at h
      obtain ⟨rfl, rfl⟩ := h
      refine ⟨.single rfl (fun p other => ?_) fun phase shows => ?_,
        tables.setApplication found _⟩
      · rw [view_yields_of_ne _ other (by exact awake), view_post]
        simp [isSyscall, isReturn, same_pid, Ne.symm other]
      · obtain rfl := shows.running awake
        obtain ⟨-, -, outside⟩ := shows.of_info found
        refine ⟨.terminated, rfl, ?_⟩
        rw [view_yields_self, view_post]
        refine ⟨application_eq rfl same_pid rfl outside, by simp, fun _ => shows.small (by simp),
          ?_, shows.entries, ?_, by simp [Phase.isReady], by simp [Phase.isAwake]⟩
        · simp [isSyscall, shows.calls]
        · simp [isReturn, same_pid, shows.returns]
    | _ => simp [state, Runnable.finish] at h

/-! ## Answers -/

/-- The state after the call `id` of a process was answered. -/
def State.answered (s : State) (id pid : ℕ) (info : ProcessInfo) (val : ℤ) : State :=
  { s with
    host := { s.host.setProcess pid { info with
        application := { info.application with state := .ready, syscallRet := val } } with
      syscallMap := s.host.syscallMap.filter fun entry => entry.1 ≠ id }
    runnableReady := insert pid s.runnableReady }

/-- A call of `returnSystemCall` with an id that is not registered changes nothing;
one with a registered id makes the caller ready. -/
theorem returnSystemCall_cases {id : ℕ} {val : ℤ}
    (h : s.returnSystemCall id val = some (s', new)) :
    new = [.returnCalled id val] ∧ ((s.host.syscallMap.lookup id = none ∧ s' = s) ∨
      ∃ pid info, s.host.syscallMap.lookup id = some pid ∧
        s.host.processInfoMap pid = some info ∧ info.application.state = .waiting ∧
        s' = s.answered id pid info val) := by
  unfold State.returnSystemCall at h
  split at h
  next missing =>
    obtain ⟨rfl, rfl⟩ : s = s' ∧ [.returnCalled id val] = new := by simpa using h
    exact ⟨rfl, .inl ⟨missing, rfl⟩⟩
  next pid found =>
    split at h
    · simp at h
    next info present =>
      cases state : info.application.state with
      | waiting =>
        simp only [state, Runnable.ready, Option.map_some, Option.some.injEq, Prod.mk.injEq] at h
        obtain ⟨rfl, rfl⟩ := h
        exact ⟨rfl, .inr ⟨pid, info, found, present, state, rfl⟩⟩
      | _ => simp [state, Runnable.ready] at h

/-- The answer takes the id out of the entries. -/
theorem entries_answer {id : ℕ} {val : ℤ} :
    phase.entries.filter (fun other => other ≠ id) = (phase.answer id val).entries := by
  cases phase with
  | registered id' =>
    by_cases same : id = id'
    · simp [Phase.entries, Phase.answer, same]
    · simp [Phase.entries, Phase.answer, same, Ne.symm same]
  | _ => rfl

theorem map_fst_filter_filter (table : List (ℕ × ℕ)) (id pid : ℕ) :
    ((table.filter fun entry => entry.1 ≠ id).filter fun entry => entry.2 = pid).map Prod.fst =
      ((table.filter fun entry => entry.2 = pid).map Prod.fst).filter fun other => other ≠ id := by
  rw [List.filter_comm, List.filter_map]
  rfl

/-- Every process goes through a call of `returnSystemCall` as its automaton says. -/
theorem simulates_returnSystemCall {id : ℕ} {val : ℤ} (tables : Tables s.host)
    (h : s.returnSystemCall id val = some (s', new)) : Simulates s new s' ∧ Tables s'.host := by
  obtain ⟨rfl, ⟨missing, rfl⟩ | ⟨pid, info, found, present, state, rfl⟩⟩ := returnSystemCall_cases h
  · refine ⟨fun pid phase shows => ⟨phase, ?_, shows⟩, tables⟩
    -- an id that is not registered is nobody's
    have stale : phase.answer id val = phase := by
      cases phase with
      | registered id' =>
        have differs : id ≠ id' := by
          rintro rfl
          exact not_mem_of_lookup missing shows.mem_syscallMap
        rw [Phase.answer, if_neg differs]
      | _ => rfl
    rw [Phase.follow_singleton, Phase.next, stale]
  · have member := mem_of_lookup found
    constructor
    · intro p phase shows
      refine ⟨phase.answer id val, by rw [Phase.follow_singleton, Phase.next], ?_⟩
      have entries : (((s.host.syscallMap.filter fun entry => entry.1 ≠ id).filter fun entry =>
          entry.2 = p).map Prod.fst) = (phase.answer id val).entries := by
        rw [map_fst_filter_filter, ← entries_answer, ← shows.entries]
        rfl
      by_cases same : p = pid
      · subst same
        -- the caller has its value and is ready again
        obtain rfl := shows.registered member
        obtain ⟨same_pid, -, inside⟩ := shows.of_info present
        have answered : (Phase.registered id).answer id val = .answered val := by
          rw [Phase.answer, if_pos rfl]
        rw [answered] at entries ⊢
        refine ⟨?_, ?_, fun _ => shows.small (by simp), shows.calls, entries, shows.returns, ?_,
          shows.awake⟩
        · simp [State.view, State.answered, setProcess, Phase.state, same_pid, inside,
            Phase.inCall]
        · rintro _ ⟨rfl⟩ app member
          simp only [State.view, State.answered, setProcess, Function.update_self, Option.map_some,
            Option.mem_def, Option.some.injEq] at member
          rw [← member]
        · simp [State.view, State.answered, Phase.isReady]
      · -- the call answered is not one of this process
        have stale : phase.answer id val = phase := by
          cases phase with
          | registered id' =>
            have differs : id ≠ id' := by
              rintro rfl
              exact same (tables.unique shows.mem_syscallMap member)
            rw [Phase.answer, if_neg differs]
          | _ => rfl
        rw [stale] at entries ⊢
        have application : ((s.answered id pid info val).view p).application =
            (s.view p).application := by
          simp [State.view, State.answered, setProcess, same]
        have ready : ((s.answered id pid info val).view p).ready ↔ (s.view p).ready := by
          simp [State.view, State.answered, same]
        refine ⟨?_, ?_, shows.small, shows.calls, entries, shows.returns, ready.trans shows.ready,
          shows.awake⟩
        · rw [application]
          exact shows.application
        · rw [application]
          exact shows.value
    · have kept := tables.setApplication present
        { info.application with state := .ready, syscallRet := val }
      refine ⟨?_, kept.idStart, kept.pidStart, kept.default, kept.owners⟩
      exact (kept.keys.sublist (List.Sublist.map _ List.filter_sublist))

theorem simulates_returnAll {val : ℤ} {ids : List ℕ} (tables : Tables s.host)
    (h : s.returnAll val ids = some (s', new)) : Simulates s new s' ∧ Tables s'.host := by
  induction ids generalizing s new with
  | nil =>
    obtain ⟨rfl, rfl⟩ : s = s' ∧ [] = new := by simpa [State.returnAll] using h
    exact ⟨.quiet (fun _ => rfl) (by simp), tables⟩
  | cons id rest ih =>
    rw [State.returnAll] at h
    split at h
    · simp at h
    next middle first answered =>
      obtain ⟨⟨t, later⟩, all, same⟩ := Option.map_eq_some_iff.mp h
      obtain ⟨rfl, rfl⟩ : t = s' ∧ first ++ later = new := by simpa using same
      obtain ⟨simulates, tables'⟩ := simulates_returnSystemCall tables answered
      obtain ⟨simulates', tables''⟩ := ih tables' all
      exact ⟨simulates.trans simulates', tables''⟩

theorem simulates_cleanUp {order : List ℕ} (tables : Tables s.host)
    (h : s.cleanUp order = some (s', new)) : Simulates s new s' ∧ Tables s'.host := by
  unfold State.cleanUp at h
  split at h
  next permuted =>
    obtain ⟨⟨t, returns⟩, all, same⟩ := Option.map_eq_some_iff.mp h
    obtain ⟨rfl, rfl⟩ : t = s' ∧ returns ++ [.cleanedUp order.length] = new := by simpa using same
    have stopped : Tables { s.host with running := false } :=
      ⟨tables.keys, tables.idStart, tables.pidStart, tables.default, tables.owners⟩
    obtain ⟨simulates, tables'⟩ := simulates_returnAll stopped all
    have last : Simulates t [.cleanedUp order.length] t :=
      .quiet (fun _ => rfl) (by simp [Event.pid])
    exact ⟨Simulates.trans simulates last, tables'⟩
  · simp at h

theorem simulates_defaultSystemCallback {now id : ℕ} {param : SystemCallParameter}
    (tables : Tables s.host) (h : s.defaultSystemCallback now id param = some (s', new)) :
    Simulates s new s' ∧ Tables s'.host := by
  unfold State.defaultSystemCallback at h
  split at h
  · -- nsleep
    obtain ⟨timeAfter, -, same⟩ := Option.map_eq_some_iff.mp h
    obtain ⟨rfl, rfl⟩ : s.post (.timer (some id)) timeAfter = s' ∧ [] = new := by simpa using same
    exact ⟨.quiet (fun pid => view_post_of_other (by simp) (by simp)) (by simp), tables⟩
  · -- gettimeofday
    split at h
    next tv tz _ _ =>
      dsimp only at h
      split at h
      · exact simulates_returnSystemCall tables h
      · split at h
        · simp at h
        · obtain ⟨⟨t, later⟩, answered, same⟩ := Option.map_eq_some_iff.mp h
          obtain ⟨rfl, rfl⟩ : t = s' ∧ _ :: later = new := by simpa using same
          obtain ⟨simulates, tables'⟩ := simulates_returnSystemCall tables answered
          have written : Simulates s [.timeWritten tv (now / 1000 / 1000000)
              (now / 1000 % 1000000)] s := .quiet (fun _ => rfl) (by simp [Event.pid])
          exact ⟨written.trans simulates, tables'⟩
    · simp at h
  · simp at h

/-! ## Messages -/

variable {index : ℕ} {posted : Posted}

/-- The state after a message was taken out of the pool. -/
def State.taken (s : State) (index : ℕ) : State := { s with pool := s.pool.eraseIdx index }

theorem countP_taken (found : s.pool[index]? = some posted) (p : Posted → Bool) :
    (s.taken index).pool.countP p + (if p posted then 1 else 0) = s.pool.countP p := by
  obtain ⟨inside, rfl⟩ := List.getElem?_eq_some_iff.mp found
  rw [← (List.getElem_cons_eraseIdx_perm inside).countP_eq p, List.countP_cons]
  rfl

/-- Other messages are nobody's. -/
theorem view_taken_of_other (found : s.pool[index]? = some posted)
    (no_call : isSyscall pid posted = false) (no_return : isReturn pid posted = false) :
    (s.taken index).view pid = s.view pid := by
  have calls := countP_taken found (isSyscall pid)
  have returns := countP_taken found (isReturn pid)
  rw [no_call] at calls
  rw [no_return] at returns
  simp only [State.view, View.mk.injEq]
  exact ⟨rfl, by simpa using calls, rfl, by simpa using returns, rfl, rfl⟩

/-- A process with a system call in flight has issued it. -/
theorem Shows.issued {param : SystemCallParameter} {timeAfter : ℕ}
    (shows : Shows pid phase (s.view pid))
    (found : ⟨.syscall pid param, timeAfter⟩ ∈ s.pool) : phase = .issued := by
  have positive : 0 < (s.view pid).calls :=
    List.countP_pos_iff.mpr ⟨_, found, by simp [isSyscall]⟩
  rw [shows.calls] at positive
  by_contra other
  simp [other] at positive

theorem Shows.terminated {val : ℤ} {timeAfter : ℕ} (shows : Shows pid phase (s.view pid))
    (found : ⟨.ret pid val, timeAfter⟩ ∈ s.pool) : phase = .terminated := by
  have positive : 0 < (s.view pid).returns :=
    List.countP_pos_iff.mpr ⟨_, found, by simp [isReturn]⟩
  rw [shows.returns] at positive
  by_contra other
  simp [other] at positive

/-- The state after a call was entered in the table. -/
def State.registered (s : State) (id pid : ℕ) : State :=
  { s with host := { s.host with
      syscallIDStart := (id + 1) % 2 ^ 64
      syscallMap := (id, pid) :: s.host.syscallMap } }

/-- The id for a new call is not in use. -/
theorem Tables.fresh {host : Host} {id : ℕ} (tables : Tables host)
    (found : host.nextSyscallID = some id) :
    id < 2 ^ 64 ∧ id ∉ host.syscallMap.map Prod.fst := by
  obtain ⟨small, unused⟩ := search_eq_some tables.idStart found
  refine ⟨small, fun member => ?_⟩
  obtain ⟨⟨id', p⟩, listed, rfl⟩ := List.mem_map.mp member
  rw [Option.isSome_eq_false_iff, Option.isNone_iff_eq_none] at unused
  exact not_mem_of_lookup unused listed

/-- The four ways of a system call: no interface is registered for it, or it is
registered and handed to one; `DefaultSystemCall` then serves it at once. -/
theorem syscallReceived_cases {now : ℕ} {param : SystemCallParameter}
    (h : s.syscallReceived now pid param = some (s', new)) :
    ∃ info ns, s.host.processInfoMap pid = some info ∧ namespaceOf info param = some ns ∧
      ((ns ∉ s.host.interfaceMap ∧ s' = s ∧ new = [.lost pid]) ∨
      ∃ id later, ns ∈ s.host.interfaceMap ∧ s.host.nextSyscallID = some id ∧
        new = .registered id pid ns param :: later ∧
        ((ns ≠ (0, 0) ∧ s' = s.registered id pid ∧ later = []) ∨
        (ns = (0, 0) ∧
          (s.registered id pid).defaultSystemCallback now id param = some (s', later)))) := by
  unfold State.syscallReceived at h
  split at h
  · simp at h
  next info found =>
    split at h
    · simp at h
    · split at h
      · simp at h
      next ns chosen =>
        refine ⟨info, ns, found, chosen, ?_⟩
        split at h
        next served =>
          split at h
          · simp at h
          next id free =>
            dsimp only at h
            split at h
            · simp at h
            · split at h
              next default =>
                obtain ⟨⟨t, later⟩, called, same⟩ := Option.map_eq_some_iff.mp h
                obtain ⟨rfl, rfl⟩ : t = s' ∧ _ :: later = new := by simpa using same
                exact .inr ⟨id, later, served, free, rfl, .inr ⟨default, called⟩⟩
              next special =>
                obtain ⟨rfl, rfl⟩ : _ = s' ∧ _ = new := by simpa using h
                exact .inr ⟨id, [], served, free, rfl, .inl ⟨special, rfl, rfl⟩⟩
        next missing =>
          obtain ⟨rfl, rfl⟩ : s = s' ∧ [.lost pid] = new := by simpa using h
          exact .inl ⟨missing, rfl, rfl⟩

/-- A system call of one process is in flight for no other. -/
theorem view_taken_of_ne {param : SystemCallParameter} {timeAfter p : ℕ}
    (found : s.pool[index]? = some ⟨.syscall pid param, timeAfter⟩) (other : p ≠ pid) :
    (s.taken index).view p = s.view p :=
  view_taken_of_other found (by simp [isSyscall, Ne.symm other]) (by simp [isReturn])

/-- The process whose system call is dispatched has no other in flight. -/
theorem Shows.taken {param : SystemCallParameter} {timeAfter : ℕ}
    (shows : Shows pid .issued (s.view pid))
    (found : s.pool[index]? = some ⟨.syscall pid param, timeAfter⟩) :
    (s.taken index).view pid = { s.view pid with calls := 0 } := by
  have calls := countP_taken found (isSyscall pid)
  have returns := countP_taken found (isReturn pid)
  have one : s.pool.countP (isSyscall pid) = 1 := shows.calls
  simp only [isSyscall, isReturn, decide_true, if_true, Bool.false_eq_true, if_false] at calls returns
  simp only [State.view, View.mk.injEq]
  exact ⟨rfl, by omega, rfl, by simpa using returns, rfl, rfl⟩

theorem simulates_registered {id timeAfter : ℕ} {ns : Namespace} {param : SystemCallParameter}
    (found : s.pool[index]? = some ⟨.syscall pid param, timeAfter⟩) :
    Simulates s [.registered id pid ns param] ((s.taken index).registered id pid) := by
  refine .single rfl (fun p other => ?_) fun phase shows => ?_
  · rw [← view_taken_of_ne found other]
    simp [State.view, State.registered, Ne.symm other]
  · obtain rfl := shows.issued (List.mem_of_getElem? found)
    refine ⟨.registered id, rfl, ?_⟩
    have view : ((s.taken index).registered id pid).view pid =
        { s.view pid with calls := 0, entries := id :: (s.view pid).entries } := by
      have taken := shows.taken found
      simp only [State.view, View.mk.injEq] at taken ⊢
      refine ⟨rfl, taken.2.1, by simp [State.registered, State.taken], taken.2.2.2.1, rfl, rfl⟩
    rw [view]
    refine ⟨shows.application, by simp, fun _ => shows.small (by simp), by simp, ?_, shows.returns,
      shows.ready, shows.awake⟩
    rw [shows.entries]
    rfl

theorem simulates_lost {timeAfter : ℕ} {param : SystemCallParameter}
    (found : s.pool[index]? = some ⟨.syscall pid param, timeAfter⟩) :
    Simulates s [.lost pid] (s.taken index) := by
  refine .single rfl (fun p other => view_taken_of_ne found other) fun phase shows => ?_
  obtain rfl := shows.issued (List.mem_of_getElem? found)
  refine ⟨.lost, rfl, ?_⟩
  rw [shows.taken found]
  exact ⟨shows.application, by simp, fun _ => shows.small (by simp), by simp, shows.entries,
    shows.returns, shows.ready, shows.awake⟩

theorem Tables.registered {id : ℕ} (tables : Tables s.host)
    (free : s.host.nextSyscallID = some id) : Tables (s.registered id pid).host :=
  ⟨List.nodup_cons.mpr ⟨(tables.fresh free).2, tables.keys⟩, Nat.mod_lt _ (by decide),
    tables.pidStart, tables.default, tables.owners⟩

theorem simulates_syscallReceived {now timeAfter : ℕ} {param : SystemCallParameter}
    (tables : Tables s.host)
    (found : s.pool[index]? = some ⟨.syscall pid param, timeAfter⟩)
    (h : (s.taken index).syscallReceived now pid param = some (s', new)) :
    Simulates s new s' ∧ Tables s'.host := by
  obtain ⟨info, ns, -, -, ⟨-, rfl, rfl⟩ | ⟨id, later, -, free, rfl, served⟩⟩ :=
    syscallReceived_cases h
  · exact ⟨simulates_lost found, tables⟩
  · have entered : Simulates s [.registered id pid ns param] ((s.taken index).registered id pid) :=
      simulates_registered found
    have tables' : Tables ((s.taken index).registered id pid).host :=
      Tables.registered tables free
    obtain ⟨-, rfl, rfl⟩ | ⟨-, called⟩ := served
    · exact ⟨entered, tables'⟩
    · obtain ⟨simulates, tables''⟩ := simulates_defaultSystemCallback tables' called
      exact ⟨entered.trans simulates, tables''⟩

/-- The end of a process. -/
theorem simulates_returnReceived {timeAfter : ℕ} {val : ℤ} (tables : Tables s.host)
    (found : s.pool[index]? = some ⟨.ret pid val, timeAfter⟩)
    (h : (s.taken index).returnReceived pid = some (s', new)) :
    Simulates s new s' ∧ Tables s'.host := by
  unfold State.returnReceived at h
  split at h
  · simp at h
  next info present =>
    split at h
    · simp at h
    · obtain ⟨rfl, rfl⟩ : _ = s' ∧ [.exited pid] = new := by simpa using h
      constructor
      · refine .single rfl (fun p other => ?_) fun phase shows => ?_
        · rw [← view_taken_of_other found (by simp [isSyscall])
            (by simp [isReturn, Ne.symm other] : isReturn p ⟨.ret pid val, timeAfter⟩ = false)]
          simp [State.view, other]
        · obtain rfl := shows.terminated (List.mem_of_getElem? found)
          have calls := countP_taken found (isSyscall pid)
          have returns := countP_taken found (isReturn pid)
          have zero : s.pool.countP (isSyscall pid) = 0 := shows.calls
          have one : s.pool.countP (isReturn pid) = 1 := shows.returns
          simp only [isSyscall, isReturn, decide_true, if_true, Bool.false_eq_true, if_false]
            at calls returns
          refine ⟨.absent, rfl, by simp [State.view, Phase.state], by simp, by simp, ?_,
            shows.entries, ?_, by simp [State.view, Phase.isReady], shows.awake⟩
          · simp only [State.view, reduceCtorEq, if_false]
            omega
          · simp only [State.view, reduceCtorEq, if_false]
            omega
      · refine ⟨tables.keys, tables.idStart, tables.pidStart, tables.default, fun p other member => ?_⟩
        by_cases same : p = pid
        · simp [same] at member
        · exact tables.owners p other (by simpa [same, State.taken] using member)

/-- Packets are nobody's. -/
theorem simulates_sendPacketToModule {fromModule : Option String} {toModule : String}
    {packet : Packet} {junk : Mac} (tables : Tables s.host)
    (h : s.sendPacketToModule fromModule toModule packet junk = some (s', new)) :
    Simulates s new s' ∧ Tables s'.host := by
  unfold State.sendPacketToModule at h
  split at h
  · split at h
    · simp at h
    · split at h
      · simp at h
      · unfold State.sendPacket at h
        split at h
        · simp at h
        · split at h
          · obtain ⟨rfl, rfl⟩ : s = s' ∧ [] = new := by simpa using h
            exact ⟨.quiet (fun _ => rfl) (by simp), tables⟩
          · obtain ⟨rfl, rfl⟩ : s = s' ∧ _ = new := by simpa using h
            exact ⟨.quiet (fun _ => rfl) (by simp [Event.pid]), tables⟩
  · split at h
    · obtain ⟨rfl, rfl⟩ : _ = s' ∧ [] = new := by simpa using h
      exact ⟨.quiet (fun _ => view_post_of_other (by simp) (by simp)) (by simp), tables⟩
    · obtain ⟨rfl, rfl⟩ : s = s' ∧ [] = new := by simpa using h
      exact ⟨.quiet (fun _ => rfl) (by simp), tables⟩

/-- Every process goes through the dispatch of a message as its automaton says. -/
theorem simulates_messageReceived {now : ℕ} (tables : Tables s.host)
    (found : s.pool[index]? = some posted)
    (h : (s.taken index).messageReceived now posted.message = some (s', new)) :
    Simulates s new s' ∧ Tables s'.host := by
  obtain ⟨message, timeAfter⟩ := posted
  have tables_taken : Tables (s.taken index).host := tables
  have quiet : (∀ p param, message ≠ .syscall p param) → (∀ p val, message ≠ .ret p val) →
      Simulates s [] (s.taken index) := by
    intro no_call no_return
    refine .quiet (fun pid => view_taken_of_other found ?_ ?_) (by simp)
    · cases message <;> simp [isSyscall] at no_call ⊢
    · cases message <;> simp [isReturn] at no_return ⊢
  cases message with
  | syscall pid param => exact simulates_syscallReceived tables found h
  | ret pid val => exact simulates_returnReceived tables found h
  | timer payload =>
    cases payload with
    | none =>
      obtain ⟨rfl, rfl⟩ : s.taken index = s' ∧ [] = new := by
        simpa [State.messageReceived] using h
      exact ⟨quiet (by simp) (by simp), tables⟩
    | some id =>
      obtain ⟨simulates, tables'⟩ := simulates_returnSystemCall tables_taken h
      exact ⟨(quiet (by simp) (by simp)).trans simulates, tables'⟩
  | packetPass fromModule toModule packet =>
    rw [State.messageReceived] at h
    split at h
    · obtain ⟨rfl, rfl⟩ : s.taken index = s' ∧ _ = new := by simpa using h
      have arrived : Simulates (s.taken index)
          [.packetArrived (fromModule.getD "Host") toModule packet] (s.taken index) :=
        .quiet (fun _ => rfl) (by simp [Event.pid])
      exact ⟨(quiet (by simp) (by simp)).trans arrived, tables⟩
    · obtain ⟨rfl, rfl⟩ : s.taken index = s' ∧ [] = new := by simpa using h
      exact ⟨quiet (by simp) (by simp), tables⟩
  | packetFromPort packet =>
    rw [State.messageReceived] at h
    split at h
    · obtain ⟨simulates, tables'⟩ := simulates_sendPacketToModule tables_taken h
      exact ⟨(quiet (by simp) (by simp)).trans simulates, tables'⟩
    · obtain ⟨rfl, rfl⟩ : s.taken index = s' ∧ [] = new := by simpa using h
      exact ⟨quiet (by simp) (by simp), tables⟩

/-! ## Process and descriptor tables -/

theorem simulates_registerProcess (tables : Tables s.host) :
    Simulates s (if s.host.registerProcess.1 = -1 then []
      else [.added s.host.registerProcess.1.toNat]) { s with host := s.host.registerProcess.2 } ∧
    Tables s.host.registerProcess.2 := by
  rcases tables.registerProcess_cases with ⟨current, small, unused, registered⟩ | registered
  · rw [registered]
    dsimp only
    rw [if_neg (by omega), Int.toNat_natCast]
    constructor
    · refine .single rfl (fun p other => ?_) fun phase shows => ?_
      · simp [State.view, other]
      · obtain rfl : phase = .absent := by
          have none := shows.application
          simp only [State.view, unused, Option.map_none] at none
          cases phase <;> simp [Phase.state] at none ⊢
        exact ⟨.created, rfl, by simp [State.view, Phase.state, Phase.inCall], by simp,
          fun _ => small, shows.calls, shows.entries, shows.returns, shows.ready, shows.awake⟩
    · refine ⟨tables.keys, tables.idStart, Nat.mod_lt _ (by decide), tables.default,
        fun p other member => ?_⟩
      by_cases same : p = current
      · subst same
        obtain rfl : _ = other := by simpa using member
        simp
      · exact tables.owners p other (by simpa [same] using member)
  · rw [registered, if_pos rfl]
    exact ⟨.quiet (fun _ => rfl) (by simp), tables⟩

/-- The descriptors of a process do not belong to its view. -/
theorem view_setProcess {fds : List (ℤ × Namespace)} (found : s.host.processInfoMap pid = some info)
    (p : ℕ) :
    ({ s with host := s.host.setProcess pid { info with fdToDomain := fds } } : State).view p =
      s.view p := by
  by_cases same : p = pid
  · subst same
    simp [State.view, setProcess, found]
  · simp [State.view, setProcess, same]

theorem Tables.setProcess {host : Host} {fds : List (ℤ × Namespace)} (tables : Tables host)
    (owned : ∀ entry ∈ fds, entry.2 ∈ host.interfaceMap ∧ entry.2 ≠ (0, 0)) :
    Tables (host.setProcess pid { info with fdToDomain := fds }) := by
  refine ⟨tables.keys, tables.idStart, tables.pidStart, tables.default, fun p other member => ?_⟩
  by_cases same : p = pid
  · subst same
    obtain rfl : { info with fdToDomain := fds } = other := by
      simpa [Host.setProcess] using member
    exact owned
  · exact tables.owners p other (by simpa [Host.setProcess, same] using member)

theorem mem_insertFd {fd : ℤ} {ns : Namespace} {fds : List (ℤ × Namespace)}
    {entry : ℤ × Namespace} (member : entry ∈ insertFd fd ns fds) :
    entry = (fd, ns) ∨ entry ∈ fds := by
  induction fds with
  | nil => simpa [insertFd] using member
  | cons first rest ih =>
    rw [insertFd] at member
    split at member
    · simpa using member
    · split at member
      · exact .inr member
      · rcases List.mem_cons.mp member with rfl | member
        · exact .inr (by simp)
        · rcases ih member with rfl | member
          · exact .inl rfl
          · exact .inr (by simp [member])

theorem simulates_createFileDescriptor {host : Host} {ns : Namespace} {fd : ℤ}
    (tables : Tables s.host) (served : ns ∈ s.host.interfaceMap ∧ ns ≠ (0, 0))
    (h : s.host.createFileDescriptor ns pid = some (fd, host)) :
    Simulates s [.fdCreated ns pid fd] { s with host := host } ∧ Tables host := by
  unfold createFileDescriptor at h
  split at h
  · simp at h
  next info found =>
    dsimp only at h
    split at h
    · obtain ⟨rfl, rfl⟩ : -1 = fd ∧ s.host = host := by simpa using h
      exact ⟨.quiet (fun _ => rfl) (by simp [Event.pid]), tables⟩
    · obtain ⟨rfl, rfl⟩ : _ = fd ∧ _ = host := by simpa using h
      refine ⟨.quiet (view_setProcess found) (by simp [Event.pid]), tables.setProcess fun entry member => ?_⟩
      rcases mem_insertFd member with rfl | member
      · exact served
      · exact tables.owners pid info found entry member

theorem simulates_removeFileDescriptor {fd : ℤ} (tables : Tables s.host) :
    Simulates s [.fdRemoved pid fd] { s with host := s.host.removeFileDescriptor pid fd } ∧
      Tables (s.host.removeFileDescriptor pid fd) := by
  unfold removeFileDescriptor
  split
  · exact ⟨.quiet (fun _ => rfl) (by simp [Event.pid]), tables⟩
  next info found =>
    refine ⟨.quiet (view_setProcess found) (by simp [Event.pid]), tables.setProcess fun entry member => ?_⟩
    exact tables.owners pid info found entry (List.mem_of_mem_filter member)

/-! ## Runs -/

theorem simulates_stepIdle {a : Action} (tables : Tables s.host) (asleep : s.awake = none)
    (h : s.stepIdle a = some (s', new)) : Simulates s new s' ∧ Tables s'.host := by
  cases a with
  | addInterface ns =>
    simp only [State.stepIdle] at h
    split at h
    · simp at h
    · obtain ⟨rfl, rfl⟩ : _ = s' ∧ [] = new := by simpa using h
      refine ⟨.quiet (fun _ => rfl) (by simp), tables.keys, tables.idStart, tables.pidStart,
        Finset.mem_insert_of_mem tables.default, fun pid info found entry member => ?_⟩
      -- more namespaces are served than before, so every descriptor still has its owner
      obtain ⟨served, special⟩ := tables.owners pid info found entry member
      exact ⟨Finset.mem_insert_of_mem served, special⟩
  | addApplication =>
    obtain ⟨rfl, rfl⟩ : _ = s' ∧ _ = new := by simpa [State.stepIdle] using h
    exact simulates_registerProcess tables
  | launchApplication pid =>
    exact simulates_launchApplication tables h
  | cleanUp order => exact simulates_cleanUp tables h
  | packetFromPort packet =>
    obtain ⟨rfl, rfl⟩ : _ = s' ∧ [] = new := by simpa [State.stepIdle] using h
    exact ⟨.quiet (fun _ => view_post_of_other (by simp) (by simp)) (by simp), tables⟩
  | returnSystemCall id val => exact simulates_returnSystemCall tables h
  | createFileDescriptor ns pid =>
    simp only [State.stepIdle] at h
    split at h
    next served =>
      obtain ⟨⟨fd, host⟩, created, same⟩ := Option.map_eq_some_iff.mp h
      obtain ⟨rfl, rfl⟩ : _ = s' ∧ _ = new := by simpa using same
      exact simulates_createFileDescriptor tables served created
    · simp at h
  | removeFileDescriptor pid fd =>
    obtain ⟨rfl, rfl⟩ : _ = s' ∧ _ = new := by simpa [State.stepIdle] using h
    exact simulates_removeFileDescriptor tables
  | addTimer timeAfter =>
    obtain ⟨rfl, rfl⟩ : _ = s' ∧ [] = new := by simpa [State.stepIdle] using h
    exact ⟨.quiet (fun _ => view_post_of_other (by simp) (by simp)) (by simp), tables⟩
  | cancelTimer index =>
    simp only [State.stepIdle] at h
    split at h
    next payload timeAfter found =>
      obtain ⟨rfl, rfl⟩ : s.taken index = s' ∧ [] = new := by simpa [State.taken] using h
      exact ⟨.quiet (fun _ => view_taken_of_other found (by simp [isSyscall]) (by simp [isReturn]))
        (by simp), tables⟩
    · simp at h
  | sendPacket fromModule toModule packet junk => exact simulates_sendPacketToModule tables h
  | wake pid =>
    simp only [State.stepIdle] at h
    split at h
    · exact simulates_wake tables asleep h
    · simp at h
  | dispatch index now =>
    simp only [State.stepIdle] at h
    split at h
    · split at h
      · simp at h
      next posted found => exact simulates_messageReceived tables found h
    · simp at h
  | syscall param => simp [State.stepIdle] at h
  | finish returnValue => simp [State.stepIdle] at h

theorem simulates_step {a : Action} (rep : Represented s) (tables : Tables s.host)
    (h : machine.step s a = some (s', new)) : Simulates s new s' ∧ Tables s'.host := by
  change s.step a = some (s', new) at h
  unfold State.step at h
  split at h
  next asleep => exact simulates_stepIdle tables asleep h
  next pid awake =>
    split at h
    · exact simulates_issue rep tables awake h
    · exact simulates_terminate rep tables awake h
    · simp at h

/-- A host before anything has happened. -/
def start (hostModuleMap : Finset String) (ports : List ℕ) (routing : RoutingInfo) : State where
  host := { hostModuleMap := hostModuleMap, ports := ports, routing := routing }

variable {hostModuleMap : Finset String} {ports : List ℕ} {routing : RoutingInfo}

/-- The log gives each process its phase, and the tables show it. -/
structure Inv (log : List Event) (s : State) : Prop where
  tables : Tables s.host
  phases : ∀ pid, ∃ phase, Phase.absent.follow pid log = some phase ∧ Shows pid phase (s.view pid)

theorem Inv.represented {log : List Event} (inv : Inv log s) : Represented s := by
  intro pid
  obtain ⟨phase, -, shows⟩ := inv.phases pid
  exact ⟨phase, shows⟩

theorem inv_start : Inv [] (start hostModuleMap ports routing) where
  tables := ⟨List.nodup_nil, by simp [start], by simp [start, MAX_PID], by simp [start],
    by simp [start]⟩
  phases pid := ⟨.absent, rfl, rfl, by simp, by simp, rfl, rfl, rfl, by simp [start, State.view,
    Phase.isReady], by simp [start, State.view, Phase.isAwake]⟩

theorem Inv.step {log : List Event} {a : Action} (inv : Inv log s)
    (h : machine.step s a = some (s', new)) : Inv (log ++ new) s' := by
  obtain ⟨simulates, tables⟩ := simulates_step inv.represented inv.tables h
  refine ⟨tables, fun pid => ?_⟩
  obtain ⟨phase, follow, shows⟩ := inv.phases pid
  obtain ⟨phase', follow', shows'⟩ := simulates pid phase shows
  refine ⟨phase', ?_, shows'⟩
  rw [Phase.follow_append, follow]
  exact follow'

theorem inv_of_run {ok : State → Action → Prop} {acts : List Action} {log : List Event}
    (run : machine.Run ok (start hostModuleMap ports routing) acts log s) : Inv log s :=
  run.invariant Inv inv_start fun _ _ _ _ _ inv _ hstep => inv.step hstep

end Kens.Host
