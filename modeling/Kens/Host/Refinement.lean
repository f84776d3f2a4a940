/-
# The scheduler refines the pool

A host on the scheduler does what the model with a pool allows. The pool has the messages for the
host that are in the queue and not canceled, in some order; a dispatch by the scheduler is a
dispatch from the pool, and what other modules do is seen only where they send the host a packet or
cancel a timer. All results about runs of `Kens.Host.Execution` hold on the scheduler for this
reason.
-/

import Mathlib
import Kens.Host.Abstraction

namespace Kens.Host.Scheduled

open Semantics

variable {F : Type} {c c' : System.Config (Mail F)} {a : TimerContainer (Mail F)} {me pid : ℕ}
  {events : List (System.Event (Mail F))} {d d' : Scheduled F} {s t : State} {new : List Event}
  {out : List (Happening F)} {transition : Runnable.State → Option Runnable.State}

/-! ## One step -/

/-- The scheduler gets from one configuration to another, with the events of a log. -/
def SchedulerRun (c : System.Config (Mail F)) (out : List (Happening F))
    (c' : System.Config (Mail F)) : Prop :=
  ∃ acts, (System.machine (Mail F)).Run Machine.free c acts (out.filterMap schedulerEvent) c'

/-- The model with a pool gets from one state to another, with the events of a log. -/
def PoolRun (s : State) (out : List (Happening F)) (s' : State) : Prop :=
  ∃ acts, Host.machine.Run Machine.free s acts (out.filterMap hostEvent) s'

/-- One action of the model with a pool. -/
theorem PoolRun.single {a : Action} {s' : State}
    (step : Host.machine.step s a = some (s', out.filterMap hostEvent)) : PoolRun s out s' :=
  ⟨[a], .single trivial step⟩

/-- The parts of a step that runs code of the host. -/
theorem perform_cases {code : State → Option (State × List Event)}
    {after : List (System.Action (Mail F))} (flagged : Flagged d.config.sys)
    (h : d.perform me transition code after = some (d', out)) :
    ∃ t new config mid early late config', code { host := d.host } = some (t, new) ∧
      readyAll d.config transition (t.runnableReady.image d.thread) = some config ∧
      Mailed me config mid (t.pool.map fun posted => (posted.message, posted.timeAfter)) ∧
      (System.machine (Mail F)).Run Machine.free config (sends me t new) early mid ∧
      (System.machine (Mail F)).Run Machine.free mid after late config' ∧
      d' = { d with config := config', host := t.host } ∧
      out.filterMap schedulerEvent = early ++ late ∧ out.filterMap hostEvent = new := by
  obtain ⟨t, new, config, config', events, ran, ready, sent, rfl, rfl⟩ := perform_eq_some h
  -- first the messages of the code, and then the calls that end the step
  obtain ⟨mid, early, late, first, second, rfl⟩ := (Machine.Run.of_exec sent).split
  have flagged' : Flagged config.sys := by
    obtain ⟨-, rfl⟩ := readyAll_eq_some ready
    exact flagged
  have mailed : Mailed me config mid _ := mailed_of_run sends_letters flagged' first
  rw [addressed_sends] at mailed
  exact ⟨t, new, config, mid, early, late, config', ran, ready, mailed, first, second, rfl,
    schedulerEvents_eq, hostEvents_eq⟩

/-- Code that is run by other code, and makes processes ready. -/
theorem Abstracts.call {code : State → Option (State × List Event)}
    (call : ℕ → System.Action (Mail F))
    (same : ∀ (c : System.Config (Mail F)) r, c.control.isUser = true →
      c.step (call r) = (c.setRunnable r transition).map fun c => (c, []))
    (h : Abstracts me d s) (user : d.config.control.isUser = true)
    (onto : ∀ t new, code { host := d.host } = some (t, new) → code s = some (t.onto s, new))
    (readies : ∀ t new, code { host := d.host } = some (t, new) → Readies transition d.host t)
    (performed : d.perform me transition code [] = some (d', out)) :
    SchedulerRun d.config out d'.config ∧
      ∃ s', code s = some (s', out.filterMap hostEvent) ∧ Abstracts me d' s' := by
  obtain ⟨t, new, config, mid, early, late, config', ran, ready, mailed, first, second, rfl,
    scheduled, hosted⟩ := perform_cases h.flagged performed
  obtain ⟨rfl, rfl⟩ := second.of_nil
  obtain ⟨acts, readied⟩ := run_of_readyAll call same user ready
  refine ⟨⟨acts ++ sends me t new, ?_⟩, t.onto s, ?_, h.perform (readies t new ran) ready mailed⟩
  · rw [scheduled, List.append_nil]
    exact readied.append first
  · rw [hosted]
    exact onto t new ran

theorem Abstracts.step_launchApplication (h : Abstracts me d s)
    (step : step me d (.launchApplication pid) = some (d', out)) :
    SchedulerRun d.config out d'.config ∧ ∃ s', PoolRun s out s' ∧ Abstracts me d' s' := by
  simp only [Scheduled.step] at step
  split at step
  next free =>
    have onto : ∀ t new, ({ host := d.host } : State).launchApplication pid = some (t, new) →
        s.launchApplication pid = some (t.onto s, new) := by
      intro t new ran
      calc s.launchApplication pid
          = (({ host := d.host } : State).onto s).launchApplication pid := by rw [h.blank]
        _ = some (t.onto s, new) := by rw [launchApplication_onto, ran]; rfl
    obtain ⟨scheduled, s', code, abstracts⟩ := Abstracts.call .start (fun c r user => if_pos user) h
      free.1 onto (fun t new ran => readies_launchApplication ran (readies_blank _)) step
    refine ⟨scheduled, s', .single (a := .launchApplication pid) ?_, abstracts⟩
    change State.step s _ = _
    rw [State.step, h.asleep free.2]
    exact code
  · simp at step

theorem Abstracts.step_act {a : Action} (h : Abstracts me d s)
    (step : step me d (.act a) = some (d', out)) :
    SchedulerRun d.config out d'.config ∧ ∃ s', PoolRun s out s' ∧ Abstracts me d' s' := by
  simp only [Scheduled.step] at step
  split at step
  next free =>
    have onto : ∀ t new, ({ host := d.host } : State).stepIdle a = some (t, new) →
        s.stepIdle a = some (t.onto s, new) := by
      intro t new ran
      calc s.stepIdle a = (({ host := d.host } : State).onto s).stepIdle a := by rw [h.blank]
        _ = some (t.onto s, new) := by rw [stepIdle_onto free.2.2, ran]; rfl
    obtain ⟨scheduled, s', code, abstracts⟩ := Abstracts.call .ready (fun c r user => if_pos user) h
      free.1 onto (fun t new ran => readies_stepIdle free.2.2 ran (readies_blank _)) step
    refine ⟨scheduled, s', .single (a := a) ?_, abstracts⟩
    change State.step s _ = _
    rw [State.step, h.asleep free.2.1]
    exact code
  · simp at step

theorem Abstracts.step_wake (h : Abstracts me d s)
    (step : step me d (.wake pid) = some (d', out)) :
    SchedulerRun d.config out d'.config ∧ ∃ s', PoolRun s out s' ∧ Abstracts me d' s' := by
  change d.perform me Runnable.ready (fun s => s.wake pid) [.wake (d.thread pid)] =
    some (d', out) at step
  obtain ⟨t, new, config, mid, early, late, config', ran, ready, mailed, first, second, rfl,
    scheduled, hosted⟩ := perform_cases h.flagged step
  obtain ⟨turns, empty, own, base⟩ := wake_blank ran
  -- a woken application asks nothing of the scheduler
  rw [turns.quiet, Finset.image_empty] at ready
  obtain ⟨-, rfl⟩ := readyAll_eq_some ready
  rw [readied_empty, sends_own empty own] at first
  obtain ⟨rfl, rfl⟩ := first.of_nil
  obtain ⟨last, events, rest, -, woken, done, rfl⟩ := second.of_cons
  obtain ⟨rfl, rfl⟩ := done.of_nil
  obtain ⟨abstracts, asleep, listed⟩ := h.wake turns woken
  refine ⟨⟨[.wake (d.thread pid)], ?_⟩, _, .single (a := .wake pid) ?_, abstracts⟩
  · rw [scheduled]
    exact second
  · change State.step s _ = _
    rw [State.step, asleep, hosted]
    exact (if_pos listed).trans (base s h.host)

/-- The application in control gives it back. -/
theorem Abstracts.step_yields {code : State → Option (State × List Event)} {after : Runnable.State}
    {a : Action} (h : Abstracts me d s) (terminates : Bool)
    (control : d.config.control = .awake (d.thread pid))
    (next : (if terminates then Runnable.finish .running else Runnable.wait .running) = some after)
    (unready : after ≠ .ready)
    (turns : ∀ t new, code { host := d.host } = some (t, new) →
      Turns d.host pid .running after t ∧ Host.machine.step s a = some ({ s with
        host := t.host
        pool := s.pool ++ t.pool
        runnableReady := s.runnableReady.erase pid
        awake := none }, new))
    (performed : d.perform me transition code [.yields terminates] = some (d', out)) :
    SchedulerRun d.config out d'.config ∧ ∃ s', PoolRun s out s' ∧ Abstracts me d' s' := by
  obtain ⟨t, new, config, mid, early, late, config', ran, ready, mailed, first, second, rfl,
    scheduled, hosted⟩ := perform_cases h.flagged performed
  obtain ⟨turned, pool⟩ := turns t new ran
  rw [turned.quiet, Finset.image_empty] at ready
  obtain ⟨-, rfl⟩ := readyAll_eq_some ready
  rw [readied_empty] at first mailed
  obtain ⟨last, events, rest, -, yield, done, rfl⟩ := second.of_cons
  obtain ⟨rfl, rfl⟩ := done.of_nil
  refine ⟨⟨sends me t new ++ [.yields terminates], ?_⟩, _, .single (a := a) (hosted ▸ pool),
    h.yields turned next unready control mailed yield⟩
  rw [scheduled]
  exact first.append second

theorem Abstracts.step_finish {returnValue : ℤ} (h : Abstracts me d s)
    (step : step me d (.finish pid returnValue) = some (d', out)) :
    SchedulerRun d.config out d'.config ∧ ∃ s', PoolRun s out s' ∧ Abstracts me d' s' := by
  simp only [Scheduled.step] at step
  split at step
  next awake =>
    have control := isAwake_iff.mp awake
    refine h.step_yields (a := .finish returnValue) true control rfl (by simp) ?_ step
    intro t new ran
    obtain ⟨turns, base⟩ := terminate_blank ran
    have there : (stateOf d.host pid).isSome := by rw [turns.before]; rfl
    refine ⟨turns, ?_⟩
    change State.step s _ = _
    rw [State.step, (h.awake pid).mpr ⟨there, control⟩]
    exact base s h.host
  · simp at step

theorem Abstracts.step_syscall {param : SystemCallParameter} (h : Abstracts me d s)
    (step : step me d (.syscall pid param) = some (d', out)) :
    SchedulerRun d.config out d'.config ∧ ∃ s', PoolRun s out s' ∧ Abstracts me d' s' := by
  simp only [Scheduled.step] at step
  split at step
  next awake =>
    have control := isAwake_iff.mp awake
    have called (there : (stateOf d.host pid).isSome) :
        State.step s (.syscall param) = s.issue pid param := by
      rw [State.step, (h.awake pid).mpr ⟨there, control⟩]
    cases running : d.host.running with
    | true =>
      rw [running] at step
      refine h.step_yields (a := .syscall param) false control rfl (by simp) ?_ step
      intro t new ran
      rcases issue_blank ran with ⟨stopped, -⟩ | ⟨-, turns, base⟩
      · rw [running] at stopped
        simp at stopped
      · have there : (stateOf d.host pid).isSome := by rw [turns.before]; rfl
        exact ⟨turns, (called there).trans (base s h.host)⟩
    | false =>
      rw [running] at step
      obtain ⟨t, new, config, mid, early, late, config', ran, ready, mailed, first, second, rfl,
        scheduled, hosted⟩ := perform_cases h.flagged step
      rcases issue_blank ran with ⟨-, rfl, own, there, base⟩ | ⟨going, -⟩
      · obtain ⟨-, rfl⟩ := readyAll_eq_some ready
        rw [Finset.image_empty, readied_empty, sends_own rfl own] at first
        obtain ⟨rfl, rfl⟩ := first.of_nil
        obtain ⟨rfl, rfl⟩ := Machine.Run.of_nil second
        refine ⟨⟨[], ?_⟩, s, .single (a := .syscall param) ?_, h⟩
        · rw [scheduled]
          exact .nil
        · rw [hosted]
          exact (called there).trans (base s h.host)
      · rw [running] at going
        simp at going
  · simp at step

/-- A new process has a new runnable. -/
theorem Abstracts.added {r current : ℕ} {host : Host} (h : Abstracts me d s)
    (asleep : s.awake = none) (allowed : Allowed me d (.addApplication r))
    (vacant : stateOf d.host current = none)
    (states : ∀ p, stateOf host p = if p = current then some .created else stateOf d.host p) :
    Abstracts me { d with
      host := host
      thread := Function.update d.thread current r
      threads := insert r d.threads } { s with host := host } := by
  obtain ⟨unknown, created, unready, unused⟩ := allowed
  have absent : current ∉ s.runnableReady := fun member => by
    simpa [vacant] using h.present current member
  have others {p : ℕ} (there : (stateOf d.host p).isSome) : p ≠ current := by
    rintro rfl
    simp [vacant] at there
  have foreign {p : ℕ} (there : (stateOf d.host p).isSome) : d.thread p ≠ r := fun same =>
    unknown (same ▸ h.known p there)
  have thread {p : ℕ} (other : p ≠ current) :
      Function.update d.thread current r p = d.thread p := Function.update_of_ne other ..
  refine ⟨rfl, h.pool, h.flagged, ?_, ?_, ?_, ?_, ?_, ?_⟩
  · intro p state found
    rw [states] at found
    change d.config.runnables (Function.update d.thread current r p) = state
    split at found
    next same =>
      rw [same, Function.update_self, created]
      exact Option.some.inj found
    next other =>
      rw [thread other]
      exact h.states p state found
  · intro p there
    rw [states] at there
    change p ∈ s.runnableReady ↔
      Function.update d.thread current r p ∈ d.config.sys.runnableReady
    by_cases same : p = current
    · rw [same, Function.update_self]
      exact iff_of_false absent unready
    · rw [if_neg same] at there
      rw [thread same]
      exact h.ready p there
  · intro p member
    have there := h.present p member
    rw [states, if_neg (others there)]
    exact there
  · intro p
    change s.awake = some p ↔ _ ∧
      d.config.control = .awake (Function.update d.thread current r p)
    rw [states]
    by_cases same : p = current
    · rw [if_pos same, same, Function.update_self, asleep, ← isAwake_iff, unused]
      simp
    · rw [if_neg same, thread same]
      exact h.awake p
  · intro p there
    change Function.update d.thread current r p ∈ insert r d.threads
    rw [states] at there
    by_cases same : p = current
    · rw [same, Function.update_self]
      exact Finset.mem_insert_self ..
    · rw [if_neg same] at there
      rw [thread same]
      exact Finset.mem_insert_of_mem (h.known p there)
  · intro p p' there there' shared
    change Function.update d.thread current r p =
      Function.update d.thread current r p' at shared
    rw [states] at there there'
    by_cases same : p = current <;> by_cases same' : p' = current
    · rw [same, same']
    · rw [if_neg same'] at there'
      rw [same, Function.update_self, thread same'] at shared
      exact absurd shared.symm (foreign there')
    · rw [if_neg same] at there
      rw [same', Function.update_self, thread same] at shared
      exact absurd shared (foreign there)
    · rw [if_neg same] at there
      rw [if_neg same'] at there'
      rw [thread same, thread same'] at shared
      exact h.apart p p' there there' shared

theorem Abstracts.step_addApplication {r : ℕ} (h : Abstracts me d s) (tables : Tables d.host)
    (allowed : Allowed me d (.addApplication r))
    (step : step me d (.addApplication r) = some (d', out)) :
    SchedulerRun d.config out d'.config ∧ ∃ s', PoolRun s out s' ∧ Abstracts me d' s' := by
  simp only [Scheduled.step] at step
  split at step
  next free =>
    have asleep := h.asleep free.2
    rcases tables.registerProcess_cases with ⟨current, -, vacant, registered⟩ | full
    · rw [registered] at step
      have valid : (current : ℤ) ≠ -1 := by omega
      simp only [if_neg valid, Int.toNat_natCast] at step
      obtain ⟨rfl, rfl⟩ := Prod.mk.inj (Option.some.inj step)
      refine ⟨⟨[], .nil⟩, _, .single (a := .addApplication) ?_,
        h.added asleep allowed (by rw [stateOf, vacant]; rfl) fun p => ?_⟩
      · refine (step_idle asleep _).trans ?_
        simp only [State.stepIdle, h.host, registered, if_neg valid, Int.toNat_natCast]
        rfl
      · by_cases same : p = current
        · simp [stateOf, same]
        · simp [stateOf, same]
    · rw [full] at step
      obtain ⟨rfl, rfl⟩ := Prod.mk.inj (Option.some.inj step)
      exact ⟨⟨[], .nil⟩, s, ⟨[], .nil⟩, h⟩
  · simp at step

/-! ## Dispatches -/

/-- Whatever is dispatched, the message of the container leaves the queue. -/
theorem dispatch_cases {config : System.Config (Mail F)}
    (h : d.config.step .dispatch = some (config, events)) :
    d.config.control = .loop ∧ d.config.sys.runnableReady = ∅ ∧ ∃ current sys,
      d.config.sys.popTimer = some (current, sys) ∧ config.sys = sys ∧
      config.runnables = d.config.runnables ∧
      sys.runnableReady = d.config.sys.runnableReady ∧
      ((current.address ∉ d.config.sys.canceled ∧ config.control = .received current) ∨
        (current.address ∈ d.config.sys.canceled ∧ config.control = .canceled current)) := by
  simp only [System.Config.step] at h
  split at h
  next loop =>
    split at h
    next going =>
      split at h
      · simp at h
      next current sys pop =>
        have same := System.popTimer_canceled pop
        have ready : sys.runnableReady = d.config.sys.runnableReady := by
          obtain ⟨rest, -, rfl⟩ := System.popTimer_eq_some_iff.mp pop
          rfl
        rw [same] at h
        refine ⟨loop, going.1, current, sys, pop, ?_⟩
        split at h
        next live =>
          obtain ⟨rfl, -⟩ := Prod.mk.inj (Option.some.inj h)
          exact ⟨rfl, rfl, ready, .inl ⟨live, rfl⟩⟩
        next dead =>
          obtain ⟨rfl, -⟩ := Prod.mk.inj (Option.some.inj h)
          exact ⟨rfl, rfl, ready, .inr ⟨not_not.mp dead, rfl⟩⟩
    · simp at h
  · simp at h

/-- A message of the pool, and what is left when it is taken out. -/
theorem exists_taken {pool : List Posted} {message : HostMessage} {rest : List HostMessage}
    (perm : (pool.map Posted.message).Perm (message :: rest)) :
    ∃ index posted, pool[index]? = some posted ∧ posted.message = message ∧
      ((pool.eraseIdx index).map Posted.message).Perm rest := by
  obtain ⟨posted, member, same⟩ := List.mem_map.mp (perm.mem_iff.mpr List.mem_cons_self)
  obtain ⟨index, inside, found⟩ := List.getElem_of_mem member
  refine ⟨index, posted, List.getElem?_eq_some_iff.mpr ⟨inside, found⟩, same, ?_⟩
  have taken := (List.getElem_cons_eraseIdx_perm inside).map Posted.message
  rw [List.map_cons, found, same] at taken
  exact (taken.trans perm).cons_inv

theorem scheduler_only : (events.map (Happening.scheduler (F := F))).filterMap schedulerEvent =
    events := by
  rw [List.filterMap_map]
  exact (List.filterMap_congr fun _ _ => rfl).trans List.filterMap_some

theorem host_only : (events.map (Happening.scheduler (F := F))).filterMap hostEvent = [] := by
  rw [List.filterMap_map]
  exact List.filterMap_eq_nil_iff.mpr fun _ _ => rfl

/-- The code that a dispatched message runs, and the end of a process after its return value. -/
theorem Abstracts.received {message : HostMessage} {config mid config' : System.Config (Mail F)}
    {early late : List (System.Event (Mail F))} {now : ℕ} (h : Abstracts me d s)
    (drained : s.runnableReady = ∅) (received : d.config.control = .received a)
    (ran : ({ host := d.host } : State).messageReceived now message = some (t, new))
    (ready : readyAll d.config Runnable.ready (t.runnableReady.image d.thread) = some config)
    (mailed : Mailed me config mid (t.pool.map fun posted => (posted.message, posted.timeAfter)))
    (first : (System.machine (Mail F)).Run Machine.free config (sends me t new) early mid)
    (second : (System.machine (Mail F)).Run Machine.free mid (d.ends message) late config')
    (scheduled : out.filterMap schedulerEvent = early ++ late) :
    SchedulerRun d.config out config' ∧
      Abstracts me { d with config := config', host := t.host } (t.onto s) := by
  by_cases ending : ∃ pid val, message = .ret pid val
  · obtain ⟨pid, val, rfl⟩ := ending
    obtain ⟨quiet, empty, own, states⟩ := returnReceived_blank ran
    rw [quiet, Finset.image_empty] at ready
    obtain ⟨-, rfl⟩ := readyAll_eq_some ready
    rw [readied_empty, sends_own empty own] at first
    obtain ⟨rfl, rfl⟩ := first.of_nil
    obtain ⟨last, deleted, none_left, -, delete, done, rfl⟩ := Machine.Run.of_cons second
    obtain ⟨rfl, rfl⟩ := done.of_nil
    refine ⟨⟨[.delRunnable (d.thread pid)], ?_⟩,
      h.exited drained received quiet empty states delete⟩
    rw [scheduled]
    exact second
  · have going : ∀ pid val, message ≠ .ret pid val := fun pid val same => ending ⟨pid, val, same⟩
    have no_end : d.ends message = [] := by
      cases message with
      | ret pid val => exact absurd rfl (going pid val)
      | _ => rfl
    rw [no_end] at second
    obtain ⟨rfl, rfl⟩ := second.of_nil
    have user : d.config.control.isUser = true := by rw [received]; rfl
    obtain ⟨acts, readied⟩ := run_of_readyAll .ready (fun c r user => if_pos user) user ready
    refine ⟨⟨acts ++ sends me t new, ?_⟩,
      h.perform (readies_messageReceived going ran (readies_blank _)) ready mailed⟩
    rw [scheduled, List.append_nil]
    exact readied.append first

theorem Abstracts.step_dispatch (h : Abstracts me d s)
    (step : step me d .dispatch = some (d', out)) :
    SchedulerRun d.config out d'.config ∧ ∃ s', PoolRun s out s' ∧ Abstracts me d' s' := by
  simp only [Scheduled.step] at step
  split at step
  · simp at step
  next config events dispatched =>
    obtain ⟨loop, drained, current, sys, pop, rfl, runnables, ready, control⟩ :=
      dispatch_cases dispatched
    obtain ⟨left, canceled, addresses⟩ := due_pop me pop
    have first : (System.machine (Mail F)).Run Machine.free d.config [.dispatch] events config :=
      .single trivial dispatched
    have unready : s.runnableReady = ∅ := by
      refine Finset.eq_empty_of_forall_notMem fun p member => ?_
      have listed := (h.ready p (h.present p member)).mp member
      rw [drained] at listed
      simp at listed
    have flagged : Flagged config.sys := by
      intro address member
      rw [addresses]
      exact h.flagged address (canceled ▸ member)
    have alone : ∀ r ∈ d.threads, Untouched d.config config r := by
      intro r _
      refine ⟨by rw [runnables], by rw [ready], ?_⟩
      rw [loop]
      rcases control with ⟨-, control⟩ | ⟨-, control⟩ <;> rw [control] <;> simp
    have asleep := h.asleep_of_loop loop
    split at step
    -- a canceled message, or one of another module: the pool loses nothing
    next nothing =>
      obtain ⟨rfl, rfl⟩ := Prod.mk.inj (Option.some.inj step)
      have empty : entry me d.config.sys.canceled current = none := by
        rcases control with ⟨live, control⟩ | ⟨dead, -⟩
        · rw [control] at nothing
          have missing : aimed me current = none := nothing
          rw [entry, if_neg live, missing]
          rfl
        · exact if_pos dead
      rw [empty] at left
      refine ⟨⟨[.dispatch], ?_⟩, s, ⟨[], ?_⟩,
        h.frame flagged (h.pool.trans (left.map Prod.fst)) alone⟩
      · rw [scheduler_only]
        exact first
      · rw [host_only]
        exact .nil
    next message has =>
      -- a canceled message is not delivered
      obtain ⟨live, control⟩ : current.address ∉ d.config.sys.canceled ∧
          config.control = .received current := by
        rcases control with both | ⟨-, control⟩
        · exact both
        · rw [control] at has
          simp [delivered] at has
      rw [control] at has
      have aims : aimed me current = some message := has
      rw [entry, if_neg live, aims] at left
      -- the pool dispatches the same message, wherever it is in the pool
      obtain ⟨index, posted, found, same, rest⟩ := exists_taken (h.pool.trans (left.map Prod.fst))
      have base := h.frame flagged rest alone
      obtain ⟨⟨d'', later⟩, performed, same'⟩ := Option.map_eq_some_iff.mp step
      obtain ⟨rfl, rfl⟩ := Prod.mk.inj same'
      obtain ⟨t, new, config₁, mid, early, late, config₂, ran, ready', mailed, second, third, rfl,
        scheduled, hosted⟩ := perform_cases flagged performed
      have drained' : (s.taken index).runnableReady = ∅ := unready
      have blank : ({ host := d.host } : State).onto (s.taken index) = s.taken index := base.blank
      have handled : (s.taken index).messageReceived config.sys.currentTime message =
          some (t.onto (s.taken index), new) := by
        calc (s.taken index).messageReceived config.sys.currentTime message
            = (({ host := d.host } : State).onto (s.taken index)).messageReceived
                config.sys.currentTime message := by rw [blank]
          _ = some (t.onto (s.taken index), new) := by
            rw [messageReceived_onto drained']
            exact congrArg (Option.map _) ran
      have pool : PoolRun s (events.map Happening.scheduler ++ later) (t.onto (s.taken index)) := by
        refine .single (a := .dispatch index config.sys.currentTime)
          ((step_idle asleep _).trans ?_)
        rw [List.filterMap_append, host_only, List.nil_append, hosted, State.stepIdle,
          if_pos unready, found]
        dsimp only
        rw [same]
        exact handled
      obtain ⟨⟨acts, run⟩, abstracts⟩ := base.received drained' control ran ready' mailed second
        third scheduled
      refine ⟨⟨.dispatch :: acts, ?_⟩, _, pool, abstracts⟩
      rw [List.filterMap_append, scheduler_only]
      exact first.append run

/-! ## Other code -/

theorem not_awake_of_free {r : ℕ} (free : d.busy = false) (mine : r ∈ d.threads) :
    d.config.control ≠ .awake r := by
  intro control
  rw [busy, control] at free
  simp [mine] at free

/-- The messages in flight stay as they are, and so do the applications of the host. -/
structure Quiet (d : Scheduled F) (config : System.Config (Mail F)) : Prop where
  queue : config.sys.timerQueue = d.config.sys.timerQueue
  canceled : config.sys.canceled = d.config.sys.canceled
  addresses : config.sys.nextAddress = d.config.sys.nextAddress
  alone : ∀ r ∈ d.threads, Untouched d.config config r

theorem Quiet.refl (d : Scheduled F) : Quiet d d.config :=
  ⟨rfl, rfl, rfl, fun _ _ => ⟨rfl, Iff.rfl, Iff.rfl⟩⟩

/-- A runnable that is not one of the host changes its state. -/
theorem quiet_setRunnable {r : ℕ} (outside : r ∉ d.threads)
    (h : d.config.setRunnable r transition = some c) : Quiet d c := by
  obtain ⟨state, -, rfl⟩ := Option.map_eq_some_iff.mp h
  refine ⟨rfl, rfl, rfl, fun r' mine => ?_⟩
  have other : r' ≠ r := fun same => outside (same ▸ mine)
  exact ⟨Function.update_of_ne other .., Iff.rfl, Iff.rfl⟩

/-- Other runnables become ready, or are not ready any more. -/
theorem Quiet.ready {ready : Finset ℕ} (h : Quiet d c)
    (others : ∀ r ∈ d.threads, r ∈ ready ↔ r ∈ c.sys.runnableReady) :
    Quiet d { c with sys := { c.sys with runnableReady := ready } } := by
  refine ⟨h.queue, h.canceled, h.addresses, fun r mine => ?_⟩
  have kept := h.alone r mine
  exact ⟨kept.state, (others r mine).trans kept.ready, kept.awake⟩

theorem Quiet.release (h : Quiet d c) (current : TimerContainer (Mail F)) :
    Quiet d { c with sys := c.sys.release current } := by
  refine ⟨h.queue, h.canceled, h.addresses, fun r mine => ?_⟩
  have kept := h.alone r mine
  exact ⟨kept.state, kept.ready, kept.awake⟩

/-- Control goes from one part of other code to another. -/
theorem Quiet.passes {control : System.Control (Mail F)} {till : ℕ} (h : Quiet d c)
    (free : d.busy = false) (elsewhere : ∀ r ∈ d.threads, control ≠ .awake r) :
    Quiet d { c with control := control, till := till } := by
  refine ⟨h.queue, h.canceled, h.addresses, fun r mine => ?_⟩
  have kept := h.alone r mine
  exact ⟨kept.state, kept.ready,
    iff_of_false (elsewhere r mine) (not_awake_of_free free mine)⟩

/-- Calls other than `sendMessage`, `cancelMessage` and `dispatch` leave the messages in flight as
they are, and calls of other code leave the applications of the host alone. -/
theorem quiet_of_foreign {a : System.Action (Mail F)} (free : d.busy = false)
    (foreign : d.foreign me a = true) (no_send : ∀ source target message timeAfter,
      a ≠ .sendMessage source target message timeAfter)
    (no_cancel : ∀ uuid, a ≠ .cancelMessage uuid) (h : d.config.step a = some (c', events)) :
    Quiet d c' := by
  have others {r r' : ℕ} (outside : r ∉ d.threads) (mine : r' ∈ d.threads) : r' ≠ r :=
    fun same => outside (same ▸ mine)
  cases a with
  | sendMessage source target message timeAfter => exact (no_send _ _ _ _ rfl).elim
  | cancelMessage uuid => exact absurd rfl (no_cancel uuid)
  | dispatch => simp [Scheduled.foreign] at foreign
  | start r | ready r =>
    have outside : r ∉ d.threads := by simpa [Scheduled.foreign] using foreign
    simp only [System.Config.step] at h
    split at h
    · obtain ⟨c, set, same⟩ := Option.map_eq_some_iff.mp h
      obtain ⟨rfl, -⟩ := Prod.mk.inj same
      exact quiet_setRunnable outside set
    · simp at h
  | addRunnable r | delRunnable r =>
    have outside : r ∉ d.threads := by simpa [Scheduled.foreign] using foreign
    simp only [System.Config.step] at h
    split at h
    · obtain ⟨rfl, -⟩ := Prod.mk.inj (Option.some.inj h)
      exact (Quiet.refl d).ready fun r' mine => by simp [others outside mine]
    · simp at h
  | run till =>
    simp only [System.Config.step] at h
    split at h
    · split at h
      · obtain ⟨rfl, -⟩ := Prod.mk.inj (Option.some.inj h)
        exact (Quiet.refl d).passes free (by simp)
      · simp at h
    · simp at h
  | wake r =>
    have outside : r ∉ d.threads := by simpa [Scheduled.foreign] using foreign
    simp only [System.Config.step] at h
    split at h
    · split at h
      · obtain ⟨c, set, same⟩ := Option.map_eq_some_iff.mp h
        obtain ⟨rfl, -⟩ := Prod.mk.inj same
        refine (quiet_setRunnable outside set).passes free fun r' mine => ?_
        simpa using Ne.symm (others outside mine)
      · simp at h
    · simp at h
  | leave =>
    simp only [System.Config.step] at h
    split at h
    · split at h
      · obtain ⟨rfl, -⟩ := Prod.mk.inj (Option.some.inj h)
        exact (Quiet.refl d).passes free (by simp)
      · simp at h
    · simp at h
  | yields terminates =>
    simp only [System.Config.step] at h
    split at h
    next r control =>
      obtain ⟨state, -, same⟩ := Option.map_eq_some_iff.mp h
      obtain ⟨rfl, -⟩ := Prod.mk.inj same
      -- the runnable in control is not one of the host
      have outside : r ∉ d.threads := fun mine => not_awake_of_free free mine control
      have set : d.config.setRunnable r (fun _ => some state) = some _ := rfl
      have changed := quiet_setRunnable outside set
      unfold System.Config.afterWake
      split
      · exact (changed.ready fun r' mine => by simp [others outside mine]).passes free (by simp)
      · exact changed.passes free (by simp)
    · simp at h
  | returns ret =>
    simp only [System.Config.step] at h
    split at h
    next current control =>
      obtain ⟨rfl, -⟩ := Prod.mk.inj (Option.some.inj h)
      exact (Quiet.refl d).passes free (by simp)
    next current control =>
      obtain ⟨rfl, -⟩ := Prod.mk.inj (Option.some.inj h)
      exact ((Quiet.refl d).release current).passes free (by simp)
    next current response control =>
      obtain ⟨rfl, -⟩ := Prod.mk.inj (Option.some.inj h)
      exact (Quiet.refl d).passes free (by simp)
    next current control =>
      obtain ⟨rfl, -⟩ := Prod.mk.inj (Option.some.inj h)
      exact ((Quiet.refl d).release current).passes free (by simp)
    next current control =>
      obtain ⟨rfl, -⟩ := Prod.mk.inj (Option.some.inj h)
      exact ((Quiet.refl d).release current).passes free (by simp)
    · simp at h

/-- Of other code, the host sees the packets that are sent to it. -/
theorem Abstracts.other_send {source target timeAfter : ℕ} {message : Mail F}
    {config : System.Config (Mail F)} (h : Abstracts me d s) (free : d.busy = false)
    (foreign : isOwn me target message = false)
    (sent : d.config.step (.sendMessage source target message timeAfter) = some (config, events)) :
    ∃ s', PoolRun s (events.map Happening.scheduler) s' ∧
      Abstracts me { d with config := config } s' := by
  have mailed : Mailed me d.config config _ := mailed_sendMessage h.flagged sent
  have alone : ∀ r ∈ d.threads, Untouched d.config config r := fun r _ =>
    ⟨by rw [mailed.runnables], by rw [mailed.ready], by rw [mailed.control]⟩
  cases mine : addressed me (.sendMessage source target message timeAfter) with
  | none =>
    rw [mine] at mailed
    have same : due me config.sys = due me d.config.sys := mailed.due.trans (List.append_nil _)
    refine ⟨s, ⟨[], ?_⟩, h.frame mailed.flagged (same ▸ h.pool) alone⟩
    rw [host_only]
    exact .nil
  | some found =>
    rw [mine] at mailed
    cases message with
    | host m =>
      simp only [addressed] at mine
      split at mine
      next here =>
        obtain rfl := Option.some.inj mine
        cases m with
        -- the one message that others send to the host
        | packetFromPort packet =>
          refine ⟨s.post (.packetFromPort packet) 0, .single (a := .packetFromPort packet) ?_,
            h.frame mailed.flagged ?_ alone⟩
          · rw [host_only]
            exact step_idle (h.asleep free) _
          · rw [mailed.due, List.map_append, List.map_append]
            exact h.pool.append_right _
        | syscall pid param => simp [isOwn, here] at foreign
        | ret pid val => simp [isOwn, here] at foreign
        | timer payload => simp [isOwn, here] at foreign
        | packetPass fromModule toModule packet => simp [isOwn, here] at foreign
      · simp at mine
    | packetToPort packet => simp [addressed] at mine
    | other m => simp [addressed] at mine

/-- Of the messages for the host, only timers may be canceled. -/
theorem eq_timer_of_mayCancel {message : HostMessage} (aims : aimed me a = some message)
    (may : mayCancel me a = true) : message = .timer none := by
  unfold aimed at aims
  split at aims
  next m is_host =>
    split at aims
    next here =>
      obtain rfl := Option.some.inj aims
      rw [mayCancel, is_host] at may
      cases m with
      | timer payload =>
        cases payload with
        | none => rfl
        | some id => simp [here] at may
      | _ => simp [here] at may
    · simp at aims
  · simp at aims

/-- Of the cancellations, the host sees those of its timers. -/
theorem Abstracts.other_cancel {uuid : ℕ} {config : System.Config (Mail F)} (h : Abstracts me d s)
    (agree : System.Agreement d.config) (free : d.busy = false)
    (foreign : (d.config.sys.activeTimer uuid).all (mayCancel me) = true)
    (canceled : d.config.step (.cancelMessage uuid) = some (config, events)) :
    ∃ s', PoolRun s (events.map Happening.scheduler) s' ∧
      Abstracts me { d with config := config } s' := by
  simp only [System.Config.step] at canceled
  split at canceled
  · obtain ⟨rfl, -⟩ := Prod.mk.inj (Option.some.inj canceled)
    have flagged := h.flagged.cancelMessage agree uuid
    have alone : ∀ r ∈ d.threads, Untouched d.config
        { d.config with sys := (d.config.sys.cancelMessage uuid).2 } r := by
      refine fun r _ => ⟨rfl, ?_, Iff.rfl⟩
      change r ∈ (d.config.sys.cancelMessage uuid).2.runnableReady ↔ _
      unfold System.cancelMessage
      split <;> rfl
    rcases due_cancelMessage me agree uuid with same |
      ⟨a, front, back, message, active, aims, before, after⟩
    · refine ⟨s, ⟨[], ?_⟩, h.frame flagged (by rw [same]; exact h.pool) alone⟩
      rw [host_only]
      exact .nil
    -- the pool cancels the timer at the place where it has it
    · rw [active] at foreign
      obtain rfl := eq_timer_of_mayCancel aims foreign
      have perm : (s.pool.map Posted.message).Perm
          (.timer none :: (front ++ back).map Prod.fst) := by
        refine h.pool.trans ?_
        rw [before, List.map_append, List.map_append, List.map_cons]
        exact List.perm_middle
      obtain ⟨index, posted, found, same, rest⟩ := exists_taken perm
      refine ⟨{ s with pool := s.pool.eraseIdx index }, .single (a := .cancelTimer index) ?_,
        h.frame flagged (by rw [after]; exact rest) alone⟩
      rw [host_only]
      refine (step_idle (h.asleep free) _).trans ?_
      obtain ⟨message, timeAfter⟩ := posted
      obtain rfl : message = .timer none := same
      rw [State.stepIdle, found]
  · simp at canceled

theorem Abstracts.step_other {a : System.Action (Mail F)} (h : Abstracts me d s)
    (agree : System.Agreement d.config) (allowed : Allowed me d (.other a))
    (step : step me d (.other a) = some (d', out)) :
    SchedulerRun d.config out d'.config ∧ ∃ s', PoolRun s out s' ∧ Abstracts me d' s' := by
  obtain ⟨free, foreign⟩ := allowed
  obtain ⟨⟨config, events⟩, stepped, same⟩ := Option.map_eq_some_iff.mp step
  obtain ⟨rfl, rfl⟩ := Prod.mk.inj same
  refine ⟨⟨[a], by rw [scheduler_only]; exact .single trivial stepped⟩, ?_⟩
  by_cases sends : ∃ source target message timeAfter,
      a = .sendMessage source target message timeAfter
  · obtain ⟨source, target, message, timeAfter, rfl⟩ := sends
    exact h.other_send free (by simpa [Scheduled.foreign] using foreign) stepped
  by_cases cancels : ∃ uuid, a = .cancelMessage uuid
  · obtain ⟨uuid, rfl⟩ := cancels
    exact h.other_cancel agree free foreign stepped
  have quiet : Quiet d config := quiet_of_foreign free foreign
    (fun source target message timeAfter same => sends ⟨source, target, message, timeAfter, same⟩)
    (fun uuid same => cancels ⟨uuid, same⟩) stepped
  have flagged : Flagged config.sys := by
    intro address member
    rw [quiet.addresses]
    exact h.flagged address (quiet.canceled ▸ member)
  have same : due me config.sys = due me d.config.sys := by
    rw [due, quiet.queue, quiet.canceled, due]
  refine ⟨s, ⟨[], ?_⟩, h.frame flagged (by rw [same]; exact h.pool) quiet.alone⟩
  rw [host_only]
  exact .nil

/-! ## Runs -/

theorem Abstracts.step {deed : Deed F} (h : Abstracts me d s)
    (agree : System.Agreement d.config) (tables : Tables d.host) (allowed : Allowed me d deed)
    (step : (Scheduled.machine F me).step d deed = some (d', out)) :
    SchedulerRun d.config out d'.config ∧ ∃ s', PoolRun s out s' ∧ Abstracts me d' s' := by
  cases deed with
  | addApplication r => exact h.step_addApplication tables allowed step
  | launchApplication pid => exact h.step_launchApplication step
  | act a => exact h.step_act step
  | wake pid => exact h.step_wake step
  | syscall pid param => exact h.step_syscall step
  | finish pid returnValue => exact h.step_finish step
  | dispatch => exact h.step_dispatch step
  | other a => exact h.step_other agree allowed step

variable {hostModuleMap : Finset String} {ports : List ℕ} {routing : RoutingInfo}

theorem abstracts_start :
    Abstracts me ({ host := (start hostModuleMap ports routing).host } : Scheduled F)
      (start hostModuleMap ports routing) := by
  have nobody (pid : ℕ) : stateOf (start hostModuleMap ports routing).host pid = none := rfl
  refine ⟨rfl, List.Perm.refl _, by simp [Flagged], ?_, ?_, ?_, ?_, ?_, ?_⟩
  · simp [nobody]
  · simp [nobody]
  · simp [start]
  · simp [start]
  · simp [nobody]
  · simp [nobody]

variable {deeds : List (Deed F)} {log : List (Happening F)}

/-- A host on the scheduler: whatever modules, applications and other code do, the events of the
scheduler are those of one of its runs, and the events of the host are those of a run of the model
with a pool. At the end the pool has the messages for the host that are in the queue. -/
theorem scheduled_refines
    (run : (Scheduled.machine F me).Run (Allowed me)
      { host := (start hostModuleMap ports routing).host } deeds log d) :
    (∃ acts, (System.machine (Mail F)).Run Machine.free {} acts (log.filterMap schedulerEvent)
      d.config) ∧
    ∃ acts s, Host.machine.Run Machine.free (start hostModuleMap ports routing) acts
      (log.filterMap hostEvent) s ∧ Abstracts me d s := by
  induction run with
  | nil => exact ⟨⟨[], .nil⟩, [], _, .nil, abstracts_start⟩
  | snoc before allowed step ih =>
    obtain ⟨⟨acts, scheduled⟩, poolActs, s, hosted, abstracts⟩ := ih
    have tables := (inv_of_run hosted).tables
    rw [abstracts.host] at tables
    obtain ⟨⟨later, scheduled'⟩, s', ⟨poolLater, hosted'⟩, abstracts'⟩ :=
      abstracts.step (System.agreement_of_run scheduled) tables allowed step
    refine ⟨⟨acts ++ later, ?_⟩, poolActs ++ poolLater, s', ?_, abstracts'⟩
    · rw [List.filterMap_append]
      exact scheduled.append scheduled'
    · rw [List.filterMap_append]
      exact hosted.append hosted'

/-- The events of the host, with their times. -/
def timedEvent : Happening F → Option (ℕ × Event)
  | .scheduler _ => none
  | .host now event => some (now, event)

/-- Another module lets five units pass, and an application sleeps for three more. -/
def napDeeds : List (Deed Unit) :=
  [.other (.sendMessage 9 9 (.other ()) 5), .other (.run 0), .dispatch, .addApplication 40,
    .launchApplication 0, .other (.returns none), .other (.returns none), .wake 0,
    .syscall 0 (TCPApplication.nsleep 3), .dispatch, .other (.returns none), .other (.returns none),
    .dispatch, .other (.returns none), .other (.returns none), .wake 0, .finish 0 0, .dispatch,
    .other (.returns none), .other (.returns none), .other .leave]

/-- What happens to the application, and when. -/
def napEvents : List (ℕ × Event) :=
  [(5, .added 0), (5, .launched 0), (5, .started 0), (5, .issued 0 (TCPApplication.nsleep 3)),
    (5, .registered 0 0 (0, 0) (TCPApplication.nsleep 3)), (8, .returnCalled 0 0),
    (8, .returned 0 0), (8, .terminated 0), (8, .exited 0)]

theorem scheduled_refines_nap :
    ∃ log d, (Scheduled.machine Unit 7).Run (Allowed 7) { host := (start ∅ [] .empty).host }
        napDeeds log d ∧ log.filterMap timedEvent = napEvents ∧
      ∃ acts s, Host.machine.Run Machine.free (start ∅ [] .empty) acts (log.filterMap hostEvent) s ∧
        s.pool = [] := by
  have outcome : ((Scheduled.machine Unit 7).execIf (Allowed 7)
      { host := (start ∅ [] .empty).host } napDeeds).map
      (fun r => (r.2.filterMap timedEvent, (due 7 r.1.config.sys).length)) =
      some (napEvents, 0) := by decide +kernel
  obtain ⟨⟨d, log⟩, value, same⟩ := Option.map_eq_some_iff.mp outcome
  obtain ⟨events, idle⟩ := Prod.mk.inj same
  have run := Machine.Run.of_execIf value
  obtain ⟨-, acts, s, hosted, abstracts⟩ := scheduled_refines run
  refine ⟨log, d, run, events, acts, s, hosted, ?_⟩
  have empty := abstracts.pool.length_eq
  rw [List.length_map, List.length_map] at empty
  exact List.length_eq_zero_iff.mp (empty.trans idle)

end Kens.Host.Scheduled
