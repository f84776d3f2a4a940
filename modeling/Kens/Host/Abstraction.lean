/-
# The pool of a host on the scheduler

The states of the two models of a host are related: the pool has the messages for the host that are
in flight, in some order, and the applications are the runnables of their processes. What code of
the host and its applications do keeps the relation.
-/

import Mathlib
import Kens.Host.InFlight

namespace Kens.Host.Scheduled

open Semantics

variable {F : Type} {c c' : System.Config (Mail F)} {a : TimerContainer (Mail F)} {me pid : ℕ}
  {events : List (System.Event (Mail F))} {d d' : Scheduled F} {s t : State} {new : List Event}
  {out : List (Happening F)} {transition : Runnable.State → Option Runnable.State}

/-! ## The relation -/

/-- A runnable that a step of the scheduler does not concern. -/
structure Untouched (c c' : System.Config (Mail F)) (r : ℕ) : Prop where
  state : c'.runnables r = c.runnables r
  ready : r ∈ c'.sys.runnableReady ↔ r ∈ c.sys.runnableReady
  awake : c'.control = .awake r ↔ c.control = .awake r

/-- The state in which the model with a pool is when a host on the scheduler is in a certain one. -/
structure Abstracts (me : ℕ) (d : Scheduled F) (s : State) : Prop where
  host : s.host = d.host
  pool : (s.pool.map Posted.message).Perm ((due me d.config.sys).map Prod.fst)
  flagged : Flagged d.config.sys
  states : ∀ pid state, stateOf d.host pid = some state → d.config.runnables (d.thread pid) = state
  ready : ∀ pid, (stateOf d.host pid).isSome →
    (pid ∈ s.runnableReady ↔ d.thread pid ∈ d.config.sys.runnableReady)
  present : ∀ pid ∈ s.runnableReady, (stateOf d.host pid).isSome
  awake : ∀ pid, s.awake = some pid ↔
    (stateOf d.host pid).isSome ∧ d.config.control = .awake (d.thread pid)
  known : ∀ pid, (stateOf d.host pid).isSome → d.thread pid ∈ d.threads
  apart : ∀ pid pid', (stateOf d.host pid).isSome → (stateOf d.host pid').isSome →
    d.thread pid = d.thread pid' → pid = pid'

theorem isAwake_iff {r : ℕ} : isAwake c r = true ↔ c.control = .awake r := by
  unfold isAwake
  split
  next r' same => simp [same]
  next other =>
    constructor
    · simp
    · intro same
      exact absurd same (other r)

theorem Abstracts.asleep (h : Abstracts me d s) (idle : d.busy = false) : s.awake = none := by
  by_contra some_awake
  obtain ⟨pid, awake⟩ := Option.ne_none_iff_exists'.mp some_awake
  obtain ⟨there, control⟩ := (h.awake pid).mp awake
  rw [busy, control] at idle
  simp [h.known pid there] at idle

theorem step_idle (asleep : s.awake = none) (a : Action) : State.step s a = s.stepIdle a := by
  rw [State.step, asleep]

theorem Abstracts.blank (h : Abstracts me d s) : ({ host := d.host } : State).onto s = s :=
  h.host ▸ onto_blank s

/-- In the loop of `run` no application has control. -/
theorem Abstracts.asleep_of_loop (h : Abstracts me d s) (loop : d.config.control = .loop) :
    s.awake = none :=
  h.asleep (by rw [busy, loop])

/-- A step of the scheduler that does not concern the applications of the host. -/
theorem Abstracts.frame {pool : List Posted} {config : System.Config (Mail F)}
    (h : Abstracts me d s) (flagged : Flagged config.sys)
    (messages : (pool.map Posted.message).Perm ((due me config.sys).map Prod.fst))
    (alone : ∀ r ∈ d.threads, Untouched d.config config r) :
    Abstracts me { d with config := config } { s with pool := pool } where
  host := h.host
  pool := messages
  flagged := flagged
  states pid state there := by
    have known := h.known pid (by rw [there]; rfl)
    exact (alone _ known).state.trans (h.states pid state there)
  ready pid there := (h.ready pid there).trans (alone _ (h.known pid there)).ready.symm
  present := h.present
  awake pid := by
    refine (h.awake pid).trans (and_congr_right fun there => ?_)
    exact (alone _ (h.known pid there)).awake.symm
  known := h.known
  apart := h.apart

/-- The messages that code sends are posted, and the processes that it makes ready are ready. -/
theorem Abstracts.perform {config config' : System.Config (Mail F)} (h : Abstracts me d s)
    (readies : Readies transition d.host t)
    (ready : readyAll d.config transition (t.runnableReady.image d.thread) = some config)
    (mailed : Mailed me config config'
      (t.pool.map fun posted => (posted.message, posted.timeAfter))) :
    Abstracts me { d with config := config', host := t.host } (t.onto s) := by
  obtain ⟨-, rfl⟩ := readyAll_eq_some ready
  -- a process has the runnable of one that becomes ready only if it is that process
  have image_iff (pid : ℕ) (there : (stateOf d.host pid).isSome) :
      d.thread pid ∈ t.runnableReady.image d.thread ↔ pid ∈ t.runnableReady := by
    refine ⟨fun member => ?_, Finset.mem_image_of_mem d.thread⟩
    obtain ⟨other, listed, same⟩ := Finset.mem_image.mp member
    exact h.apart other pid (readies.present listed) there same ▸ listed
  constructor
  · rfl
  · have sent := mailed.due
    change due me config'.sys = due me d.config.sys ++ _ at sent
    change ((s.pool ++ t.pool).map Posted.message).Perm ((due me config'.sys).map Prod.fst)
    rw [sent, List.map_append, List.map_append, List.map_map, List.map_map]
    exact h.pool.append_right _
  · exact mailed.flagged
  · intro pid state found
    change config'.runnables (d.thread pid) = state
    rw [mailed.runnables]
    have there := (readies.isSome_iff pid).mp (by rw [found]; rfl)
    by_cases member : pid ∈ t.runnableReady
    · rw [(readies.ready pid member).2] at found
      rw [← Option.some.inj found]
      exact if_pos ((image_iff pid there).mpr member)
    · rw [readies.rest pid member] at found
      rw [← h.states pid state found]
      exact if_neg fun inside => member ((image_iff pid there).mp inside)
  · intro pid there
    have there' := (readies.isSome_iff pid).mp there
    change pid ∈ s.runnableReady ∪ t.runnableReady ↔ d.thread pid ∈ config'.sys.runnableReady
    rw [mailed.ready]
    change _ ↔ d.thread pid ∈ d.config.sys.runnableReady ∪ t.runnableReady.image d.thread
    rw [Finset.mem_union, Finset.mem_union, h.ready pid there', image_iff pid there']
  · intro pid member
    rcases Finset.mem_union.mp member with old | listed
    · exact (readies.isSome_iff pid).mpr (h.present pid old)
    · have after := (readies.ready pid listed).2
      change (stateOf t.host pid).isSome
      rw [after]
      rfl
  · intro pid
    change s.awake = some pid ↔ (stateOf t.host pid).isSome ∧ config'.control = _
    rw [mailed.control, readies.isSome_iff]
    exact h.awake pid
  · intro pid there
    exact h.known pid ((readies.isSome_iff pid).mp there)
  · intro pid pid' there there' same
    exact h.apart pid pid' ((readies.isSome_iff pid).mp there)
      ((readies.isSome_iff pid').mp there') same

/-- An application gets control. -/
theorem Abstracts.wake {config : System.Config (Mail F)} (h : Abstracts me d s)
    (turns : Turns d.host pid .ready .running t)
    (woken : d.config.step (.wake (d.thread pid)) = some (config, events)) :
    Abstracts me { d with config := config, host := t.host }
      { s with host := t.host, awake := some pid } ∧
    s.awake = none ∧ pid ∈ s.runnableReady := by
  have there : (stateOf d.host pid).isSome := by rw [turns.before]; rfl
  simp only [System.Config.step] at woken
  split at woken
  next loop =>
    split at woken
    next listed =>
      obtain ⟨c, set, same⟩ := Option.map_eq_some_iff.mp woken
      obtain ⟨rfl, -⟩ := Prod.mk.inj same
      obtain ⟨state, moves, rfl⟩ := Option.map_eq_some_iff.mp set
      obtain rfl : state = .running := by
        rw [h.states pid _ turns.before] at moves
        exact (Option.some.inj moves).symm
      refine ⟨⟨rfl, h.pool, h.flagged, ?_, ?_, ?_, ?_, ?_, ?_⟩, h.asleep_of_loop loop,
        (h.ready pid there).mpr listed⟩
      -- no other process has the runnable that is woken
      · intro p state found
        change Function.update d.config.runnables (d.thread pid) .running (d.thread p) = state
        rw [turns.after] at found
        split at found
        next same =>
          rw [same, Function.update_self]
          exact Option.some.inj found
        next other =>
          have there' : (stateOf d.host p).isSome := by rw [found]; rfl
          rw [Function.update_of_ne fun same => other (h.apart p pid there' there same)]
          exact h.states p state found
      · exact fun p there' => h.ready p ((turns.isSome_iff p).mp there')
      · exact fun p member => (turns.isSome_iff p).mpr (h.present p member)
      · intro p
        change some pid = some p ↔ (stateOf t.host p).isSome ∧
          System.Control.awake (d.thread pid) = .awake (d.thread p)
        rw [turns.isSome_iff]
        constructor
        · rintro ⟨⟩
          exact ⟨there, rfl⟩
        · rintro ⟨there', same⟩
          exact congrArg some (h.apart pid p there there' (System.Control.awake.inj same))
      · exact fun p there' => h.known p ((turns.isSome_iff p).mp there')
      · exact fun p p' there' there'' =>
          h.apart p p' ((turns.isSome_iff p).mp there') ((turns.isSome_iff p').mp there'')
    · simp at woken
  · simp at woken

/-- An application gives control back. -/
theorem Abstracts.yields {config config' : System.Config (Mail F)} {after : Runnable.State}
    {terminates : Bool} (h : Abstracts me d s) (turns : Turns d.host pid .running after t)
    (next : (if terminates then Runnable.finish .running else Runnable.wait .running) = some after)
    (unready : after ≠ .ready) (control : d.config.control = .awake (d.thread pid))
    (mailed : Mailed me d.config config
      (t.pool.map fun posted => (posted.message, posted.timeAfter)))
    (yield : config.step (.yields terminates) = some (config', events)) :
    Abstracts me { d with config := config', host := t.host } { s with
      host := t.host
      pool := s.pool ++ t.pool
      runnableReady := s.runnableReady.erase pid
      awake := none } := by
  have there : (stateOf d.host pid).isSome := by rw [turns.before]; rfl
  simp only [System.Config.step] at yield
  split at yield
  next r awake =>
    obtain rfl : d.thread pid = r := by
      rw [mailed.control, control] at awake
      exact System.Control.awake.inj awake
    obtain ⟨state, moves, same⟩ := Option.map_eq_some_iff.mp yield
    obtain ⟨rfl, -⟩ := Prod.mk.inj same
    obtain rfl : state = after := by
      rw [mailed.runnables, h.states pid _ turns.before, next] at moves
      exact (Option.some.inj moves).symm
    -- a runnable that waits or has ended is not listed any more
    have queue : (config.afterWake (d.thread pid) state).sys =
        { config.sys with runnableReady := config.sys.runnableReady.erase (d.thread pid) } :=
      if_pos unready
    refine ⟨rfl, ?_, ?_, ?_, ?_, ?_, ?_, ?_, ?_⟩
    · dsimp only
      rw [queue]
      change ((s.pool ++ t.pool).map Posted.message).Perm ((due me config.sys).map Prod.fst)
      rw [mailed.due, List.map_append, List.map_append, List.map_map, List.map_map]
      exact h.pool.append_right _
    · dsimp only
      rw [queue]
      exact mailed.flagged
    · intro p found_state found
      change Function.update config.runnables (d.thread pid) state (d.thread p) = found_state
      rw [turns.after] at found
      split at found
      next same =>
        rw [same, Function.update_self]
        exact Option.some.inj found
      next other =>
        have there' : (stateOf d.host p).isSome := by rw [found]; rfl
        rw [Function.update_of_ne fun same => other (h.apart p pid there' there same),
          mailed.runnables]
        exact h.states p found_state found
    · intro p there'
      have there'' := (turns.isSome_iff p).mp there'
      dsimp only
      rw [queue, mailed.ready, Finset.mem_erase, Finset.mem_erase, h.ready p there'']
      refine and_congr_left fun _ => not_congr ⟨fun same => by rw [same], ?_⟩
      exact h.apart p pid there'' there
    · exact fun p member =>
        (turns.isSome_iff p).mpr (h.present p (Finset.mem_of_mem_erase member))
    · intro p
      change none = some p ↔ _ ∧ System.Control.loop = .awake (d.thread p)
      simp
    · exact fun p there' => h.known p ((turns.isSome_iff p).mp there')
    · exact fun p p' there' there'' =>
        h.apart p p' ((turns.isSome_iff p).mp there') ((turns.isSome_iff p').mp there'')
  · simp at yield

/-- A process ends. -/
theorem Abstracts.exited {config : System.Config (Mail F)} (h : Abstracts me d s)
    (drained : s.runnableReady = ∅) {a : TimerContainer (Mail F)}
    (received : d.config.control = .received a) (quiet : t.runnableReady = ∅) (empty : t.pool = [])
    (states : ∀ p, stateOf t.host p = if p = pid then none else stateOf d.host p)
    (delete : d.config.step (.delRunnable (d.thread pid)) = some (config, events)) :
    Abstracts me { d with config := config, host := t.host } (t.onto s) := by
  have there (p : ℕ) (found : (stateOf t.host p).isSome) : (stateOf d.host p).isSome := by
    rw [states] at found
    split at found
    · simp at found
    · exact found
  have user : d.config.control.isUser = true := by rw [received]; rfl
  simp only [System.Config.step, user, if_true] at delete
  obtain ⟨rfl, -⟩ := Prod.mk.inj (Option.some.inj delete)
  refine ⟨rfl, ?_, h.flagged, ?_, ?_, ?_, ?_, ?_, ?_⟩
  · change ((s.pool ++ t.pool).map Posted.message).Perm _
    rw [empty, List.append_nil]
    exact h.pool
  · intro p state found
    rw [states] at found
    split at found
    · simp at found
    · exact h.states p state found
  -- nothing is ready during a dispatch, so `delRunnable` finds nothing to take away
  · intro p found
    change p ∈ s.runnableReady ∪ t.runnableReady ↔
      d.thread p ∈ d.config.sys.runnableReady.erase (d.thread pid)
    have unready := h.ready p (there p found)
    rw [drained] at unready
    rw [drained, quiet, Finset.mem_erase]
    simpa using fun _ member => unready.mpr member
  · intro p member
    change p ∈ s.runnableReady ∪ t.runnableReady at member
    rw [drained, quiet] at member
    simp at member
  · intro p
    change s.awake = some p ↔ _ ∧ d.config.control = .awake (d.thread p)
    rw [h.awake p, received]
    simp
  · exact fun p found => h.known p (there p found)
  · exact fun p p' found found' => h.apart p p' (there p found) (there p' found')

end Kens.Host.Scheduled
