/-
# Running up to a horizon

With deterministic modules, applications and iteration order, `run` is a partial
function of the state. Its argument is read only where the loop decides whether
to stop, so a run up to an earlier horizon is an initial part of the run up to a
later one, and resuming it ends in the same state.
-/

import Kens.System.Order

namespace Kens.System

open Semantics

variable {M σ : Type}

/-! ## Deterministic user code -/

/-- All user code of a simulation. `act` is what the code in control does next
and how its memory changes; it does not see the horizon of the run. `visit` is
the member of the ready set that the drain loop visits next. -/
structure Program (M σ : Type) where
  act : σ → System M → (ℕ → Runnable.State) → Control M → Action M × σ
  visit : σ → System M → (ℕ → Runnable.State) → ℕ

/-- The scheduler together with the memory of the user code. -/
structure World (M σ : Type) where
  memory : σ
  config : Config M

namespace Program

variable (P : Program M σ)

/-- The next action. In the loop of `run` it is fixed by the code: wake the
ready runnables, then leave or dispatch. -/
def choose (w : World M σ) : Action M × σ :=
  match w.config.control with
  | .loop =>
    if w.config.sys.runnableReady = ∅ then
      (if w.config.stops then .leave else .dispatch, w.memory)
    else
      (.wake (P.visit w.memory w.config.sys w.config.runnables), w.memory)
  | control => P.act w.memory w.config.sys w.config.runnables control

/-- Follow the program until `run` returns; `none` when that takes more than
`fuel` steps or an assertion fails. -/
def loop : ℕ → World M σ → Option (World M σ × List (Event M))
  | 0, _ => none
  | fuel + 1, w =>
    match w.config.control with
    | .outside => some (w, [])
    | _ =>
      match w.config.step (P.choose w).1 with
      | none => none
      | some (c, new) =>
        (loop fuel ⟨(P.choose w).2, c⟩).map fun r => (r.1, new ++ r.2)

/-- `run(till)`, called from outside. -/
def run (fuel till : ℕ) (w : World M σ) : Option (World M σ × List (Event M)) :=
  match w.config.step (.run till) with
  | none => none
  | some (c, _) => P.loop fuel ⟨w.memory, c⟩

end Program

/-! ## The horizon is invisible to user code -/

namespace Config

variable {c c' : Config M} {new : List (Event M)}

/-- The same configuration inside a `run` with another argument. -/
def withTill (c : Config M) (till : ℕ) : Config M := { c with till := till }

@[simp] theorem withTill_control (till : ℕ) : (c.withTill till).control = c.control := rfl

@[simp] theorem withTill_sys (till : ℕ) : (c.withTill till).sys = c.sys := rfl

@[simp] theorem withTill_runnables (till : ℕ) : (c.withTill till).runnables = c.runnables := rfl

@[simp] theorem withTill_withTill (t t' : ℕ) : (c.withTill t).withTill t' = c.withTill t' := rfl

theorem setRunnable_withTill (till : ℕ) {r : ℕ}
    {transition : Runnable.State → Option Runnable.State}
    (h : c.setRunnable r transition = some c') :
    (c.withTill till).setRunnable r transition = some (c'.withTill till) := by
  obtain ⟨state, hstate, rfl⟩ := Option.map_eq_some_iff.mp h
  exact Option.map_eq_some_iff.mpr ⟨state, hstate, rfl⟩

/-- Inside `run`, a step other than leaving does the same under two horizons
that agree on whether to stop. -/
theorem step_withTill {a : Action M} (till : ℕ) (inside : c.control ≠ .outside)
    (stay : a ≠ .leave) (agree : a = .dispatch → (c.withTill till).stops = c.stops)
    (h : c.step a = some (c', new)) :
    (c.withTill till).step a = some (c'.withTill till, new) := by
  cases a with
  | leave => exact absurd rfl stay
  | dispatch =>
    -- the only step that reads the horizon
    have agree := agree rfl
    simp only [step, withTill_control, withTill_sys, agree] at h ⊢
    revert h
    split
    · split
      · split
        · simp
        · split <;> (rw [Option.some_inj, Prod.mk.injEq]; rintro ⟨rfl, rfl⟩; rfl)
      · simp
    · simp
  | run t =>
    -- `run` is called from outside
    simp [step] at h
  | sendMessage source target message timeAfter =>
    simp only [step] at h ⊢
    split at h
    next user =>
      refine (if_pos user).trans ?_
      rw [withTill_sys]
      cases hsend : c.sys.sendMessage source target message timeAfter with
      | none => simp [hsend] at h
      | some r =>
        simp only [hsend, Option.some_inj, Prod.mk.injEq] at h ⊢
        obtain ⟨rfl, rfl⟩ := h
        exact ⟨rfl, rfl⟩
    · simp at h
  | cancelMessage uuid =>
    simp only [step] at h ⊢
    split at h
    next user =>
      refine (if_pos user).trans ?_
      simp only [Option.some_inj, Prod.mk.injEq] at h ⊢
      obtain ⟨rfl, rfl⟩ := h
      exact ⟨rfl, rfl⟩
    · simp at h
  | start r | ready r =>
    simp only [step] at h ⊢
    split at h
    next user =>
      refine (if_pos user).trans ?_
      obtain ⟨d, hset, heq⟩ := Option.map_eq_some_iff.mp h
      obtain ⟨rfl, rfl⟩ := Prod.mk.inj heq
      exact Option.map_eq_some_iff.mpr ⟨_, setRunnable_withTill till hset, rfl⟩
    · simp at h
  | addRunnable r | delRunnable r =>
    simp only [step] at h ⊢
    split at h
    next user =>
      refine (if_pos user).trans ?_
      simp only [Option.some_inj, Prod.mk.injEq] at h ⊢
      obtain ⟨rfl, rfl⟩ := h
      exact ⟨rfl, rfl⟩
    · simp at h
  | wake r =>
    unfold step at h ⊢
    simp only [withTill_control] at h ⊢
    cases hcontrol : c.control with
    | loop =>
      simp only [hcontrol] at h ⊢
      split at h
      next member =>
        refine (if_pos member).trans ?_
        obtain ⟨d, hset, heq⟩ := Option.map_eq_some_iff.mp h
        obtain ⟨rfl, rfl⟩ := Prod.mk.inj heq
        exact Option.map_eq_some_iff.mpr ⟨_, setRunnable_withTill till hset, rfl⟩
      · simp at h
    | _ => simp [hcontrol] at h
  | yields terminates =>
    unfold step at h ⊢
    simp only [withTill_control] at h ⊢
    cases hcontrol : c.control with
    | awake r =>
      simp only [hcontrol] at h ⊢
      obtain ⟨state, hstate, heq⟩ := Option.map_eq_some_iff.mp h
      obtain ⟨rfl, rfl⟩ := Prod.mk.inj heq
      exact Option.map_eq_some_iff.mpr ⟨state, hstate, rfl⟩
    | _ => simp [hcontrol] at h
  | returns ret =>
    unfold step at h ⊢
    simp only [withTill_control] at h ⊢
    split at h <;>
      first
        | (obtain ⟨rfl, rfl⟩ := Prod.mk.inj (Option.some.inj h); rfl)
        | simp at h

/-- A step other than leaving stays inside `run`. -/
theorem step_inside {a : Action M} (inside : c.control ≠ .outside) (stay : a ≠ .leave)
    (h : c.step a = some (c', new)) : c'.control ≠ .outside := by
  cases move_of_step (M := M) h with
  | quiet _ _ ready sys control inside' => exact inside' stay inside
  | send | cancel => exact inside
  | deliver | drop | finish | respond | release => exact nofun

theorem stops_iff : c.stops = true ↔
    ∀ first, c.sys.topTimer = some first → c.till ≠ 0 ∧ c.till < first.wakeup := by
  unfold stops
  cases c.sys.topTimer with
  | none => simp
  | some first => simp

/-- A run that stops at the later horizon stops at the earlier one. -/
theorem stops_of_le {t₁ t₂ : ℕ} (positive : 0 < t₁) (le : t₁ ≤ t₂)
    (h : (c.withTill t₂).stops = true) : (c.withTill t₁).stops = true := by
  rw [stops_iff] at h ⊢
  intro first htop
  obtain ⟨-, late⟩ := h first htop
  exact ⟨positive.ne', lt_of_le_of_lt le late⟩

end Config

/-! ## Splitting a run -/

namespace Program

variable (P : Program M σ) {w w' : World M σ} {log : List (Event M)}

theorem choose_withTill (till : ℕ)
    (agree : w.config.control = .loop → w.config.sys.runnableReady = ∅ →
      (w.config.withTill till).stops = w.config.stops) :
    P.choose ⟨w.memory, w.config.withTill till⟩ = P.choose w := by
  unfold choose
  simp only [Config.withTill_control, Config.withTill_sys, Config.withTill_runnables]
  cases hcontrol : w.config.control with
  | loop =>
    by_cases ready : w.config.sys.runnableReady = ∅
    · simp only [ready, if_true, agree hcontrol ready]
    · simp only [ready, if_false]
  | _ => rfl

theorem loop_succ {fuel : ℕ} (inside : w.config.control ≠ .outside) :
    P.loop (fuel + 1) w =
      match w.config.step (P.choose w).1 with
      | none => none
      | some (c, new) => (P.loop fuel ⟨(P.choose w).2, c⟩).map fun r => (r.1, new ++ r.2) := by
  rw [loop]
  split
  next outside => exact absurd outside inside
  next => rfl

theorem loop_succ_eq_some {fuel : ℕ} (inside : w.config.control ≠ .outside)
    (h : P.loop (fuel + 1) w = some (w', log)) :
    ∃ c new rest, w.config.step (P.choose w).1 = some (c, new) ∧
      P.loop fuel ⟨(P.choose w).2, c⟩ = some (w', rest) ∧ log = new ++ rest := by
  rw [P.loop_succ inside] at h
  split at h
  · simp at h
  next c new hstep =>
    obtain ⟨⟨v, rest⟩, hrest, heq⟩ := Option.map_eq_some_iff.mp h
    obtain ⟨rfl, rfl⟩ := Prod.mk.inj heq
    exact ⟨c, new, rest, hstep, hrest, rfl⟩

theorem loop_outside {fuel : ℕ} (outside : w.config.control = .outside) :
    P.loop (fuel + 1) w = some (w, []) := by
  rw [loop, outside]

/-- Extra fuel does not change the result. -/
theorem loop_mono {fuel : ℕ} (h : P.loop fuel w = some (w', log)) :
    P.loop (fuel + 1) w = some (w', log) := by
  induction fuel generalizing w log with
  | zero => simp [loop] at h
  | succ fuel ih =>
    by_cases outside : w.config.control = .outside
    · rw [P.loop_outside outside] at h ⊢
      exact h
    · obtain ⟨c, new, rest, hstep, hrest, rfl⟩ := P.loop_succ_eq_some outside h
      rw [P.loop_succ outside, hstep]
      simp [ih hrest]

/-- The loop leaves `run` only when nothing is ready and the horizon is reached. -/
theorem not_leave (running : ¬ (w.config.control = .loop ∧ w.config.sys.runnableReady = ∅ ∧
      w.config.stops = true)) {c : Config M} {new : List (Event M)}
    (h : w.config.step (P.choose w).1 = some (c, new)) : (P.choose w).1 ≠ .leave := by
  intro leaves
  rw [leaves] at h
  simp only [Config.step] at h
  split at h
  next hcontrol =>
    split at h
    next done => exact running ⟨hcontrol, done⟩
    · simp at h
  · simp at h

theorem loop_split {fuel t₁ t₂ : ℕ} (positive : 0 < t₁) (le : t₁ ≤ t₂)
    (inside : w.config.control ≠ .outside)
    (h : P.loop fuel ⟨w.memory, w.config.withTill t₂⟩ = some (w', log)) :
    ∃ w₁ log₁ log₂, P.loop fuel ⟨w.memory, w.config.withTill t₁⟩ = some (w₁, log₁) ∧
      w₁.config.control = .outside ∧
      P.loop fuel ⟨w₁.memory, { w₁.config with control := .loop, till := t₂ }⟩ = some (w', log₂) ∧
      log = log₁ ++ log₂ := by
  -- both loops are followed together, the run up to `t₂` being the one given
  induction fuel generalizing w log with
  | zero => simp [loop] at h
  | succ fuel ih =>
    obtain ⟨c, new, rest, hstep, hrest, rfl⟩ := P.loop_succ_eq_some
      (w := ⟨w.memory, w.config.withTill t₂⟩) inside h
    by_cases early : w.config.control = .loop ∧ w.config.sys.runnableReady = ∅ ∧
        (w.config.withTill t₁).stops = true
    · -- the run up to `t₁` ends here, and resuming it is the run up to `t₂` from here
      obtain ⟨hcontrol, ready, stops⟩ := early
      have leaves : P.choose ⟨w.memory, w.config.withTill t₁⟩ = (.leave, w.memory) := by
        simp [choose, hcontrol, ready, stops]
      obtain ⟨fuel, rfl⟩ : ∃ n, fuel = n + 1 := by
        cases fuel with
        | zero => simp [loop] at hrest
        | succ n => exact ⟨n, rfl⟩
      refine ⟨⟨w.memory, { w.config with control := .outside, till := 0 }⟩, [], new ++ rest,
        ?_, rfl, ?_, rfl⟩
      · rw [P.loop_succ (w := ⟨w.memory, w.config.withTill t₁⟩) inside, leaves]
        simp only [Config.step, Config.withTill_control, hcontrol, Config.withTill_sys, ready,
          stops]
        simp [loop_outside, Config.withTill]
      · have same : ({ w.config with control := .loop, till := t₂ } : Config M) =
            w.config.withTill t₂ := by
          rw [← hcontrol]
          rfl
        exact same ▸ h
    · -- both runs take the same step
      have agree : w.config.control = .loop → w.config.sys.runnableReady = ∅ →
          (w.config.withTill t₁).stops = (w.config.withTill t₂).stops := by
        intro hcontrol ready
        have goesOn : (w.config.withTill t₁).stops = false := by
          simpa using fun stops => early ⟨hcontrol, ready, stops⟩
        have goesOn' : (w.config.withTill t₂).stops = false := by
          rw [← Bool.not_eq_true] at goesOn ⊢
          exact fun stops => goesOn (Config.stops_of_le positive le stops)
        rw [goesOn, goesOn']
      have chosen : P.choose ⟨w.memory, w.config.withTill t₁⟩ =
          P.choose ⟨w.memory, w.config.withTill t₂⟩ :=
        P.choose_withTill (w := ⟨w.memory, w.config.withTill t₂⟩) t₁ agree
      have stay : (P.choose ⟨w.memory, w.config.withTill t₂⟩).1 ≠ .leave := by
        refine P.not_leave (w := ⟨_, _⟩) ?_ hstep
        rintro ⟨hcontrol, ready, stops⟩
        exact early ⟨hcontrol, ready, (agree hcontrol ready).trans stops⟩
      have dispatches : (P.choose ⟨w.memory, w.config.withTill t₂⟩).1 = .dispatch →
          (w.config.withTill t₁).stops = (w.config.withTill t₂).stops := by
        intro hdispatch
        rw [hdispatch] at hstep
        simp only [Config.step] at hstep
        split at hstep
        next hcontrol =>
          split at hstep
          next going => exact agree hcontrol going.1
          · simp at hstep
        · simp at hstep
      have first := Config.step_withTill (c := w.config.withTill t₂) t₁ inside stay
        dispatches hstep
      have second := Config.step_withTill (c := w.config.withTill t₂) t₂ inside stay
        (fun _ => rfl) hstep
      -- no step inside `run` writes the horizon
      have unchanged : c = c.withTill t₂ := by
        rw [Config.withTill_withTill, hstep] at second
        exact (Prod.mk.inj (Option.some.inj second)).1
      have inside' := Config.step_inside (c := w.config.withTill t₂) inside stay hstep
      obtain ⟨w₁, log₁, log₂, h₁, outside, h₂, rfl⟩ := ih (w := ⟨_, c⟩) inside' (by
        rw [← unchanged]
        exact hrest)
      refine ⟨w₁, new ++ log₁, log₂, ?_, outside, ?_, by simp⟩
      · rw [Config.withTill_withTill] at first
        rw [P.loop_succ (w := ⟨w.memory, w.config.withTill t₁⟩) inside, chosen]
        simp only [first, h₁, Option.map_some]
      -- the second run starts later and so has fuel to spare
      · exact P.loop_mono h₂

/-! ## What holds when `run` returns -/

/-- The clock stands at the due time of the last message processed. -/
def lastDue (clock : ℕ) (log : List (Event M)) : ℕ :=
  ((pops log).getLast?.map TimerContainer.wakeup).getD clock

theorem lastDue_append (clock : ℕ) (new : List (Event M)) :
    lastDue clock (log ++ new) = lastDue (lastDue clock log) new := by
  unfold lastDue
  rw [pops_append, List.getLast?_append]
  cases (pops new).getLast? <;> simp

theorem lastDue_of_step {c c' : Config M} {a : Action M} {new : List (Event M)}
    (h : c.step a = some (c', new)) :
    c'.sys.currentTime = lastDue c.sys.currentTime new := by
  cases move_of_step (M := M) h with
  | quiet _ _ ready sys control inside =>
    rw [sys]
    rfl
  | cancel _ uuid => exact cancelMessage_currentTime ..
  | deliver _ current sys idle pop live => exact popTimer_currentTime pop
  | drop _ current sys idle pop dead => exact popTimer_currentTime pop
  | send | finish | respond | release => rfl

/-- A message processed by the loop is due no later than the horizon. -/
theorem due_of_step {c c' : Config M} {a : Action M} {new : List (Event M)}
    (positive : 0 < c.till) (h : c.step a = some (c', new)) :
    ∀ b ∈ pops new, b.wakeup ≤ c.till := by
  have popped : ∀ {current : TimerContainer M} {s : System M},
      c.stops = false → c.sys.popTimer = some (current, s) → current.wakeup ≤ c.till := by
    intro current s goesOn pop
    by_contra late
    rw [← Bool.not_eq_true, Config.stops_iff] at goesOn
    refine goesOn fun first htop => ?_
    rw [topTimer_of_popTimer pop] at htop
    obtain rfl := Option.some.inj htop
    omega
  cases move_of_step (M := M) h with
  | deliver _ current sys idle pop live drained goesOn =>
    intro b member
    obtain rfl : b = current := by simpa [pops] using member
    exact popped goesOn pop
  | drop _ current sys idle pop dead drained goesOn =>
    intro b member
    obtain rfl : b = current := by simpa [pops] using member
    exact popped goesOn pop
  | quiet | send | cancel | finish | respond | release => simp [pops]

theorem till_of_step {c c' : Config M} {a : Action M} {new : List (Event M)}
    (inside : c.control ≠ .outside) (stay : a ≠ .leave) (h : c.step a = some (c', new)) :
    c'.till = c.till := by
  have same := Config.step_withTill c.till inside stay (fun _ => rfl) h
  have unchanged : c' = c'.withTill c.till := by
    have eq : c.step a = some (c'.withTill c.till, new) := same
    rw [h] at eq
    exact (Prod.mk.inj (Option.some.inj eq)).1
  rw [unchanged]
  rfl

/-- What `run` guarantees when it returns. -/
structure Returned (clock till : ℕ) (w : World M σ) (log : List (Event M)) : Prop where
  outside : w.config.control = .outside
  processed : ∀ a ∈ pops log, a.wakeup ≤ till
  queued : ∀ a ∈ w.config.sys.timerQueue, till < a.wakeup
  drained : w.config.sys.runnableReady = ∅
  clock : w.config.sys.currentTime = lastDue clock log

theorem loop_returned {fuel : ℕ} (inside : w.config.control ≠ .outside)
    (positive : 0 < w.config.till) (h : P.loop fuel w = some (w', log)) :
    Returned w.config.sys.currentTime w.config.till w' log := by
  induction fuel generalizing w log with
  | zero => simp [loop] at h
  | succ fuel ih =>
    obtain ⟨c, new, rest, hstep, hrest, rfl⟩ := P.loop_succ_eq_some inside h
    by_cases ends : w.config.control = .loop ∧ w.config.sys.runnableReady = ∅ ∧
        w.config.stops = true
    · obtain ⟨hcontrol, ready, stops⟩ := ends
      have leaves : P.choose w = (.leave, w.memory) := by
        simp [choose, hcontrol, ready, stops]
      rw [leaves] at hstep hrest
      obtain ⟨rfl, rfl⟩ : { w.config with control := .outside, till := 0 } = c ∧ [] = new := by
        simpa [Config.step, hcontrol, ready, stops] using hstep
      obtain ⟨fuel, rfl⟩ : ∃ n, fuel = n + 1 := by
        cases fuel with
        | zero => simp [loop] at hrest
        | succ n => exact ⟨n, rfl⟩
      rw [P.loop_outside (w := ⟨_, { w.config with control := .outside, till := 0 }⟩) rfl] at hrest
      obtain ⟨rfl, rfl⟩ := Prod.mk.inj (Option.some.inj hrest)
      refine ⟨rfl, by simp, ?_, ready, rfl⟩
      -- the first container of the queue has the least due time
      intro a member
      cases htop : w.config.sys.topTimer with
      | none =>
        rw [topTimer_eq_none_iff] at htop
        rw [htop] at member
        simp at member
      | some first =>
        obtain ⟨-, late⟩ := Config.stops_iff.mp stops first htop
        have least := topTimer_key_le htop a member
        rw [TimerContainer.key_le_iff] at least
        omega
    · have stay := P.not_leave ends hstep
      have inside' := Config.step_inside inside stay hstep
      have till := till_of_step inside stay hstep
      have later := ih (w := ⟨_, c⟩) inside' (by rw [till]; exact positive) hrest
      simp only [till] at later
      refine ⟨later.outside, ?_, later.queued, later.drained, ?_⟩
      · intro a member
        rw [pops_append, List.mem_append] at member
        rcases member with member | member
        · exact due_of_step positive hstep a member
        · exact later.processed a member
      · rw [later.clock, lastDue_append, lastDue_of_step hstep]

theorem run_eq_some {fuel till : ℕ} (h : P.run fuel till w = some (w', log)) :
    w.config.control = .outside ∧ till < 2 ^ 64 ∧
      P.loop fuel ⟨w.memory, { w.config with control := .loop, till := till }⟩ =
        some (w', log) := by
  unfold run at h
  split at h
  · simp at h
  next c new hstep =>
    simp only [Config.step] at hstep
    split at hstep
    next outside =>
      split at hstep
      next small =>
        obtain ⟨rfl, rfl⟩ := Prod.mk.inj (Option.some.inj hstep)
        exact ⟨outside, small, h⟩
      · simp at hstep
    · simp at hstep

theorem run_eq_loop {fuel till : ℕ} (outside : w.config.control = .outside)
    (small : till < 2 ^ 64) : P.run fuel till w =
      P.loop fuel ⟨w.memory, { w.config with control := .loop, till := till }⟩ := by
  simp only [run, Config.step, outside, small, if_true]

/-- Splitting a run at a horizon changes nothing: when `run(t₂)` returns, so does
`run(t₁)` from the same state for every earlier positive `t₁`, and continuing
with `run(t₂)` ends in the same state after the same events. Whenever `run(till)`
returns with a positive argument, it has processed what was due up to then and
nothing else, the ready set is empty, and the clock stands at the due time of
the last message processed. -/
theorem run_horizon (P : Program M σ) (w : World M σ) :
    (∀ fuel t₁ t₂ w' log, 0 < t₁ → t₁ ≤ t₂ → P.run fuel t₂ w = some (w', log) →
      ∃ w₁ log₁ log₂, P.run fuel t₁ w = some (w₁, log₁) ∧
        P.run fuel t₂ w₁ = some (w', log₂) ∧ log = log₁ ++ log₂) ∧
    (∀ fuel till w' log, 0 < till → P.run fuel till w = some (w', log) →
      (∀ a ∈ pops log, a.wakeup ≤ till) ∧
      (∀ a ∈ w'.config.sys.timerQueue, till < a.wakeup) ∧
      w'.config.sys.runnableReady = ∅ ∧
      w'.config.sys.currentTime =
        ((pops log).getLast?.map TimerContainer.wakeup).getD w.config.sys.currentTime) := by
  constructor
  · intro fuel t₁ t₂ w' log positive le h
    obtain ⟨outside, small, hloop⟩ := P.run_eq_some h
    obtain ⟨w₁, log₁, log₂, h₁, outside₁, h₂, rfl⟩ := P.loop_split
      (w := ⟨w.memory, { w.config with control := .loop }⟩) positive le nofun hloop
    refine ⟨w₁, log₁, log₂, ?_, ?_, rfl⟩
    · rw [P.run_eq_loop outside (lt_of_le_of_lt le small)]
      exact h₁
    · rw [P.run_eq_loop outside₁ small]
      exact h₂
  · intro fuel till w' log positive h
    obtain ⟨-, -, hloop⟩ := P.run_eq_some h
    have returned := P.loop_returned
      (w := ⟨w.memory, { w.config with control := .loop, till := till }⟩) nofun positive hloop
    exact ⟨returned.processed, returned.queued, returned.drained, returned.clock⟩

/-- Modules that return at once without a response. -/
def silent : Program Unit Unit where
  act memory _ _ _ := (.returns none, memory)
  visit _ _ _ := 0

/-- A system with messages due at 3 and at 7. -/
def twoTimers : World Unit Unit where
  memory := ()
  config :=
    { sys := { timerQueue := [⟨0, 1, 2, 3, (), 1⟩, ⟨1, 1, 2, 7, (), 2⟩], currentUUID := 2 } }

/-- The run up to 7 of two messages, split at 5 between them. -/
theorem run_horizon_split_between :
    ∃ w' log, silent.run 9 7 twoTimers = some (w', log) ∧ w'.config.sys.currentTime = 7 ∧
      (∃ w₁ log₁ log₂, silent.run 9 5 twoTimers = some (w₁, log₁) ∧
        silent.run 9 7 w₁ = some (w', log₂) ∧ log = log₁ ++ log₂) ∧
      ∀ a ∈ pops log, a.wakeup ≤ 7 := by
  refine ⟨_, _, rfl, rfl, ?_, ?_⟩
  · exact (run_horizon silent twoTimers).1 9 5 7 _ _ (by decide) (by decide) rfl
  · exact ((run_horizon silent twoTimers).2 9 7 _ _ (by decide) rfl).1

end Program

end Kens.System
