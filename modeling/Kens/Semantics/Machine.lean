/-
# Machines that emit a log, and their runs

A machine takes an action and either refuses it or moves to a new state while
emitting some output. A run follows a list of actions and collects the outputs
in order; a guard may restrict which action is taken in which state. Everything
a run preserves is derived from what one step preserves.
-/

import Mathlib.Data.List.Infix

namespace Kens.Semantics

/-- A deterministic labelled machine. `step s a = none` means that the action
`a` cannot be taken in state `s`. -/
structure Machine (σ α ω : Type*) where
  step : σ → α → Option (σ × List ω)

namespace Machine

variable {σ α ω : Type*} {M : Machine σ α ω} {ok ok' : σ → α → Prop}
variable {s t u : σ} {as bs : List α} {out out' : List ω}

/-- `M.Run ok s as out t`: from `s`, the actions `as`, each allowed by the guard
`ok` in the state where it is taken, lead to `t` and emit `out`. -/
inductive Run (M : Machine σ α ω) (ok : σ → α → Prop) (s : σ) : List α → List ω → σ → Prop
  | nil : Run M ok s [] [] s
  | snoc {as : List α} {out new : List ω} {t u : σ} {a : α} :
      Run M ok s as out t → ok t a → M.step t a = some (u, new) →
      Run M ok s (as ++ [a]) (out ++ new) u

/-- The unrestricted guard. -/
def free : σ → α → Prop := fun _ _ => True

/-- Execute a list of actions, stopping at the first refused one. -/
def exec (M : Machine σ α ω) (s : σ) : List α → Option (σ × List ω)
  | [] => some (s, [])
  | a :: as =>
    match M.step s a with
    | none => none
    | some (t, new) => (M.exec t as).map fun r => (r.1, new ++ r.2)

theorem Run.single {a : α} (allowed : ok s a) (h : M.step s a = some (t, out)) :
    M.Run ok s [a] out t := by
  simpa using Run.nil.snoc allowed h

theorem Run.append (h : M.Run ok s as out t) (h' : M.Run ok t bs out' u) :
    M.Run ok s (as ++ bs) (out ++ out') u := by
  induction h' with
  | nil => simpa using h
  | snoc _ allowed hstep ih =>
    rw [← List.append_assoc, ← List.append_assoc]
    exact ih.snoc allowed hstep

theorem Run.mono (weaker : ∀ s a, ok s a → ok' s a) (h : M.Run ok s as out t) :
    M.Run ok' s as out t := by
  induction h with
  | nil => exact .nil
  | snoc _ allowed hstep ih => exact ih.snoc (weaker _ _ allowed) hstep

/-- The invariant rule. A property of log and state that holds at the start
and is kept by every allowed step holds at the end of every run. -/
theorem Run.invariant (Inv : List ω → σ → Prop) (start : Inv [] s)
    (keep : ∀ out t a u new, Inv out t → ok t a → M.step t a = some (u, new) →
      Inv (out ++ new) u)
    (h : M.Run ok s as out t) : Inv out t := by
  induction h with
  | nil => exact start
  | snoc _ allowed hstep ih => exact keep _ _ _ _ _ ih allowed hstep

theorem Run.of_nil (h : M.Run ok s [] out t) : s = t ∧ out = [] := by
  generalize hw : ([] : List α) = w at h
  cases h with
  | nil => exact ⟨rfl, rfl⟩
  | snoc => simp at hw

theorem Run.of_cons {a : α} (h : M.Run ok s (a :: as) out t) :
    ∃ u new rest, ok s a ∧ M.step s a = some (u, new) ∧ M.Run ok u as rest t ∧
      out = new ++ rest := by
  generalize hw : a :: as = w at h
  induction h generalizing as with
  | nil => simp at hw
  | @snoc bs out new t u b hrun allowed hstep ih =>
    cases bs with
    | nil =>
      obtain ⟨rfl, rfl⟩ : a = b ∧ as = [] := by simpa using hw
      obtain ⟨rfl, rfl⟩ := Run.of_nil hrun
      exact ⟨u, new, [], allowed, hstep, .nil, by simp⟩
    | cons c cs =>
      obtain ⟨rfl, rfl⟩ : a = c ∧ as = cs ++ [b] := by simpa using hw
      obtain ⟨v, first, rest, hok, hfirst, hrest, rfl⟩ := ih rfl
      exact ⟨v, first, rest ++ new, hok, hfirst, hrest.snoc allowed hstep, by simp⟩

/-- A run over a concatenation passes through an intermediate state. -/
theorem Run.split (h : M.Run ok s (as ++ bs) out t) :
    ∃ u out₁ out₂, M.Run ok s as out₁ u ∧ M.Run ok u bs out₂ t ∧ out = out₁ ++ out₂ := by
  induction as generalizing s out with
  | nil => exact ⟨s, [], out, .nil, h, rfl⟩
  | cons a as ih =>
    obtain ⟨v, new, rest, allowed, hstep, hrest, rfl⟩ := Run.of_cons h
    obtain ⟨u, out₁, out₂, h₁, h₂, rfl⟩ := ih hrest
    refine ⟨u, new ++ out₁, out₂, ?_, h₂, by simp⟩
    simpa using (Run.single allowed hstep).append h₁

theorem Run.exec_eq (h : M.Run ok s as out t) : M.exec s as = some (t, out) := by
  induction as generalizing s out with
  | nil =>
    obtain ⟨rfl, rfl⟩ := Run.of_nil h
    rfl
  | cons a as ih =>
    obtain ⟨u, new, rest, -, hstep, hrest, rfl⟩ := Run.of_cons h
    simp [exec, hstep, ih hrest]

/-- The actions of a run determine its end and its log. -/
theorem Run.unique (h : M.Run ok s as out t) (h' : M.Run ok' s as out' u) :
    t = u ∧ out = out' := by
  have same := h.exec_eq.symm.trans h'.exec_eq
  simpa using same

/-- Where the allowed states leave no choice between actions, all runs of one length are
the same. -/
theorem Run.agree (decided : ∀ s a b x y, ok s a → M.step s a = some x → M.step s b = some y →
      x = y)
    (h : M.Run ok s as out t) (h' : M.Run ok' s bs out' u) (same : as.length = bs.length) :
    t = u ∧ out = out' := by
  induction as generalizing s bs out out' with
  | nil =>
    obtain rfl := List.length_eq_zero_iff.mp same.symm
    exact h.unique h'
  | cons a as ih =>
    cases bs with
    | nil => simp at same
    | cons b bs =>
      obtain ⟨v, new, rest, allowed, first, later, rfl⟩ := Run.of_cons h
      obtain ⟨v', new', rest', -, first', later', rfl⟩ := Run.of_cons h'
      obtain ⟨rfl, rfl⟩ := Prod.mk.inj (decided s a b _ _ allowed first first')
      obtain ⟨rfl, rfl⟩ := ih later later' (by simpa using same)
      exact ⟨rfl, rfl⟩

/-- A run has a beginning of every smaller length. -/
theorem Run.beginning (h : M.Run ok s as out t) (n : ℕ) :
    ∃ u front back, M.Run ok s (as.take n) front u ∧ out = front ++ back := by
  rw [← List.take_append_drop n as] at h
  obtain ⟨u, front, back, h₁, -, rfl⟩ := h.split
  exact ⟨u, front, back, h₁, rfl⟩

/-- The rule for a property that a run can lose. Let an invariant imply the property `P`. If
the steps that `good` allows keep the invariant, and all others lose `P`, then `P` holds
throughout a run exactly if `good` allows all of its steps. -/
theorem Run.always_iff (Inv P : List ω → σ → Prop) {good : σ → α → Prop} (start : Inv [] s)
    (implies : ∀ out t, Inv out t → P out t)
    (keep : ∀ out t a u new, Inv out t → ok t a → good t a → M.step t a = some (u, new) →
      Inv (out ++ new) u)
    (lose : ∀ out t a u new, Inv out t → ok t a → ¬ good t a → M.step t a = some (u, new) →
      ¬ P (out ++ new) u)
    (run : M.Run ok s as out t) :
    (∀ as' out' t', as' <+: as → M.Run ok s as' out' t' → P out' t') ↔
      M.Run (fun t a => ok t a ∧ good t a) s as out t := by
  have inv_of_good {as' out' t'} (run' : M.Run (fun t a => ok t a ∧ good t a) s as' out' t') :
      Inv out' t' :=
    run'.invariant Inv start fun _ _ _ _ _ inv allowed => keep _ _ _ _ _ inv allowed.1 allowed.2
  constructor
  · intro always
    induction run with
    | nil => exact .nil
    | @snoc as out new t u a before allowed hstep ih =>
      -- everything before the last step is good, so the last one is judged from the invariant
      have earlier := ih fun as' out' t' early =>
        always as' out' t' (early.trans (List.prefix_append ..))
      refine earlier.snoc ⟨allowed, ?_⟩ hstep
      by_contra bad
      exact lose _ _ _ _ _ (inv_of_good earlier) allowed bad hstep
        (always _ _ _ (List.prefix_refl _) (before.snoc allowed hstep))
  · rintro spared as' out' t' ⟨later, rfl⟩ run'
    -- a beginning of the run is the run with the same actions
    obtain ⟨u, front, back, first, -, -⟩ := spared.split
    obtain ⟨rfl, rfl⟩ := run'.unique first
    exact implies _ _ (inv_of_good first)

/-- The rule for an action that does some work each time. Repeated as often as possible, it stops
after no more steps than there is work. -/
theorem exists_run_replicate (Inv : σ → Prop) (work : σ → ℕ) (a : α)
    (keep : ∀ s t new, Inv s → ok s a → M.step s a = some (t, new) → Inv t ∧ work t < work s)
    (inv : Inv s) :
    ∃ n ≤ work s, ∃ out t, M.Run ok s (List.replicate n a) out t ∧ Inv t ∧
      (ok t a → M.step t a = none) := by
  induction left : work s using Nat.strong_induction_on generalizing s with
  | _ left_s ih =>
    by_cases stopped : ok s a → M.step s a = none
    · exact ⟨0, Nat.zero_le _, [], s, .nil, inv, stopped⟩
    · obtain ⟨allowed, defined⟩ := Classical.not_imp.mp stopped
      obtain ⟨⟨t, new⟩, hstep⟩ := Option.ne_none_iff_exists'.mp defined
      obtain ⟨inv', less⟩ := keep s t new inv allowed hstep
      obtain ⟨n, few, out, u, run, inv_u, last⟩ := ih (work t) (left ▸ less) inv' rfl
      refine ⟨n + 1, by omega, new ++ out, u, ?_, inv_u, last⟩
      rw [List.replicate_succ, ← List.singleton_append]
      exact (Run.single allowed hstep).append run

theorem Run.of_exec (h : M.exec s as = some (t, out)) : M.Run free s as out t := by
  induction as generalizing s out with
  | nil =>
    obtain ⟨rfl, rfl⟩ : s = t ∧ [] = out := by simpa [exec] using h
    exact .nil
  | cons a as ih =>
    cases hstep : M.step s a with
    | none => simp [exec, hstep] at h
    | some r =>
      obtain ⟨u, new⟩ := r
      simp only [exec, hstep, Option.map_eq_some_iff] at h
      obtain ⟨⟨v, rest⟩, hrest, heq⟩ := h
      obtain ⟨rfl, rfl⟩ : v = t ∧ new ++ rest = out := by simpa using heq
      simpa using (Run.single trivial hstep).append (ih hrest)

/-- Execute a list of actions as long as the guard allows them. -/
def execIf (M : Machine σ α ω) (ok : σ → α → Prop) [∀ s a, Decidable (ok s a)] (s : σ) :
    List α → Option (σ × List ω)
  | [] => some (s, [])
  | a :: as =>
    if ok s a then
      match M.step s a with
      | none => none
      | some (t, new) => (M.execIf ok t as).map fun r => (r.1, new ++ r.2)
    else none

theorem Run.of_execIf [∀ s a, Decidable (ok s a)] (h : M.execIf ok s as = some (t, out)) :
    M.Run ok s as out t := by
  induction as generalizing s out with
  | nil =>
    obtain ⟨rfl, rfl⟩ : s = t ∧ [] = out := by simpa [execIf] using h
    exact .nil
  | cons a as ih =>
    by_cases allowed : ok s a
    · cases hstep : M.step s a with
      | none => simp [execIf, hstep] at h
      | some r =>
        obtain ⟨u, new⟩ := r
        simp only [execIf, allowed, if_true, hstep, Option.map_eq_some_iff] at h
        obtain ⟨⟨v, rest⟩, hrest, heq⟩ := h
        obtain ⟨rfl, rfl⟩ : v = t ∧ new ++ rest = out := by simpa using heq
        simpa using (Run.single allowed hstep).append (ih hrest)
    · simp [execIf, allowed] at h

end Machine

end Kens.Semantics
