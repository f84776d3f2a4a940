/-
# The life of a process

What a process goes through, as an automaton over the events of a run: it is
added, launched and started; each of its system calls is issued, registered under
an id, answered by the first `returnSystemCall` with that id, and returns with the
value given there. Calls of `returnSystemCall` with any other id change nothing.
-/

import Mathlib
import Kens.Host.Execution

namespace Kens.Host

/-- The process that an event is about. -/
def Event.pid : Event → Option ℕ
  | added pid => some pid
  | launched pid => some pid
  | started pid => some pid
  | issued pid _ => some pid
  | refused pid => some pid
  | registered _ pid _ _ => some pid
  | lost pid => some pid
  | returnCalled _ _ => none
  | returned pid _ => some pid
  | terminated pid => some pid
  | exited pid => some pid
  | cleanedUp _ => none
  | fdCreated _ _ _ => none
  | fdRemoved _ _ => none
  | timeWritten _ _ _ => none
  | packetArrived _ _ _ => none
  | packetToPort _ _ => none

/-- Where a process stands. From `issued` to `answered` its thread is inside of
`E_Syscall`. -/
inductive Phase
  | absent
  | created
  | launched
  | running
  | issued
  | registered (id : ℕ)
  | lost
  | answered (val : ℤ)
  | terminated
deriving DecidableEq

namespace Phase

/-- The phase after an event of the process itself; `none` when the event cannot
occur. -/
def own : Phase → Event → Option Phase
  | absent, .added _ => some created
  | created, .launched _ => some launched
  | launched, .started _ => some running
  | running, .refused _ => some running
  | running, .issued _ _ => some issued
  | issued, .registered id _ _ _ => some (registered id)
  | issued, .lost _ => some lost
  | answered val, .returned _ val' => if val = val' then some running else none
  | running, .terminated _ => some terminated
  | terminated, .exited _ => some absent
  | _, _ => none

/-- A call of `returnSystemCall` answers the call registered under its id. -/
def answer (id : ℕ) (val : ℤ) : Phase → Phase
  | registered id' => if id = id' then answered val else registered id'
  | phase => phase

/-- The phase of a process after an event. -/
def next (pid : ℕ) (phase : Phase) (event : Event) : Option Phase :=
  match event with
  | .returnCalled id val => some (phase.answer id val)
  | event => if event.pid = some pid then phase.own event else some phase

/-- The phase after a sequence of events. -/
def follow (pid : ℕ) (phase : Phase) (events : List Event) : Option Phase :=
  events.foldlM (next pid) phase

def inCall : Phase → Bool
  | issued | registered _ | lost | answered _ => true
  | _ => false

variable {pid id : ℕ} {phase phase' : Phase} {event : Event} {early late : List Event}

theorem follow_append : follow pid phase (early ++ late) =
    (follow pid phase early).bind fun phase => follow pid phase late :=
  List.foldlM_append

theorem follow_singleton : follow pid phase [event] = next pid phase event := by
  simp [follow]

/-- Events about others leave a phase as it is. -/
theorem next_of_other (other : event.pid ≠ some pid)
    (no_return : ∀ id val, event ≠ .returnCalled id val) : next pid phase event = some phase := by
  unfold next
  split
  next id val => exact absurd rfl (no_return id val)
  next event _ => rw [if_neg other]

theorem follow_of_other (others : ∀ event ∈ late, event.pid ≠ some pid)
    (no_return : ∀ event ∈ late, ∀ id val, event ≠ .returnCalled id val) :
    follow pid phase late = some phase := by
  induction late with
  | nil => rfl
  | cons event rest ih =>
    have step : next pid phase event = some phase :=
      next_of_other (others event (by simp)) (no_return event (by simp))
    rw [follow, List.foldlM_cons, step]
    exact ih (fun e member => others e (by simp [member]))
      (fun e member => no_return e (by simp [member]))

/-- The events of a process itself, by phase. -/
inductive Owned : Phase → Event → Phase → Prop
  | added (p : ℕ) : Owned absent (.added p) created
  | launched (p : ℕ) : Owned created (.launched p) launched
  | started (p : ℕ) : Owned launched (.started p) running
  | refused (p : ℕ) : Owned running (.refused p) running
  | issued (p : ℕ) (param : SystemCallParameter) : Owned running (.issued p param) issued
  | registered (id p : ℕ) (ns : Namespace) (param : SystemCallParameter) :
      Owned issued (.registered id p ns param) (registered id)
  | lost (p : ℕ) : Owned issued (.lost p) lost
  | returned (p : ℕ) (val : ℤ) : Owned (answered val) (.returned p val) running
  | terminated (p : ℕ) : Owned running (.terminated p) terminated
  | exited (p : ℕ) : Owned terminated (.exited p) absent

theorem owned_of_own (h : phase.own event = some phase') : Owned phase event phase' := by
  unfold own at h
  split at h
  case h_8 val p val' =>
    split at h
    next same =>
      obtain rfl : running = phase' := by simpa using h
      exact same ▸ .returned p val
    · simp at h
  case h_11 => simp at h
  all_goals
    obtain rfl := Option.some.inj h
    constructor

/-- The three ways in which a process goes through an event. -/
theorem next_cases (step : next pid phase event = some phase') :
    (∃ id val, event = .returnCalled id val ∧ phase' = phase.answer id val) ∨
    (event.pid = some pid ∧ Owned phase event phase') ∨
    (event.pid ≠ some pid ∧ (∀ id val, event ≠ .returnCalled id val) ∧ phase' = phase) := by
  unfold next at step
  split at step
  next id val => exact .inl ⟨id, val, rfl, by simpa using step.symm⟩
  next event no_return =>
    split at step
    next own => exact .inr (.inl ⟨own, owned_of_own step⟩)
    next other => exact .inr (.inr ⟨other, no_return, by simpa using step.symm⟩)

/-- A process that is not inside of a call gets there only by issuing one. -/
theorem inCall_of_next (step : next pid phase event = some phase') (outside : phase.inCall = false)
    (inside : phase'.inCall = true) : ∃ param, event = .issued pid param := by
  rcases next_cases step with ⟨id, val, -, rfl⟩ | ⟨own, owned⟩ | ⟨-, -, rfl⟩
  · cases phase <;> simp [answer, inCall] at outside inside
  · cases owned <;> simp [inCall] at outside inside
    case issued p param => exact ⟨param, by simpa [Event.pid] using own⟩
  · rw [outside] at inside
    simp at inside

/-- A process returns from a call only when that was answered. -/
theorem answered_of_returned {val : ℤ} (step : next pid phase (.returned pid val) = some phase') :
    phase = answered val ∧ phase' = running := by
  rcases next_cases step with ⟨id, val, same, -⟩ | ⟨-, owned⟩ | ⟨other, -, -⟩
  · simp at same
  · cases owned
    exact ⟨rfl, rfl⟩
  · exact absurd rfl other

end Phase

/-! ## The outcome of a call -/

/-- What has become of a call that was registered under `id`, by the events that
followed: it is pending, or it was answered by the first `returnSystemCall` with
its id, or it also returned with the value given there. After that, the process
returns from another call only if it has issued one. -/
inductive Outcome (id pid : ℕ) : List Event → Phase → Prop
  | pending (late : List Event) (unanswered : ∀ val, .returnCalled id val ∉ late)
      (silent : ∀ val, .returned pid val ∉ late) : Outcome id pid late (.registered id)
  | answered (between after : List Event) (val : ℤ)
      (first : ∀ v, .returnCalled id v ∉ between)
      (silent : ∀ v, .returned pid v ∉ between ++ after) :
      Outcome id pid (between ++ .returnCalled id val :: after) (.answered val)
  | returned (between after rest : List Event) (val : ℤ) (phase : Phase)
      (first : ∀ v, .returnCalled id v ∉ between)
      (silent : ∀ v, .returned pid v ∉ between ++ after)
      (once : ∀ early v late, rest = early ++ .returned pid v :: late →
        ∃ param, .issued pid param ∈ early)
      (idle : (∀ param, .issued pid param ∉ rest) → phase.inCall = false) :
      Outcome id pid (between ++ .returnCalled id val :: (after ++ .returned pid val :: rest)) phase

variable {pid id : ℕ} {phase phase' : Phase} {event : Event} {early late : List Event}

/-- One more event. -/
theorem Outcome.snoc (h : Outcome id pid late phase)
    (step : phase.next pid event = some phase') : Outcome id pid (late ++ [event]) phase' := by
  cases h with
  | pending late unanswered silent =>
    rcases Phase.next_cases step with ⟨id', val, rfl, rfl⟩ | ⟨-, owned⟩ | ⟨other, no_return, rfl⟩
    · by_cases same : id' = id
      · subst same
        rw [Phase.answer, if_pos rfl]
        exact .answered late [] val unanswered (by simpa using silent)
      · rw [Phase.answer, if_neg same]
        exact .pending _ (by simp [unanswered, Ne.symm same]) (by simp [silent])
    · -- no event of its own can occur while the call is pending
      cases owned
    · refine .pending _ ?_ ?_
      · intro val member
        rcases List.mem_append.mp member with member | member
        · exact unanswered val member
        · exact no_return id val (List.mem_singleton.mp member).symm
      · intro val member
        rcases List.mem_append.mp member with member | member
        · exact silent val member
        · exact other (by rw [← List.mem_singleton.mp member]; rfl)
  | answered between after val first silent =>
    rw [List.append_assoc, List.cons_append]
    rcases Phase.next_cases step with ⟨id', val', rfl, rfl⟩ | ⟨own, owned⟩ | ⟨other, -, rfl⟩
    · -- a repeated or stale return changes nothing
      exact .answered between _ val first (by simpa using silent)
    · cases owned with
      | returned p _ =>
        obtain rfl : p = pid := by simpa [Event.pid] using own
        exact .returned between after [] val _ first silent (by simp) (fun _ => rfl)
    · refine .answered between _ val first fun v member => ?_
      rw [← List.append_assoc] at member
      rcases List.mem_append.mp member with member | member
      · exact silent v member
      · exact other (by rw [← List.mem_singleton.mp member]; rfl)
  | returned between after rest val _ first silent once idle =>
    have shape : between ++ Event.returnCalled id val :: (after ++ .returned pid val :: rest) ++
        [event] = between ++ .returnCalled id val :: (after ++ .returned pid val ::
          (rest ++ [event])) := by simp
    rw [shape]
    refine .returned between after (rest ++ [event]) val phase' first silent ?_ ?_
    · intro early v late split
      rcases List.eq_nil_or_concat late with rfl | ⟨late, last, rfl⟩
      · -- the new event is a return, so that the process was inside of a call
        obtain ⟨rfl, rfl⟩ : rest = early ∧ event = .returned pid v := by
          simpa using List.append_inj' split rfl
        obtain ⟨rfl, -⟩ := Phase.answered_of_returned step
        by_contra none
        have outside := idle fun param member => none ⟨param, member⟩
        simp [Phase.inCall] at outside
      · rw [List.concat_eq_append, ← List.cons_append, ← List.append_assoc] at split
        exact once early v late (List.append_inj' split rfl).1
    · intro none
      have outside := idle fun param member => none param (List.mem_append_left _ member)
      by_contra inside
      obtain ⟨param, rfl⟩ := Phase.inCall_of_next step outside (Bool.not_eq_false _ ▸ inside)
      exact none param (by simp)

/-- Every registered call has one of the three outcomes. -/
theorem outcome_of_follow {ns : Namespace} {param : SystemCallParameter} {start : Phase}
    (h : start.follow pid (early ++ .registered id pid ns param :: late) = some phase) :
    Outcome id pid late phase := by
  rw [Phase.follow_append, Option.bind_eq_some_iff] at h
  obtain ⟨before, -, h⟩ := h
  rw [← List.singleton_append, Phase.follow_append, Option.bind_eq_some_iff] at h
  obtain ⟨middle, registered, h⟩ := h
  rw [Phase.follow_singleton] at registered
  obtain rfl : middle = .registered id := by
    rcases Phase.next_cases registered with ⟨_, _, same, -⟩ | ⟨-, owned⟩ | ⟨other, -, -⟩
    · simp at same
    · cases owned
      rfl
    · exact absurd rfl other
  induction late using List.reverseRecOn generalizing phase with
  | nil =>
    obtain rfl : Phase.registered id = phase := by simpa [Phase.follow] using h
    exact .pending [] (by simp) (by simp)
  | append_singleton late event ih =>
    rw [Phase.follow_append, Option.bind_eq_some_iff] at h
    obtain ⟨last, h, step⟩ := h
    rw [Phase.follow_singleton] at step
    exact (ih h).snoc step

end Kens.Host
