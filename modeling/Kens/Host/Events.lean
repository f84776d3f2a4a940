/-
# Where events come from

The conditions under which a step of the host records an event: packets move and
system calls are issued only while the host is running, and calls are registered
or lost only when their message is dispatched.
-/

import Mathlib
import Kens.Host.Simulation

namespace Kens.Host

open Semantics

/-- What holds when an event is recorded. -/
def Emitted (s : State) (a : Action) : Event → Prop
  | .issued _ _ => s.host.running = true
  | .packetArrived _ _ _ => s.host.running = true
  | .packetToPort _ _ => s.host.running = true
  | .registered _ pid ns param => ∃ index now timeAfter info, a = .dispatch index now ∧
      s.pool[index]? = some ⟨.syscall pid param, timeAfter⟩ ∧
      s.host.processInfoMap pid = some info ∧ namespaceOf info param = some ns
  | .lost pid => ∃ index now param timeAfter, a = .dispatch index now ∧
      s.pool[index]? = some ⟨.syscall pid param, timeAfter⟩
  | _ => True

variable {pid index now : ℕ} {s s' t : State} {a : Action} {new : List Event}

theorem emitted_returnSystemCall {id : ℕ} {val : ℤ}
    (h : t.returnSystemCall id val = some (s', new)) : ∀ event ∈ new, Emitted s a event := by
  obtain ⟨rfl, -⟩ := returnSystemCall_cases h
  simp [Emitted]

theorem emitted_returnAll {val : ℤ} {ids : List ℕ} (h : t.returnAll val ids = some (s', new)) :
    ∀ event ∈ new, Emitted s a event := by
  induction ids generalizing t new with
  | nil =>
    obtain ⟨-, rfl⟩ : t = s' ∧ [] = new := by simpa [State.returnAll] using h
    simp
  | cons id rest ih =>
    rw [State.returnAll] at h
    split at h
    · simp at h
    next middle first answered =>
      obtain ⟨⟨u, later⟩, all, same⟩ := Option.map_eq_some_iff.mp h
      obtain ⟨rfl, rfl⟩ : u = s' ∧ first ++ later = new := by simpa using same
      intro event member
      rcases List.mem_append.mp member with member | member
      · exact emitted_returnSystemCall answered event member
      · exact ih all event member

theorem emitted_cleanUp {order : List ℕ} (h : t.cleanUp order = some (s', new)) :
    ∀ event ∈ new, Emitted s a event := by
  unfold State.cleanUp at h
  split at h
  · obtain ⟨⟨u, returns⟩, all, same⟩ := Option.map_eq_some_iff.mp h
    obtain ⟨rfl, rfl⟩ : u = s' ∧ returns ++ [.cleanedUp order.length] = new := by simpa using same
    intro event member
    rcases List.mem_append.mp member with member | member
    · exact emitted_returnAll all event member
    · rw [List.mem_singleton.mp member]
      trivial
  · simp at h

/-- A packet goes to a wire only while the host is running. -/
theorem emitted_sendPacketToModule {fromModule : Option String} {toModule : String}
    {packet : Packet} {junk : Mac} (running : t.host.running = s.host.running)
    (h : t.sendPacketToModule fromModule toModule packet junk = some (s', new)) :
    ∀ event ∈ new, Emitted s a event := by
  unfold State.sendPacketToModule at h
  split at h
  · split at h
    · simp at h
    · split at h
      · simp at h
      · unfold State.sendPacket at h
        split at h
        · simp at h
        · split at h
          · obtain ⟨-, rfl⟩ : t = s' ∧ [] = new := by simpa using h
            simp
          next going =>
            obtain ⟨-, rfl⟩ : t = s' ∧ _ = new := by simpa using h
            rw [running, Bool.not_eq_false] at going
            simpa [Emitted] using going
  · split at h
    · obtain ⟨-, rfl⟩ : _ = s' ∧ [] = new := by simpa using h
      simp
    · obtain ⟨-, rfl⟩ : t = s' ∧ [] = new := by simpa using h
      simp

theorem emitted_defaultSystemCallback {id : ℕ} {param : SystemCallParameter}
    (h : t.defaultSystemCallback now id param = some (s', new)) :
    ∀ event ∈ new, Emitted s a event := by
  unfold State.defaultSystemCallback at h
  split at h
  · obtain ⟨timeAfter, -, same⟩ := Option.map_eq_some_iff.mp h
    obtain ⟨-, rfl⟩ : _ = s' ∧ [] = new := by simpa using same
    simp
  · split at h
    · dsimp only at h
      split at h
      · exact emitted_returnSystemCall h
      · split at h
        · simp at h
        · obtain ⟨⟨u, later⟩, answered, same⟩ := Option.map_eq_some_iff.mp h
          obtain ⟨rfl, rfl⟩ : u = s' ∧ _ :: later = new := by simpa using same
          intro event member
          rcases List.mem_cons.mp member with rfl | member
          · trivial
          · exact emitted_returnSystemCall answered event member
    · simp at h
  · simp at h

/-- The events of a dispatch. -/
theorem emitted_messageReceived {posted : Posted} (found : s.pool[index]? = some posted)
    (h : (s.taken index).messageReceived now posted.message = some (s', new)) :
    ∀ event ∈ new, Emitted s (.dispatch index now) event := by
  obtain ⟨message, timeAfter⟩ := posted
  cases message with
  | syscall pid param =>
    obtain ⟨info, ns, present, chosen, ⟨-, -, rfl⟩ | ⟨id, later, -, -, rfl, served⟩⟩ :=
      syscallReceived_cases h
    · intro event member
      rw [List.mem_singleton.mp member]
      exact ⟨index, now, param, timeAfter, rfl, found⟩
    -- the registration comes first, and then what the interface does at once
    · intro event member
      rcases List.mem_cons.mp member with rfl | member
      · exact ⟨index, now, timeAfter, info, rfl, found, present, chosen⟩
      · obtain ⟨-, -, rfl⟩ | ⟨-, called⟩ := served
        · simp at member
        · exact emitted_defaultSystemCallback called event member
  | ret pid val =>
    simp only [State.messageReceived, State.returnReceived] at h
    split at h
    · simp at h
    · split at h
      · simp at h
      · obtain ⟨-, rfl⟩ : _ = s' ∧ _ = new := by simpa using h
        simp [Emitted]
  | timer payload =>
    cases payload with
    | none =>
      obtain ⟨-, rfl⟩ : s.taken index = s' ∧ [] = new := by simpa [State.messageReceived] using h
      simp
    | some id => exact emitted_returnSystemCall h
  | packetPass fromModule toModule packet =>
    rw [State.messageReceived] at h
    split at h
    next running =>
      obtain ⟨-, rfl⟩ : s.taken index = s' ∧ _ = new := by simpa using h
      intro event member
      rw [List.mem_singleton.mp member]
      exact running
    · obtain ⟨-, rfl⟩ : s.taken index = s' ∧ [] = new := by simpa using h
      simp
  | packetFromPort packet =>
    rw [State.messageReceived] at h
    split at h
    · exact emitted_sendPacketToModule (t := s.taken index) rfl h
    · obtain ⟨-, rfl⟩ : s.taken index = s' ∧ [] = new := by simpa using h
      simp

theorem emitted_of_step (h : machine.step s a = some (s', new)) :
    ∀ event ∈ new, Emitted s a event := by
  change s.step a = some (s', new) at h
  -- with no application awake the host acts; otherwise only the one awake can
  unfold State.step at h
  split at h
  · cases a with
    | addInterface ns =>
      simp only [State.stepIdle] at h
      split at h
      · simp at h
      · obtain ⟨-, rfl⟩ : _ = s' ∧ [] = new := by simpa using h
        simp
    | addApplication =>
      obtain ⟨-, rfl⟩ : _ = s' ∧ _ = new := by simpa [State.stepIdle] using h
      split <;> simp [Emitted]
    | launchApplication pid =>
      simp only [State.stepIdle, State.launchApplication] at h
      split at h
      · simp at h
      · split at h
        · obtain ⟨state, -, same⟩ := Option.map_eq_some_iff.mp h
          obtain ⟨-, rfl⟩ : _ = s' ∧ _ = new := by simpa using same
          simp [Emitted]
        · simp at h
    | cleanUp order => exact emitted_cleanUp h
    | packetFromPort packet =>
      obtain ⟨-, rfl⟩ : _ = s' ∧ [] = new := by simpa [State.stepIdle] using h
      simp
    | returnSystemCall id val => exact emitted_returnSystemCall h
    | createFileDescriptor ns pid =>
      simp only [State.stepIdle] at h
      split at h
      · obtain ⟨r, -, same⟩ := Option.map_eq_some_iff.mp h
        obtain ⟨-, rfl⟩ : _ = s' ∧ _ = new := by simpa using same
        simp [Emitted]
      · simp at h
    | removeFileDescriptor pid fd =>
      obtain ⟨-, rfl⟩ : _ = s' ∧ _ = new := by simpa [State.stepIdle] using h
      simp [Emitted]
    | addTimer timeAfter =>
      obtain ⟨-, rfl⟩ : _ = s' ∧ [] = new := by simpa [State.stepIdle] using h
      simp
    | cancelTimer index =>
      simp only [State.stepIdle] at h
      split at h
      · obtain ⟨-, rfl⟩ : _ = s' ∧ [] = new := by simpa using h
        simp
      · simp at h
    | sendPacket fromModule toModule packet junk => exact emitted_sendPacketToModule rfl h
    | wake pid =>
      simp only [State.stepIdle, State.wake] at h
      split at h
      · split at h
        · simp at h
        · obtain ⟨state, -, same⟩ := Option.map_eq_some_iff.mp h
          obtain ⟨-, rfl⟩ : _ = s' ∧ _ = new := by simpa using same
          split <;> simp [Emitted]
      · simp at h
    | dispatch index now =>
      simp only [State.stepIdle] at h
      split at h
      · split at h
        · simp at h
        next posted found => exact emitted_messageReceived found h
      · simp at h
    | syscall param => simp [State.stepIdle] at h
    | finish returnValue => simp [State.stepIdle] at h
  · split at h
    · unfold State.issue at h
      split at h
      · simp at h
      · split at h
        · obtain ⟨-, rfl⟩ : s = s' ∧ _ = new := by simpa using h
          simp [Emitted]
        -- the call is posted only while the host is running
        next going =>
          obtain ⟨state, -, same⟩ := Option.map_eq_some_iff.mp h
          obtain ⟨-, rfl⟩ : _ = s' ∧ _ = new := by simpa using same
          simpa [Emitted] using going
    · unfold State.terminate at h
      split at h
      · simp at h
      · obtain ⟨state, -, same⟩ := Option.map_eq_some_iff.mp h
        obtain ⟨-, rfl⟩ : _ = s' ∧ _ = new := by simpa using same
        simp [Emitted]
    · simp at h

end Kens.Host
