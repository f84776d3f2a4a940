/-
# Prompt messages

While a message that was sent without a delay is in flight, the clock stands still. Such messages
are received in the order in which they were sent, whichever modules they go between, and whatever
other messages are in flight: what was sent is what was received, followed by what is in flight.
-/

import Mathlib
import Kens.System.Channel

namespace Kens.Reactive

open Semantics

variable {M σ α R : Type} {T : Reactive M σ α} {carry : ℕ → M → Option R} {x y : State M σ}
  {input : Input α} {log new : List (Record M α)}

/-- What the messages in flight carry. `carry` selects messages by target and content. -/
def inFlight (carry : ℕ → M → Option R) (queue : List (TimerContainer M)) : List R :=
  queue.filterMap fun c => carry c.target c.message

/-- What the message received in a step carries. -/
def Record.taken (carry : ℕ → M → Option R) : Record M α → Option R
  | .received c _ => carry c.target c.message
  | .acted _ _ _ => none

/-- What the messages sent in a step carry. -/
def Record.given (carry : ℕ → M → Option R) (record : Record M α) : List R :=
  record.sends.filterMap fun send => carry send.target send.message

/-- The selected messages are sent without a delay. -/
def Record.Prompt (carry : ℕ → M → Option R) (record : Record M α) : Prop :=
  ∀ send ∈ record.sends, (carry send.target send.message).isSome → send.timeAfter = 0

/-- The selected messages in flight are due now. -/
def Due (carry : ℕ → M → Option R) (s : System M) : Prop :=
  ∀ c ∈ s.timerQueue, (carry c.target c.message).isSome → c.wakeup = s.currentTime

theorem inFlight_append (queue extra : List (TimerContainer M)) :
    inFlight carry (queue ++ extra) = inFlight carry queue ++ inFlight carry extra :=
  List.filterMap_append

theorem inFlight_cons (c : TimerContainer M) (queue : List (TimerContainer M)) :
    inFlight carry (c :: queue) = (carry c.target c.message).toList ++ inFlight carry queue := by
  rw [inFlight, List.filterMap_cons]
  cases carry c.target c.message <;> rfl

theorem inFlight_stamp {now address uuid : ℕ} {sends : List (Send M)} :
    inFlight carry (stamp now address uuid sends) =
      sends.filterMap fun send => carry send.target send.message := by
  induction sends generalizing address uuid with
  | nil => rfl
  | cons send rest ih =>
    rw [stamp, inFlight_cons, ih, List.filterMap_cons]
    cases carry send.target send.message <;> rfl

/-- Messages that are all due at one time are received in the order of the queue. -/
theorem inFlight_dispatch {queue front back : List (TimerContainer M)}
    {current : TimerContainer M} {now : ℕ} (split : queue = front ++ current :: back)
    (least : ∀ c ∈ queue, current.key ≤ c.key)
    (uuids : queue.Pairwise fun a b => a.uuid < b.uuid)
    (due : ∀ c ∈ queue, (carry c.target c.message).isSome → c.wakeup = now) :
    inFlight carry queue =
      (carry current.target current.message).toList ++ inFlight carry (front ++ back) := by
  cases carried : carry current.target current.message with
  | none =>
    subst split
    rw [inFlight_append, inFlight_append, inFlight_cons, carried]
    rfl
  | some payload =>
    let on : TimerContainer M → Bool := fun c => (carry c.target c.message).isSome
    have order : (queue.filter on).Pairwise fun a b => a.wakeup ≤ b.wakeup := by
      refine List.pairwise_of_forall_mem_list fun a first b second => ?_
      obtain ⟨member, chosen⟩ := List.mem_filter.mp first
      obtain ⟨member', chosen'⟩ := List.mem_filter.mp second
      rw [due a member chosen, due b member' chosen']
    have selected : on current = true := by
      change (carry current.target current.message).isSome = true
      rw [carried]
      rfl
    obtain ⟨-, none⟩ := filter_of_least split least uuids order selected
    have empty : inFlight carry front = [] := by
      rw [inFlight, List.filterMap_eq_nil_iff]
      intro c member
      rw [← Option.not_isSome_iff_eq_none]
      exact List.filter_eq_nil_iff.mp none c member
    subst split
    rw [inFlight_append, inFlight_append, empty, inFlight_cons, carried]
    rfl

/-- One step: a message is received before all that were sent later. -/
theorem Due.step (due : Due carry x.sys) (sound : Sound x.sys) (effect : Effect T x input new y)
    (prompt : ∀ record ∈ new, record.Prompt carry) :
    Due carry y.sys ∧
      new.filterMap (Record.taken carry) ++ inFlight carry y.sys.timerQueue =
        inFlight carry x.sys.timerQueue ++ new.flatMap (Record.given carry) := by
  cases effect with
  | act a memory sends address y handled memory_eq clock queue =>
    constructor
    · intro c member chosen
      rw [queue, List.mem_append] at member
      rw [clock]
      rcases member with old | young
      · exact due c old chosen
      · obtain ⟨-, -, send, listed, -, target, message, wakeup⟩ := mem_stamp young
        rw [target, message] at chosen
        rw [wakeup, prompt _ (List.mem_singleton_self _) send listed chosen]
        rfl
    · rw [queue, inFlight_append, inFlight_stamp, List.flatMap_singleton]
      rfl
  | dispatch current front back memory sends address y split least handled memory_eq clock queue =>
    have first := inFlight_dispatch split least sound.sorted due
    constructor
    · intro c member chosen
      rw [queue, List.mem_append] at member
      rw [clock]
      rcases member with old | young
      · -- the clock does not run past a message that is due
        have listed : c ∈ x.sys.timerQueue := by
          rw [split]
          rcases List.mem_append.mp old with front | back
          · exact List.mem_append_left _ front
          · exact List.mem_append_right _ (List.mem_cons_of_mem _ back)
        have now := due c listed chosen
        have early := TimerContainer.key_le_iff.mp (least c listed)
        have late := sound.future current (by simp [split])
        omega
      · obtain ⟨-, -, send, listed, -, target, message, wakeup⟩ := mem_stamp young
        rw [target, message] at chosen
        rw [wakeup, prompt _ (List.mem_singleton_self _) send listed chosen]
        rfl
    · rw [queue, inFlight_append, inFlight_stamp, first, List.flatMap_singleton,
        List.append_assoc]
      cases carried : carry current.target current.message with
      | none => simp [Record.taken, carried, Record.given, Record.sends]
      | some payload => simp [Record.taken, carried, Record.given, Record.sends]

/-- In every run, prompt messages are received in the order in which they were sent. -/
theorem prompt_fifo {ok : State M σ → Input α → Prop} {memory : σ} {inputs : List (Input α)}
    (noWrap : ∀ x input, ok x input → T.NoWrap x input)
    (run : T.machine.Run ok ⟨{}, memory⟩ inputs log x)
    (prompt : ∀ record ∈ log, record.Prompt carry) :
    log.filterMap (Record.taken carry) ++ inFlight carry x.sys.timerQueue =
      log.flatMap (Record.given carry) := by
  have inv : Sound x.sys ∧ Due carry x.sys ∧
      log.filterMap (Record.taken carry) ++ inFlight carry x.sys.timerQueue =
        log.flatMap (Record.given carry) := by
    induction run with
    | nil => exact ⟨sound_start, by simp [Due], rfl⟩
    | @snoc inputs log new x y input before allowed step ih =>
      obtain ⟨sound, due, account⟩ := ih fun record member =>
        prompt record (List.mem_append_left _ member)
      obtain ⟨effect, sound_y⟩ := effect_of_step sound (noWrap x input allowed) step
      obtain ⟨due_y, moved⟩ := due.step sound effect fun record member =>
        prompt record (List.mem_append_right _ member)
      refine ⟨sound_y, due_y, ?_⟩
      rw [List.filterMap_append, List.append_assoc, moved, ← List.append_assoc, account,
        List.flatMap_append]
  exact inv.2.2

end Kens.Reactive
