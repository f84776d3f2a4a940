/-
# A host on the scheduler

`Kens.Host.Execution` has the code of a host with a pool of messages, from which any may be
dispatched at any time. Here the same code runs on the scheduler of `Kens.System.Execution`: the
messages are in its queue, the applications are among its runnables, and all other modules use the
same scheduler as they like. The code is run on an empty pool, which shows what it asks of the
scheduler: the messages that it sends and the applications that it makes ready.
-/

import Mathlib
import Kens.System.Agreement
import Kens.Host.EmptyPool

namespace Kens.Host

open Semantics

/-! ## Runnables that become ready -/

/-- The scheduler after some runnables became ready. -/
def readied {M : Type} (c : System.Config M) (rs : Finset ℕ) : System.Config M :=
  { c with
    runnables := fun r => if r ∈ rs then .ready else c.runnables r
    sys := { c.sys with runnableReady := c.sys.runnableReady ∪ rs } }

/-- `start` or `ready`, and then `addRunnable`, for each of some runnables. -/
def readyAll {M : Type} (c : System.Config M)
    (transition : Runnable.State → Option Runnable.State) (rs : Finset ℕ) :
    Option (System.Config M) :=
  if ∀ r ∈ rs, transition (c.runnables r) = some .ready then some (readied c rs) else none

/-! ## States -/

/-- The messages on the scheduler: those for hosts, the packets that hosts give to wires, and those
of other modules. -/
inductive Mail (F : Type)
  | host (message : HostMessage)
  | packetToPort (packet : Packet)
  | other (message : F)

/-- A host on the scheduler. `thread` is the runnable of each process, and `threads` are all the
runnables that have been applications of the host. -/
structure Scheduled (F : Type) where
  config : System.Config (Mail F) := {}
  host : Host := {}
  thread : ℕ → ℕ := fun _ => 0
  threads : Finset ℕ := ∅

/-- What a run records: the events of the scheduler, and those of the host with their time. -/
inductive Happening (F : Type)
  | scheduler (event : System.Event (Mail F))
  | host (now : ℕ) (event : Event)

/-- What can happen next. The first three are calls by modules of the host and by code outside of
it, the next three are what its applications do, and the last is any other use of the scheduler. -/
inductive Deed (F : Type)
  | addApplication (runnable : ℕ)
  | launchApplication (pid : ℕ)
  | act (a : Action)
  | wake (pid : ℕ)
  | syscall (pid : ℕ) (param : SystemCallParameter)
  | finish (pid : ℕ) (returnValue : ℤ)
  | dispatch
  | other (a : System.Action (Mail F))

namespace Scheduled

variable {F : Type}

/-! ## Steps -/

/-- A packet for a wire, as a message of the host. -/
def toWire (me : ℕ) : Event → Option (System.Action (Mail F))
  | .packetToPort portID packet => some (.sendMessage me portID (.packetToPort packet) 0)
  | _ => none

/-- The calls of `sendMessage` by code that leaves the pool of `s` and records `new`. -/
def sends (me : ℕ) (s : State) (new : List Event) : List (System.Action (Mail F)) :=
  s.pool.map (fun posted => .sendMessage me me (.host posted.message) posted.timeAfter) ++
    new.filterMap (toWire me)

/-- Run code of the host, and do what it asks of the scheduler. -/
def perform (me : ℕ) (c : Scheduled F) (transition : Runnable.State → Option Runnable.State)
    (code : State → Option (State × List Event)) (after : List (System.Action (Mail F))) :
    Option (Scheduled F × List (Happening F)) :=
  match code { host := c.host } with
  | none => none
  -- `s` has what the code asks of the scheduler
  | some (s, new) =>
    match readyAll c.config transition (s.runnableReady.image c.thread) with
    | none => none
    | some config =>
      ((System.machine (Mail F)).exec config (sends me s new ++ after)).map fun r =>
        ({ c with config := r.1, host := s.host },
          new.map (.host c.config.sys.currentTime) ++ r.2.map .scheduler)

/-- The message for the host in a container. -/
def aimed (me : ℕ) (a : TimerContainer (Mail F)) : Option HostMessage :=
  match a.message with
  | .host message => if a.target = me then some message else none
  | _ => none

/-- Whether an application of the host has control. -/
def busy (c : Scheduled F) : Bool :=
  match c.config.control with
  | .awake r => r ∈ c.threads
  | _ => false

/-- Whether a certain runnable has control. -/
def isAwake (c : System.Config (Mail F)) (r : ℕ) : Bool :=
  match c.control with
  | .awake r' => r' = r
  | _ => false

/-- The message for the host that is being dispatched. -/
def delivered (me : ℕ) : System.Control (Mail F) → Option HostMessage
  | .received current => aimed me current
  | _ => none

/-- `delRunnable`, at the end of a process. -/
def ends (c : Scheduled F) : HostMessage → List (System.Action (Mail F))
  | .ret pid _ => [.delRunnable (c.thread pid)]
  | _ => []

/-- One step. -/
def step (me : ℕ) (c : Scheduled F) : Deed F → Option (Scheduled F × List (Happening F))
  | .addApplication runnable =>
    if c.config.control.isUser ∧ c.busy = false then
      let (pid, host) := c.host.registerProcess
      -- all process ids are in use
      if pid = -1 then some (c, [])
      else some ({ c with
        host := host
        thread := Function.update c.thread pid.toNat runnable
        threads := insert runnable c.threads },
        [.host c.config.sys.currentTime (.added pid.toNat)])
    else none
  | .launchApplication pid =>
    if c.config.control.isUser ∧ c.busy = false then
      c.perform me Runnable.start (fun s => s.launchApplication pid) []
    else none
  | .act a =>
    if c.config.control.isUser ∧ c.busy = false ∧ a.isCall then
      c.perform me Runnable.ready (fun s => s.stepIdle a) []
    else none
  | .wake pid => c.perform me Runnable.ready (fun s => s.wake pid) [.wake (c.thread pid)]
  | .syscall pid param =>
    if isAwake c.config (c.thread pid) then
      c.perform me Runnable.ready (fun s => s.issue pid param)
        -- a host that has stopped refuses the call, and the application goes on
        (if c.host.running then [.yields false] else [])
    else none
  | .finish pid returnValue =>
    if isAwake c.config (c.thread pid) then
      c.perform me Runnable.ready (fun s => s.terminate pid returnValue) [.yields true]
    else none
  | .dispatch =>
    match c.config.step .dispatch with
    | none => none
    | some (config, events) =>
      match delivered me config.control with
      -- canceled, or for another module
      | none => some ({ c with config := config }, events.map .scheduler)
      | some message =>
        (({ c with config := config } : Scheduled F).perform me Runnable.ready
          (fun s => s.messageReceived config.sys.currentTime message) (c.ends message)).map
          fun r => (r.1, events.map .scheduler ++ r.2)
  | .other a => (c.config.step a).map fun r => ({ c with config := r.1 }, r.2.map .scheduler)

def machine (F : Type) (me : ℕ) : Machine (Scheduled F) (Deed F) (Happening F) where
  step := step me

/-! ## What others do -/

/-- Whether a message is one of the host, other than a packet from a wire. -/
def isOwn (me target : ℕ) : Mail F → Bool
  | .host (.packetFromPort _) => false
  | .host _ => target = me
  | _ => false

/-- Whether a message is one that its sender may cancel: a timer of a module of the host, or a
message of another module. -/
def mayCancel (me : ℕ) (a : TimerContainer (Mail F)) : Bool :=
  match a.message with
  | .host (.timer none) => true
  | .host _ => a.target ≠ me
  | _ => true

/-- What other code does not do: it does not send the messages of the host nor cancel them, and it
leaves the applications of the host alone. -/
def foreign (me : ℕ) (c : Scheduled F) : System.Action (Mail F) → Bool
  | .sendMessage _ target message _ => !isOwn me target message
  | .cancelMessage uuid => (c.config.sys.activeTimer uuid).all (mayCancel me)
  | .start r | .ready r | .addRunnable r | .delRunnable r | .wake r => r ∉ c.threads
  | .run _ | .leave | .returns _ | .yields _ => true
  | .dispatch => false

/-- Applications are new objects, and other code is other code. -/
def Allowed (me : ℕ) (c : Scheduled F) : Deed F → Prop
  | .addApplication r => r ∉ c.threads ∧ c.config.runnables r = .created ∧
    r ∉ c.config.sys.runnableReady ∧ isAwake c.config r = false
  | .other a => c.busy = false ∧ c.foreign me a = true
  | _ => True

instance (me : ℕ) (c : Scheduled F) : DecidablePred (Allowed me c)
  | .addApplication _ => inferInstanceAs (Decidable (_ ∧ _ ∧ _ ∧ _))
  | .other _ => inferInstanceAs (Decidable (_ ∧ _))
  | .launchApplication _ | .act _ | .wake _ | .syscall _ _ | .finish _ _ | .dispatch =>
    isTrue trivial

end Scheduled

/-! ## The scheduler underneath -/

variable {M F : Type} {c c' : System.Config M} {me pid : ℕ}
  {transition : Runnable.State → Option Runnable.State} {rs : Finset ℕ}

theorem readyAll_eq_some (h : readyAll c transition rs = some c') :
    (∀ r ∈ rs, transition (c.runnables r) = some .ready) ∧ c' = readied c rs := by
  unfold readyAll at h
  split at h
  next all => exact ⟨all, (Option.some.inj h).symm⟩
  · simp at h

theorem readied_empty : readied c ∅ = c := by
  simp [readied]

/-- The calls are made one after the other, in any order. -/
theorem run_of_readyAll (call : ℕ → System.Action M)
    (same : ∀ (c : System.Config M) r, c.control.isUser = true →
      c.step (call r) = (c.setRunnable r transition).map fun c => (c, []))
    (user : c.control.isUser = true) (h : readyAll c transition rs = some c') :
    ∃ acts, (System.machine M).Run Machine.free c acts [] c' := by
  obtain ⟨all, rfl⟩ := readyAll_eq_some h
  clear h
  -- one more runnable is two more calls, the second of which lists it
  induction rs using Finset.induction_on with
  | empty =>
    rw [readied_empty]
    exact ⟨[], .nil⟩
  | @insert r rs outside ih =>
    obtain ⟨acts, run⟩ := ih fun r' member => all r' (Finset.mem_insert_of_mem member)
    have ready : transition ((readied c rs).runnables r) = some .ready := by
      rw [readied]
      dsimp only
      rw [if_neg outside]
      exact all r (Finset.mem_insert_self r rs)
    have states : Function.update (readied c rs).runnables r .ready =
        (readied c (insert r rs)).runnables := by
      funext r'
      by_cases this : r' = r
      · simp [this, readied]
      · simp [this, readied]
    have first : (System.machine M).step (readied c rs) (call r) = some ({ readied c rs with
        runnables := (readied c (insert r rs)).runnables }, []) := by
      rw [← states]
      refine (same (readied c rs) r user).trans ?_
      rw [System.Config.setRunnable, ready]
      rfl
    have second : (System.machine M).step { readied c rs with
        runnables := (readied c (insert r rs)).runnables } (.addRunnable r) =
        some (readied c (insert r rs), []) := by
      refine (if_pos ⟨user, by rw [← states]; exact Function.update_self ..⟩).trans ?_
      have joined : insert r (c.sys.runnableReady ∪ rs) = c.sys.runnableReady ∪ insert r rs :=
        (Finset.union_insert ..).symm
      change some ({ readied c (insert r rs) with
        sys := { c.sys with runnableReady := insert r (c.sys.runnableReady ∪ rs) } }, []) = _
      rw [joined]
      rfl
    exact ⟨_, (run.snoc trivial first).snoc trivial second⟩

namespace Scheduled

/-- The part of the log that is the scheduler's. -/
def schedulerEvent : Happening F → Option (System.Event (Mail F))
  | .scheduler event => some event
  | .host _ _ => none

/-- The part of the log that is the host's. -/
def hostEvent : Happening F → Option Event
  | .scheduler _ => none
  | .host _ event => some event

variable {d d' : Scheduled F} {out : List (Happening F)} {s : State} {new : List Event}
  {code : State → Option (State × List Event)} {after : List (System.Action (Mail F))}

theorem perform_eq_some (h : d.perform me transition code after = some (d', out)) :
    ∃ s new config config' events, code { host := d.host } = some (s, new) ∧
      readyAll d.config transition (s.runnableReady.image d.thread) = some config ∧
      (System.machine (Mail F)).exec config (sends me s new ++ after) = some (config', events) ∧
      d' = { d with config := config', host := s.host } ∧
      out = new.map (.host d.config.sys.currentTime) ++ events.map .scheduler := by
  unfold perform at h
  split at h
  · simp at h
  next s new ran =>
    split at h
    · simp at h
    next config readied =>
      obtain ⟨⟨config', events⟩, sent, same⟩ := Option.map_eq_some_iff.mp h
      obtain ⟨rfl, rfl⟩ := Prod.mk.inj same
      exact ⟨s, new, config, config', events, ran, readied, sent, rfl, rfl⟩

theorem schedulerEvents_eq {now : ℕ} {events : List (System.Event (Mail F))} :
    (new.map (Happening.host now) ++ events.map Happening.scheduler).filterMap schedulerEvent =
      events := by
  rw [List.filterMap_append, List.filterMap_map, List.filterMap_map]
  have none_host : new.filterMap (schedulerEvent (F := F) ∘ Happening.host now) = [] :=
    List.filterMap_eq_nil_iff.mpr fun _ _ => rfl
  have all : events.filterMap (schedulerEvent ∘ Happening.scheduler) = events :=
    (List.filterMap_congr fun _ _ => rfl).trans List.filterMap_some
  rw [none_host, all, List.nil_append]

theorem hostEvents_eq {now : ℕ} {events : List (System.Event (Mail F))} :
    (new.map (Happening.host now) ++ events.map Happening.scheduler).filterMap hostEvent = new := by
  rw [List.filterMap_append, List.filterMap_map, List.filterMap_map]
  have all : new.filterMap (hostEvent (F := F) ∘ Happening.host now) = new :=
    (List.filterMap_congr fun _ _ => rfl).trans List.filterMap_some
  have none_scheduler : events.filterMap (hostEvent ∘ Happening.scheduler) = [] :=
    List.filterMap_eq_nil_iff.mpr fun _ _ => rfl
  rw [none_scheduler, all, List.append_nil]

end Scheduled

end Kens.Host
