/-
# Running a host

The host lives on the scheduler: messages are dispatched when no application
wants to run, and one application at a time has control. Here messages in flight
form a pool from which any may be dispatched next, at any time, so that every
order of the scheduler is covered. Modules of the host and code outside of it act
whenever no application has control; what an interface does in `systemCallback`
is a sequence of such actions after the dispatch.
-/

import Mathlib
import Kens.Semantics.Machine
import Kens.Host.Basic

namespace Kens

open Semantics

namespace Host

/-- A message in flight, with the delay under which it was sent. -/
structure Posted where
  message : HostMessage
  timeAfter : ℕ
deriving DecidableEq

/-- A host with what the scheduler holds of it. `awake` is the application that
has control. -/
structure State where
  host : Host := {}
  pool : List Posted := []
  runnableReady : Finset ℕ := ∅
  awake : Option ℕ := none

/-- What can happen next. The first group are calls by code outside of the host,
the second calls by its modules, the third moves of the scheduler, and the last
ones what the application in control does. Modules cancel their own timers only,
as they know no other keys. -/
inductive Action
  | addInterface (ns : Namespace)
  | addApplication
  | launchApplication (pid : ℕ)
  | cleanUp (order : List ℕ)
  | packetFromPort (packet : Packet)
  | returnSystemCall (syscallUUID : ℕ) (val : ℤ)
  | createFileDescriptor (ns : Namespace) (processID : ℕ)
  | removeFileDescriptor (processID : ℕ) (fd : ℤ)
  | addTimer (timeAfter : ℕ)
  | cancelTimer (index : ℕ)
  | sendPacket (fromModule toModule : String) (packet : Packet) (junk : Mac)
  | wake (pid : ℕ)
  | dispatch (index now : ℕ)
  | syscall (param : SystemCallParameter)
  | finish (returnValue : ℤ)

/-- What a run records. `issued` and `refused` are the two outcomes of the first
half of `E_Syscall`, `registered` is a call handed to its interface and `lost` one
that no interface is registered for, and `returned` is the end of `E_Syscall`.
`fdCreated` has the value that `createFileDescriptor` returned. -/
inductive Event
  | added (pid : ℕ)
  | launched (pid : ℕ)
  | started (pid : ℕ)
  | issued (pid : ℕ) (param : SystemCallParameter)
  | refused (pid : ℕ)
  | registered (id pid : ℕ) (ns : Namespace) (param : SystemCallParameter)
  | lost (pid : ℕ)
  | returnCalled (id : ℕ) (val : ℤ)
  | returned (pid : ℕ) (val : ℤ)
  | terminated (pid : ℕ)
  | exited (pid : ℕ)
  | cleanedUp (missing : ℕ)
  | fdCreated (ns : Namespace) (pid : ℕ) (fd : ℤ)
  | fdRemoved (pid : ℕ) (fd : ℤ)
  | timeWritten (tv tv_sec tv_usec : ℕ)
  | packetArrived (fromModule toModule : String) (packet : Packet)
  | packetToPort (portID : ℕ) (packet : Packet)
deriving DecidableEq

namespace State

/-- `sendMessageSelf`. -/
def post (s : State) (message : HostMessage) (timeAfter : ℕ) : State :=
  { s with pool := s.pool ++ [⟨message, timeAfter⟩] }

/-- Change the application of a process. -/
def setApplication (s : State) (pid : ℕ) (info : ProcessInfo) (application : Application) :
    State :=
  { s with host := s.host.setProcess pid { info with application := application } }

/-! ## Operations of the host -/

def launchApplication (s : State) (pid : ℕ) : Option (State × List Event) :=
  match s.host.processInfoMap pid with
  | none => none
  | some info =>
    if info.application.pid = pid then
      (Runnable.start info.application.state).map fun state =>
        ({ s.setApplication pid info { info.application with state := state } with
            runnableReady := insert pid s.runnableReady }, [.launched pid])
    else none

def returnSystemCall (s : State) (syscallUUID : ℕ) (val : ℤ) : Option (State × List Event) :=
  match s.host.syscallMap.lookup syscallUUID with
  | none => some (s, [.returnCalled syscallUUID val])
  | some pid =>
    match s.host.processInfoMap pid with
    | none => none
    | some info =>
      (Runnable.ready info.application.state).map fun state =>
        let s := s.setApplication pid info
          { info.application with state := state, syscallRet := val }
        let syscallMap := s.host.syscallMap.filter fun entry => entry.1 ≠ syscallUUID
        ({ s with
            host := { s.host with syscallMap := syscallMap }
            runnableReady := insert pid s.runnableReady }, [.returnCalled syscallUUID val])

/-- `returnSystemCall` for each of several calls. -/
def returnAll (s : State) (val : ℤ) : List ℕ → Option (State × List Event)
  | [] => some (s, [])
  | id :: rest =>
    match s.returnSystemCall id val with
    | none => none
    | some (s, new) => (s.returnAll val rest).map fun r => (r.1, new ++ r.2)

/-- `cleanUp`, which visits the table of calls in some order. -/
def cleanUp (s : State) (order : List ℕ) : Option (State × List Event) :=
  if order.Perm (s.host.syscallMap.map Prod.fst) then
    (({ s with host := { s.host with running := false } } : State).returnAll (-1) order).map
      fun r => (r.1, r.2 ++ [.cleanedUp order.length])
  else none

/-- `sendPacket` of the host, for a port. -/
def sendPacket (s : State) (portIndex : ℕ) (packet : Packet) : Option (State × List Event) :=
  match s.host.ports[portIndex]? with
  | none => none
  | some portID =>
    if s.host.running = false then some (s, [])
    else some (s, [.packetToPort portID packet])

/-- `sendPacketToModule`. The array for the MAC address is not initialised; `junk`
is what it holds. -/
def sendPacketToModule (s : State) (fromModule : Option String) (toModule : String)
    (packet : Packet) (junk : Mac) : Option (State × List Event) :=
  if toModule = "Host" then
    match packet.readArray 6 junk with
    | none => none
    | some my_mac =>
      match s.host.selectPort my_mac (List.range s.host.ports.length) with
      | none => none
      | some selected_port => s.sendPacket selected_port packet
  else if toModule ∈ s.host.hostModuleMap then
    some (s.post (.packetPass fromModule toModule packet) 0, [])
  else some (s, [])

/-- `DefaultSystemCall::systemCallback`. -/
def defaultSystemCallback (s : State) (now syscallUUID : ℕ) (param : SystemCallParameter) :
    Option (State × List Event) :=
  match param.syscallNumber with
  | .nsleep =>
    param.first.getUInt64.map fun timeAfter =>
      (s.post (.timer (some syscallUUID)) timeAfter, [])
  | .gettimeofday =>
    match param.first.getPointer, param.second.getPointer with
    | some tv, some tz =>
      let usec := now / 1000
      -- the code is -EINVAL
      if tz ≠ 0 then s.returnSystemCall syscallUUID (-22)
      else if tv = 0 then none
      else (s.returnSystemCall syscallUUID 0).map fun r =>
        (r.1, .timeWritten tv (usec / 1000000) (usec % 1000000) :: r.2)
    | _, _ => none
  | _ => none

/-- The branch of `messageReceived` for a system call. -/
def syscallReceived (s : State) (now pid : ℕ) (param : SystemCallParameter) :
    Option (State × List Event) :=
  match s.host.processInfoMap pid with
  | none => none
  | some info =>
    if info.application.pid ≠ pid then none
    else
      match namespaceOf info param with
      | none => none
      | some ns =>
        if ns ∈ s.host.interfaceMap then
          match s.host.nextSyscallID with
          | none => none
          | some curSyscallID =>
            let host := { s.host with
              syscallIDStart := (curSyscallID + 1) % 2 ^ 64
              syscallMap := (curSyscallID, pid) :: s.host.syscallMap }
            if curSyscallID = host.syscallIDStart then none
            else if ns = (0, 0) then
              (({ s with host := host } : State).defaultSystemCallback now curSyscallID param).map
                fun r => (r.1, .registered curSyscallID pid ns param :: r.2)
            else some ({ s with host := host }, [.registered curSyscallID pid ns param])
        else some (s, [.lost pid])

/-- The branch for the end of a process. -/
def returnReceived (s : State) (pid : ℕ) : Option (State × List Event) :=
  match s.host.processInfoMap pid with
  | none => none
  | some info =>
    if s.host.syscallMap.any fun entry => entry.2 = info.application.pid then none
    else some ({ s with
      host := { s.host with processInfoMap := Function.update s.host.processInfoMap pid none }
      runnableReady := s.runnableReady.erase pid }, [.exited pid])

def messageReceived (s : State) (now : ℕ) : HostMessage → Option (State × List Event)
  | .packetFromPort packet =>
    -- the array is not used for this module
    if s.host.running then s.sendPacketToModule none "Ethernet" packet (Vector.replicate 6 0)
    else some (s, [])
  | .packetPass fromModule toModule packet =>
    if s.host.running then
      some (s, [.packetArrived (fromModule.getD "Host") toModule packet])
    else some (s, [])
  | .syscall pid param => s.syscallReceived now pid param
  -- `timerCallback` of `DefaultSystemCall`; that of another module are its actions
  | .timer (some syscallUUID) => s.returnSystemCall syscallUUID 0
  | .timer none => some (s, [])
  | .ret pid _ => s.returnReceived pid

/-! ## Applications -/

/-- `wake`: the thread begins with `main` or returns from `E_Syscall`. -/
def wake (s : State) (pid : ℕ) : Option (State × List Event) :=
  match s.host.processInfoMap pid with
  | none => none
  | some info =>
    (Runnable.wake info.application.state).map fun state =>
      ({ s.setApplication pid info
          { info.application with state := state, inSyscall := false } with awake := some pid },
        if info.application.inSyscall then [.returned pid info.application.syscallRet]
        else [.started pid])

/-- The application gives control back in the given state. -/
def yields (s : State) (pid : ℕ) (info : ProcessInfo) (application : Application) : State :=
  { s.setApplication pid info application with
    awake := none
    runnableReady := s.runnableReady.erase pid }

/-- The first half of `E_Syscall`. -/
def issue (s : State) (pid : ℕ) (param : SystemCallParameter) : Option (State × List Event) :=
  match s.host.processInfoMap pid with
  | none => none
  | some info =>
    if s.host.running = false then some (s, [.refused pid])
    else (Runnable.wait info.application.state).map fun state =>
      ((s.post (.syscall info.application.pid param) 0).yields pid info
        { info.application with state := state, syscallRet := -1, inSyscall := true },
        [.issued pid param])

/-- The end of `main`. -/
def terminate (s : State) (pid : ℕ) (returnValue : ℤ) : Option (State × List Event) :=
  match s.host.processInfoMap pid with
  | none => none
  | some info =>
    (Runnable.finish info.application.state).map fun state =>
      ((s.post (.ret info.application.pid returnValue) 0).yields pid info
        { info.application with state := state }, [.terminated pid])

/-! ## Steps -/

/-- What other code may do when no application has control. -/
def stepIdle (s : State) : Action → Option (State × List Event)
  | .addInterface ns =>
    if ns ∈ s.host.interfaceMap then none
    else some ({ s with
      host := { s.host with interfaceMap := insert ns s.host.interfaceMap } }, [])
  | .addApplication =>
    let (pid, host) := s.host.registerProcess
    some ({ s with host := host }, if pid = -1 then [] else [.added pid.toNat])
  | .launchApplication pid => s.launchApplication pid
  | .cleanUp order => s.cleanUp order
  | .packetFromPort packet => some (s.post (.packetFromPort packet) 0, [])
  | .returnSystemCall syscallUUID val => s.returnSystemCall syscallUUID val
  | .createFileDescriptor ns processID =>
    if ns ∈ s.host.interfaceMap ∧ ns ≠ (0, 0) then
      (s.host.createFileDescriptor ns processID).map fun r =>
        ({ s with host := r.2 }, [.fdCreated ns processID r.1])
    else none
  | .removeFileDescriptor processID fd =>
    some ({ s with host := s.host.removeFileDescriptor processID fd }, [.fdRemoved processID fd])
  | .addTimer timeAfter => some (s.post (.timer none) timeAfter, [])
  | .cancelTimer index =>
    match s.pool[index]? with
    | some ⟨.timer _, _⟩ => some ({ s with pool := s.pool.eraseIdx index }, [])
    | _ => none
  | .sendPacket fromModule toModule packet junk =>
    s.sendPacketToModule fromModule toModule packet junk
  | .wake pid => if pid ∈ s.runnableReady then s.wake pid else none
  | .dispatch index now =>
    -- the scheduler first drains the ready set
    if s.runnableReady = ∅ then
      match s.pool[index]? with
      | none => none
      | some posted => ({ s with pool := s.pool.eraseIdx index } : State).messageReceived now
          posted.message
    else none
  | .syscall _ => none
  | .finish _ => none

def step (s : State) (a : Action) : Option (State × List Event) :=
  match s.awake with
  | none => s.stepIdle a
  | some pid =>
    match a with
    | .syscall param => s.issue pid param
    | .finish returnValue => s.terminate pid returnValue
    | _ => none

end State

def machine : Machine State Action Event where
  step := State.step

end Host

end Kens
