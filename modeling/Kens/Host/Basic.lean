/-
# Hosts and system calls

A host keeps a table of its processes and a table of the system calls that wait
for an answer. An application raises a system call by sending its host a message
and blocking; the host hands the call to the interface that is registered for it,
and the interface unblocks the caller with a return value.

`none` stands for a failed assertion, an access to the wrong alternative of a
variant and the use of a null pointer.
-/

import Mathlib
import Kens.Semantics.CyclicSearch
import Kens.System.Basic
import Kens.Networking.Packet
import Kens.Networking.RoutingInfo

namespace Kens

open Semantics

/-! ## System calls -/

inductive SystemCall
  | socket | close | read | write | connect | listen | accept | bind | getsockname | getpeername
  | nsleep | gettimeofday
deriving DecidableEq, Repr

/-- The alternatives of a parameter that occur. -/
inductive Value
  | pointer (address : ℕ)
  | int (value : ℤ)
  | uint64 (value : ℕ)
deriving DecidableEq, Repr

namespace Value

def getPointer : Value → Option ℕ
  | pointer address => some address
  | _ => none

def getInt : Value → Option ℤ
  | int value => some value
  | _ => none

def getUInt64 : Value → Option ℕ
  | uint64 value => some value
  | _ => none

end Value

/-- A parameter that is not set is a null pointer. -/
structure SystemCallParameter where
  syscallNumber : SystemCall
  params : Vector Value 3 := #v[.pointer 0, .pointer 0, .pointer 0]
deriving DecidableEq

namespace SystemCallParameter

def first (param : SystemCallParameter) : Value := param.params[0]

def second (param : SystemCallParameter) : Value := param.params[1]

def third (param : SystemCallParameter) : Value := param.params[2]

end SystemCallParameter

namespace TCPApplication

/-- A size converted to `int`. -/
def toInt (size : ℕ) : ℤ := Int.bmod size (2 ^ 32)

def socket (domain type__unused protocol : ℤ) : SystemCallParameter :=
  ⟨.socket, #v[.int domain, .int type__unused, .int protocol]⟩

def close (fd : ℤ) : SystemCallParameter :=
  ⟨.close, #v[.int fd, .pointer 0, .pointer 0]⟩

def bind (sockfd : ℤ) (addr addrlen : ℕ) : SystemCallParameter :=
  ⟨.bind, #v[.int sockfd, .pointer addr, .int (toInt addrlen)]⟩

def getsockname (sockfd : ℤ) (addr addrlen : ℕ) : SystemCallParameter :=
  ⟨.getsockname, #v[.int sockfd, .pointer addr, .pointer addrlen]⟩

def getpeername (sockfd : ℤ) (addr addrlen : ℕ) : SystemCallParameter :=
  ⟨.getpeername, #v[.int sockfd, .pointer addr, .pointer addrlen]⟩

def read (fd : ℤ) (buf count : ℕ) : SystemCallParameter :=
  ⟨.read, #v[.int fd, .pointer buf, .int (toInt count)]⟩

def write (fd : ℤ) (buf count : ℕ) : SystemCallParameter :=
  ⟨.write, #v[.int fd, .pointer buf, .int (toInt count)]⟩

def connect (sockfd : ℤ) (addr addrlen : ℕ) : SystemCallParameter :=
  ⟨.connect, #v[.int sockfd, .pointer addr, .int (toInt addrlen)]⟩

def listen (sockfd backlog : ℤ) : SystemCallParameter :=
  ⟨.listen, #v[.int sockfd, .int backlog, .pointer 0]⟩

def accept (sockfd : ℤ) (addr addrlen : ℕ) : SystemCallParameter :=
  ⟨.accept, #v[.int sockfd, .pointer addr, .pointer addrlen]⟩

def nsleep (nanosleep : ℕ) : SystemCallParameter :=
  ⟨.nsleep, #v[.uint64 nanosleep, .pointer 0, .pointer 0]⟩

def usleep (microsleep : ℕ) : SystemCallParameter := nsleep (1000 * microsleep % 2 ^ 64)

def msleep (millisleep : ℕ) : SystemCallParameter := usleep (1000 * millisleep % 2 ^ 64)

def sleep (sleep : ℕ) : SystemCallParameter := msleep (1000 * sleep % 2 ^ 64)

def gettimeofday (tv tz : ℕ) : SystemCallParameter :=
  ⟨.gettimeofday, #v[.pointer tv, .pointer tz, .pointer 0]⟩

end TCPApplication

/-! ## Hosts -/

/-- Domain and protocol of an interface. -/
abbrev Namespace := ℤ × ℤ

/-- An application thread. It has the process id under which it is registered.
`inSyscall` tells whether the thread is inside of `E_Syscall`. -/
structure Application where
  pid : ℕ
  state : Runnable.State := .created
  syscallRet : ℤ := 0
  inSyscall : Bool := false
deriving DecidableEq

/-- `fdToDomain` is a map ordered by its keys. -/
structure ProcessInfo where
  application : Application
  fdToDomain : List (ℤ × Namespace) := []
deriving DecidableEq

/-- A host. The interface for `(0, 0)` is `DefaultSystemCall`; it is registered by
the constructor. -/
structure Host where
  pidStart : ℕ := 0
  syscallIDStart : ℕ := 0
  running : Bool := true
  interfaceMap : Finset Namespace := {(0, 0)}
  hostModuleMap : Finset String := ∅
  processInfoMap : ℕ → Option ProcessInfo := fun _ => none
  syscallMap : List (ℕ × ℕ) := []
  ports : List ℕ := []
  routing : RoutingInfo := RoutingInfo.empty

/-- The messages that a host sends itself, and those it gets from a wire. A timer
carries a call to be answered when it is one of `DefaultSystemCall`. -/
inductive HostMessage
  | syscall (pid : ℕ) (param : SystemCallParameter)
  | ret (pid : ℕ) (returnValue : ℤ)
  | timer (payload : Option ℕ)
  | packetPass (fromModule : Option String) (toModule : String) (packet : Packet)
  | packetFromPort (packet : Packet)
deriving DecidableEq

namespace Host

def MAX_FD : ℕ := 65536

def MAX_PID : ℕ := 65536

/-! ## Process and descriptor tables -/

/-- The process id, or -1 when all are in use. -/
def registerProcess (host : Host) : ℤ × Host :=
  match search (fun pid => (host.processInfoMap pid).isSome) MAX_FD host.pidStart with
  | some current =>
    (current, { host with
      processInfoMap :=
        Function.update host.processInfoMap current (some { application := { pid := current } })
      pidStart := (current + 1) % MAX_PID })
  | none => (-1, host)

/-- The loop over the open descriptors, which looks for the first gap. -/
def lowestFree (current : ℤ) : List (ℤ × Namespace) → ℤ
  | [] => current
  | (fd, _) :: rest => if fd = current then lowestFree (current + 1) rest else current

/-- `map::insert`, which leaves an existing entry alone. -/
def insertFd (fd : ℤ) (ns : Namespace) : List (ℤ × Namespace) → List (ℤ × Namespace)
  | [] => [(fd, ns)]
  | (other, ns') :: rest =>
    if fd < other then (fd, ns) :: (other, ns') :: rest
    else if fd = other then (other, ns') :: rest
    else (other, ns') :: insertFd fd ns rest

/-- Change the entry of a process. -/
def setProcess (host : Host) (pid : ℕ) (info : ProcessInfo) : Host :=
  { host with processInfoMap := Function.update host.processInfoMap pid (some info) }

def createFileDescriptor (host : Host) (ns : Namespace) (processID : ℕ) : Option (ℤ × Host) :=
  match host.processInfoMap processID with
  | none => none
  | some procInfo =>
    let current := lowestFree 3 procInfo.fdToDomain
    if current ≥ MAX_FD then some (-1, host)
    else some (current, host.setProcess processID
      { procInfo with fdToDomain := insertFd current ns procInfo.fdToDomain })

def removeFileDescriptor (host : Host) (processID : ℕ) (fd : ℤ) : Host :=
  match host.processInfoMap processID with
  | none => host
  | some procInfo => host.setProcess processID
      { procInfo with fdToDomain := procInfo.fdToDomain.filter fun entry => entry.1 ≠ fd }

/-! ## Which interface serves a call -/

/-- The interface of a call: the one that `socket` asks for, `DefaultSystemCall`,
or the one that created the descriptor. -/
def namespaceOf (info : ProcessInfo) (param : SystemCallParameter) : Option Namespace :=
  match param.syscallNumber with
  | .socket => do
    let domain ← param.first.getInt
    let protocol ← param.third.getInt
    pure (domain, protocol)
  | .nsleep | .gettimeofday => some (0, 0)
  | .close | .read | .write | .connect | .listen | .accept | .bind | .getsockname
  | .getpeername => do
    let fd ← param.first.getInt
    -- the descriptor must be open
    info.fdToDomain.lookup fd

/-- The id for a new call. -/
def nextSyscallID (host : Host) : Option ℕ :=
  search (fun id => (host.syscallMap.lookup id).isSome) (2 ^ 64) host.syscallIDStart

/-- The port whose MAC address is that of the packet, or port 0. -/
def selectPort (host : Host) (my_mac : Mac) : List ℕ → Option ℕ
  | [] => some 0
  | k :: rest =>
    match host.routing.getMACAddr k with
    -- `value` of an empty optional
    | none => none
    | some port_mac => if my_mac = port_mac then some k else selectPort host my_mac rest

end Host

end Kens
