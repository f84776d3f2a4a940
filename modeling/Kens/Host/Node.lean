/-
# Hosts with a protocol stack

The hosts of a star run Ethernet, IPv4 and some transport modules. Between the modules, packets
travel as messages that the host sends itself without a delay. What the transport modules do is a
parameter: they hand packets to IPv4 and set timers, whenever they get a packet, a timer expires or
other code calls them.
-/

import Mathlib
import Kens.System.Prompt
import Kens.Networking.Receive
import Kens.Networking.Programs
import Kens.Host.RoutedPort

namespace Kens

open Semantics Reactive

/-- A packet that a transport module hands to IPv4, which serves some modules only and asserts that
the packet holds a whole header. The length field has 16 bits. -/
structure Handed where
  name : String
  packet : Packet
  member : name ∈ IPv4.transports
  fits : 34 ≤ packet.getSize
  bound : packet.getSize ≤ 65549

/-- What a transport module does: `sendPacket` to IPv4, or `addTimer`. -/
inductive Request (T : Type)
  | sendPacket (handed : Handed)
  | addTimer (payload : T) (timeAfter : ℕ)

/-- The transport modules of all hosts with a common memory. The arguments are the time, the host
and, for a packet, the module, the module that it comes from and the packet. -/
structure Transports (T U B : Type) where
  packetArrived : U → ℕ → ℕ → String → String → Packet → Option (U × List (Request T))
  timerCallback : U → ℕ → ℕ → T → Option (U × List (Request T))
  act : U → ℕ → ℕ → B → Option (U × List (Request T))

/-- What a host sends itself. -/
inductive NodeMessage (T : Type)
  | packetPass (pass : PacketPass)
  | timer (payload : T)

/-- A host that runs Ethernet and IPv4. -/
structure Node where
  host : Host
  running : host.running = true
  ethernet : "Ethernet" ∈ host.hostModuleMap
  ipv4 : "IPv4" ∈ host.hostModuleMap

/-- The memory of IPv4 on every host, and that of the transport modules. -/
structure Nodes (U : Type) where
  ipv4 : ℕ → IPv4
  transports : U

namespace Node

variable {T U B : Type}

/-- What a call of `sendPacketToModule` makes the host do. -/
def deeds (result : Host.State × List Host.Event) : List (Star.Deed (NodeMessage T)) :=
  (result.2.filterMap fun
    | .packetToPort portID packet => some (.sendFrame portID packet.buffer)
    | _ => none) ++
  result.1.pool.filterMap fun posted =>
    match posted.message with
    | .packetPass fromModule toModule packet =>
      some (.sendOwn (.packetPass ⟨fromModule, toModule, packet⟩) posted.timeAfter)
    | _ => none

def sendPacketToModule (node : Node) (junk : Junk) (pass : PacketPass) :
    Option (List (Star.Deed (NodeMessage T))) :=
  (Host.State.sendPacketToModule { host := node.host } pass.source pass.target pass.packet
    (Vector.ofFn fun k => junk "my_mac" k)).map deeds

/-- A module hands on what it makes of a packet, if anything. -/
def onward (node : Node) (junk : Junk) : Option PacketPass →
    Option (List (Star.Deed (NodeMessage T)))
  | none => some []
  | some pass => node.sendPacketToModule junk pass

def request (node : Node) (junk : Junk) : Request T → Option (List (Star.Deed (NodeMessage T)))
  | .sendPacket handed => node.sendPacketToModule junk ⟨some handed.name, "IPv4", handed.packet⟩
  | .addTimer payload timeAfter => some [.sendOwn (.timer payload) timeAfter]

/-- The requests of a transport module, in program order. -/
def requests (node : Node) (junk : Junk) (m : Nodes U)
    (result : Option (U × List (Request T))) :
    Option (Nodes U × List (Star.Deed (NodeMessage T))) := do
  let (transports, made) ← result
  let lists ← made.mapM (node.request junk)
  pure ({ m with transports := transports }, lists.flatten)

/-- `Host::messageReceived` of all hosts, together with the modules. The contents of uninitialised
variables may change with the time. -/
def programs (nodes : ℕ → Node) (junk : ℕ → Junk) (W : Transports T U B) :
    Star.Programs (NodeMessage T) (Nodes U) B where
  receive m now h
    | .frame _ packet =>
      if (nodes h).host.running then
        ((nodes h).sendPacketToModule (junk now) ⟨none, "Ethernet", packet⟩).map fun deeds =>
          (m, deeds)
      else some (m, [])
    | .own (.packetPass pass) =>
      if (nodes h).host.running then
        if pass.target ∈ IPv4.transports then
          (nodes h).requests (junk now) m (W.packetArrived m.transports now h pass.target
            (pass.source.getD "Host") pass.packet)
        else do
          let (stack, passed) ← Stack.messageReceived (junk now)
            ⟨(nodes h).host.routing, m.ipv4 h⟩ pass
          let deeds ← (nodes h).onward (junk now) passed
          pure ({ m with ipv4 := Function.update m.ipv4 h stack.ipv4 }, deeds)
      else some (m, [])
    | .own (.timer payload) =>
      (nodes h).requests (junk now) m (W.timerCallback m.transports now h payload)
  act m now h call := (nodes h).requests (junk now) m (W.act m.transports now h call)

variable {node : Node} {junk : Junk} {pass : PacketPass} {passed : Option PacketPass}
  {made : List (Star.Deed (NodeMessage T))}

/-! ## What the host does with a packet -/

/-- A packet for a module becomes a message, if the host has the module. -/
theorem sendPacketToModule_module (target : pass.target ≠ "Host") :
    node.sendPacketToModule junk pass =
      some (if pass.target ∈ node.host.hostModuleMap then
        [Star.Deed.sendOwn (NodeMessage.packetPass (T := T) pass) 0] else []) := by
  rw [sendPacketToModule, Host.State.sendPacketToModule, if_neg target]
  split <;> rfl

/-- The addresses that Ethernet finds for a packet, and the wire by which the frame then leaves. -/
def way (node : Node) (packet : Packet) : Option ((Mac × Mac) × ℕ) := do
  let found ← (Ethernet.addresses node.host.routing (packet.ipAt 30) (packet.ipAt 26)).join
  let port ← node.host.selectPort found.2 (List.range node.host.ports.length)
  let wire ← node.host.ports[port]?
  pure (found, wire)

/-- The frame that Ethernet makes of a packet. -/
def framed (packet : Packet) (found : Mac × Mac) : Packet :=
  (packet.overwrite 12 [0x08, 0x00]).overwrite 0 (found.1.toList ++ found.2.toList)

/-- A frame for a wire leaves by the port with its source address. -/
theorem sendPacketToModule_host {packet : Packet} {found : Mac × Mac} {source : Option String}
    (fits : 34 ≤ packet.getSize)
    (done : node.sendPacketToModule junk ⟨source, "Host", framed packet found⟩ = some made) :
    ∃ port wire, node.host.selectPort found.2 (List.range node.host.ports.length) = some port ∧
      node.host.ports[port]? = some wire ∧
      made = [.sendFrame wire (framed packet found).buffer] := by
  have room : 12 ≤ (packet.overwrite 12 [0x08, 0x00]).getSize := by
    have size : (packet.overwrite 12 [0x08, 0x00]).getSize = packet.getSize :=
      Packet.getSize_overwrite (Nat.le_trans (by decide : 14 ≤ 34) fits)
    omega
  rw [sendPacketToModule, Host.State.sendPacketToModule, if_pos rfl] at done
  dsimp only at done
  rw [framed, Host.readArray_source room] at done
  dsimp only at done
  split at done
  · simp at done
  next port selected =>
    rw [Host.State.sendPacket] at done
    dsimp only at done
    split at done
    · simp at done
    next wire connected =>
      rw [node.running] at done
      obtain rfl := Option.some.inj done
      exact ⟨port, wire, selected, connected, rfl⟩

/-- The host sends one message without a delay, or one frame, or nothing. -/
theorem sendPacketToModule_cases (done : node.sendPacketToModule junk pass = some made) :
    (made = [] ∨ ∃ wire frame, made = [.sendFrame wire frame]) ∨
      pass.target ≠ "Host" ∧ pass.target ∈ node.host.hostModuleMap ∧
        made = [.sendOwn (.packetPass pass) 0] := by
  by_cases target : pass.target = "Host"
  · left
    rw [sendPacketToModule, Host.State.sendPacketToModule, if_pos target] at done
    split at done
    · simp at done
    · split at done
      · simp at done
      · rw [Host.State.sendPacket] at done
        dsimp only at done
        split at done
        · simp at done
        next wire connected =>
          rw [node.running] at done
          obtain rfl := Option.some.inj done
          exact .inr ⟨wire, _, rfl⟩
  · rw [sendPacketToModule_module target] at done
    obtain rfl := Option.some.inj done
    split
    next listed => exact .inr ⟨target, listed, rfl⟩
    next => exact .inl (.inl rfl)

end Node

/-- The message for a request. -/
def Request.deed {T : Type} : Request T → Star.Deed (NodeMessage T)
  | .sendPacket handed => .sendOwn (.packetPass ⟨some handed.name, "IPv4", handed.packet⟩) 0
  | .addTimer payload timeAfter => .sendOwn (.timer payload) timeAfter

namespace Node

variable {T U B : Type} {node : Node} {junk : Junk}

theorem mapM_request (made : List (Request T)) :
    made.mapM (node.request junk) = some (made.map fun request => [request.deed]) := by
  have single : node.request junk = fun request : Request T => some [request.deed] := by
    funext request
    cases request with
    | sendPacket handed =>
      have target : "IPv4" ≠ "Host" := by decide
      rw [request, sendPacketToModule_module target, if_pos node.ipv4]
      rfl
    | addTimer payload timeAfter => rfl
  rw [single]
  exact List.mapM_pure

/-- A host with IPv4 makes one message of each request. -/
theorem requests_eq_some {m m' : Nodes U} {result : Option (U × List (Request T))}
    {deeds : List (Star.Deed (NodeMessage T))}
    (done : node.requests junk m result = some (m', deeds)) :
    ∃ made : List (Request T), deeds = made.map Request.deed := by
  obtain ⟨⟨transports, made⟩, -, rest⟩ := Option.bind_eq_some_iff.mp done
  dsimp only at rest
  rw [mapM_request] at rest
  obtain ⟨-, rfl⟩ := Prod.mk.inj (Option.some.inj rest)
  refine ⟨made, ?_⟩
  rw [← List.flatMap_def, ← List.map_eq_flatMap]

/-! ## What the log of a run records -/

open Kens.Star

/-- The packets for a host at some stage of the stack. -/
def passes (stage : PacketPass → Bool) (h target : ℕ) : Hosted (NodeMessage T) → Option PacketPass
  | .own (.packetPass pass) => if target = h ∧ stage pass then some pass else none
  | _ => none

/-- A frame that entered at port `p` and is received by a host. -/
def landed (p h : ℕ) : Record (Hosted (NodeMessage T)) (ℕ × B) → Option Packet
  | .received ⟨_, _, target, _, .net (.packetFromPort packet), _⟩ _ =>
    if target = h ∧ packet.origin = p then some packet else none
  | _ => none

/-- The packets that occur between the modules of a host. -/
inductive PassKind : PacketPass → Prop
  | arriving (packet : Packet) : PassKind ⟨none, "Ethernet", packet⟩
  | lifted (packet : Packet) : PassKind ⟨some "Ethernet", "IPv4", packet⟩
  | foreign (packet : Packet) : PassKind ⟨some "Ethernet", "IPv6", packet⟩
  | raised (name : String) (packet : Packet) (member : name ∈ IPv4.transports) :
      PassKind ⟨some "IPv4", name, packet⟩
  | handed (handed : Handed) : PassKind ⟨some handed.name, "IPv4", handed.packet⟩
  | lowered (s : Stack) (handed : Handed) :
      PassKind ⟨some "IPv4", "Ethernet", s.outgoing handed.name handed.packet⟩

/-- What a record of a run can be. -/
inductive Doing (N : Star) (nodes : ℕ → Node) : Record (Hosted (NodeMessage T)) (ℕ × B) → Prop
  -- a wire, the switch, or a host that has nothing to do
  | quiet (record : Record (Hosted (NodeMessage T)) (ℕ × B))
      (taken : ∀ stage h, record.taken (passes stage h) = none)
      (given : ∀ stage h, record.given (passes stage h) = [])
      (sent : ∀ p ∈ N.ports, N.hostedSent p record = [])
      (nothing : ∀ p, ∀ q ∈ N.ports, landed p (N.hostOf q) record = none ∧
        N.hostedDelivered p q record = none) : Doing N nodes record
  | frame (c : TimerContainer (Hosted (NodeMessage T))) (packet : Packet)
      (port : c.source ∈ N.ports) (target : c.target = N.hostOf c.source)
      (message : c.message = .net (.packetFromPort packet)) :
      Doing N nodes (.received c
        [⟨c.target, c.target, .own (.packetPass ⟨none, "Ethernet", packet⟩), 0⟩])
  -- Ethernet or IPv4
  | stack (c : TimerContainer (Hosted (NodeMessage T))) (pass : PacketPass) (junk : Junk)
      (s s' : Stack) (passed : Option PacketPass) (deeds : List (Deed (NodeMessage T)))
      (sends : List (Send (Hosted (NodeMessage T)))) (kind : PassKind pass)
      (inner : pass.target ∉ IPv4.transports) (message : c.message = .own (.packetPass pass))
      (routing : s.routing = (nodes c.target).host.routing)
      (handled : s.messageReceived junk pass = some (s', passed))
      (onward : (nodes c.target).onward junk passed = some deeds)
      (performed : deeds.mapM (N.send c.target) = some sends) : Doing N nodes (.received c sends)
  | transport (record : Record (Hosted (NodeMessage T)) (ℕ × B)) (host : ℕ)
      (made : List (Request T))
      (performed : (made.map Request.deed).mapM (N.send host) = some record.sends)
      (taken : ∀ stage h, ∀ pass ∈ record.taken (passes stage h), pass.target ∈ IPv4.transports)
      (nothing : ∀ p h, landed p h record = none)
      (delivered : ∀ p q, N.hostedDelivered p q record = none) : Doing N nodes record

variable {N : Star} {O : Oracle} {nodes : ℕ → Node} {contents : ℕ → Junk} {W : Transports T U B}
  {pass : PacketPass} {s s' : Stack} {passed : Option PacketPass}

/-- What Ethernet and IPv4 make of a packet, with the tables of the host. -/
inductive Next (routing : RoutingInfo) : PacketPass → Option PacketPass → Prop
  | drop (packet : Packet) : Next routing ⟨some "Ethernet", "IPv4", packet⟩ none
  | lift (packet : Packet) :
      Next routing ⟨none, "Ethernet", packet⟩ (some ⟨some "Ethernet", "IPv4", packet⟩)
  | divert (packet : Packet) :
      Next routing ⟨none, "Ethernet", packet⟩ (some ⟨some "Ethernet", "IPv6", packet⟩)
  | raise (name : String) (packet : Packet) (member : name ∈ IPv4.transports) :
      Next routing ⟨some "Ethernet", "IPv4", packet⟩ (some ⟨some "IPv4", name, packet⟩)
  | lower (s : Stack) (handed : Handed) :
      Next routing ⟨some handed.name, "IPv4", handed.packet⟩
        (some ⟨some "IPv4", "Ethernet", s.outgoing handed.name handed.packet⟩)
  | send (s : Stack) (handed : Handed) (found : Option (Mac × Mac))
      (addresses : Ethernet.addresses routing (handed.packet.ipAt 30) (handed.packet.ipAt 26) =
        some found) :
      Next routing ⟨some "IPv4", "Ethernet", s.outgoing handed.name handed.packet⟩
        (found.map fun found => ⟨some "Ethernet", "Host", s.frame handed.name handed.packet found⟩)

theorem Next.kind {routing : RoutingInfo} (next : Next routing pass passed) :
    ∀ pass' ∈ passed, pass'.target = "Host" ∨ PassKind pass' := by
  intro pass' member
  cases next with
  | drop packet => simp at member
  | lift packet =>
    obtain rfl := Option.some.inj member
    exact .inr (.lifted packet)
  | divert packet =>
    obtain rfl := Option.some.inj member
    exact .inr (.foreign packet)
  | raise name packet transport =>
    obtain rfl := Option.some.inj member
    exact .inr (.raised name packet transport)
  | lower s handed =>
    obtain rfl := Option.some.inj member
    exact .inr (.lowered s handed)
  | send s handed found addresses =>
    obtain ⟨macs, -, rfl⟩ := Option.map_eq_some_iff.mp member
    exact .inl rfl

theorem Next.source {routing : RoutingInfo} (next : Next routing pass passed) :
    ∀ pass' ∈ passed, pass'.source = some pass.target := by
  intro pass' member
  cases next with
  | drop packet => simp at member
  | send s handed found addresses =>
    obtain ⟨macs, -, rfl⟩ := Option.map_eq_some_iff.mp member
    rfl
  | lift | divert | raise | lower =>
    obtain rfl := Option.some.inj member
    rfl

/-- What Ethernet and IPv4 hand on. -/
theorem PassKind.next (kind : PassKind pass) (inner : pass.target ∉ IPv4.transports)
    (handled : s.messageReceived junk pass = some (s', passed)) : Next s.routing pass passed := by
  cases kind with
  | arriving packet =>
    rw [Stack.messageReceived_ethernet] at handled
    obtain ⟨found, arrived, same⟩ := Option.map_eq_some_iff.mp handled
    obtain ⟨-, rfl⟩ := Prod.mk.inj same
    rw [Ethernet.packetArrived, if_pos rfl] at arrived
    obtain ⟨first, -, arrived⟩ := Option.bind_eq_some_iff.mp arrived
    obtain ⟨second, -, arrived⟩ := Option.bind_eq_some_iff.mp arrived
    split at arrived
    · obtain rfl := Option.some.inj arrived
      exact .lift packet
    · split at arrived
      · obtain rfl := Option.some.inj arrived
        exact .divert packet
      · simp at arrived
  | lifted packet =>
    rw [Stack.messageReceived_ipv4] at handled
    obtain ⟨⟨ipv4, found⟩, arrived, same⟩ := Option.map_eq_some_iff.mp handled
    obtain ⟨-, rfl⟩ := Prod.mk.inj same
    rw [IPv4.packetArrived, if_pos rfl] at arrived
    obtain ⟨first, -, arrived⟩ := Option.bind_eq_some_iff.mp arrived
    obtain ⟨second, -, arrived⟩ := Option.bind_eq_some_iff.mp arrived
    obtain ⟨_, -, arrived⟩ := Option.bind_eq_some_iff.mp arrived
    obtain ⟨header, -, arrived⟩ := Option.bind_eq_some_iff.mp arrived
    dsimp only at arrived
    split at arrived
    · obtain ⟨-, rfl⟩ := Prod.mk.inj (Option.some.inj arrived)
      exact .drop packet
    · obtain ⟨protocol, -, arrived⟩ := Option.bind_eq_some_iff.mp arrived
      split_ifs at arrived
      all_goals obtain ⟨-, rfl⟩ := Prod.mk.inj (Option.some.inj arrived)
      · exact .raise "TCP" packet (by decide)
      · exact .raise "UDP" packet (by decide)
      · exact .raise "OSPF" packet (by decide)
      · exact .drop packet
  | foreign packet => simp [Stack.messageReceived] at handled
  | raised name packet member => exact absurd member inner
  | handed handed =>
    rw [Stack.ipv4_passes handed.member handed.fits] at handled
    obtain ⟨-, rfl⟩ := Prod.mk.inj (Option.some.inj handled)
    exact .lower s handed
  | lowered other handed =>
    rw [Stack.ethernet_passes handed.fits] at handled
    obtain ⟨found, addresses, same⟩ := Option.map_eq_some_iff.mp handled
    obtain ⟨-, rfl⟩ := Prod.mk.inj same
    exact .send other handed found addresses

/-- The packet of a deed, if it is one at the given stage. -/
def passOf (stage : PacketPass → Bool) : Deed (NodeMessage T) → Option PacketPass
  | .sendOwn (.packetPass pass) _ => if stage pass then some pass else none
  | _ => none

variable {host h : ℕ} {stage : PacketPass → Bool} {deeds : List (Deed (NodeMessage T))}
  {sends : List (Send (Hosted (NodeMessage T)))}
  {record : Record (Hosted (NodeMessage T)) (ℕ × B)}

/-- The packets that a host passes on are those among its deeds. -/
theorem passes_perform (performed : deeds.mapM (N.send host) = some sends) :
    sends.filterMap (fun send => passes stage h send.target send.message) =
      deeds.filterMap fun deed => if host = h then passOf stage deed else none := by
  refine filterMap_mapM performed fun deed send sent => ?_
  cases deed with
  | sendFrame wire frame =>
    obtain ⟨-, rfl⟩ : (wire ∈ N.ports ∧ N.hostOf wire = host) ∧
        ⟨host, wire, .net (.packetToPort ⟨frame, wire⟩), 0⟩ = send := by
      simpa [Star.send] using sent
    simp [passes, passOf]
  | sendOwn message timeAfter =>
    obtain rfl : ⟨host, host, .own message, timeAfter⟩ = send := by simpa [Star.send] using sent
    cases message with
    | packetPass pass => simp [passes, passOf, ite_and]
    | timer payload => simp [passes, passOf]

/-- All packets that a step sends are of a known kind. -/
theorem Doing.kinds (doing : Doing N nodes record) {send : Send (Hosted (NodeMessage T))}
    (member : send ∈ record.sends) (message : send.message = .own (.packetPass pass)) :
    PassKind pass := by
  have listed : pass ∈ record.given (passes (fun _ => true) send.target) := by
    rw [Record.given, List.mem_filterMap]
    exact ⟨send, member, by simp [passes, message]⟩
  cases doing with
  | quiet record taken given sent nothing =>
    rw [given] at listed
    simp at listed
  | frame c packet port target message' =>
    obtain rfl : send = _ := by simpa [Record.sends] using member
    obtain rfl : _ = pass := by simpa using message
    exact .arriving packet
  | stack c pass' junk s s' passed deeds sends kind inner message' routing handled onward
      performed =>
    rw [Record.given, Record.sends, passes_perform performed, List.mem_filterMap] at listed
    obtain ⟨deed, done, found⟩ := listed
    cases passed with
    | none =>
      obtain rfl : [] = deeds := by simpa [Node.onward] using onward
      simp at done
    | some next =>
      rcases sendPacketToModule_cases onward with (rfl | ⟨wire, frame, rfl⟩) | ⟨target, -, rfl⟩
      · simp at done
      · obtain rfl := List.mem_singleton.mp done
        simp [passOf] at found
      · obtain rfl := List.mem_singleton.mp done
        obtain ⟨-, rfl⟩ : c.target = send.target ∧ next = pass := by simpa [passOf] using found
        exact ((kind.next inner handled).kind next rfl).resolve_left target
  | transport record host made performed taken nothing delivered =>
    rw [Record.given, passes_perform performed, List.mem_filterMap] at listed
    obtain ⟨deed, done, found⟩ := listed
    obtain ⟨request, -, rfl⟩ := List.mem_map.mp done
    cases request with
    | sendPacket handed =>
      obtain ⟨-, rfl⟩ : host = send.target ∧ _ = pass := by
        simpa [Request.deed, passOf] using found
      exact .handed handed
    | addTimer payload timeAfter => simp [Request.deed, passOf] at found

/-- Packets are passed on without a delay. -/
theorem Doing.prompt (doing : Doing N nodes record) : record.Prompt (passes stage h) := by
  intro send member chosen
  have timeless {host : ℕ} {deeds : List (Deed (NodeMessage T))}
      (performed : deeds.mapM (N.send host) = some record.sends)
      (now : ∀ pass time, .sendOwn (.packetPass pass) time ∈ deeds → time = 0) :
      send.timeAfter = 0 := by
    obtain ⟨deed, done, sent⟩ := exists_of_mem_mapM performed member
    cases deed with
    | sendFrame wire frame =>
      obtain ⟨-, rfl⟩ : (wire ∈ N.ports ∧ N.hostOf wire = host) ∧
          ⟨host, wire, .net (.packetToPort ⟨frame, wire⟩), 0⟩ = send := by
        simpa [Star.send] using sent
      rfl
    | sendOwn message time =>
      obtain rfl : ⟨host, host, .own message, time⟩ = send := by simpa [Star.send] using sent
      cases message with
      | packetPass pass => exact now pass time done
      | timer payload => simp [passes] at chosen
  cases doing with
  | quiet record taken given sent nothing =>
    obtain ⟨pass, found⟩ := Option.isSome_iff_exists.mp chosen
    have listed : pass ∈ record.given (passes stage h) :=
      List.mem_filterMap.mpr ⟨send, member, found⟩
    rw [given] at listed
    simp at listed
  | frame c packet port target message =>
    obtain rfl : send = _ := by simpa [Record.sends] using member
    rfl
  | stack c pass junk s s' passed deeds sends kind inner message routing handled onward
      performed =>
    refine timeless performed fun pass' time done => ?_
    cases passed with
    | none =>
      obtain rfl : [] = deeds := by simpa [Node.onward] using onward
      simp at done
    | some next =>
      rcases sendPacketToModule_cases onward with (rfl | ⟨wire, frame, rfl⟩) | ⟨-, -, rfl⟩
      · simp at done
      · simp at done
      · obtain ⟨-, rfl⟩ : pass' = next ∧ time = 0 := by simpa using done
        rfl
  | transport record host made performed taken nothing delivered =>
    refine timeless performed fun pass time done => ?_
    obtain ⟨request, -, same⟩ := List.mem_map.mp done
    cases request with
    | sendPacket handed =>
      obtain ⟨-, rfl⟩ : _ = pass ∧ 0 = time := by simpa [Request.deed] using same
      rfl
    | addTimer payload timeAfter => simp [Request.deed] at same

/-- Requests of a transport module are the only thing that other code causes. -/
theorem doing_act {m m' : Memory × Nodes U} {now : ℕ} {call : B}
    (handled : (N.hosted O (programs nodes contents W)).act m now (host, call) =
      some (m', sends)) : Doing N nodes (.acted (host, call) now sends) := by
  dsimp only [hosted] at handled
  split at handled
  next outside =>
    obtain ⟨⟨memory, made⟩, performed, same⟩ := Option.map_eq_some_iff.mp handled
    obtain ⟨-, rfl⟩ := Prod.mk.inj same
    obtain ⟨deeds, result, mapped⟩ := perform_eq_some performed
    obtain ⟨requests, rfl⟩ := requests_eq_some result
    exact .transport _ host requests mapped (by simp [Record.taken]) (fun _ _ => rfl) fun _ _ => rfl
  · simp at handled

/-- A host that receives something: a frame, a packet for one of its modules, or a timer. -/
theorem doing_host {m : Nodes U} {m' : Nodes U} {now : ℕ}
    {c : TimerContainer (Hosted (NodeMessage T))} {incoming : Incoming (NodeMessage T)}
    (handled : N.perform c.target ((programs nodes contents W).receive m now c.target incoming) =
      some (m', sends))
    (frame : ∀ w packet, incoming = .frame w packet → c.source ∈ N.ports ∧
      c.target = N.hostOf c.source ∧ c.message = .net (.packetFromPort packet))
    (own : ∀ message, incoming = .own message → c.message = .own message)
    (kinds : ∀ pass, c.message = .own (.packetPass pass) → PassKind pass) :
    Doing N nodes (.received c sends : Record _ (ℕ × B)) := by
  obtain ⟨deeds, result, mapped⟩ := perform_eq_some handled
  cases incoming with
  | frame w packet =>
    obtain ⟨port, target, message⟩ := frame w packet rfl
    have module : "Ethernet" ≠ "Host" := by decide
    rw [programs] at result
    dsimp only at result
    rw [if_pos (nodes c.target).running, sendPacketToModule_module module,
      if_pos (nodes c.target).ethernet] at result
    obtain ⟨-, rfl⟩ := Prod.mk.inj (Option.some.inj result)
    obtain rfl : _ = sends := by simpa [Star.send] using mapped
    exact .frame c packet port target message
  | own message =>
    have message_eq := own message rfl
    have nothing : ∀ p h, landed p h (.received c sends : Record _ (ℕ × B)) = none := by
      intro p h
      obtain ⟨address, source, target, wakeup, content, uuid⟩ := c
      dsimp only at message_eq
      rw [message_eq]
      rfl
    have delivered (p q : ℕ) :
        N.hostedDelivered p q (.received c sends : Record _ (ℕ × B)) = none := by
      rw [hostedDelivered, message_eq]
      split <;> rfl
    cases message with
    | timer payload =>
      obtain ⟨requests, rfl⟩ := requests_eq_some result
      refine .transport _ c.target requests mapped (fun stage h pass member => ?_) nothing
        delivered
      rw [Record.taken, message_eq] at member
      simp [passes] at member
    | packetPass pass =>
      rw [programs] at result
      dsimp only at result
      rw [if_pos (nodes c.target).running] at result
      split at result
      next upper =>
        obtain ⟨requests, rfl⟩ := requests_eq_some result
        refine .transport _ c.target requests mapped (fun stage h other member => ?_) nothing
          delivered
        rw [Record.taken, message_eq] at member
        obtain ⟨-, rfl⟩ : (c.target = h ∧ stage pass = true) ∧ pass = other := by
          simpa [passes] using member
        exact upper
      next inner =>
        obtain ⟨⟨stack, passed⟩, received, rest⟩ := Option.bind_eq_some_iff.mp result
        obtain ⟨made, onward, same⟩ := Option.bind_eq_some_iff.mp rest
        obtain ⟨-, rfl⟩ := Prod.mk.inj (Option.some.inj same)
        exact .stack c pass (contents now) _ stack passed made sends (kinds pass message_eq) inner
          message_eq rfl received onward mapped

variable {x : State (Hosted (NodeMessage T)) (Memory × Nodes U)} {unreliable : Bool} {limit : ℕ}

/-- The packets in flight are of a known kind. -/
def Kinds (s : System (Hosted (NodeMessage T))) : Prop :=
  ∀ c ∈ s.timerQueue, ∀ pass, c.message = .own (.packetPass pass) → PassKind pass

/-- What a host gets from the network is a frame from one of its wires, or does not concern it. -/
theorem at_host {source target : ℕ} {message : NetMessage}
    (kind : Kind N source target message) (outside : ¬ (target = N.switch ∨ target ∈ N.ports)) :
    (source ∈ N.ports ∧ target = N.hostOf source ∧ ∃ packet, message = .packetFromPort packet) ∨
      message = .other := by
  cases kind with
  | fromHost w packet port origin six source_eq target_eq message_eq =>
    exact absurd (.inr (target_eq ▸ port)) outside
  | toSwitch w packet port origin six source_eq target_eq message_eq =>
    exact absurd (.inl target_eq) outside
  | check w port source_eq target_eq message_eq => exact absurd (.inl target_eq) outside
  | fromSwitch w packet port source_eq target_eq message_eq =>
    exact absurd (.inr (target_eq ▸ port)) outside
  | toHost w packet port source_eq target_eq message_eq =>
    rw [source_eq]
    exact .inl ⟨port, target_eq, packet, message_eq⟩
  | other not_switch not_wire source_eq message_eq => exact .inr message_eq

theorem doing_dispatch {c : TimerContainer (Hosted (NodeMessage T))}
    {sys later : System (Hosted (NodeMessage T))} {memory : Memory × Nodes U}
    (inv : LossyInv N unreliable limit (plainState x)) (sound : Sound x.sys) (kinds : Kinds x.sys)
    (allowed : N.HostedAllowed O (programs nodes contents W) x .dispatch)
    (pop : x.sys.popTimer = some (c, sys))
    (handled : (N.hosted O (programs nodes contents W)).receive x.memory c.wakeup c =
      some (memory, sends))
    (all : sendAll sys sends = some later) :
    Doing N nodes (.received c sends : Record _ (ℕ × B)) := by
  obtain ⟨noWrap, times, -⟩ := allowed
  obtain ⟨-, time, -, -, front, back, split, -⟩ := sound.pop pop
  have listed : c ∈ x.sys.timerQueue := by simp [split]
  have mapped : c.map Hosted.plain ∈ (plainState x).sys.timerQueue :=
    List.mem_map.mpr ⟨c, listed, rfl⟩
  have fits : Fits sys sends := by
    have handled' := handled
    rw [← time] at handled'
    exact noWrap _ pop _ handled'
  by_cases inside : c.target = N.switch ∨ c.target ∈ N.ports
  · -- wires and switch have nothing to do with the stack
    obtain ⟨-, received⟩ := (hosted_receive handled).resolve_right fun right =>
      inside.elim right.1.1 right.1.2
    have sent (p : ℕ) (port : p ∈ N.ports) :=
      inv.sentOn_network sound pop fits received all (times rfl _ pop) port
    dsimp only [hosted] at handled
    rw [if_pos inside] at handled
    split at handled
    next message message_eq =>
      obtain ⟨r, -, same⟩ := Option.map_eq_some_iff.mp handled
      obtain ⟨-, rfl⟩ := Prod.mk.inj same
      refine .quiet _ (fun stage h => ?_) (fun stage h => ?_) sent (fun p q port => ?_)
      · rw [Record.taken, message_eq]
        rfl
      · rw [Record.given, Record.sends, List.filterMap_eq_nil_iff]
        intro send member
        obtain ⟨other, -, rfl⟩ := List.mem_map.mp member
        rfl
      · obtain ⟨address, source, target, wakeup, content, uuid⟩ := c
        have other : target ≠ N.hostOf q := by
          rintro rfl
          exact inside.elim (N.host_ne_switch q port) (N.host_not_wire q port)
        dsimp only at message_eq
        rw [message_eq]
        refine ⟨?_, if_neg fun both => other both.2⟩
        cases message <;> simp [landed, other]
    · simp at handled
  · dsimp only [hosted] at handled
    rw [if_neg inside] at handled
    split at handled
    next packet message_eq =>
      obtain ⟨⟨programs, made⟩, performed, same⟩ := Option.map_eq_some_iff.mp handled
      obtain ⟨-, rfl⟩ := Prod.mk.inj same
      refine doing_host performed (fun w other same => ?_) (fun _ own => by simp at own)
        (kinds c listed)
      obtain ⟨-, rfl⟩ : c.source = w ∧ packet = other := by simpa using same
      have plain : c.message.plain = .packetFromPort packet := congrArg Hosted.plain message_eq
      rcases at_host (inv.star.kinds _ mapped) inside with ⟨port, target, -⟩ | other
      · exact ⟨port, target, message_eq⟩
      · exact absurd (plain.symm.trans other) (by simp)
    next message no_frame message_eq =>
      obtain ⟨-, rfl⟩ := Prod.mk.inj (Option.some.inj handled)
      have plain : c.message.plain = message := congrArg Hosted.plain message_eq
      obtain rfl : message = .other := by
        rcases at_host (inv.star.kinds _ mapped) inside with ⟨-, -, packet, frame⟩ | other
        · exact (no_frame packet (plain.symm.trans frame)).elim
        · exact plain.symm.trans other
      refine .quiet _ (fun stage h => ?_) (fun _ _ => rfl) (fun _ _ => rfl) (fun p q _ => ?_)
      · rw [Record.taken, message_eq]
        rfl
      · obtain ⟨address, source, target, wakeup, content, uuid⟩ := c
        dsimp only at message_eq
        rw [message_eq]
        exact ⟨rfl, ite_self none⟩
    next message message_eq =>
      obtain ⟨⟨programs, made⟩, performed, same⟩ := Option.map_eq_some_iff.mp handled
      obtain ⟨-, rfl⟩ := Prod.mk.inj same
      refine doing_host performed (fun _ _ frame => by simp at frame) (fun other same => ?_)
        (kinds c listed)
      obtain rfl : message = other := by simpa using same
      exact message_eq

/-- Every record of a run is of one of the four kinds. -/
theorem doing_of_run (limit_ne : limit ≠ 1) {memory : Nodes U} {inputs : List (Input (ℕ × B))}
    {log : List (Record (Hosted (NodeMessage T)) (ℕ × B))}
    (run : (N.hosted O (programs nodes contents W)).machine.Run
      (N.HostedAllowed O (programs nodes contents W)) (N.hostedStart unreliable limit memory)
      inputs log x) :
    Kinds x.sys ∧ ∀ record ∈ log, Doing N nodes record := by
  induction run with
  | nil => exact ⟨by simp [Kinds, hostedStart], by simp⟩
  | @snoc inputs log new x y input before allowed step ih =>
    obtain ⟨kinds, doings⟩ := ih
    obtain ⟨sound, inputs', log', run', -⟩ := hosted_run limit_ne before
    obtain ⟨inv, -⟩ := conserved_of_run limit_ne run'
    have doing : ∀ record ∈ new, Doing N nodes record := by
      rcases step_cases step with ⟨⟨host, call⟩, sends, rfl, handled, all, rfl⟩ |
        ⟨c, sys, rfl, pop, canceled, -, rfl⟩ |
        ⟨c, sys, later, sends, rfl, pop, handled, all, sys_eq, rfl⟩
      · intro record member
        rw [List.mem_singleton.mp member]
        exact doing_act handled
      · simp
      · intro record member
        rw [List.mem_singleton.mp member]
        exact doing_dispatch inv sound kinds allowed pop handled all
    refine ⟨?_, fun record member => (List.mem_append.mp member).elim (doings record)
      (doing record)⟩
    obtain ⟨effect, -⟩ := effect_of_step sound allowed.1 step
    intro c member pass message
    -- a message in flight was so before, or has just been sent
    cases effect with
    | act a memory sends address y handled memory_eq clock queue =>
      rw [queue, List.mem_append] at member
      rcases member with old | young
      · exact kinds c old pass message
      · obtain ⟨-, -, send, listed, -, -, sent, -⟩ := mem_stamp young
        exact (doing _ (List.mem_singleton_self _)).kinds listed (sent ▸ message)
    | dispatch current front back memory sends address y split least handled memory_eq clock
        queue =>
      rw [queue, List.mem_append] at member
      rcases member with old | young
      · refine kinds c ?_ pass message
        rw [split]
        rcases List.mem_append.mp old with front | back
        · exact List.mem_append_left _ front
        · exact List.mem_append_right _ (List.mem_cons_of_mem _ back)
      · obtain ⟨-, -, send, listed, -, -, sent, -⟩ := mem_stamp young
        exact (doing _ (List.mem_singleton_self _)).kinds listed (sent ▸ message)

end Node

end Kens
