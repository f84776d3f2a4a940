/-
# The stages of the stack

On its way down a packet passes from a transport module to IPv4, to Ethernet and to a wire, and on
its way up it goes back. Every step of a run hands on at one stage what it takes at the stage
before.
-/

import Mathlib
import Kens.Host.Node

namespace Kens.Node

open Semantics Reactive Kens.Star

variable {T U B : Type} {N : Star} {O : Oracle} {nodes : ℕ → Node} {contents : ℕ → Junk}
  {W : Transports T U B} {p q h : ℕ} {stage : PacketPass → Bool}
  {record : Record (Hosted (NodeMessage T)) (ℕ × B)}
  {c : TimerContainer (Hosted (NodeMessage T))} {pass : PacketPass} {junk : Junk}
  {passed : Option PacketPass} {deeds : List (Deed (NodeMessage T))}
  {sends : List (Send (Hosted (NodeMessage T)))}

/-! ## The stages of the stack -/

/-- From the host to Ethernet, for frames that entered at port `p`. -/
def arriving (p : ℕ) (pass : PacketPass) : Bool :=
  pass.source = none && pass.target = "Ethernet" && pass.packet.origin = p

/-- From Ethernet to IPv4. -/
def lifted (p : ℕ) (pass : PacketPass) : Bool :=
  pass.source = some "Ethernet" && pass.target = "IPv4" && pass.packet.origin = p

/-- From IPv4 to a transport module. -/
def raised (p : ℕ) (pass : PacketPass) : Bool :=
  pass.source = some "IPv4" && pass.target ≠ "Ethernet" && pass.packet.origin = p

/-- From a transport module to IPv4. -/
def handedDown (pass : PacketPass) : Bool :=
  pass.source ≠ some "Ethernet" && pass.target = "IPv4"

/-- From IPv4 to Ethernet. -/
def lowered (pass : PacketPass) : Bool := pass.source = some "IPv4" && pass.target = "Ethernet"

theorem taken_pass (message : c.message = .own (.packetPass pass)) :
    (Record.received c sends : Record _ (ℕ × B)).taken (passes stage h) =
      if c.target = h ∧ stage pass then some pass else none := by
  rw [Record.taken, message]
  rfl

/-- What Ethernet or IPv4 hands on, if the host has the module for it. -/
theorem given_stack (onward : (nodes c.target).onward junk passed = some deeds)
    (performed : deeds.mapM (N.send c.target) = some sends) :
    (Record.received c sends : Record _ (ℕ × B)).given (passes stage h) =
      if c.target = h then (passed.filter fun next => next.target ≠ "Host" &&
        next.target ∈ (nodes c.target).host.hostModuleMap && stage next).toList else [] := by
  rw [Record.given, Record.sends, passes_perform performed]
  by_cases here : c.target = h
  · simp only [if_pos here]
    cases passed with
    | none =>
      obtain rfl : [] = deeds := by simpa [Node.onward] using onward
      rfl
    | some next =>
      by_cases target : next.target = "Host"
      · rcases sendPacketToModule_cases onward with (rfl | ⟨wire, frame, rfl⟩) | ⟨other, -⟩
        · simp [target, Option.filter]
        · simp [target, passOf, Option.filter]
        · exact absurd target other
      · rw [Node.onward, sendPacketToModule_module target] at onward
        obtain rfl := Option.some.inj onward
        by_cases listed : next.target ∈ (nodes c.target).host.hostModuleMap
        · by_cases selected : stage next = true <;>
            simp [listed, target, selected, passOf, Option.filter]
        · simp [listed, Option.filter]
  · simp [here]

theorem given_stack_nil (onward : (nodes c.target).onward junk passed = some deeds)
    (performed : deeds.mapM (N.send c.target) = some sends)
    (excluded : ∀ next ∈ passed, next.target = "Host" ∨ stage next = false) :
    (Record.received c sends : Record _ (ℕ × B)).given (passes stage h) = [] := by
  rw [given_stack onward performed]
  cases passed with
  | none => simp
  | some next => rcases excluded next rfl with host | out <;> simp [*, Option.filter]

/-- A packet between two modules is no frame from a wire. -/
theorem landed_pass (message : c.message = .own (.packetPass pass)) :
    landed p h (.received c sends : Record _ (ℕ × B)) = none := by
  obtain ⟨address, source, target, wakeup, content, uuid⟩ := c
  dsimp only at message
  subst message
  rfl

/-- Transport modules hand packets to IPv4 only. -/
theorem given_transport {host : ℕ} {made : List (Request T)}
    (performed : (made.map Request.deed).mapM (N.send host) = some record.sends)
    (excluded : ∀ handed : Handed, stage ⟨some handed.name, "IPv4", handed.packet⟩ = false) :
    record.given (passes stage h) = [] := by
  rw [Record.given, passes_perform performed, List.filterMap_map, List.filterMap_eq_nil_iff]
  intro request _
  cases request with
  | sendPacket handed => simp [Request.deed, passOf, excluded]
  | addTimer payload timeAfter => simp [Request.deed, passOf]

theorem stage_of_taken (found : record.taken (passes stage h) = some pass) :
    stage pass = true := by
  cases record with
  | acted => simp [Record.taken] at found
  | received c sends =>
    rw [Record.taken] at found
    unfold passes at found
    split at found
    next other _ =>
      obtain ⟨⟨-, selected⟩, rfl⟩ : (c.target = h ∧ stage other = true) ∧ other = pass := by
        simpa using found
      exact selected
    · simp at found

/-- Transport modules get packets from IPv4 only. -/
theorem taken_transport
    (taken : ∀ stage h, ∀ pass ∈ record.taken (passes stage h), pass.target ∈ IPv4.transports)
    (excluded : ∀ pass, stage pass = true → pass.target ∉ IPv4.transports) :
    record.taken (passes stage h) = none := by
  cases found : record.taken (passes stage h) with
  | none => rfl
  | some pass => exact absurd (taken stage h pass found) (excluded pass (stage_of_taken found))

theorem transport_ne {name : String} (member : name ∈ IPv4.transports) :
    name ≠ "Host" ∧ name ≠ "Ethernet" ∧ name ≠ "IPv4" := by
  refine ⟨?_, ?_, ?_⟩ <;>
  · rintro rfl
    exact absurd member (by decide)

/-! ## On the way up -/

/-- Ethernet gets all frames that the host receives. -/
theorem given_arriving (doing : Doing N nodes record) (port : q ∈ N.ports) :
    record.given (passes (arriving p) (N.hostOf q)) =
      ((landed p (N.hostOf q) record).map fun packet => ⟨none, "Ethernet", packet⟩).toList := by
  cases doing with
  | quiet record taken given sent nothing =>
    rw [given, (nothing p q port).1]
    rfl
  | frame c packet port target message =>
    obtain ⟨address, source, target', wakeup, content, uuid⟩ := c
    dsimp only at message
    subst message
    by_cases on : target' = N.hostOf q ∧ packet.origin = p
    · simp [Record.given, Record.sends, passes, landed, arriving, on]
    · simp [Record.given, Record.sends, passes, landed, arriving, on]
  | stack c pass junk s s' passed deeds sends kind inner message routing handled onward
      performed =>
    rw [landed_pass message, given_stack_nil onward performed]
    · rfl
    · intro other member
      right
      rw [arriving, (kind.next inner handled).source other member]
      rfl
  | transport record host made performed taken nothing delivered =>
    rw [given_transport performed (by simp [arriving]), nothing]
    rfl

/-- Ethernet hands frames to IPv4. -/
theorem given_lifted (doing : Doing N nodes record)
    (valid : ∀ pass ∈ record.taken (passes (arriving p) h), Stack.Receives pass.packet) :
    record.given (passes (lifted p) h) = ((record.taken (passes (arriving p) h)).map
      fun pass => ⟨some "Ethernet", "IPv4", pass.packet⟩).toList := by
  cases doing with
  | quiet record taken given sent nothing =>
    rw [given, taken]
    rfl
  | frame c packet port target message =>
    simp [Record.given, Record.sends, Record.taken, message, passes, lifted]
  | stack c pass junk s s' passed deeds sends kind inner message routing handled onward
      performed =>
    rw [taken_pass message] at valid ⊢
    rw [given_stack onward performed]
    cases kind.next inner handled with
    | lift packet =>
      have listed := (nodes h).ipv4
      by_cases here : c.target = h
      · by_cases origin : packet.origin = p <;>
          simp [lifted, arriving, Option.filter, listed, here, origin]
      · simp [here]
    | divert packet =>
      by_cases on : c.target = h ∧ packet.origin = p
      · have receives := valid ⟨none, "Ethernet", packet⟩ (by simp [arriving, on])
        rw [receives.ethernet s junk] at handled
        simp at handled
      · simp [lifted, arriving, Option.filter, on]
    | drop packet => simp [arriving]
    | raise name packet member => simp [lifted, arriving, Option.filter]
    | lower s handed => simp [lifted, arriving, Option.filter]
    | send s handed found addresses => cases found <;> simp [arriving, Option.filter]
  | transport record host made performed taken nothing delivered =>
    rw [taken_transport taken fun pass selected => ?_, given_transport performed fun handed => ?_]
    · rfl
    · simp [lifted, (transport_ne handed.member).2.1]
    · have target : pass.target = "Ethernet" := by
        simp only [arriving, Bool.and_eq_true, decide_eq_true_eq] at selected
        exact selected.1.2
      rw [target]
      decide

/-- What IPv4 hands to a transport module of the host, if the frame is for one. -/
def climbs (node : Node) (packet : Packet) : Option PacketPass :=
  ((Stack.addressee packet).filter fun name => name ∈ node.host.hostModuleMap).map fun name =>
    ⟨some "IPv4", name, packet⟩

/-- IPv4 hands frames to the transport modules. -/
theorem given_raised (doing : Doing N nodes record)
    (valid : ∀ pass ∈ record.taken (passes (lifted p) h), Stack.Receives pass.packet) :
    record.given (passes (raised p) h) =
      ((record.taken (passes (lifted p) h)).bind
        fun pass => (nodes h).climbs pass.packet).toList := by
  cases doing with
  | quiet record taken given sent nothing =>
    rw [given, taken]
    rfl
  | frame c packet port target message =>
    simp [Record.given, Record.sends, Record.taken, message, passes, raised]
  | stack c pass junk s s' passed deeds sends kind inner message routing handled onward
      performed =>
    rw [taken_pass message] at valid ⊢
    rw [given_stack onward performed]
    cases kind.next inner handled with
    | drop packet =>
      by_cases on : c.target = h ∧ packet.origin = p
      · have receives := valid ⟨some "Ethernet", "IPv4", packet⟩ (by simp [lifted, on])
        rw [receives.ipv4 s junk] at handled
        obtain ⟨-, none⟩ := Prod.mk.inj (Option.some.inj handled)
        simp [lifted, on, climbs, Option.map_eq_none_iff.mp none]
      · simp [lifted, on]
    | raise name packet member =>
      by_cases on : c.target = h ∧ packet.origin = p
      · have receives := valid ⟨some "Ethernet", "IPv4", packet⟩ (by simp [lifted, on])
        rw [receives.ipv4 s junk] at handled
        obtain ⟨-, some⟩ := Prod.mk.inj (Option.some.inj handled)
        obtain ⟨other, addressee, same⟩ := Option.map_eq_some_iff.mp some
        obtain rfl : other = name := congrArg PacketPass.target same
        by_cases listed : other ∈ (nodes h).host.hostModuleMap <;>
          simp [raised, lifted, on, climbs, addressee, Option.filter, listed, transport_ne member]
      · by_cases here : c.target = h
        · have origin : packet.origin ≠ p := fun same => on ⟨here, same⟩
          simp [raised, lifted, Option.filter, origin]
        · simp [here]
    | lift packet => simp [raised, lifted, Option.filter]
    | divert packet => simp [raised, lifted, Option.filter]
    | lower s handed => simp [raised, lifted, Option.filter, transport_ne handed.member]
    | send s handed found addresses => cases found <;> simp [lifted, Option.filter]
  | transport record host made performed taken nothing delivered =>
    rw [taken_transport taken fun pass selected => ?_, given_transport performed fun handed => ?_]
    · rfl
    · simp [raised, transport_ne handed.member]
    · have target : pass.target = "IPv4" := by
        simp only [lifted, Bool.and_eq_true, decide_eq_true_eq] at selected
        exact selected.1.2
      rw [target]
      decide

/-- A host with a single wire gets all its frames from this wire. -/
theorem landed_eq (doing : Doing N nodes record) (egress : q ∈ N.ports)
    (single : ∀ w ∈ N.ports, N.hostOf w = N.hostOf q → w = q) :
    landed p (N.hostOf q) record = N.hostedDelivered p q record := by
  cases doing with
  | quiet record taken given sent nothing =>
    obtain ⟨landed, delivered⟩ := nothing p q egress
    rw [landed, delivered]
  | frame c packet port target message =>
    obtain ⟨address, source, target', wakeup, content, uuid⟩ := c
    dsimp only at message target port
    subst message
    by_cases here : target' = N.hostOf q
    · obtain rfl : source = q := single source port (target.symm.trans here)
      by_cases origin : packet.origin = p <;>
        simp [landed, hostedDelivered, here, origin, Hosted.plain, payload, Option.filter]
    · simp [landed, hostedDelivered, here]
  | stack c pass junk s s' passed deeds sends kind inner message routing handled onward
      performed =>
    rw [landed_pass message, hostedDelivered, message]
    split <;> rfl
  | transport record host made performed taken nothing delivered =>
    rw [nothing, delivered]

/-! ## On the way down -/

/-- What IPv4 makes of a packet that a transport module hands down. -/
inductive Outgoing : PacketPass → PacketPass → Prop
  | mk (s : Stack) (handed : Handed) :
      Outgoing ⟨some "IPv4", "Ethernet", s.outgoing handed.name handed.packet⟩
        ⟨some handed.name, "IPv4", handed.packet⟩

/-- IPv4 hands to Ethernet what the transport modules hand to IPv4. -/
theorem given_lowered (doing : Doing N nodes record) :
    List.Forall₂ Outgoing (record.given (passes lowered h))
      (record.taken (passes handedDown h)).toList := by
  cases doing with
  | quiet record taken given sent nothing =>
    rw [given, taken]
    exact .nil
  | frame c packet port target message =>
    simp [Record.given, Record.sends, Record.taken, message, passes, lowered]
  | stack c pass junk s s' passed deeds sends kind inner message routing handled onward
      performed =>
    rw [taken_pass message, given_stack onward performed]
    cases kind.next inner handled with
    | lower s handed =>
      have listed := (nodes h).ethernet
      by_cases here : c.target = h
      · simp [lowered, handedDown, Option.filter, here, listed, transport_ne handed.member,
          Outgoing.mk]
      · simp [here]
    | drop packet => simp [handedDown]
    | lift packet => simp [lowered, handedDown, Option.filter]
    | divert packet => simp [lowered, handedDown, Option.filter]
    | raise name packet member =>
      simp [lowered, handedDown, Option.filter, transport_ne member]
    | send s handed found addresses => cases found <;> simp [handedDown, Option.filter]
  | transport record host made performed taken nothing delivered =>
    rw [taken_transport taken fun pass selected => ?_, given_transport performed fun handed => ?_]
    · exact .nil
    · simp [lowered, transport_ne handed.member]
    · have target : pass.target = "IPv4" := by
        simp only [handedDown, Bool.and_eq_true, decide_eq_true_eq] at selected
        exact selected.2
      rw [target]
      decide

/-- The frame that leaves by port `p` for a packet that IPv4 hands to Ethernet, if it does. -/
def launch (node : Node) (p : ℕ) (packet : Packet) : Option Packet :=
  ((node.way packet).filter fun way => way.2 = p).map fun way => ⟨(framed packet way.1).buffer, p⟩

/-- IPv4 leaves alone what the way of a packet depends on. -/
theorem way_outgoing (node : Node) (s : Stack) (handed : Handed) :
    node.way (s.outgoing handed.name handed.packet) = node.way handed.packet := by
  unfold way
  rw [Stack.outgoing_ipAt handed.fits (by decide), Stack.outgoing_ipAt handed.fits (by decide)]

theorem outgoing_size (s : Stack) (handed : Handed) :
    (s.outgoing handed.name handed.packet).getSize = handed.packet.getSize :=
  Packet.getSize_overwrite (Stack.outgoing_room handed.fits)

/-- A packet for a module does not leave the host. -/
theorem own_of_onward {node : Node} (onward : node.onward junk passed = some deeds)
    (module : ∀ next ∈ passed, next.target ≠ "Host") :
    ∀ deed ∈ deeds, ∃ message time, deed = .sendOwn message time := by
  intro deed member
  cases passed with
  | none =>
    obtain rfl : [] = deeds := by simpa [Node.onward] using onward
    simp at member
  | some next =>
    rw [Node.onward, sendPacketToModule_module (module next rfl)] at onward
    obtain rfl := Option.some.inj onward
    split at member
    · exact ⟨_, _, List.mem_singleton.mp member⟩
    · simp at member

/-- The frame of a packet that Ethernet has addressed. -/
theorem leaves_onward {node : Node} {found : Option (Mac × Mac)} {packet : Packet}
    (fits : 34 ≤ packet.getSize)
    (addresses : Ethernet.addresses node.host.routing (packet.ipAt 30) (packet.ipAt 26) =
      some found)
    (onward : node.onward junk (found.map fun found =>
      ⟨some "Ethernet", "Host", framed packet found⟩) = some deeds) :
    deeds.filterMap (Deed.leaves N (N.hostOf p) p) = (node.launch p packet).toList := by
  cases found with
  | none =>
    obtain rfl : [] = deeds := by simpa [Node.onward] using onward
    simp [launch, way, addresses]
  | some found =>
    obtain ⟨port, wire, selected, connected, rfl⟩ := sendPacketToModule_host fits onward
    by_cases same : wire = p <;>
      simp [launch, way, addresses, selected, connected, Deed.leaves, same, Option.filter]

theorem hostedSent_send {s : Stack} {handed : Handed} {found : Option (Mac × Mac)}
    (addresses : Ethernet.addresses (nodes c.target).host.routing (handed.packet.ipAt 30)
      (handed.packet.ipAt 26) = some found)
    (onward : (nodes c.target).onward junk (found.map fun found =>
      ⟨some "Ethernet", "Host", s.frame handed.name handed.packet found⟩) = some deeds)
    (performed : deeds.mapM (N.send c.target) = some sends) :
    N.hostedSent p (.received c sends : Record _ (ℕ × B)) =
      if c.target = N.hostOf p then
        ((nodes (N.hostOf p)).launch p (s.outgoing handed.name handed.packet)).toList
      else [] := by
  change sentOn (fun message => payload message.plain) (N.hostOf p) p sends = _
  rw [sentOn_perform performed]
  split
  next here =>
    rw [here] at addresses onward ⊢
    have fits : 34 ≤ (s.outgoing handed.name handed.packet).getSize := by
      rw [outgoing_size]
      exact handed.fits
    have destination : (s.outgoing handed.name handed.packet).ipAt 30 = handed.packet.ipAt 30 :=
      Stack.outgoing_ipAt handed.fits (by decide)
    have source : (s.outgoing handed.name handed.packet).ipAt 26 = handed.packet.ipAt 26 :=
      Stack.outgoing_ipAt handed.fits (by decide)
    rw [← destination, ← source] at addresses
    exact leaves_onward fits addresses onward
  next elsewhere =>
    rw [List.filterMap_eq_nil_iff]
    intro deed _
    cases deed with
    | sendFrame wire frame => exact if_neg fun both => elsewhere both.1
    | sendOwn message time => rfl

/-- The frames of a host are those of the packets that IPv4 hands to Ethernet. -/
theorem hostedSent_eq (doing : Doing N nodes record) (port : p ∈ N.ports) :
    N.hostedSent p record = ((record.taken (passes lowered (N.hostOf p))).bind
      fun pass => (nodes (N.hostOf p)).launch p pass.packet).toList := by
  have nothing {host : ℕ} {deeds : List (Deed (NodeMessage T))}
      (performed : deeds.mapM (N.send host) = some record.sends)
      (own : ∀ deed ∈ deeds, ∃ message time, deed = .sendOwn message time) :
      N.hostedSent p record = [] := by
    rw [hostedSent, sentOn_perform performed, List.filterMap_eq_nil_iff]
    intro deed member
    obtain ⟨message, time, rfl⟩ := own deed member
    rfl
  cases doing with
  | quiet record taken given sent nothing =>
    rw [sent p port, taken]
    rfl
  | frame c packet port target message =>
    simp [hostedSent, Record.sends, sentOn, sendOn, Hosted.plain, payload, Record.taken, message,
      passes]
  | stack c pass junk s s' passed deeds sends kind inner message routing handled onward
      performed =>
    rw [taken_pass message]
    cases kind.next inner handled with
    | send other handed found addresses =>
      rw [routing] at addresses
      rw [hostedSent_send addresses onward performed]
      by_cases here : c.target = N.hostOf p <;> simp [here, lowered]
    | drop packet =>
      rw [nothing performed (own_of_onward onward (by simp))]
      simp [lowered]
    | lift packet =>
      rw [nothing performed (own_of_onward onward (by simp))]
      simp [lowered]
    | divert packet =>
      rw [nothing performed (own_of_onward onward (by simp))]
      simp [lowered]
    | raise name packet member =>
      rw [nothing performed (own_of_onward onward (by simp [transport_ne member]))]
      simp [lowered]
    | lower _ handed =>
      rw [nothing performed (own_of_onward onward (by simp))]
      simp [lowered]
  | transport record host made performed taken _ delivered =>
    rw [taken_transport taken fun pass selected => ?_, nothing performed fun deed member => ?_]
    · rfl
    · obtain ⟨request, -, rfl⟩ := List.mem_map.mp member
      cases request with
      | sendPacket handed => exact ⟨_, _, rfl⟩
      | addTimer payload timeAfter => exact ⟨_, _, rfl⟩
    · have target : pass.target = "Ethernet" := by
        simp only [lowered, Bool.and_eq_true, decide_eq_true_eq] at selected
        exact selected.2
      rw [target]
      decide

end Kens.Node
