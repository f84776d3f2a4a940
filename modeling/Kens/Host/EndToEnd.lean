/-
# From transport module to transport module

What the transport modules of one host hand to IPv4 comes out at those of another host: down
through IPv4 and Ethernet, by wire, switch and wire, and up through Ethernet and IPv4. Inside of a
host nothing is lost and nothing overtakes, so that the way has the order and the losses of the
network.
-/

import Mathlib
import Kens.System.Driven
import Kens.Host.Stages

namespace Kens.Node

open Semantics Reactive Kens.Star

variable {T U B : Type} {N : Star} {O : Oracle} {nodes : ℕ → Node} {contents : ℕ → Junk}
  {W : Transports T U B} {p q h : ℕ} {pass : PacketPass}
  {log : List (Record (Hosted (NodeMessage T)) (ℕ × B))}
  {x : State (Hosted (NodeMessage T)) (Memory × Nodes U)} {unreliable : Bool} {limit : ℕ}

/-! ## The order inside of the hosts -/

/-- At every stage of every host, packets are received in the order in which they were sent, and all
of them have been received when no message is in flight. -/
def InOrder (log : List (Record (Hosted (NodeMessage T)) (ℕ × B))) (idle : Prop) : Prop :=
  ∀ stage h, log.filterMap (Record.taken (passes stage h)) <+:
      log.flatMap (Record.given (passes stage h)) ∧
    (idle → log.filterMap (Record.taken (passes stage h)) =
      log.flatMap (Record.given (passes stage h)))

theorem inOrder_of_run {memory : Nodes U} {inputs : List (Input (ℕ × B))}
    (run : (N.hosted O (programs nodes contents W)).machine.Run
      (N.HostedAllowed O (programs nodes contents W)) (N.hostedStart unreliable limit memory)
      inputs log x)
    (doings : ∀ record ∈ log, Doing N nodes record) :
    InOrder log (x.sys.timerQueue = []) := by
  intro stage h
  have prompt : ∀ record ∈ log, record.Prompt (passes stage h) :=
    fun record member => (doings record member).prompt
  have account := prompt_fifo (fun x input allowed => allowed.1) run prompt
  rw [← account]
  refine ⟨List.prefix_append _ _, fun idle => ?_⟩
  rw [idle]
  exact (List.append_nil _).symm

/-! ## What becomes of a packet -/

/-- The frames of host and wire `p` are made of packets that the transport modules hand down. -/
inductive Launched (node : Node) (p : ℕ) : Packet → PacketPass → Prop
  | mk (s : Stack) (handed : Handed) (found : Mac × Mac)
      (way : node.way handed.packet = some (found, p)) :
      Launched node p (s.frame handed.name ⟨handed.packet.buffer, p⟩ found)
        ⟨some handed.name, "IPv4", handed.packet⟩

/-- Whether Ethernet sends a packet by port `p`, and the switch forwards its frame to port `q`. -/
def headed (N : Star) (node : Node) (p q : ℕ) (pass : PacketPass) : Bool :=
  match node.way pass.packet with
  | some (found, wire) => wire = p && Switch.Reaches N.ports N.mac_table p q found.1
  | none => false

theorem destination_frame {s : Stack} {name : String} {packet : Packet} {found : Mac × Mac}
    (fits : 34 ≤ packet.getSize) : Switch.destination (s.frame name packet found) = found.1 := by
  symm
  refine Switch.eq_destination ?_
  rw [Stack.frame_buffer fits, List.append_assoc, List.take_left']
  exact Vector.length_toList

/-- The frames for port `q` are those of the packets that are headed for it. -/
theorem launched_of_outgoing {node : Node} {lows handeds : List PacketPass}
    (related : List.Forall₂ Outgoing lows handeds) :
    List.Forall₂ (Launched node p)
      ((lows.filterMap fun pass => node.launch p pass.packet).filter (N.forwardsTo p q))
      (handeds.filter (headed N node p q)) := by
  rw [List.filter_filterMap]
  refine forall₂_filterMap related fun low _ pass outgoing => ?_
  cases outgoing with
  | mk s handed =>
    rw [launch, way_outgoing, headed]
    cases way : node.way handed.packet with
    | none => exact .inl ⟨rfl, rfl⟩
    | some found_wire =>
      obtain ⟨found, wire⟩ := found_wire
      by_cases same : wire = p
      · subst same
        have fits : 34 ≤ (⟨handed.packet.buffer, wire⟩ : Packet).getSize := handed.fits
        have forwards : N.forwardsTo wire q
            (s.frame handed.name ⟨handed.packet.buffer, wire⟩ found) =
            decide (Switch.Reaches N.ports N.mac_table wire q found.1) := by
          rw [forwardsTo, destination_frame fits]
        have frame : ((some (found, wire)).filter fun way => way.2 = wire).map
            (fun way => (⟨(framed (s.outgoing handed.name handed.packet) way.1).buffer, wire⟩ :
              Packet)) = some (s.frame handed.name ⟨handed.packet.buffer, wire⟩ found) := by
          rw [Option.filter_some, decide_eq_true rfl]
          rfl
        rw [frame, Option.filter_some, forwards]
        by_cases reaches : Switch.Reaches N.ports N.mac_table wire q found.1
        · exact .inr ⟨_, by simp [reaches], by simp [reaches], .mk s handed found way⟩
        · exact .inl (by simp [reaches])
      · exact .inl (by simp [same, Option.filter])

/-- What a transport module gets is what one of the same name handed down: IPv4 has replaced the
header in front of the addresses, and an unreliable switch may have damaged the rest. -/
def Carries (unreliable : Bool) (raised handed : PacketPass) : Prop :=
  handed.source = some raised.target ∧
    ∃ frame, Stack.FrameOf handed.packet frame ∧ Switch.Faithful unreliable raised.packet frame

/-- A copy of a frame goes up to the module that the packet came from. -/
theorem Launched.receives {node : Node} {copy frame : Packet}
    (launched : Launched node p frame pass) (faithful : Switch.Faithful unreliable copy frame) :
    Stack.Receives copy ∧ ∃ name, pass.source = some name ∧ Stack.addressee copy = some name ∧
      Carries unreliable ⟨some "IPv4", name, copy⟩ pass := by
  cases launched with
  | mk s handed found way =>
    have fits : 34 ≤ (⟨handed.packet.buffer, p⟩ : Packet).getSize := handed.fits
    have made : Stack.FrameOf ⟨handed.packet.buffer, p⟩
        (s.frame handed.name ⟨handed.packet.buffer, p⟩ found) :=
      Stack.frameOf_frame fits handed.bound
    have long : 34 ≤ copy.getSize := by
      rw [faithful.1.size, made.size]
      exact fits
    -- the ethertype is in front of what a switch damages
    have same : ∀ index < 50, copy.buffer[index]? =
        (s.frame handed.name ⟨handed.packet.buffer, p⟩ found).buffer[index]? := by
      intro index early
      by_contra different
      have := faithful.1.bytes index different
      omega
    have receives : Stack.Receives copy := by
      refine Stack.receives_of_long long ?_ ?_
      · rw [same 12 (by decide)]
        exact Stack.frame_byte fits 0
      · rw [same 13 (by decide)]
        exact Stack.frame_byte fits 1
    refine ⟨receives, handed.name, rfl, ?_, rfl, _, ⟨made.size, made.payload, made.length,
      made.checksum⟩, faithful⟩
    -- both descriptions of what IPv4 does
    have accepted : Switch.Passes ⟨RoutingInfo.empty, ⟨0⟩⟩ (fun _ _ => 0) handed.name copy :=
      faithful.1.passes (Stack.accepted_frame handed.member fits _ _)
    have outcome := accepted.2
    rw [receives.ipv4] at outcome
    obtain ⟨-, some⟩ := Prod.mk.inj (Option.some.inj outcome)
    obtain ⟨name, addressee, equal⟩ := Option.map_eq_some_iff.mp some
    rw [addressee, show name = handed.name from congrArg PacketPass.target equal]

/-! ## Whole runs -/

theorem outgoing_of_doings (doings : ∀ record ∈ log, Doing N nodes record) :
    List.Forall₂ Outgoing (log.flatMap (Record.given (passes lowered h)))
      (log.filterMap (Record.taken (passes handedDown h))) := by
  induction log with
  | nil => exact .nil
  | cons record log ih =>
    have first := given_lowered (h := h) (doings record List.mem_cons_self)
    have rest := ih fun other member => doings other (List.mem_cons_of_mem _ member)
    rw [List.flatMap_cons, List.filterMap_cons]
    cases taken : record.taken (passes handedDown h) with
    | none =>
      rw [taken] at first
      rw [List.forall₂_nil_right_iff.mp first]
      exact rest
    | some pass =>
      rw [taken] at first
      exact List.rel_append first rest

/-- The way down: the frames of a host for port `q` are made of the packets that its transport
modules handed down, and all of these have left when no message is in flight. -/
theorem sent_launched {idle : Prop} (doings : ∀ record ∈ log, Doing N nodes record)
    (inOrder : InOrder log idle) (ingress : p ∈ N.ports) :
    ∃ handeds, handeds <+: log.flatMap (Record.given (passes handedDown (N.hostOf p))) ∧
      (idle → handeds = log.flatMap (Record.given (passes handedDown (N.hostOf p)))) ∧
      List.Forall₂ (Launched (nodes (N.hostOf p)) p)
        ((log.flatMap (N.hostedSent p)).filter (N.forwardsTo p q))
        (handeds.filter (headed N (nodes (N.hostOf p)) p q)) := by
  obtain ⟨low_order, low_all⟩ := inOrder lowered (N.hostOf p)
  obtain ⟨hand_order, hand_all⟩ := inOrder handedDown (N.hostOf p)
  have related := outgoing_of_doings (h := N.hostOf p) doings
  have frames : log.flatMap (N.hostedSent p) =
      (log.filterMap (Record.taken (passes lowered (N.hostOf p)))).filterMap
        fun pass => (nodes (N.hostOf p)).launch p pass.packet := by
    rw [List.filterMap_filterMap, List.filterMap_eq_flatMap_toList]
    exact List.flatMap_congr fun record member => hostedSent_eq (doings record member) ingress
  refine ⟨(log.filterMap (Record.taken (passes handedDown (N.hostOf p)))).take
    (log.filterMap (Record.taken (passes lowered (N.hostOf p)))).length,
    (List.take_prefix _ _).trans hand_order, fun idle => ?_, ?_⟩
  · rw [low_all idle, related.length_eq, List.take_length, hand_all idle]
  · have taken := List.forall₂_take
      (log.filterMap (Record.taken (passes lowered (N.hostOf p)))).length related
    rw [← List.prefix_iff_eq_take.mp low_order] at taken
    rw [frames]
    exact launched_of_outgoing taken

/-- The way up: the transport modules get the frames of which IPv4 and Ethernet are to hand them on,
and all of these when no message is in flight. -/
theorem raised_climbs {idle : Prop} (doings : ∀ record ∈ log, Doing N nodes record)
    (inOrder : InOrder log idle) (egress : q ∈ N.ports)
    (single : ∀ w ∈ N.ports, N.hostOf w = N.hostOf q → w = q)
    (valid : ∀ packet ∈ log.filterMap (N.hostedDelivered p q), Stack.Receives packet) :
    log.filterMap (Record.taken (passes (raised p) (N.hostOf q))) <+:
        (log.filterMap (N.hostedDelivered p q)).filterMap (nodes (N.hostOf q)).climbs ∧
      (idle → log.filterMap (Record.taken (passes (raised p) (N.hostOf q))) =
        (log.filterMap (N.hostedDelivered p q)).filterMap (nodes (N.hostOf q)).climbs) := by
  obtain ⟨arrive_order, arrive_all⟩ := inOrder (arriving p) (N.hostOf q)
  obtain ⟨lift_order, lift_all⟩ := inOrder (lifted p) (N.hostOf q)
  obtain ⟨raise_order, raise_all⟩ := inOrder (raised p) (N.hostOf q)
  have arrives : log.flatMap (Record.given (passes (arriving p) (N.hostOf q))) =
      (log.filterMap (N.hostedDelivered p q)).map fun packet => ⟨none, "Ethernet", packet⟩ := by
    rw [List.map_filterMap, List.filterMap_eq_flatMap_toList]
    refine List.flatMap_congr fun record member => ?_
    rw [given_arriving (doings record member) egress,
      landed_eq (doings record member) egress single]
  have arrived : ∀ pass ∈ log.filterMap (Record.taken (passes (arriving p) (N.hostOf q))),
      Stack.Receives pass.packet := by
    intro pass member
    have listed := arrive_order.subset member
    rw [arrives] at listed
    obtain ⟨packet, delivered, rfl⟩ := List.mem_map.mp listed
    exact valid packet delivered
  have lifts : log.flatMap (Record.given (passes (lifted p) (N.hostOf q))) =
      (log.filterMap (Record.taken (passes (arriving p) (N.hostOf q)))).map
        fun pass => ⟨some "Ethernet", "IPv4", pass.packet⟩ := by
    rw [List.map_filterMap, List.filterMap_eq_flatMap_toList]
    exact List.flatMap_congr fun record member => given_lifted (doings record member)
      fun pass found => arrived pass (List.mem_filterMap.mpr ⟨record, member, found⟩)
  have lifted_valid : ∀ pass ∈ log.filterMap (Record.taken (passes (lifted p) (N.hostOf q))),
      Stack.Receives pass.packet := by
    intro pass member
    have listed := lift_order.subset member
    rw [lifts] at listed
    obtain ⟨other, before, rfl⟩ := List.mem_map.mp listed
    exact arrived other before
  have raises : log.flatMap (Record.given (passes (raised p) (N.hostOf q))) =
      (log.filterMap (Record.taken (passes (lifted p) (N.hostOf q)))).filterMap
        fun pass => (nodes (N.hostOf q)).climbs pass.packet := by
    rw [List.filterMap_filterMap, List.filterMap_eq_flatMap_toList]
    exact List.flatMap_congr fun record member => given_raised (doings record member)
      fun pass found => lifted_valid pass (List.mem_filterMap.mpr ⟨record, member, found⟩)
  -- what is taken at one stage is given at the next one
  rw [raises] at raise_order raise_all
  rw [lifts] at lift_order lift_all
  rw [arrives] at arrive_order arrive_all
  have climb := lift_order.filterMap fun pass => (nodes (N.hostOf q)).climbs pass.packet
  rw [List.filterMap_map] at climb
  have enter := arrive_order.filterMap fun pass => (nodes (N.hostOf q)).climbs pass.packet
  rw [List.filterMap_map] at enter
  refine ⟨(raise_order.trans climb).trans enter, fun idle => ?_⟩
  rw [raise_all idle, lift_all idle, arrive_all idle, List.filterMap_map, List.filterMap_map]
  rfl

/-- Whether a host has the module that a packet comes from. -/
def known (node : Node) (pass : PacketPass) : Bool :=
  pass.source.any fun name => name ∈ node.host.hostModuleMap

/-- Whether a packet is bound for a module behind port `q`. -/
def destined (N : Star) (nodes : ℕ → Node) (p q : ℕ) (pass : PacketPass) : Bool :=
  headed N (nodes (N.hostOf p)) p q pass && known (nodes (N.hostOf q)) pass

/-- Copies of frames go up to the modules of the names that the packets came from. -/
theorem carries_of_launched (receiver : Node) {sender : Node} {copies frames : List Packet}
    {handeds : List PacketPass}
    (faithful : List.Forall₂ (Switch.Faithful unreliable) copies frames)
    (launched : List.Forall₂ (Launched sender p) frames handeds) :
    (∀ copy ∈ copies, Stack.Receives copy) ∧
      List.Forall₂ (Carries unreliable) (copies.filterMap receiver.climbs)
        (handeds.filter (known receiver)) := by
  have both := forall₂_comp faithful launched
  constructor
  · refine forall_mem_of_forall₂ both ?_
    rintro copy pass ⟨frame, faithful, launched⟩
    exact (launched.receives faithful).1
  · refine forall₂_filterMap both ?_
    rintro copy _ pass ⟨frame, faithful, launched⟩
    obtain ⟨-, name, source, addressee, carries⟩ := launched.receives faithful
    rw [climbs, addressee, known, source]
    by_cases listed : name ∈ receiver.host.hostModuleMap
    · exact .inr ⟨_, by simp [Option.filter, listed], by simp [listed], carries⟩
    · exact .inl (by simp [Option.filter, listed])

theorem filter_destined (N : Star) (nodes : ℕ → Node) (p q : ℕ) (handeds : List PacketPass) :
    (handeds.filter (headed N (nodes (N.hostOf p)) p q)).filter (known (nodes (N.hostOf q))) =
      handeds.filter (destined N nodes p q) := by
  rw [List.filter_filter]
  refine List.filter_congr fun pass _ => ?_
  rw [destined, Bool.and_comm]

/-- What a run raises is what it hands down, up to losses and damage in the network. -/
theorem carries_of_run (limit_ne : limit ≠ 1) (ingress : p ∈ N.ports) (egress : q ∈ N.ports)
    (single : ∀ w ∈ N.ports, N.hostOf w = N.hostOf q → w = q)
    {memory : Nodes U} {inputs : List (Input (ℕ × B))}
    (run : (N.hosted O (programs nodes contents W)).machine.Run
      (N.HostedAllowed O (programs nodes contents W)) (N.hostedStart unreliable limit memory)
      inputs log x) :
    List.SublistForall₂ (Carries unreliable)
      (log.filterMap (Record.taken (passes (raised p) (N.hostOf q))))
      ((log.flatMap (Record.given (passes handedDown (N.hostOf p)))).filter
        (destined N nodes p q)) ∧
    (limit = 0 → x.sys.timerQueue = [] →
      List.Forall₂ (Carries unreliable)
        (log.filterMap (Record.taken (passes (raised p) (N.hostOf q))))
        ((log.flatMap (Record.given (passes handedDown (N.hostOf p)))).filter
          (destined N nodes p q))) := by
  obtain ⟨-, doings⟩ := doing_of_run limit_ne run
  have inOrder := inOrder_of_run run doings
  obtain ⟨handeds, handeds_order, handeds_all, launched⟩ :=
    sent_launched (q := q) doings inOrder ingress
  obtain ⟨-, inputs', log', run', sent, delivered⟩ := hosted_run limit_ne run
  obtain ⟨inv, conserved⟩ := conserved_of_run limit_ne run'
  constructor
  · have part := conserved.part ingress egress
    rw [sent p ingress, delivered] at part
    obtain ⟨frames, faithful, inside⟩ := List.sublistForall₂_iff.mp part
    obtain ⟨chosen, launched', inside'⟩ :=
      List.sublistForall₂_iff.mp (sublistForall₂_of_sublist inside launched)
    obtain ⟨valid, carried⟩ := carries_of_launched (nodes (N.hostOf q)) faithful launched'
    obtain ⟨climbed, -⟩ := raised_climbs doings inOrder egress single valid
    refine sublistForall₂_trans climbed.sublist carried ?_
    rw [← filter_destined]
    exact (inside'.trans (handeds_order.sublist.filter _)).filter _
  · rintro rfl idle
    obtain ⟨frames, -, faithful, all⟩ := conserved.whole inv ingress egress
    rw [delivered] at faithful
    have frames_eq := all (by rw [plainState, System.map_timerQueue, idle]; rfl)
    rw [sent p ingress] at frames_eq
    rw [frames_eq] at faithful
    obtain ⟨valid, carried⟩ := carries_of_launched (nodes (N.hostOf q)) faithful launched
    rw [(raised_climbs doings inOrder egress single valid).2 idle, ← handeds_all idle,
      ← filter_destined]
    exact carried

/-! ## Under the scheduler -/

/-- A packet that entered at port `p` and reaches a transport module of a host, according to the log
of the scheduler. -/
def raisedEvent (p h : ℕ) (event : System.Event (Hosted (NodeMessage T))) : Option PacketPass :=
  (receivedEvent event).bind fun c => passes (raised p) h c.target c.message

/-- The packets that the transport modules of a host hand down in some sends. -/
def handedOver (h : ℕ) (sends : List (Send (Hosted (NodeMessage T)))) : List PacketPass :=
  sends.filterMap fun send => passes handedDown h send.target send.message

/-- The hosts have one wire each and know one neighbour, `10.0.0.12`. -/
def udpHost (h : ℕ) : Host where
  hostModuleMap := {"Ethernet", "IPv4", "UDP"}
  ports := [h - 10]
  routing := ⟨[⟨#v[2, 0, 0, 0, 0, UInt8.ofNat h], 0⟩], [], [⟨#v[10, 0, 0, 12], trioMac⟩], []⟩

theorem udpHost_running (h : ℕ) : (udpHost h).running = true := rfl

theorem udpHost_ethernet (h : ℕ) : "Ethernet" ∈ (udpHost h).hostModuleMap := by simp [udpHost]

theorem udpHost_ipv4 (h : ℕ) : "IPv4" ∈ (udpHost h).hostModuleMap := by simp [udpHost]

def udpNode (h : ℕ) : Node :=
  ⟨udpHost h, udpHost_running h, udpHost_ethernet h, udpHost_ipv4 h⟩

/-- The modules count what they get, and hand down what they are told to. -/
def counting : Transports Unit ℕ Handed where
  packetArrived count _ _ _ _ _ := some (count + 1, [])
  timerCallback count _ _ _ := some (count, [])
  act count _ _ handed := some (count, [.sendPacket handed])

/-- A datagram for `10.0.0.12`. -/
def datagram (data : UInt8) : Handed where
  name := "UDP"
  packet := ⟨List.replicate 26 0 ++ [10, 0, 0, 11, 10, 0, 0, 12] ++ [data], 0⟩
  member := by decide
  fits := by simp [Packet.getSize]
  bound := by simp [Packet.getSize]

/-- The stacks of the three hosts. -/
def udpPrograms : Programs (NodeMessage Unit) (Nodes ℕ) Handed :=
  programs udpNode (fun _ _ _ => 0) counting

/-- Two datagrams are handed down, and `run` dispatches twenty messages. The list has the number of
messages that each handler sends. -/
def udpDrives : List (Drive (ℕ × Handed)) :=
  [.act (11, datagram 1), .send, .act (11, datagram 2), .send, .run 0] ++
    ([1, 1, 1, 1, 1, 1, 1, 0, 2, 1, 1, 1, 1, 1, 0, 1, 1, 1, 1, 0].flatMap fun sends =>
      .dispatch :: (List.replicate sends .send ++ [.returns, .returns])) ++ [.leave]

end Kens.Node
