/-
# A star around any switch

The star network of `Kens.Networking.Star` with a switch that may be unreliable and whose output
queues may be limited. Only the handler of a frame at the switch depends on these settings. All
other steps are those of a star with a reliable and unlimited switch, so that the invariant is the
one of `Star`, for the state in which the two settings are masked.
-/

import Mathlib
import Kens.Networking.Forwarding
import Kens.Networking.Delivery

namespace Kens

open Semantics Reactive NetworkUtil

namespace Switch

/-! ## Copies that are handed to the link -/

variable {now inWireID wireID : ℕ} {link link' : Link} {copies : List Copy} {copy : Copy}
  {switch : Switch} {packet : Packet} {sends : List (Send NetMessage)}

/-- What the calls of `sendPacket` for some copies leave as it was, and what they send. -/
structure Sent (now : ℕ) (copies : List Copy) (link link' : Link)
    (new : List (Send NetMessage)) : Prop where
  settings : link'.id = link.id ∧ link'.bps = link.bps ∧
    link'.max_queue_length = link.max_queue_length
  avail : link'.nextAvailable = link.nextAvailable
  within : link.WithinLimit → link'.WithinLimit
  checks : ∀ send ∈ new, send.source = link.id ∧ send.target = link.id ∧
    ∃ wireID ∈ copies.map Copy.wireID, send.message = .checkQueue wireID
  paired : link.max_queue_length ≠ 1 →
    ∀ (queue : List (TimerContainer NetMessage)) (address uuid : ℕ),
      (∀ port, link.OneCheck queue port) →
      ∀ port, link'.OneCheck (queue ++ stamp now address uuid new) port

/-- One call of `sendPacket`. -/
theorem sent_sendPacket {new : List (Send NetMessage)}
    (sent : link.sendPacket now copy.wireID copy.packet copy.draw = some (link', new)) :
    Sent now [copy] link link' new := by
  have step : (Link.operations fun _ _ => 0).step link
      (.sendPacket now copy.wireID copy.packet copy.draw) = some (link', _) :=
    Option.map_eq_some_iff.mpr ⟨_, sent, rfl⟩
  obtain ⟨-, link_eq, new_eq⟩ := Link.sendPacket_eq_some sent
  refine ⟨?_, ?_, fun within => (within.step_iff step).mpr trivial, ?_, ?_⟩
  · rw [link_eq]
    exact ⟨rfl, rfl, rfl⟩
  · rw [link_eq]
  · intro send member
    rw [new_eq] at member
    split at member
    · rw [List.mem_singleton.mp member]
      exact ⟨rfl, rfl, copy.wireID, by simp, rfl⟩
    · simp at member
  · intro limit queue address uuid paired port
    exact (paired port).sendPacket sent fun one => absurd one limit

/-- Several copies, one after the other. -/
theorem Sent.append {early late : List Copy} {middle : Link} {first second : List (Send NetMessage)}
    (h : Sent now early link middle first) (h' : Sent now late middle link' second) :
    Sent now (early ++ late) link link' (first ++ second) where
  settings := ⟨h'.settings.1.trans h.settings.1, h'.settings.2.1.trans h.settings.2.1,
    h'.settings.2.2.trans h.settings.2.2⟩
  avail := h'.avail.trans h.avail
  within within := h'.within (h.within within)
  checks send member := by
    rw [List.map_append]
    rcases List.mem_append.mp member with member | member
    · obtain ⟨source, target, wireID, listed, message⟩ := h.checks send member
      exact ⟨source, target, wireID, List.mem_append_left _ listed, message⟩
    · obtain ⟨source, target, wireID, listed, message⟩ := h'.checks send member
      exact ⟨source.trans h.settings.1, target.trans h.settings.1, wireID,
        List.mem_append_right _ listed, message⟩
  paired limit queue address uuid paired := by
    rw [stamp_append, ← List.append_assoc]
    exact h'.paired (by rwa [h.settings.2.2]) _ _ _ (h.paired limit _ _ _ paired)

theorem sent_of_foldlM {all : List (Send NetMessage)}
    (handed : copies.foldlM (sendCopy now) (link, sends) = some (link', all)) :
    ∃ new, all = sends ++ new ∧ Sent now copies link link' new := by
  induction copies generalizing link sends with
  | nil =>
    obtain ⟨rfl, rfl⟩ : link = link' ∧ sends = all := by simpa using handed
    refine ⟨[], by simp, ⟨rfl, rfl, rfl⟩, rfl, id, by simp, ?_⟩
    intro limit queue address uuid paired port
    simpa [stamp] using paired port
  | cons copy rest ih =>
    rw [List.foldlM_cons] at handed
    obtain ⟨⟨middle, some_sends⟩, one, later⟩ := Option.bind_eq_some_iff.mp handed
    obtain ⟨⟨middle', first⟩, sent, same⟩ := Option.bind_eq_some_iff.mp one
    obtain ⟨rfl, rfl⟩ : middle' = middle ∧ sends ++ first = some_sends := by simpa using same
    obtain ⟨second, rfl, h⟩ := ih later
    refine ⟨first ++ second, List.append_assoc .., ?_⟩
    exact (sent_sendPacket sent).append h

/-- Copies for different ports of a link within its limits reach their queues. -/
theorem sent_sendCopies (within : link.WithinLimit) (once : (copies.map Copy.wireID).Nodup) :
    ∃ link' new, sendCopies now link copies = some (link', new) ∧ Queued copies link link' ∧
      Sent now copies link link' new := by
  obtain ⟨link', all, handed, queued⟩ := @foldlM_sendCopy now link copies within once []
  obtain ⟨new, same, sent⟩ := sent_of_foldlM handed
  rw [List.nil_append] at same
  exact ⟨link', all, handed, queued, same ▸ sent⟩

/-! ## The copies of a frame -/

/-- The copy is the frame, up to what an unreliable switch does to it. -/
def Faithful (unreliable : Bool) (copy frame : Packet) : Prop :=
  Altered frame copy ∧ (unreliable = false → copy = frame)

/-- Whether a frame that comes from port `p` is copied to port `q`. -/
def Reaches (ports : List ℕ) (mac_table : ℕ → List ℕ) (p q : ℕ) (mac : Mac) : Prop :=
  p ≠ q ∧ (mac = Mac.broadcast ∨ arrayToUINT64 mac ∈ mac_table q ∨
    ∀ w ∈ ports, p ≠ w → arrayToUINT64 mac ∉ mac_table w)

instance (ports : List ℕ) (mac_table : ℕ → List ℕ) (p q : ℕ) (mac : Mac) :
    Decidable (Reaches ports mac_table p q mac) :=
  inferInstanceAs (Decidable (_ ∧ _))

theorem registered_iff_mem (mac : Mac) :
    switch.registered inWireID (arrayToUINT64 mac) wireID = true ↔
      inWireID ≠ wireID ∧ (mac = Mac.broadcast ∨ arrayToUINT64 mac ∈ switch.mac_table wireID) := by
  simp [registered, arrayToUINT64_inj (by decide : 6 ≤ 8)]

/-- A switch hands to its link one faithful copy for each port that the frame reaches. -/
theorem packetArrived_copies (six : 6 ≤ packet.getSize) (junk : Junk) (choices : Choices)
    (now inWireID : ℕ) :
    ∃ copies, packetArrived junk choices switch now inWireID packet =
        (sendCopies now switch.link copies).map
          (fun sent => ({ switch with link := sent.1 }, sent.2)) ∧
      copies.map Copy.wireID = switch.ports.filter (fun wireID =>
        Reaches switch.ports switch.mac_table inWireID wireID (destination packet)) ∧
      ∀ copy ∈ copies, Faithful switch.unreliable copy.packet packet := by
  obtain ⟨mac, read, bytes⟩ := readArray_destination junk six
  obtain rfl := eq_destination bytes
  cases found : (switch.ports.zipIdx.any fun entry =>
      switch.registered inWireID (arrayToUINT64 (destination packet)) entry.1) with
  | true =>
    choose copyOf cloned altered same using clone_altered switch junk choices packet
    have sent := @packetArrived_known junk choices switch now inWireID packet _ _ read found
      fun entry _ _ => cloned entry
    rw [← sendCopies_copiesFor] at sent
    refine ⟨_, sent, ?_, ?_⟩
    · rw [wireIDs_copiesFor]
      apply List.filter_congr
      intro wireID port
      obtain ⟨entry, listed, chosen⟩ := List.any_eq_true.mp found
      obtain ⟨other, somewhere⟩ := (registered_iff_mem _).mp chosen
      rw [Bool.eq_iff_iff, registered_iff_mem, decide_eq_true_eq, Reaches]
      refine and_congr_right fun _ => ⟨fun either => either.imp_right .inl, ?_⟩
      rintro (broadcast | here | nowhere)
      · exact .inl broadcast
      · exact .inr here
      · -- the port that the first loop found is another one where the address is registered
        exact .inl (somewhere.resolve_right
          (nowhere entry.1 (List.fst_mem_of_mem_zipIdx listed) other))
    · intro copy member
      obtain ⟨-, -, entry, packet_eq⟩ := mem_copiesFor member
      rw [packet_eq]
      exact ⟨altered entry, same entry⟩
  | false =>
    have sent := @packetArrived_unknown junk choices switch now inWireID packet _ read found
    have flooded := @sendCopies_copiesFor switch.ports now (fun wireID => inWireID ≠ wireID)
      (fun _ => packet) choices.draw switch.link
    rw [← flooded] at sent
    refine ⟨_, sent, ?_, ?_⟩
    · rw [wireIDs_copiesFor]
      apply List.filter_congr
      intro wireID port
      rw [Bool.eq_iff_iff, decide_eq_true_eq, decide_eq_true_eq, Reaches]
      refine ⟨fun other => ⟨other, .inr (.inr ?_)⟩, fun both => both.1⟩
      intro w listed other here
      rw [← List.zipIdx_map_fst 0 switch.ports, List.mem_map] at listed
      obtain ⟨entry, indexed, rfl⟩ := listed
      exact List.any_eq_false.mp found entry indexed
        ((registered_iff_mem _).mpr ⟨other, .inr here⟩)
    · intro copy member
      obtain ⟨-, -, -, packet_eq⟩ := mem_copiesFor member
      rw [packet_eq]
      exact ⟨altered_self packet, fun _ => rfl⟩

end Switch

namespace Star

open Switch

/-! ## Masking the settings -/

/-- The same memory with a reliable switch and unlimited queues. -/
def mask (m : Memory) : Memory :=
  { m with
    switch := { m.switch with
      unreliable := false
      link := { m.switch.link with max_queue_length := 0 } } }

def masked (x : State NetMessage Memory) : State NetMessage Memory := ⟨x.sys, mask x.memory⟩

/-- The start of a star with a given switch. -/
def startWith (N : Star) (unreliable : Bool) (limit : ℕ) : State NetMessage Memory where
  sys := {}
  memory :=
    { switch :=
        { link := { id := N.switch, bps := N.switchBps, max_queue_length := limit }
          ports := N.ports
          mac_table := N.mac_table
          unreliable := unreliable }
      wires := N.wireStart }

variable {N : Star} {O : Oracle} {p q w v : ℕ} {m m' : Memory} {now : ℕ}
  {c : TimerContainer NetMessage} {packet : Packet} {sends : List (Send NetMessage)}
  {unreliable : Bool} {limit : ℕ}

/-- A check does not look at the limit. -/
theorem checkQueue_mask {quotient : ℕ → ℕ → ℕ} {link link' : Link}
    (checked : link.checkQueue quotient now w = some (link', sends)) :
    ({ link with max_queue_length := 0 } : Link).checkQueue quotient now w =
        some ({ link' with max_queue_length := 0 }, sends) ∧
      link'.max_queue_length = link.max_queue_length := by
  unfold Link.checkQueue at checked ⊢
  dsimp only at checked ⊢
  split at checked
  · simp at checked
  next packet queue head =>
    split_ifs at checked ⊢ with free more wait
    all_goals
      obtain ⟨rfl, rfl⟩ := Prod.mk.inj (Option.some.inj checked)
      exact ⟨rfl, rfl⟩

/-- Only a frame at the switch is handled in a way of its own. -/
theorem receive_mask (elsewhere : c.target = N.switch → ∃ w, c.message = .checkQueue w)
    (handled : (N.modules O).receive m now c = some (m', sends)) :
    (N.modules O).receive (mask m) now c = some (mask m', sends) ∧
      m'.switch.unreliable = m.switch.unreliable ∧
      m'.switch.link.max_queue_length = m.switch.link.max_queue_length ∧
      (m.switch.link.WithinLimit → m'.switch.link.WithinLimit) := by
  by_cases target : c.target = N.switch
  · obtain ⟨w, message⟩ := elsewhere target
    obtain ⟨link', checked, rfl⟩ := receive_check target message handled
    obtain ⟨checked', limit⟩ := checkQueue_mask checked
    have step : (Link.operations O.quotient).step m.switch.link (.checkQueue now w) =
        some (link', _) := Option.map_eq_some_iff.mpr ⟨_, checked, rfl⟩
    refine ⟨?_, rfl, limit, fun within => (within.step_iff step).mpr trivial⟩
    dsimp only [modules]
    rw [if_pos target, message]
    exact Option.map_eq_some_iff.mpr ⟨_, checked', rfl⟩
  · dsimp only [modules] at handled ⊢
    rw [if_neg target] at handled ⊢
    by_cases port : c.target ∈ N.ports
    · rw [if_pos port] at handled ⊢
      obtain ⟨r, received, same⟩ := Option.map_eq_some_iff.mp handled
      obtain ⟨rfl, rfl⟩ : _ = m' ∧ r.2 = sends := by simpa using same
      exact ⟨Option.map_eq_some_iff.mpr ⟨r, received, rfl⟩, rfl, rfl, id⟩
    · rw [if_neg port] at handled ⊢
      obtain ⟨rfl, rfl⟩ : m = m' ∧ [] = sends := by simpa using handled
      exact ⟨rfl, rfl, rfl, id⟩

/-- What a frame is copied to. -/
def forwardsTo (N : Star) (p q : ℕ) (packet : Packet) : Bool :=
  Reaches N.ports N.mac_table p q (destination packet)

/-- The settings of the switch, and that no queue is longer than the limit. -/
structure Settings (unreliable : Bool) (limit : ℕ) (m : Memory) : Prop where
  unreliable_eq : m.switch.unreliable = unreliable
  limit_eq : m.switch.link.max_queue_length = limit
  within : m.switch.link.WithinLimit

/-- What the handler of a message in flight does, in a star with any switch. -/
inductive LossyHandled (N : Star) (quotient : ℕ → ℕ → ℕ) (unreliable : Bool) (m : Memory)
    (c : TimerContainer NetMessage) (m' : Memory) (sends : List (Send NetMessage)) : Prop
  | frame (w : ℕ) (packet : Packet) (copies : List Copy) (link' : Link)
      (port : w ∈ N.ports) (origin : packet.origin = w)
      (source : c.source = w) (target : c.target = N.switch)
      (message : c.message = .packetFromPort packet)
      (chosen : copies.map Copy.wireID = N.ports.filter (N.forwardsTo w · packet))
      (faithful : ∀ copy ∈ copies, Faithful unreliable copy.packet packet)
      (queued : Queued copies m.switch.link link')
      (sent : Sent c.wakeup copies m.switch.link link' sends)
      (memory : m' = { m with switch := { m.switch with link := link' } })
  | plain (handled : Handled N quotient (mask m) c (mask m') sends)
      (elsewhere : c.target = N.switch → ∃ w, c.message = .checkQueue w)

theorem lossyHandled_of_receive (wired : Wired N (mask m)) (settings : Settings unreliable limit m)
    (kind : Kind N c.source c.target c.message)
    (fits : TimeFits O (mask m) c)
    (handled : (N.modules O).receive m c.wakeup c = some (m', sends)) :
    LossyHandled N O.quotient unreliable m c m' sends ∧ Settings unreliable limit m' := by
  have plain (elsewhere : c.target = N.switch → ∃ w, c.message = .checkQueue w) :
      LossyHandled N O.quotient unreliable m c m' sends ∧ Settings unreliable limit m' := by
    obtain ⟨same, unreliable_eq, limit_eq, within⟩ := receive_mask elsewhere handled
    exact ⟨.plain (handled_of_receive wired kind fits same) elsewhere,
      unreliable_eq.trans settings.unreliable_eq, limit_eq.trans settings.limit_eq,
      within settings.within⟩
  have not_switch {w : ℕ} (port : w ∈ N.ports) : w ≠ N.switch :=
    fun same => N.switch_not_wire (same ▸ port)
  cases kind with
  | fromHost w packet port origin six source_eq target_eq message_eq =>
    exact plain fun target => absurd (target_eq.symm.trans target) (not_switch port)
  | fromSwitch w packet port source_eq target_eq message_eq =>
    exact plain fun target => absurd (target_eq.symm.trans target) (not_switch port)
  | check w port source_eq target_eq message_eq => exact plain fun _ => ⟨w, message_eq⟩
  | toHost w packet port source_eq target_eq message_eq =>
    exact plain fun target => absurd (target_eq.symm.trans target) (N.host_ne_switch w port)
  | other elsewhere not_wire source_eq message_eq =>
    exact plain fun target => absurd target elsewhere
  | toSwitch w packet port origin six source_eq target_eq message_eq =>
    obtain ⟨copies, arrived, chosen, faithful⟩ := @packetArrived_copies m.switch packet six O.junk
      (O.choices c) c.wakeup c.source
    have ports : m.switch.ports = N.ports := wired.ports
    have table : m.switch.mac_table = N.mac_table := wired.table
    rw [ports, table, source_eq] at chosen
    rw [settings.unreliable_eq] at faithful
    obtain ⟨link', new, handed, queued, sent⟩ := @sent_sendCopies c.wakeup m.switch.link copies
      settings.within (chosen ▸ N.nodup.filter _)
    rw [handed] at arrived
    have value : (N.modules O).receive m c.wakeup c =
        some ({ m with switch := { m.switch with link := link' } }, new) := by
      dsimp only [modules]
      rw [if_pos target_eq, message_eq]
      dsimp only
      rw [arrived]
      rfl
    rw [value] at handled
    obtain ⟨rfl, rfl⟩ : _ = m' ∧ new = sends := by simpa using handled
    exact ⟨.frame w packet copies link' port origin source_eq target_eq message_eq chosen faithful
      queued sent rfl, settings.unreliable_eq, sent.settings.2.2.trans settings.limit_eq,
      sent.within settings.within⟩

/-! ## The invariant -/

/-- What holds of a star with any switch between two steps. -/
structure LossyInv (N : Star) (unreliable : Bool) (limit : ℕ) (x : State NetMessage Memory) :
    Prop where
  star : Inv N (masked x)
  settings : Settings unreliable limit x.memory

theorem lossyInv_start : LossyInv N unreliable limit (N.startWith unreliable limit) where
  star := inv_start
  settings := ⟨rfl, rfl, fun _ _ => Nat.zero_le _⟩

variable {x y : State NetMessage Memory} {front back : List (TimerContainer NetMessage)}

/-- The pairing does not look at the limit. -/
theorem oneCheck_mask {link : Link} {queue : List (TimerContainer NetMessage)} {port : ℕ} :
    ({ link with max_queue_length := 0 } : Link).OneCheck queue port ↔ link.OneCheck queue port :=
  ⟨fun h => h.frame rfl rfl rfl, fun h => h.frame rfl rfl rfl⟩

/-- A frame that is copied is progress. -/
theorem LossyInv.advance_frame {copies : List Copy} {link' : Link}
    (inv : LossyInv N unreliable limit x) (later : x.sys.currentTime ≤ now)
    (listed : ∀ v ∈ copies.map Copy.wireID, v ∈ N.ports)
    (sent : Sent now copies x.memory.switch.link link' sends) :
    Advance N (mask x.memory)
      (mask { x.memory with switch := { x.memory.switch with link := link' } })
      x.sys.currentTime now sends := by
  have id : x.memory.switch.link.id = N.switch := inv.star.wired.id
  refine advance_self (inv.star.wired.relink ⟨sent.settings.1, sent.settings.2.1, rfl⟩) ?_ ?_ ?_
  · intro send member
    obtain ⟨source, target, v, port, message⟩ := sent.checks send member
    exact .check v (listed v port) (source.trans id) (target.trans id) message
  · intro send member
    obtain ⟨source, target, -⟩ := sent.checks send member
    exact source.trans target.symm
  · intro w port hop
    exact Hop.bound_mono later (fun _ => le_rfl) (congrFun sent.avail w).ge

theorem LossyInv.step {input : Input Call} {new : List (Record NetMessage Call)}
    (inv : LossyInv N unreliable limit x) (limit_ne : limit ≠ 1) (allowed : N.Allowed O x input)
    (h : (N.modules O).machine.step x input = some (y, new)) : LossyInv N unreliable limit y := by
  obtain ⟨noWrap, times, addressed⟩ := allowed
  have sound_x : Sound x.sys := inv.star.sound
  obtain ⟨effect, sound⟩ := effect_of_step sound_x noWrap h
  cases effect with
  | act call memory sends address y handled memory_eq clock queue =>
    obtain ⟨rfl, called⟩ := called_of_act handled
    refine ⟨inv.star.extend (List.Sublist.refl _) sound ?_ (by rw [masked, clock]; exact queue)
      fun port => ?_, by rw [memory_eq]; exact inv.settings⟩
    · simp only [masked, clock, memory_eq]
      exact inv.star.advance_act called addressed
    · simp only [masked, queue, memory_eq]
      exact inv.star.paired_act called _ _ _ port
  | dispatch c front back memory sends address y split least handled memory_eq clock queue =>
    have member : c ∈ x.sys.timerQueue := by simp [split]
    obtain ⟨sys, pop⟩ := popTimer_of_dispatch h
    have fits : TimeFits O (mask x.memory) c := times rfl _ pop
    obtain ⟨handled, settings⟩ := lossyHandled_of_receive inv.star.wired inv.settings
      (inv.star.kinds c member) fits handled
    have sub : (front ++ back).Sublist x.sys.timerQueue := by
      rw [split]
      exact (List.Sublist.refl front).append (List.sublist_cons_self c back)
    refine ⟨inv.star.extend sub sound ?_ (by rw [masked, clock]; exact queue) fun port => ?_,
      by rw [memory_eq]; exact settings⟩
    · simp only [masked, clock, memory_eq]
      cases handled with
      | plain handled => exact inv.star.advance fits split handled
      | frame w packet copies link' port origin source target message chosen faithful queued sent
          memory =>
        rw [memory]
        refine inv.advance_frame (inv.star.sound.future c member) (fun v listed => ?_) sent
        rw [chosen] at listed
        exact List.mem_of_mem_filter listed
    · simp only [masked, queue, memory_eq]
      cases handled with
      | plain handled => exact inv.star.paired_handled fits split handled _ _ port
      | frame w packet copies link' port' origin source target message chosen faithful queued sent
          memory =>
        rw [memory]
        refine oneCheck_mask.mpr (sent.paired ?_ _ _ _ (fun v => ?_) port)
        · rwa [inv.settings.limit_eq]
        · exact oneCheck_mask.mp (inv.star.paired_rest split (by simp [message]) v)

/-! ## No handler fails -/

/-- What a frame does at a switch does not depend on anything that could be missing. -/
theorem receive_frame_isSome (wired : Wired N (mask m)) (settings : Settings unreliable limit m)
    (target : c.target = N.switch) (message : c.message = .packetFromPort packet)
    (six : 6 ≤ packet.getSize) : ((N.modules O).receive m now c).isSome := by
  obtain ⟨copies, arrived, chosen, -⟩ := @packetArrived_copies m.switch packet six O.junk
    (O.choices c) now c.source
  have ports : m.switch.ports = N.ports := wired.ports
  obtain ⟨link', new, handed, -⟩ := @sent_sendCopies now m.switch.link copies settings.within
    (by rw [chosen, ports]; exact N.nodup.filter _)
  dsimp only [modules]
  rw [if_pos target, message]
  dsimp only
  rw [arrived, handed]
  rfl

/-- A wire works in any surroundings. -/
theorem receive_wire_isSome (port : c.target ∈ N.ports) :
    ((N.modules O).receive m now c).isSome =
      ((m.wires c.target).messageReceived O.quotient now c.source c.message).isSome := by
  have not_switch : c.target ≠ N.switch := fun same => N.switch_not_wire (same ▸ port)
  dsimp only [modules]
  rw [if_neg not_switch, if_pos port, Option.isSome_map]

theorem LossyInv.receive_isSome (inv : LossyInv N unreliable limit x)
    (member : c ∈ x.sys.timerQueue) (fits : TimeFits O x.memory c) :
    ((N.modules O).receive x.memory c.wakeup c).isSome := by
  have plain := inv.star.receive_isSome member fits
  cases inv.star.kinds c member with
  | toSwitch w packet port origin six source target message =>
    exact receive_frame_isSome inv.star.wired inv.settings target message six
  | check w port source target message =>
    obtain ⟨front, back, split⟩ := List.append_of_mem member
    have id : x.memory.switch.link.id = N.switch := inv.star.wired.id
    have check : Link.isCheck x.memory.switch.link.id w c = true :=
      Link.isCheck_iff.mpr ⟨target.trans id.symm, message⟩
    obtain ⟨⟨packet, rest, head⟩, free, -⟩ :=
      (oneCheck_mask.mp (inv.star.paired w)).dispatched split check
    rw [TimeFits, message] at fits
    have value := Link.checkQueue_eq head free (fits packet (by rw [head]; rfl))
    simp [modules, target, message, value]
  -- everything else happens at wires and hosts
  | fromHost w packet port origin six source target message =>
    rw [receive_wire_isSome (target ▸ port)] at plain ⊢
    exact plain
  | fromSwitch w packet port source target message =>
    rw [receive_wire_isSome (target ▸ port)] at plain ⊢
    exact plain
  | toHost w packet port source target message =>
    rw [receive_host (target ▸ N.host_ne_switch w port) (target ▸ N.host_not_wire w port)]
    rfl
  | other not_switch not_wire source message =>
    rw [receive_host not_switch not_wire]
    rfl

theorem LossyInv.dispatch_isSome (inv : LossyInv N unreliable limit x)
    (busy : x.sys.timerQueue ≠ []) (allowed : N.Allowed O x .dispatch) :
    ((N.modules O).machine.step x .dispatch).isSome := by
  obtain ⟨noWrap, times, -⟩ := allowed
  have sound : Sound x.sys := inv.star.sound
  exact Reactive.dispatch_isSome sound noWrap busy fun popped pop member =>
    inv.receive_isSome member (times rfl popped pop)

end Star

end Kens
