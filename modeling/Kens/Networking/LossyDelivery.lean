/-
# Delivery through any switch

Each hop of a star is a channel that keeps, orders and hands over what it is given, and each wire
puts on its far hop what it takes from its near one. Loss and damage happen in one place only, on
the way into the output queues of the switch. What a host gets is therefore, in order, a part of
what the switch copies for it, and all of it when the queues are not limited.
-/

import Mathlib
import Kens.Networking.LossyStar

namespace Kens.Star

open Semantics Reactive Switch

/-- A frame that the host behind port `p` sends. -/
def sentBy (p : ℕ) : Record NetMessage Call → Option Packet
  | .acted (.sendFrame wire frame) _ _ => if wire = p then some ⟨frame, p⟩ else none
  | _ => none

/-- A frame that entered at port `p` and is delivered to the host behind port `q`. -/
def deliveredFrom (N : Star) (p q : ℕ) : Record NetMessage Call → Option Packet
  | .received c _ =>
    if c.source = q ∧ c.target = N.hostOf q then (payload c.message).filter (·.origin = p) else none
  | _ => none

/-! ## What passes a hop -/

/-- The packet that leaves a hop in a step, if any. -/
def left (N : Star) (hop : Hop) (w : ℕ) : Record NetMessage Call → List Packet
  | .acted .. => []
  | .received c _ => N.flight hop w [c]

/-- The packets that join a hop in a step. -/
def joined (N : Star) (hop : Hop) (w : ℕ) (record : Record NetMessage Call) : List Packet :=
  sentOn payload (hop.source N w) (hop.target N w) record.sends

variable {N : Star} {O : Oracle} {p q w v : ℕ} {hop hop' : Hop} {c : TimerContainer NetMessage}
  {packet : Packet} {sends : List (Send NetMessage)} {x y : State NetMessage Memory}
  {unreliable : Bool} {limit : ℕ} {input : Input Call}
  {log new : List (Record NetMessage Call)}

/-- A send on one hop is on no other. -/
theorem sentOn_singleton {send : Send NetMessage} (port : w ∈ N.ports) (port' : v ∈ N.ports)
    (source : send.source = hop'.source N v) (target : send.target = hop'.target N v)
    (message : payload send.message = some packet) :
    sentOn payload (hop.source N w) (hop.target N w) [send] =
      if hop = hop' ∧ w = v then [packet] else [] := by
  rw [← @carried_stamp _ [send] 0 0 0]
  exact @flight_singleton N w v hop hop' _ packet port port' source target message

/-- Checks carry nothing. -/
theorem sentOn_eq_nil (none : ∀ send ∈ sends, payload send.message = none) :
    sentOn payload (hop.source N w) (hop.target N w) sends = [] := by
  rw [← @carried_stamp _ sends 0 0 0]
  exact flight_stamp_eq_nil none

/-- Hops keep what they are given, in order. -/
theorem LossyInv.flight_step (inv : LossyInv N unreliable limit x) (port : w ∈ N.ports)
    (allowed : N.Allowed O x input) (h : (N.modules O).machine.step x input = some (y, new)) :
    new.flatMap (N.left hop w) ++ N.flight hop w y.sys.timerQueue =
      N.flight hop w x.sys.timerQueue ++ new.flatMap (N.joined hop w) := by
  have sound : Sound x.sys := inv.star.sound
  obtain ⟨effect, -⟩ := effect_of_step sound allowed.1 h
  cases effect with
  | act call memory sends address y handled memory_eq clock queue =>
    rw [queue, flight_append]
    simp [left, joined, flight, carried_stamp, Record.sends]
  | dispatch c front back memory sends address y split least handled memory_eq clock queue =>
    have before : N.flight hop w x.sys.timerQueue = _ := inv.star.flight_dispatch port split least
    rw [queue, flight_append, before]
    simp [left, joined, flight, carried_stamp, Record.sends]

/-! ## Moves -/

/-- A packet on a hop. -/
structure Parcel where
  hop : Hop
  wire : ℕ
  packet : Packet

/-- What a parcel is for a hop. -/
def onHop (hop : Hop) (w : ℕ) : Option Parcel → List Packet
  | none => []
  | some parcel => if hop = parcel.hop ∧ w = parcel.wire then [parcel.packet] else []

/-- What a step of the network does: a packet leaves a hop, or joins one, or goes from one to the
next. Only a frame that reaches the switch and a transmission change the output queues. -/
inductive Move (N : Star) (unreliable : Bool) (link link' : Link) :
    Option Parcel → Option Parcel → Prop
  | enter (v : ℕ) (packet : Packet) (port : v ∈ N.ports)
      (same : link'.outputQueue = link.outputQueue) :
      Move N unreliable link link' none (some ⟨.fromHost, v, packet⟩)
  | rise (v : ℕ) (packet : Packet) (port : v ∈ N.ports)
      (same : link'.outputQueue = link.outputQueue) :
      Move N unreliable link link' (some ⟨.fromHost, v, packet⟩) (some ⟨.toSwitch, v, packet⟩)
  | copy (v : ℕ) (packet : Packet) (copies : List Copy) (port : v ∈ N.ports)
      (origin : packet.origin = v)
      (chosen : copies.map Copy.wireID = N.ports.filter (N.forwardsTo v · packet))
      (faithful : ∀ copy ∈ copies, Faithful unreliable copy.packet packet)
      (queued : Queued copies link link') :
      Move N unreliable link link' (some ⟨.toSwitch, v, packet⟩) none
  | transmit (v : ℕ) (packet : Packet) (rest : List Packet) (port : v ∈ N.ports)
      (head : link.outputQueue v = packet :: rest)
      (tail : link'.outputQueue = Function.update link.outputQueue v rest) :
      Move N unreliable link link' none (some ⟨.fromSwitch, v, packet⟩)
  | descend (v : ℕ) (packet : Packet) (port : v ∈ N.ports)
      (same : link'.outputQueue = link.outputQueue) :
      Move N unreliable link link' (some ⟨.fromSwitch, v, packet⟩) (some ⟨.toHost, v, packet⟩)
  | deliver (v : ℕ) (packet : Packet) (port : v ∈ N.ports)
      (same : link'.outputQueue = link.outputQueue) :
      Move N unreliable link link' (some ⟨.toHost, v, packet⟩) none
  | idle (same : link'.outputQueue = link.outputQueue) : Move N unreliable link link' none none

/-- What a record of the log says about the hops. -/
structure Passage (N : Star) (record : Record NetMessage Call) (gone come : Option Parcel) :
    Prop where
  left : ∀ hop, ∀ w ∈ N.ports, N.left hop w record = onHop hop w gone
  joined : ∀ hop, ∀ w ∈ N.ports, N.joined hop w record = onHop hop w come
  sent : ∀ w ∈ N.ports, (sentBy w record).toList = onHop .fromHost w come

/-- The passage of a message in flight. -/
theorem left_received (port : v ∈ N.ports) (source : c.source = hop'.source N v)
    (target : c.target = hop'.target N v) (message : payload c.message = some packet)
    (port' : w ∈ N.ports) :
    N.left hop w (.received c sends) = onHop hop w (some ⟨hop', v, packet⟩) :=
  @flight_singleton N w v hop hop' c packet port' port source target message

theorem move_act {call : Call} (called : Called N call sends) (now : ℕ) (link : Link) :
    ∃ gone come, Move N unreliable link link gone come ∧
      Passage N (.acted call now sends) gone come := by
  cases called with
  | sendFrame v frame port =>
    refine ⟨none, some ⟨.fromHost, v, ⟨frame, v⟩⟩, .enter v _ port rfl, fun _ _ _ => rfl, ?_, ?_⟩
    · intro hop w port'
      exact @sentOn_singleton N w v hop .fromHost ⟨frame, v⟩ _ port' port rfl rfl rfl
    · intro w port'
      by_cases same : v = w
      · simp [sentBy, onHop, same]
      · simp [sentBy, onHop, same, Ne.symm same]
  | hostMessage host timeAfter =>
    refine ⟨none, none, .idle rfl, fun _ _ _ => rfl, ?_, fun _ _ => rfl⟩
    intro hop w port
    exact sentOn_eq_nil (by simp [Record.sends, payload])

/-- What every other handler does is the same for all switches. -/
theorem Inv.move_handled {front back : List (TimerContainer NetMessage)} {m' : Memory}
    {link link' : Link} (inv : Inv N x) (fits : TimeFits O x.memory c)
    (split : x.sys.timerQueue = front ++ c :: back)
    (handled : Handled N O.quotient x.memory c m' sends)
    (elsewhere : c.target = N.switch → ∃ w, c.message = .checkQueue w)
    (before : link.outputQueue = x.memory.switch.link.outputQueue)
    (after : link'.outputQueue = m'.switch.link.outputQueue) :
    ∃ gone come, Move N unreliable link link' gone come ∧
      Passage N (.received c sends) gone come := by
  cases handled with
  | fromHost v packet delay busy port origin six source target message =>
    refine ⟨_, _, .rise v packet port (after.trans before.symm), ?_, ?_, ?_⟩
    · intro hop w port'
      exact @left_received N w v hop .fromHost c packet _ port source target
        (by rw [message]; rfl) port'
    · intro hop w port'
      exact @sentOn_singleton N w v hop .toSwitch packet _ port' port rfl rfl rfl
    · intro w port'
      simp [sentBy, onHop]
  | fromSwitch v packet delay busy port source target message =>
    refine ⟨_, _, .descend v packet port (after.trans before.symm), ?_, ?_, ?_⟩
    · intro hop w port'
      exact @left_received N w v hop .fromSwitch c packet _ port source target
        (by rw [message]; rfl) port'
    · intro hop w port'
      exact @sentOn_singleton N w v hop .toHost packet _ port' port rfl rfl rfl
    · intro w port'
      simp [sentBy, onHop]
  | toSwitch v packet mac link' _ port origin source target message =>
    obtain ⟨w, check⟩ := elsewhere target
    simp [message] at check
  | check v link' _ port source target message transmitted =>
    obtain ⟨packet, rest, delay, head, -, rfl, rfl, -⟩ :=
      inv.transmission fits split target message transmitted
    refine ⟨_, _, .transmit v packet rest port (before ▸ head) (before ▸ after), ?_, ?_, ?_⟩
    · intro hop w port'
      exact flight_of_payload_eq_none (by rw [message]; rfl)
    · intro hop w port'
      have flown := @flight_transmission N v w hop packet 0 0 0 delay rest port port'
      rw [flight, carried_stamp] at flown
      exact flown
    · intro w port'
      simp [sentBy, onHop]
  | toHost v packet port source target message =>
    refine ⟨_, _, .deliver v packet port (after.trans before.symm), ?_, ?_, ?_⟩
    · intro hop w port'
      exact @left_received N w v hop .toHost c packet _ port source target
        (by rw [message]; rfl) port'
    · intro hop w port'
      rfl
    · intro w port'
      rfl
  | other source message =>
    refine ⟨_, _, .idle (after.trans before.symm), ?_, fun _ _ _ => rfl, fun _ _ => rfl⟩
    intro hop w port'
    exact flight_of_payload_eq_none (by rw [message]; rfl)

theorem LossyInv.move_dispatch {front back : List (TimerContainer NetMessage)} {m' : Memory}
    (inv : LossyInv N unreliable limit x) (fits : TimeFits O x.memory c)
    (split : x.sys.timerQueue = front ++ c :: back)
    (handled : LossyHandled N O.quotient unreliable x.memory c m' sends) :
    ∃ gone come, Move N unreliable x.memory.switch.link m'.switch.link gone come ∧
      Passage N (.received c sends) gone come := by
  cases handled with
  | plain handled elsewhere => exact inv.star.move_handled fits split handled elsewhere rfl rfl
  | frame v packet copies link' port origin source target message chosen faithful queued sent
      memory =>
    subst memory
    refine ⟨_, _, .copy v packet copies port origin chosen faithful queued, ?_, ?_, ?_⟩
    · intro hop w port'
      exact @left_received N w v hop .toSwitch c packet _ port source target
        (by rw [message]; rfl) port'
    · intro hop w port'
      refine sentOn_eq_nil fun send member => ?_
      obtain ⟨-, -, v, -, check⟩ := sent.checks send member
      rw [check]
      rfl
    · intro w port'
      rfl

/-- Every step is a move. -/
theorem LossyInv.move (inv : LossyInv N unreliable limit x) (allowed : N.Allowed O x input)
    (h : (N.modules O).machine.step x input = some (y, new)) :
    ∃ record, new = [record] ∧ ∃ gone come,
      Move N unreliable x.memory.switch.link y.memory.switch.link gone come ∧
      Passage N record gone come := by
  obtain ⟨noWrap, times, -⟩ := allowed
  have sound : Sound x.sys := inv.star.sound
  obtain ⟨effect, -⟩ := effect_of_step sound noWrap h
  cases effect with
  | act call memory sends address y handled memory_eq clock queue =>
    obtain ⟨rfl, called⟩ := called_of_act handled
    rw [memory_eq]
    exact ⟨_, rfl, move_act called _ _⟩
  | dispatch c front back memory sends address y split least handled memory_eq clock queue =>
    have member : c ∈ x.sys.timerQueue := by simp [split]
    obtain ⟨sys, pop⟩ := popTimer_of_dispatch h
    have fits : TimeFits O (mask x.memory) c := times rfl _ pop
    obtain ⟨handled, -⟩ := lossyHandled_of_receive inv.star.wired inv.settings
      (inv.star.kinds c member) fits handled
    rw [memory_eq]
    exact ⟨_, rfl, inv.move_dispatch fits split handled⟩

/-! ## Loss and damage -/

/-- The copies are, in order, a part of those that were made of the frames, and all of them when
there is no limit. -/
def Offered (unreliable : Bool) (limit : ℕ) (frames copies : List Packet) : Prop :=
  ∃ offered, List.Forall₂ (Faithful unreliable) offered frames ∧ copies.Sublist offered ∧
    (limit = 0 → copies = offered)

theorem Offered.extend {frames more copies kept extra : List Packet}
    (h : Offered unreliable limit frames copies) (sub : kept.Sublist copies)
    (same : limit = 0 → kept = copies) (made : List.Forall₂ (Faithful unreliable) extra more) :
    Offered unreliable limit (frames ++ more) (kept ++ extra) := by
  obtain ⟨offered, faithful, part, whole⟩ := h
  refine ⟨offered ++ extra, List.rel_append faithful made,
    (sub.trans part).append (List.Sublist.refl _), fun unlimited => ?_⟩
  rw [same unlimited, whole unlimited]

/-- A copy comes from where its frame does. -/
theorem origin_eq_of_faithful {copy frame : Packet} (faithful : Faithful unreliable copy frame) :
    copy.origin = frame.origin :=
  faithful.1.origin

/-- The copies of one frame for one port. -/
theorem queued_extra {copies : List Copy} {link link' : Link} (port : q ∈ N.ports)
    (chosen : copies.map Copy.wireID = N.ports.filter (N.forwardsTo v · packet))
    (faithful : ∀ copy ∈ copies, Faithful unreliable copy.packet packet)
    (queued : Queued copies link link') :
    ∃ kept extra, link'.outputQueue q = kept ++ extra ∧ kept.Sublist (link.outputQueue q) ∧
      (link.max_queue_length = 0 → kept = link.outputQueue q) ∧
      List.Forall₂ (Faithful unreliable) extra ([packet].filter (N.forwardsTo v q)) := by
  by_cases reached : N.forwardsTo v q packet = true
  · have listed : q ∈ copies.map Copy.wireID := by
      rw [chosen, List.mem_filter]
      exact ⟨port, reached⟩
    obtain ⟨copy, member, rfl⟩ := List.mem_map.mp listed
    refine ⟨_, [copy.packet], queued.filled copy member, ?_, ?_, ?_⟩
    · rcases @Link.evict_cases link (link.outputQueue copy.wireID) copy.draw with
        ⟨-, same⟩ | ⟨index, evicted, -, -, shorter⟩
      · rw [same]
      · rw [shorter]
        exact List.eraseIdx_sublist _ _
    · intro unlimited
      exact Link.evict_eq_self (.inl unlimited)
    · rw [List.filter_cons_of_pos reached]
      exact .cons (faithful copy member) .nil
  · have absent : q ∉ copies.map Copy.wireID := by
      rw [chosen, List.mem_filter]
      exact fun both => reached both.2
    refine ⟨link.outputQueue q, [], ?_, List.Sublist.refl _, fun _ => rfl, ?_⟩
    · rw [queued.others q absent, List.append_nil]
    · rw [List.filter_cons_of_neg reached]
      exact .nil

/-- What a move does to the frames from `p` in the queue of `q`. -/
theorem Move.offers {link link' : Link} {gone come : Option Parcel}
    (move : Move N unreliable link link' gone come) (egress : q ∈ N.ports) (p : ℕ) :
    ∃ kept extra, (onHop .fromSwitch q come ++ link'.outputQueue q).filter (·.origin = p) =
        kept ++ extra ∧
      kept.Sublist ((link.outputQueue q).filter (·.origin = p)) ∧
      (link.max_queue_length = 0 → kept = (link.outputQueue q).filter (·.origin = p)) ∧
      List.Forall₂ (Faithful unreliable) extra
        ((onHop .toSwitch p gone).filter (N.forwardsTo p q)) := by
  have still (same : link'.outputQueue = link.outputQueue) :
      ∃ kept extra, (link'.outputQueue q).filter (·.origin = p) = kept ++ extra ∧
        kept.Sublist ((link.outputQueue q).filter (·.origin = p)) ∧
        (link.max_queue_length = 0 → kept = (link.outputQueue q).filter (·.origin = p)) ∧
        List.Forall₂ (Faithful unreliable) extra [] := by
    refine ⟨_, [], (List.append_nil _).symm, ?_, ?_, .nil⟩
    · rw [same]
    · rw [same]
      exact fun _ => rfl
  cases move with
  | enter v packet port same => exact still same
  | rise v packet port same => exact still same
  | descend v packet port same => exact still same
  | deliver v packet port same => exact still same
  | idle same => exact still same
  | transmit v packet rest port head tail =>
    refine ⟨_, [], (List.append_nil _).symm, ?_, ?_, .nil⟩
    all_goals
      by_cases same : q = v
      · subst same
        simp [onHop, tail, head]
      · simp [onHop, tail, same]
  | copy v packet copies port origin chosen faithful queued =>
    obtain ⟨kept, extra, queue, part, whole, made⟩ := queued_extra egress chosen faithful queued
    rw [onHop, List.nil_append, queue, List.filter_append]
    refine ⟨_, _, rfl, part.filter _, fun unlimited => by rw [whole unlimited], ?_⟩
    -- the copies come from `p` exactly if the frame does
    have entered : (onHop .toSwitch p (some ⟨.toSwitch, v, packet⟩)).filter (N.forwardsTo p q) =
        ([packet].filter (N.forwardsTo v q)).filter (·.origin = p) := by
      by_cases same : p = v
      · subst same
        rw [List.filter_filter]
        simp [onHop, List.filter_cons, origin]
      · rw [List.filter_filter]
        simp [onHop, origin, same, Ne.symm same]
    rw [entered]
    refine List.rel_filter (fun copy frame faithful => ?_) made
    simp [origin_eq_of_faithful faithful]

/-! ## Runs -/

/-- What has happened on the hops and in the queues so far. -/
structure Conserved (N : Star) (unreliable : Bool) (limit : ℕ) (log : List (Record NetMessage Call))
    (x : State NetMessage Memory) : Prop where
  hops : ∀ hop, ∀ w ∈ N.ports, log.flatMap (N.left hop w) ++ N.flight hop w x.sys.timerQueue =
    log.flatMap (N.joined hop w)
  sent : ∀ w ∈ N.ports, log.flatMap (N.joined .fromHost w) = log.filterMap (sentBy w)
  risen : ∀ w ∈ N.ports, log.flatMap (N.joined .toSwitch w) = log.flatMap (N.left .fromHost w)
  descended : ∀ w ∈ N.ports,
    log.flatMap (N.joined .toHost w) = log.flatMap (N.left .fromSwitch w)
  copied : ∀ p ∈ N.ports, ∀ q ∈ N.ports,
    Offered unreliable limit ((log.flatMap (N.left .toSwitch p)).filter (N.forwardsTo p q))
      ((log.flatMap (N.joined .fromSwitch q) ++ x.memory.switch.link.outputQueue q).filter
        (·.origin = p))

theorem conserved_start : Conserved N unreliable limit [] (N.startWith unreliable limit) where
  hops _ _ _ := rfl
  sent _ _ := rfl
  risen _ _ := rfl
  descended _ _ := rfl
  copied _ _ _ _ := ⟨[], .nil, List.Sublist.refl _, fun _ => rfl⟩

theorem Conserved.step (h : Conserved N unreliable limit log x)
    (inv : LossyInv N unreliable limit x) (allowed : N.Allowed O x input)
    (step : (N.modules O).machine.step x input = some (y, new)) :
    Conserved N unreliable limit (log ++ new) y := by
  have hops : ∀ hop, ∀ w ∈ N.ports, _ := fun hop w port =>
    @LossyInv.flight_step N O w hop x y unreliable limit input new inv port allowed step
  obtain ⟨record, rfl, gone, come, move, passage⟩ := inv.move allowed step
  simp only [List.flatMap_singleton] at hops
  refine ⟨?_, ?_, ?_, ?_, ?_⟩
  · intro hop w port
    simp only [List.flatMap_append, List.flatMap_singleton]
    rw [List.append_assoc, hops hop w port, ← List.append_assoc, h.hops hop w port]
  · intro w port
    have sent : [record].filterMap (sentBy w) = (sentBy w record).toList := by
      cases happened : sentBy w record with
      | none => simp [happened]
      | some packet => simp [happened]
    rw [List.flatMap_append, List.filterMap_append, h.sent w port, List.flatMap_singleton, sent,
      passage.sent w port, passage.joined _ w port]
  · intro w port
    rw [List.flatMap_append, List.flatMap_append, h.risen w port, List.flatMap_singleton,
      List.flatMap_singleton, passage.joined _ w port, passage.left _ w port]
    cases move <;> simp [onHop]
  · intro w port
    rw [List.flatMap_append, List.flatMap_append, h.descended w port, List.flatMap_singleton,
      List.flatMap_singleton, passage.joined _ w port, passage.left _ w port]
    cases move <;> simp [onHop]
  · intro p ingress q egress
    obtain ⟨kept, extra, queue, part, whole, made⟩ := move.offers egress p
    have before := h.copied p ingress q egress
    rw [List.filter_append] at before
    rw [List.flatMap_append, List.flatMap_append, List.flatMap_singleton, List.flatMap_singleton,
      passage.joined _ q egress, passage.left _ p ingress, List.filter_append, List.append_assoc,
      List.filter_append, queue, ← List.append_assoc]
    refine before.extend ((List.Sublist.refl _).append part) (fun unlimited => ?_) made
    rw [whole (inv.settings.limit_eq.trans unlimited)]

theorem conserved_of_run (limit_ne : limit ≠ 1) {inputs : List (Input Call)}
    (run : (N.modules O).machine.Run (N.Allowed O) (N.startWith unreliable limit) inputs log x) :
    LossyInv N unreliable limit x ∧ Conserved N unreliable limit log x := by
  refine run.invariant
    (fun log x => LossyInv N unreliable limit x ∧ Conserved N unreliable limit log x)
    ⟨lossyInv_start, conserved_start⟩ ?_
  rintro log x input y new ⟨inv, conserved⟩ allowed step
  exact ⟨inv.step limit_ne allowed step, conserved.step inv allowed step⟩

/-- What a host gets is what leaves the hop to it. -/
theorem toList_deliveredFrom (record : Record NetMessage Call) :
    (N.deliveredFrom p q record).toList = (N.left .toHost q record).filter (·.origin = p) := by
  cases record with
  | acted call now sends => rfl
  | received c sends =>
    by_cases on : c.source = q ∧ c.target = N.hostOf q
    · cases message : payload c.message with
      | none =>
        simp [deliveredFrom, left, flight, carried, onChannel, Hop.source, Hop.target, message]
      | some packet =>
        by_cases from_p : packet.origin = p
        · simp [deliveredFrom, left, flight, carried, onChannel, Hop.source, Hop.target, on,
            message, from_p]
        · simp [deliveredFrom, left, flight, carried, onChannel, Hop.source, Hop.target, on,
            message, from_p]
    · have off : ¬ onChannel q (N.hostOf q) c = true := fun h => on (onChannel_iff.mp h)
      simp [deliveredFrom, left, flight, carried, Hop.source, Hop.target, on, off]

theorem filterMap_deliveredFrom (log : List (Record NetMessage Call)) :
    log.filterMap (N.deliveredFrom p q) =
      (log.flatMap (N.left .toHost q)).filter (·.origin = p) := by
  induction log with
  | nil => rfl
  | cons record log ih =>
    rw [List.flatMap_cons, List.filter_append, ← ih, ← toList_deliveredFrom]
    cases happened : N.deliveredFrom p q record with
    | none => simp [happened]
    | some packet => simp [happened]

/-- The switch gets what the hosts send, in order. -/
theorem Conserved.left_prefix (h : Conserved N unreliable limit log x) (port : p ∈ N.ports) :
    log.flatMap (N.left .toSwitch p) <+: log.filterMap (sentBy p) := by
  have taken : log.flatMap (N.left .toSwitch p) <+: log.flatMap (N.left .fromHost p) := by
    rw [← h.risen p port, ← h.hops .toSwitch p port]
    exact List.prefix_append _ _
  refine taken.trans ?_
  rw [← h.sent p port, ← h.hops .fromHost p port]
  exact List.prefix_append _ _

/-- The hosts get what the switch transmits, in order. -/
theorem Conserved.delivered_prefix (h : Conserved N unreliable limit log x) (port : q ∈ N.ports) :
    log.flatMap (N.left .toHost q) <+: log.flatMap (N.joined .fromSwitch q) := by
  have handed : log.flatMap (N.left .toHost q) <+: log.flatMap (N.left .fromSwitch q) := by
    rw [← h.descended q port, ← h.hops .toHost q port]
    exact List.prefix_append _ _
  refine handed.trans ?_
  rw [← h.hops .fromSwitch q port]
  exact List.prefix_append _ _

/-- Hops are empty when no message is in flight. -/
theorem Conserved.idle (h : Conserved N unreliable limit log x) (idle : x.sys.timerQueue = [])
    (port : w ∈ N.ports) :
    log.flatMap (N.left .toSwitch w) = log.filterMap (sentBy w) ∧
      log.flatMap (N.left .toHost w) = log.flatMap (N.joined .fromSwitch w) := by
  have empty : ∀ hop, log.flatMap (N.left hop w) = log.flatMap (N.joined hop w) := by
    intro hop
    rw [← h.hops hop w port, idle]
    exact (List.append_nil _).symm
  constructor
  · rw [empty, h.risen w port, empty, h.sent w port]
  · rw [empty, h.descended w port, empty]

/-- So are the output queues: a packet that waits has a check in flight. -/
theorem LossyInv.outputQueue_eq_nil (inv : LossyInv N unreliable limit x)
    (idle : x.sys.timerQueue = []) : x.memory.switch.link.outputQueue w = [] := by
  by_contra busy
  obtain ⟨c, one, -⟩ := (oneCheck_mask.mp (inv.star.paired w)).busy busy
  simp [masked, idle, Link.checks] at one

/-- What is delivered is a part of what was sent. -/
theorem Conserved.part (h : Conserved N unreliable limit log x) (ingress : p ∈ N.ports)
    (egress : q ∈ N.ports) :
    List.SublistForall₂ (Faithful unreliable) (log.filterMap (N.deliveredFrom p q))
      ((log.filterMap (sentBy p)).filter (N.forwardsTo p q)) := by
  obtain ⟨offered, faithful, part, -⟩ := h.copied p ingress q egress
  have delivered : (log.filterMap (N.deliveredFrom p q)).Sublist offered := by
    rw [filterMap_deliveredFrom]
    refine (((h.delivered_prefix egress).sublist.filter _).trans ?_).trans part
    rw [List.filter_append]
    exact List.sublist_append_left _ _
  exact sublistForall₂_trans delivered faithful ((h.left_prefix ingress).sublist.filter _)

/-- Without a limit it is the first part, and all when no message is in flight. -/
theorem Conserved.whole (h : Conserved N unreliable 0 log x) (inv : LossyInv N unreliable 0 x)
    (ingress : p ∈ N.ports) (egress : q ∈ N.ports) :
    ∃ received, received <+: (log.filterMap (sentBy p)).filter (N.forwardsTo p q) ∧
      List.Forall₂ (Faithful unreliable) (log.filterMap (N.deliveredFrom p q)) received ∧
      (x.sys.timerQueue = [] →
        received = (log.filterMap (sentBy p)).filter (N.forwardsTo p q)) := by
  obtain ⟨offered, faithful, -, whole⟩ := h.copied p ingress q egress
  have offered_eq := whole rfl
  rw [List.filter_append] at offered_eq
  have first : log.filterMap (N.deliveredFrom p q) <+: offered := by
    rw [filterMap_deliveredFrom, ← offered_eq]
    exact ((h.delivered_prefix egress).filter _).trans (List.prefix_append _ _)
  -- the frames of which the first copies were made
  refine ⟨((log.flatMap (N.left .toSwitch p)).filter (N.forwardsTo p q)).take
    (log.filterMap (N.deliveredFrom p q)).length, ?_, ?_, ?_⟩
  · exact (List.take_prefix _ _).trans ((h.left_prefix ingress).filter _)
  · have taken := List.forall₂_take (log.filterMap (N.deliveredFrom p q)).length faithful
    rwa [← List.prefix_iff_eq_take.mp first] at taken
  · intro idle
    have empty : x.memory.switch.link.outputQueue q = [] := inv.outputQueue_eq_nil idle
    have all : log.filterMap (N.deliveredFrom p q) = offered := by
      rw [filterMap_deliveredFrom, (h.idle idle egress).2, ← offered_eq, empty]
      exact (List.append_nil _).symm
    rw [all, faithful.length_eq, List.take_length, (h.idle idle ingress).1]

/-- Whatever the switch is like, the frames that a host gets from another one are copies of frames
that the other host sent and that the switch forwards to it, in the order in which they were sent,
each at most once, and altered only where an unreliable switch alters them. The queues stay within
their limit, and no handler fails. -/
theorem lossy_delivery (N : Star) (O : Oracle) {unreliable : Bool} {limit p q : ℕ}
    (limit_ne : limit ≠ 1) (ingress : p ∈ N.ports) (egress : q ∈ N.ports)
    {inputs : List (Input Call)} {log : List (Record NetMessage Call)} {x : State NetMessage Memory}
    (run : (N.modules O).machine.Run (N.Allowed O) (N.startWith unreliable limit) inputs log x) :
    List.SublistForall₂ (Faithful unreliable) (log.filterMap (N.deliveredFrom p q))
      ((log.filterMap (sentBy p)).filter (N.forwardsTo p q)) ∧
    (limit ≠ 0 → ∀ w, (x.memory.switch.link.outputQueue w).length ≤ limit) ∧
    (x.sys.timerQueue ≠ [] → N.Allowed O x .dispatch →
      ((N.modules O).machine.step x .dispatch).isSome) := by
  obtain ⟨inv, conserved⟩ := conserved_of_run limit_ne run
  refine ⟨conserved.part ingress egress, ?_, inv.dispatch_isSome⟩
  rw [← inv.settings.limit_eq]
  exact inv.settings.within

/-! Three hosts behind the ports 1, 2 and 3 of switch 4. -/

/-- An address behind port 2. -/
def trioMac : Mac := #v[2, 0, 0, 0, 0, 12]

/-- A transmission of the switch takes some time. -/
def trio : Star where
  switch := 4
  ports := [1, 2, 3]
  hostOf w := w + 10
  hostFirst _ := true
  propagationDelay _ := 3
  wireBps _ := 0
  limit_speed _ := true
  switchBps := 1
  mac_table w := if w = 2 then [NetworkUtil.arrayToUINT64 trioMac] else []
  nodup := by decide
  switch_ne := by decide
  switch_not_wire := by decide
  host_ne := by decide
  host_ne_switch := by decide
  host_not_wire := by decide

/-- Every copy is damaged, and a full queue loses its second packet. -/
def trioOracle : Oracle where
  quotient _ _ := 5
  junk _ _ := 0
  choices _ := ⟨fun _ => true, fun _ => 1⟩

def trioFrame (tag : UInt8) (data : List UInt8) : List UInt8 :=
  trioMac.toList ++ [tag] ++ List.replicate 47 0 ++ data

/-- Three frames at once, and two places in the queue. -/
def trioInputs : List (Input Call) :=
  [.act (.sendFrame 1 (trioFrame 1 [0, 0, 0, 0])), .act (.sendFrame 1 (trioFrame 2 [0, 0, 0, 0])),
    .act (.sendFrame 1 (trioFrame 3 [0, 0, 0, 0]))] ++ List.replicate 12 .dispatch

theorem lossy_delivery_trio :
    ∃ log x, (trio.modules trioOracle).machine.Run (trio.Allowed trioOracle) (trio.startWith true 2)
        trioInputs log x ∧
      log.filterMap (trio.deliveredFrom 1 2) =
        [⟨trioFrame 1 [0xEE, 0xEE, 0xEE, 0xEE], 1⟩, ⟨trioFrame 3 [0xEE, 0xEE, 0xEE, 0xEE], 1⟩] ∧
      List.SublistForall₂ (Faithful true) (log.filterMap (trio.deliveredFrom 1 2))
        ((log.filterMap (sentBy 1)).filter (trio.forwardsTo 1 2)) := by
  have outcome : ((trio.modules trioOracle).machine.execIf (trio.Allowed trioOracle)
      (trio.startWith true 2) trioInputs).map (fun r => r.2.filterMap (trio.deliveredFrom 1 2)) =
      some [⟨trioFrame 1 [0xEE, 0xEE, 0xEE, 0xEE], 1⟩,
        ⟨trioFrame 3 [0xEE, 0xEE, 0xEE, 0xEE], 1⟩] := by decide +kernel
  obtain ⟨⟨x, log⟩, value, delivered⟩ := Option.map_eq_some_iff.mp outcome
  have run := Machine.Run.of_execIf value
  exact ⟨log, x, run, delivered,
    (lossy_delivery trio trioOracle (by decide) (by decide) (by decide) run).1⟩

/-- Nothing is lost where the queues have no limit: the frames for a host reach it one after the
other, and all have done so when no message is in flight. -/
theorem unlimited_delivery (N : Star) (O : Oracle) {unreliable : Bool} {p q : ℕ}
    (ingress : p ∈ N.ports) (egress : q ∈ N.ports)
    {inputs : List (Input Call)} {log : List (Record NetMessage Call)} {x : State NetMessage Memory}
    (run : (N.modules O).machine.Run (N.Allowed O) (N.startWith unreliable 0) inputs log x) :
    ∃ received, received <+: (log.filterMap (sentBy p)).filter (N.forwardsTo p q) ∧
      List.Forall₂ (Faithful unreliable) (log.filterMap (N.deliveredFrom p q)) received ∧
      (x.sys.timerQueue = [] →
        received = (log.filterMap (sentBy p)).filter (N.forwardsTo p q)) := by
  obtain ⟨inv, conserved⟩ := conserved_of_run (by decide) run
  exact conserved.whole inv ingress egress

/-- A broadcast of the first host, which reaches the third one unharmed. -/
theorem unlimited_delivery_trio :
    ∃ log x, (trio.modules trioOracle).machine.Run (trio.Allowed trioOracle)
        (trio.startWith false 0)
        (.act (.sendFrame 1 [255, 255, 255, 255, 255, 255, 42]) :: List.replicate 8 .dispatch)
        log x ∧
      x.sys.timerQueue = [] ∧
      log.filterMap (trio.deliveredFrom 1 3) = [⟨[255, 255, 255, 255, 255, 255, 42], 1⟩] ∧
      List.Forall₂ (Faithful false) (log.filterMap (trio.deliveredFrom 1 3))
        ((log.filterMap (sentBy 1)).filter (trio.forwardsTo 1 3)) := by
  have outcome : ((trio.modules trioOracle).machine.execIf (trio.Allowed trioOracle)
      (trio.startWith false 0)
      (.act (.sendFrame 1 [255, 255, 255, 255, 255, 255, 42]) :: List.replicate 8 .dispatch)).map
      (fun r => (r.1.sys.timerQueue.length, r.2.filterMap (trio.deliveredFrom 1 3))) =
      some (0, [⟨[255, 255, 255, 255, 255, 255, 42], 1⟩]) := by decide +kernel
  obtain ⟨⟨x, log⟩, value, same⟩ := Option.map_eq_some_iff.mp outcome
  obtain ⟨length, delivered⟩ := Prod.mk.inj same
  have run := Machine.Run.of_execIf value
  have idle : x.sys.timerQueue = [] := List.length_eq_zero_iff.mp length
  obtain ⟨received, -, faithful, all⟩ :=
    @unlimited_delivery trio trioOracle false 1 3 (by decide) (by decide) _ _ _ run
  rw [all idle] at faithful
  exact ⟨log, x, run, idle, delivered, faithful⟩

end Kens.Star
