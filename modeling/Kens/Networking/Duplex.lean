/-
# A wire is two channels

Each direction of a wire is a single-server queue followed by a fixed delay, and the
two directions share nothing. Any other module may send anything at any time; what the
wire delivers to one end is determined by what it got from the other.
-/

import Mathlib
import Kens.Semantics.SingleServer
import Kens.System.Channel
import Kens.Networking.Wire

namespace Kens.Wire

open Semantics Reactive Machine

/-- The constructor. -/
def create (id left right now propagationDelay bps : ℕ) (limit_speed : Bool) : Wire where
  id := id
  connected := ![left, right]
  nextAvailable := fun _ => now
  propagationDelay := propagationDelay
  bps := bps
  limit_speed := limit_speed

/-- A wire among other modules, which react to what they get by sending what they
like, under their own name. -/
def module (quotient : ℕ → ℕ → ℕ) : Reactive NetMessage Wire (List (Send NetMessage)) where
  receive wire now c :=
    if c.target = wire.id then wire.messageReceived quotient now c.source c.message
    else some (wire, [])
  act wire _ sends := if ∀ send ∈ sends, send.source ≠ wire.id then some (wire, sends) else none

/-- The other modules, before the wire is there. -/
def others (id : ℕ) : Reactive NetMessage Unit (List (Send NetMessage)) where
  receive _ _ c := if c.target = id then none else some ((), [])
  act _ _ sends := if ∀ send ∈ sends, send.source ≠ id then some ((), sends) else none

/-- No sum that the wire forms for a message wraps. -/
def TimeFits (quotient : ℕ → ℕ → ℕ) (wire : Wire) (c : TimerContainer NetMessage) : Prop :=
  match c.message with
  | .packetToPort packet => c.target = wire.id →
      ∀ d ∈ wire.destination c.source, wire.Fits quotient c.wakeup packet d
  | .packetFromPort _ | .checkQueue _ | .other => True

/-- Neither times nor UUIDs wrap. -/
def Allowed (quotient : ℕ → ℕ → ℕ) (x : State NetMessage Wire)
    (input : Input (List (Send NetMessage))) : Prop :=
  (module quotient).NoWrap x input ∧
    (input = .dispatch → ∀ popped ∈ x.sys.popTimer, TimeFits quotient x.memory popped.1)

instance (quotient : ℕ → ℕ → ℕ) (wire : Wire) (c : TimerContainer NetMessage) :
    Decidable (TimeFits quotient wire c) :=
  match h : c.message with
  | .packetToPort packet => decidable_of_iff (c.target = wire.id →
      ∀ d ∈ wire.destination c.source, wire.Fits quotient c.wakeup packet d) (by rw [TimeFits, h])
  | .packetFromPort _ => isTrue (by rw [TimeFits, h]; trivial)
  | .checkQueue _ => isTrue (by rw [TimeFits, h]; trivial)
  | .other => isTrue (by rw [TimeFits, h]; trivial)

instance (quotient : ℕ → ℕ → ℕ) (x : State NetMessage Wire) : DecidablePred (Allowed quotient x)
  | .act sends => decidable_of_iff ((module quotient).NoWrap x (.act sends)) (by simp [Allowed])
  | .dispatch => decidable_of_iff ((module quotient).NoWrap x .dispatch ∧
      ∀ popped ∈ x.sys.popTimer, TimeFits quotient x.memory popped.1) (by simp [Allowed])

/-! ## What a log says about a direction -/

/-- The packet in a message from one module to another, with its due time. -/
def incoming (source target : ℕ) (c : TimerContainer NetMessage) : Option (ℕ × Packet) :=
  match c.message with
  | .packetToPort packet => if onChannel source target c then some (c.wakeup, packet) else none
  | _ => none

def outgoing (source target : ℕ) (c : TimerContainer NetMessage) : Option (ℕ × Packet) :=
  match c.message with
  | .packetFromPort packet => if onChannel source target c then some (c.wakeup, packet) else none
  | _ => none

variable {α : Type} {quotient : ℕ → ℕ → ℕ} {wire : Wire} {d e : Fin 2}
  {log new : List (Record NetMessage α)}

/-- The packets that the wire got from the end opposite to `d`, with their times. -/
def arrivals (wire : Wire) (d : Fin 2) (log : List (Record NetMessage α)) : List (ℕ × Packet) :=
  log.filterMap fun
    | .received c _ => incoming (wire.connected (opposite d)) wire.id c
    | .acted _ _ _ => none

/-- The packets that the wire delivered to the end `d`, with their times. -/
def deliveries (wire : Wire) (d : Fin 2) (log : List (Record NetMessage α)) : List (ℕ × Packet) :=
  log.filterMap fun
    | .received c _ => outgoing wire.id (wire.connected d) c
    | .acted _ _ _ => none

/-- The packets that are on their way to the end `d`, with their times. -/
def inFlight (wire : Wire) (d : Fin 2) (queue : List (TimerContainer NetMessage)) :
    List (ℕ × Packet) :=
  queue.filterMap (outgoing wire.id (wire.connected d))

/-- The transmission delay of a packet. -/
def packetDelay (quotient : ℕ → ℕ → ℕ) (wire : Wire) (packet : Packet) : ℕ :=
  transDelay quotient wire.bps packet.getSize

/-- When the packets that arrived are to be delivered. With a speed limit, this is when
the transmission of each ends, plus the propagation delay. -/
def due (quotient : ℕ → ℕ → ℕ) (wire : Wire) (born : ℕ) (arrived : List (ℕ × Packet)) :
    List (ℕ × Packet) :=
  if wire.limit_speed then
    (schedule (wire.packetDelay quotient) born arrived).map fun service =>
      (service.2 + wire.packetDelay quotient service.1 + wire.propagationDelay, service.1)
  else arrived.map fun arrival => (arrival.1 + wire.propagationDelay, arrival.2)

theorem arrivals_append :
    arrivals wire d (log ++ new) = arrivals wire d log ++ arrivals wire d new :=
  List.filterMap_append ..

theorem deliveries_append :
    deliveries wire d (log ++ new) = deliveries wire d log ++ deliveries wire d new :=
  List.filterMap_append ..

theorem arrivals_received {c : TimerContainer NetMessage} {sends : List (Send NetMessage)} :
    arrivals wire d [(.received c sends : Record NetMessage α)] =
      (incoming (wire.connected (opposite d)) wire.id c).toList := by
  rw [arrivals, List.filterMap_cons, List.filterMap_nil]
  dsimp only
  cases incoming (wire.connected (opposite d)) wire.id c <;> rfl

theorem deliveries_received {c : TimerContainer NetMessage} {sends : List (Send NetMessage)} :
    deliveries wire d [(.received c sends : Record NetMessage α)] = inFlight wire d [c] := rfl

theorem inFlight_append {queue extra : List (TimerContainer NetMessage)} :
    inFlight wire d (queue ++ extra) = inFlight wire d queue ++ inFlight wire d extra :=
  List.filterMap_append ..

/-- One more packet is due after the others. -/
theorem due_append {born now : ℕ} {arrived : List (ℕ × Packet)} {packet : Packet} :
    due quotient wire born (arrived ++ [(now, packet)]) = due quotient wire born arrived ++
      [((if wire.limit_speed then
          max now (Semantics.finish (wire.packetDelay quotient) born arrived) +
            wire.packetDelay quotient packet
        else now) + wire.propagationDelay, packet)] := by
  unfold due
  split
  · rw [schedule_append, List.map_append]
    rfl
  · rw [List.map_append]
    rfl

/-! ## The two ends -/

/-- The ends are modules, and not the same. -/
structure Joins (wire : Wire) : Prop where
  different : wire.connected 0 ≠ wire.connected 1
  connected : ∀ d, wire.connected d ≠ 0

theorem eq_opposite (other : e ≠ d) : e = opposite d := by
  unfold opposite
  omega

theorem Joins.ne_opposite (joins : Joins wire) (d : Fin 2) :
    wire.connected d ≠ wire.connected (opposite d) := by
  match d with
  | 0 => exact joins.different
  | 1 => exact joins.different.symm

/-- What comes from an end goes to the opposite one. -/
theorem Joins.destination_eq (joins : Joins wire) {source : ℕ} :
    wire.destination source = some d ↔ source = wire.connected (opposite d) := by
  unfold destination
  match d with
  | 0 =>
    change _ ↔ source = wire.connected 1
    split
    next first =>
      have other : source ≠ wire.connected 1 := first ▸ joins.different
      simp [other]
    · split
      next second => simp [second]
      next second => simp [Ne.symm second]
  | 1 =>
    change _ ↔ source = wire.connected 0
    split
    next first => simp [first]
    next first =>
      split
      · simp [Ne.symm first]
      · simp [Ne.symm first]

/-! ## The invariant -/

variable {start : Wire} {born : ℕ} {x y : State NetMessage Wire}
  {records added : List (Record NetMessage (List (Send NetMessage)))}
  {input : Input (List (Send NetMessage))}

/-- What holds of a wire that was created as `start` at time `born`. -/
structure Inv (quotient : ℕ → ℕ → ℕ) (start : Wire) (born : ℕ)
    (log : List (Record NetMessage (List (Send NetMessage)))) (x : State NetMessage Wire) :
    Prop where
  sound : Sound x.sys
  settings : x.memory = { start with nextAvailable := x.memory.nextAvailable }
  own : ∀ c ∈ x.sys.timerQueue, c.source = start.id → ∃ packet, c.message = .packetFromPort packet
  free : ∀ d, x.memory.nextAvailable d =
    Semantics.finish (start.packetDelay quotient) born (arrivals start d log)
  channel : ∀ d, Channel x.sys.timerQueue start.id (start.connected d)
    (x.memory.bound d x.sys.currentTime)
  flow : ∀ d, due quotient start born (arrivals start d log) =
    deliveries start d log ++ inFlight start d x.sys.timerQueue

/-- The scheduler hands over what is on its way to an end in the order of the queue. -/
theorem inFlight_dispatch {queue front back : List (TimerContainer NetMessage)}
    {c : TimerContainer NetMessage} {bound : ℕ}
    (channel : Channel queue wire.id (wire.connected d) bound)
    (split : queue = front ++ c :: back) (least : ∀ other ∈ queue, c.key ≤ other.key)
    (uuids : queue.Pairwise fun a b => a.uuid < b.uuid) :
    inFlight wire d queue = inFlight wire d [c] ++ inFlight wire d (front ++ back) := by
  have select : ∀ queue : List (TimerContainer NetMessage), inFlight wire d queue =
      inFlight wire d (queue.filter (onChannel wire.id (wire.connected d))) := by
    intro queue
    rw [inFlight, inFlight, List.filterMap_filter]
    refine List.filterMap_congr fun c _ => ?_
    unfold outgoing
    split <;> split <;> rfl
  rw [← inFlight_append, List.singleton_append]
  by_cases on : onChannel wire.id (wire.connected d) c = true
  · rw [select queue, (filter_of_least split least uuids channel.order on).1,
      select (c :: (front ++ back)), List.filter_cons_of_pos on]
  · rw [select queue, filter_of_not split (Bool.not_eq_true _ ▸ on),
      select (c :: (front ++ back)), List.filter_cons_of_neg on]

theorem inFlight_stamp_foreign {now address uuid : ℕ} {sends : List (Send NetMessage)}
    (foreign : ∀ send ∈ sends, send.source ≠ wire.id) :
    inFlight wire d (stamp now address uuid sends) = [] := by
  refine List.filterMap_eq_nil_iff.mpr fun c member => ?_
  obtain ⟨-, -, send, sent, source, -⟩ := mem_stamp member
  have apart : ¬ onChannel wire.id (wire.connected d) c = true := by
    rw [onChannel_iff, source]
    exact fun same => foreign send sent same.1
  unfold outgoing
  split
  · rw [if_neg apart]
  · rfl

/-- Messages from other modules are on neither channel. -/
theorem channel_foreign {queue : List (TimerContainer NetMessage)} {bound now address uuid : ℕ}
    {sends : List (Send NetMessage)} (channel : Channel queue wire.id (wire.connected d) bound)
    (foreign : ∀ send ∈ sends, send.source ≠ wire.id) :
    Channel (queue ++ stamp now address uuid sends) wire.id (wire.connected d) bound := by
  have apart : ∀ send ∈ sends, ¬ sendOn wire.id (wire.connected d) send = true := by
    intro send member
    rw [sendOn_iff]
    exact fun same => foreign send member same.1
  refine channel.stamp (List.Sublist.refl _) le_rfl ?_ ?_
  · exact fun send member on => absurd on (apart send member)
  · rw [List.filter_eq_nil_iff.mpr apart]
    exact Nat.zero_le 1

/-- What other modules send does not concern the wire yet. -/
theorem Inv.act {sends : List (Send NetMessage)} {address now : ℕ}
    (inv : Inv quotient start born records x) (sound : Sound y.sys)
    (foreign : ∀ send ∈ sends, send.source ≠ start.id) (memory : y.memory = x.memory)
    (clock : y.sys.currentTime = x.sys.currentTime)
    (queue : y.sys.timerQueue =
      x.sys.timerQueue ++ stamp x.sys.currentTime address x.sys.currentUUID sends) :
    Inv quotient start born (records ++ [.acted sends now sends]) y := by
  have arrived : ∀ d, arrivals start d (records ++ [.acted sends now sends]) =
      arrivals start d records := by
    intro d
    rw [arrivals_append]
    exact List.append_nil _
  constructor
  · exact sound
  · rw [memory]
    exact inv.settings
  · intro c member
    rw [queue, List.mem_append] at member
    rcases member with member | member
    · exact inv.own c member
    -- the wire did not send it
    · obtain ⟨-, -, send, sent, source, -⟩ := mem_stamp member
      exact fun same => absurd (source.symm.trans same) (foreign send sent)
  · intro d
    rw [memory, arrived]
    exact inv.free d
  · intro d
    rw [memory, queue, clock]
    exact channel_foreign (inv.channel d) foreign
  · intro d
    rw [arrived, deliveries_append, queue, inFlight_append, inFlight_stamp_foreign foreign,
      List.append_nil, inv.flow d]
    congr 1
    exact (List.append_nil _).symm

variable {c : TimerContainer NetMessage} {front back : List (TimerContainer NetMessage)}

/-- A message that the wire does not forward. If it is one of its own, it is delivered. -/
theorem Inv.pass (inv : Inv quotient start born records x) (sound : Sound y.sys)
    (split : x.sys.timerQueue = front ++ c :: back)
    (least : ∀ other ∈ x.sys.timerQueue, c.key ≤ other.key)
    (ignored : ∀ d, incoming (start.connected (opposite d)) start.id c = none)
    (memory : y.memory = x.memory) (clock : y.sys.currentTime = c.wakeup)
    (queue : y.sys.timerQueue = front ++ back) :
    Inv quotient start born (records ++ [.received c []]) y := by
  have later : x.sys.currentTime ≤ c.wakeup := inv.sound.future c (by simp [split])
  have sub : (front ++ back).Sublist x.sys.timerQueue := by
    rw [split]
    exact (List.Sublist.refl front).append (List.sublist_cons_self c back)
  have arrived : ∀ d, arrivals start d (records ++ [.received c []]) =
      arrivals start d records := by
    intro d
    rw [arrivals_append, arrivals_received, ignored d]
    exact List.append_nil _
  constructor
  · exact sound
  · rw [memory]
    exact inv.settings
  · intro other member
    rw [queue] at member
    exact inv.own other (sub.subset member)
  · intro d
    rw [memory, arrived]
    exact inv.free d
  · intro d
    rw [memory, queue, clock]
    exact (inv.channel d).sublist sub (bound_mono later)
  · intro d
    -- what leaves the flight is delivered, so that the two together stay the same
    rw [arrived, inv.flow d, inFlight_dispatch (inv.channel d) split least inv.sound.sorted,
      deliveries_append, deliveries_received, queue, List.append_assoc]

/-- The settings of a wire never change. -/
theorem Inv.constant (inv : Inv quotient start born records x) :
    x.memory.id = start.id ∧ x.memory.connected = start.connected ∧
      x.memory.bps = start.bps ∧ x.memory.propagationDelay = start.propagationDelay ∧
      x.memory.limit_speed = start.limit_speed := by
  rw [inv.settings]
  exact ⟨rfl, rfl, rfl, rfl, rfl⟩

/-- A packet from an end arrives in one direction only. -/
theorem arrivals_packet {packet : Packet} {sends : List (Send NetMessage)} (joins : Joins start)
    (target : c.target = start.id) (source : c.source = start.connected (opposite d))
    (message : c.message = .packetToPort packet) (e : Fin 2) :
    arrivals start e (records ++ [.received c sends]) =
      arrivals start e records ++ if e = d then [(c.wakeup, packet)] else [] := by
  rw [arrivals_append, arrivals_received]
  congr 1
  by_cases same : e = d
  · have on : onChannel (start.connected (opposite e)) start.id c = true := by
      rw [onChannel_iff, same]
      exact ⟨source, target⟩
    rw [incoming, message, if_pos same]
    dsimp only
    rw [if_pos on]
    rfl
  · have off : ¬ onChannel (start.connected (opposite e)) start.id c = true := by
      rw [onChannel_iff, source]
      intro on
      rw [← eq_opposite (Ne.symm same)] at on
      exact joins.ne_opposite d on.1.symm
    rw [incoming, message, if_neg same]
    dsimp only
    rw [if_neg off]
    rfl

/-- A packet that the wire sends to an end is in flight in that direction only. -/
theorem inFlight_stamp_packet {packet : Packet} {now delay address uuid : ℕ}
    (joins : Joins start) (e : Fin 2) :
    inFlight start e (stamp now address uuid
      [⟨start.id, start.connected d, .packetFromPort packet, delay⟩]) =
      if e = d then [(now + delay, packet)] else [] := by
  by_cases same : e = d
  · simp [inFlight, stamp, outgoing, onChannel, same]
  · have apart : start.connected d ≠ start.connected e := by
      rw [eq_opposite same]
      exact joins.ne_opposite d
    simp [inFlight, stamp, outgoing, onChannel, same, apart]

/-- A packet from an end is sent on to the other one. -/
theorem Inv.forward {packet : Packet} {delay address uuid : ℕ} (joins : Joins start)
    (inv : Inv quotient start born records x) (sound : Sound y.sys)
    (split : x.sys.timerQueue = front ++ c :: back)
    (least : ∀ other ∈ x.sys.timerQueue, c.key ≤ other.key)
    (target : c.target = start.id) (source : c.source = start.connected (opposite d))
    (message : c.message = .packetToPort packet)
    (memory : y.memory = x.memory.occupy d (x.memory.finish quotient c.wakeup packet d))
    (clock : y.sys.currentTime = c.wakeup)
    (after : x.memory.bound d c.wakeup ≤ c.wakeup + delay)
    (exact_ : c.wakeup + delay = y.memory.bound d c.wakeup)
    (queue : y.sys.timerQueue = front ++ back ++ stamp c.wakeup address uuid
      [⟨start.id, start.connected d, .packetFromPort packet, delay⟩]) :
    Inv quotient start born
      (records ++ [.received c [⟨start.id, start.connected d, .packetFromPort packet, delay⟩]])
      y := by
  have later : x.sys.currentTime ≤ c.wakeup := inv.sound.future c (by simp [split])
  have sub : (front ++ back).Sublist x.sys.timerQueue := by
    rw [split]
    exact (List.Sublist.refl front).append (List.sublist_cons_self c back)
  obtain ⟨-, -, bps, propagation, limit⟩ := inv.constant
  have free : x.memory.finish quotient c.wakeup packet d =
      max c.wakeup (Semantics.finish (start.packetDelay quotient) born (arrivals start d records)) +
        start.packetDelay quotient packet := by
    rw [Wire.finish, inv.free d, bps, packetDelay]
  have arrived := fun e sends =>
    @arrivals_packet d start records c packet sends joins target source message e
  -- it is not itself a delivery
  have silent : ∀ e, inFlight start e [c] = [] := by
    intro e
    simp [inFlight, outgoing, message]
  constructor
  · exact sound
  · rw [memory, inv.settings]
    rfl
  · intro other member
    rw [queue, List.mem_append] at member
    rcases member with member | member
    · exact inv.own other (sub.subset member)
    · obtain ⟨-, -, send, sent, -, -, same, -⟩ := mem_stamp member
      rw [List.mem_singleton.mp sent] at same
      exact fun _ => ⟨packet, same⟩
  · intro e
    rw [arrived, memory, Wire.occupy]
    by_cases same : e = d
    · subst same
      rw [if_pos rfl, finish_append]
      exact (Function.update_self ..).trans free
    · rw [if_neg same, List.append_nil]
      exact (Function.update_of_ne same ..).trans (inv.free e)
  · intro e
    rw [queue, clock]
    have grows : x.memory.bound e x.sys.currentTime ≤ y.memory.bound e c.wakeup := by
      rw [memory]
      refine (bound_mono later).trans (bound_occupy ?_ e)
      exact le_trans (le_max_right _ _) (Nat.le_add_right _ _)
    refine (inv.channel e).stamp sub grows ?_ ?_
    · intro send member on
      rw [List.mem_singleton.mp member, sendOn_iff] at on
      rw [List.mem_singleton.mp member]
      obtain rfl : e = d := by
        by_contra other
        exact joins.ne_opposite d (eq_opposite other ▸ on.2)
      exact ⟨(bound_mono later).trans after, exact_.le⟩
    · exact (List.length_filter_le _ _).trans (by simp)
  · intro e
    rw [arrived, deliveries_append, deliveries_received, silent, queue, inFlight_append,
      inFlight_stamp_packet joins]
    have flow := inv.flow e
    rw [inFlight_dispatch (inv.channel e) split least inv.sound.sorted, silent,
      List.nil_append] at flow
    rw [List.append_nil]
    by_cases same : e = d
    · subst same
      rw [if_pos rfl, if_pos rfl, due_append, flow, ← free, List.append_assoc]
      congr 3
      rw [exact_, memory, bound, ← limit, ← propagation]
      simp [Wire.occupy]
    · rw [if_neg same, if_neg same, List.append_nil, List.append_nil, flow]

/-! ## Whole runs -/

/-- The wire does not hear of a message from elsewhere, nor of one for another module. -/
theorem incoming_eq_none {source : ℕ} (off : c.target = start.id → c.source ≠ source) :
    incoming source start.id c = none := by
  unfold incoming
  split
  · refine if_neg fun on => ?_
    rw [onChannel_iff] at on
    exact off on.2 on.1
  · rfl

theorem Inv.step (joins : Joins start) (inv : Inv quotient start born records x)
    (allowed : Allowed quotient x input)
    (h : (module quotient).machine.step x input = some (y, added)) :
    Inv quotient start born (records ++ added) y := by
  obtain ⟨noWrap, times⟩ := allowed
  obtain ⟨effect, sound⟩ := effect_of_step inv.sound noWrap h
  obtain ⟨same_id, same_ends, -⟩ := inv.constant
  have same_destination : x.memory.destination = start.destination := by
    unfold destination
    rw [same_ends]
  cases effect with
  | act call memory sends address y handled memory_eq clock queue =>
    simp only [module] at handled
    split at handled
    next foreign =>
      obtain ⟨rfl, rfl⟩ : x.memory = memory ∧ call = sends := by simpa using handled
      exact inv.act sound (same_id ▸ foreign) memory_eq clock queue
    · simp at handled
  | dispatch c front back memory sends address y split least handled memory_eq clock queue =>
    obtain ⟨sys, pop⟩ := popTimer_of_dispatch h
    have fits := times rfl _ pop
    simp only [module, same_id] at handled
    by_cases target : c.target = start.id
    · rw [if_pos target] at handled
      cases message : c.message with
      | packetToPort packet =>
        rw [message] at handled
        cases to_end : start.destination c.source with
        | none =>
          obtain ⟨rfl, rfl⟩ : x.memory = memory ∧ [] = sends := by
            simpa [messageReceived, same_destination, to_end] using handled
          -- the source is none of the two ends, so the packet is dropped
          refine inv.pass sound split least (fun d => incoming_eq_none fun _ source => ?_)
            memory_eq clock (by simpa [stamp] using queue)
          rw [joins.destination_eq.mpr source] at to_end
          exact absurd to_end (by simp)
        | some d =>
          -- a packet of one end, which is the only message the wire forwards
          have connected : x.memory.connected d ≠ 0 := same_ends ▸ joins.connected d
          rw [TimeFits, message] at fits
          have room := fits (target.trans same_id.symm) d (same_destination ▸ to_end)
          obtain ⟨delay, value, after, exactly⟩ :=
            messageReceived_eq (same_destination ▸ to_end) connected room
          rw [value, same_id, same_ends] at handled
          obtain ⟨rfl, rfl⟩ : _ = memory ∧ _ = sends := by simpa using handled
          exact inv.forward joins sound split least target (joins.destination_eq.mp to_end)
            message memory_eq clock after (by rw [memory_eq]; exact exactly) queue
      | packetFromPort packet => simp [messageReceived, message] at handled
      | checkQueue port => simp [messageReceived, message] at handled
      | other => simp [messageReceived, message] at handled
    · rw [if_neg target] at handled
      obtain ⟨rfl, rfl⟩ : x.memory = memory ∧ [] = sends := by simpa using handled
      exact inv.pass sound split least (fun d => incoming_eq_none fun on => absurd on target)
        memory_eq clock (by simpa [stamp] using queue)

/-- Before a wire is there, nothing comes from it. -/
theorem unsent_of_run {id : ℕ} {inputs : List (Input (List (Send NetMessage)))}
    {z : State NetMessage Unit} (run : (others id).machine.Run (others id).NoWrap ⟨{}, ()⟩ inputs
      records z) :
    Sound z.sys ∧ ∀ c ∈ z.sys.timerQueue, c.source ≠ id := by
  refine run.invariant (fun _ z => Sound z.sys ∧ ∀ c ∈ z.sys.timerQueue, c.source ≠ id)
    ⟨sound_start, by simp⟩ ?_
  intro _ x input y new ⟨sound, unsent⟩ allowed h
  obtain ⟨effect, sound'⟩ := effect_of_step sound allowed h
  refine ⟨sound', fun c member => ?_⟩
  cases effect with
  | act call memory sends address y handled memory_eq clock queue =>
    simp only [others] at handled
    split at handled
    next foreign =>
      obtain rfl : call = sends := by simpa using handled
      rw [queue, List.mem_append] at member
      rcases member with member | member
      · exact unsent c member
      · obtain ⟨-, -, send, sent, source, -⟩ := mem_stamp member
        exact source ▸ foreign send sent
    · simp at handled
  | dispatch current front back memory sends address y split least handled memory_eq clock queue =>
    simp only [others] at handled
    split at handled
    · simp at handled
    · obtain rfl : [] = sends := by simpa using handled
      rw [queue, stamp, List.append_nil] at member
      refine unsent c ?_
      rw [split]
      exact (List.sublist_cons_self current back).append_left front |>.subset member

/-- A wire that was just created. -/
theorem inv_create {s : System NetMessage} (sound : Sound s)
    (unsent : ∀ c ∈ s.timerQueue, c.source ≠ start.id)
    (created : start.nextAvailable = fun _ => s.currentTime) :
    Inv quotient start s.currentTime [] ⟨s, start⟩ := by
  -- the id of the wire is new, so nothing in the queue is from it
  have empty : ∀ d, s.timerQueue.filter (onChannel start.id (start.connected d)) = [] := by
    intro d
    refine List.filter_eq_nil_iff.mpr fun c member on => ?_
    exact unsent c member (onChannel_iff.mp on).1
  constructor
  · exact sound
  · rfl
  · exact fun c member source => absurd source (unsent c member)
  · intro d
    exact congrFun created d
  · intro d
    constructor
    · rw [empty]
      exact List.Pairwise.nil
    · rw [empty]
      simp
  · intro d
    have nothing : inFlight start d s.timerQueue = [] := by
      refine List.filterMap_eq_nil_iff.mpr fun c member => ?_
      unfold outgoing
      split
      · exact if_neg fun on => unsent c member (onChannel_iff.mp on).1
      · rfl
    rw [nothing]
    unfold due
    split <;> rfl

/-- What is on its way to an end is still to come. -/
theorem Inv.future (inv : Inv quotient start born records x) {arrival : ℕ × Packet}
    (member : arrival ∈ inFlight start d x.sys.timerQueue) : x.sys.currentTime ≤ arrival.1 := by
  obtain ⟨c, queued, value⟩ := List.mem_filterMap.mp member
  unfold outgoing at value
  split at value
  · split at value
    · rw [← Option.some.inj value]
      exact inv.sound.future c queued
    · simp at value
  · simp at value

/-- As long as the others send packets to a wire and nothing else, the scheduler does not get
stuck. -/
theorem Inv.dispatch_isSome (inv : Inv quotient start born records x)
    (allowed : Allowed quotient x .dispatch) (busy : x.sys.timerQueue ≠ [])
    (packets : ∀ c ∈ x.sys.timerQueue, c.target = start.id →
      ∃ packet, c.message = .packetToPort packet) :
    ((module quotient).machine.step x .dispatch).isSome := by
  refine Reactive.dispatch_isSome inv.sound allowed.1 busy fun popped _ member => ?_
  simp only [module, inv.constant.1]
  split
  next target =>
    obtain ⟨packet, message⟩ := packets popped.1 member target
    rw [message, messageReceived]
    split
    · rfl
    · split <;> rfl
  · rfl

/-- A wire is two independent channels. Let `arrivals` be what it got from one end, and
`due` when each of these packets is to be delivered to the other: at `Dₙ` plus the
propagation delay, where `Dₙ = max aₙ Dₙ₋₁ + dₙ`, or without a speed limit at `aₙ` plus the
propagation delay. Then what was delivered, followed by what is still to come, is exactly
this list, whatever happened in the other direction. Packets from other modules are
ignored. -/
theorem wire_refines_two_channels (quotient : ℕ → ℕ → ℕ)
    (id left right propagationDelay bps : ℕ) (limit_speed : Bool)
    (different : left ≠ right) (left_ne : left ≠ 0) (right_ne : right ≠ 0)
    {past inputs : List (Input (List (Send NetMessage)))}
    {history : List (Record NetMessage (List (Send NetMessage)))} {z : State NetMessage Unit}
    (before : (others id).machine.Run (others id).NoWrap ⟨{}, ()⟩ past history z)
    (wire_eq : start = create id left right z.sys.currentTime propagationDelay bps limit_speed)
    (run : (module quotient).machine.Run (Allowed quotient) ⟨z.sys, start⟩ inputs records x) :
    (∀ d, due quotient start z.sys.currentTime (arrivals start d records) =
        deliveries start d records ++ inFlight start d x.sys.timerQueue ∧
      ∀ arrival ∈ inFlight start d x.sys.timerQueue, x.sys.currentTime ≤ arrival.1) ∧
    (Allowed quotient x .dispatch → x.sys.timerQueue ≠ [] →
      (∀ c ∈ x.sys.timerQueue, c.target = id → ∃ packet, c.message = .packetToPort packet) →
      ((module quotient).machine.step x .dispatch).isSome) ∧
    ∀ now source packet, source ≠ left → source ≠ right →
      x.memory.messageReceived quotient now source (.packetToPort packet) =
        some (x.memory, []) := by
  subst wire_eq
  have joins : Joins (create id left right z.sys.currentTime propagationDelay bps limit_speed) := by
    constructor
    · exact different
    · intro d
      match d with
      | 0 => exact left_ne
      | 1 => exact right_ne
  obtain ⟨sound, unsent⟩ := unsent_of_run before
  have inv := run.invariant (Inv quotient _ z.sys.currentTime) (inv_create sound unsent rfl)
    fun _ _ _ _ _ inv allowed h => inv.step joins allowed h
  refine ⟨fun d => ⟨inv.flow d, fun arrival member => inv.future member⟩,
    inv.dispatch_isSome, ?_⟩
  intro now source packet not_left not_right
  -- neither of the two tests of `messageReceived` succeeds
  have nowhere : x.memory.destination source = none := by
    rw [destination, inv.constant.2.1]
    exact (if_neg not_left.symm).trans (if_neg not_right.symm)
  rw [messageReceived, nowhere]

/-- Two packets from the left end at one time, and one from the right end. The wire was
created at time 3, takes 1 for each byte and has a propagation delay of 5. -/
theorem wire_refines_two_channels_busy :
    ∃ (z : State NetMessage Unit) (log : List (Record NetMessage (List (Send NetMessage)))),
      deliveries (create 9 1 2 z.sys.currentTime 5 1 true) 1 log =
        [(10, ⟨[1, 2], 0⟩), (11, ⟨[3], 0⟩)] ∧
      deliveries (create 9 1 2 z.sys.currentTime 5 1 true) 1 log <+:
        due (fun size _ => size) (create 9 1 2 z.sys.currentTime 5 1 true) z.sys.currentTime
          (arrivals (create 9 1 2 z.sys.currentTime 5 1 true) 1 log) := by
  have value : (((others 9).machine.execIf (others 9).NoWrap ⟨{}, ()⟩
      [.act [⟨1, 2, .other, 3⟩], .dispatch]).bind fun r =>
        ((module fun size _ => size).machine.execIf (Allowed fun size _ => size)
          ⟨r.1.sys, create 9 1 2 r.1.sys.currentTime 5 1 true⟩
          (.act [⟨1, 9, .packetToPort ⟨[1, 2], 0⟩, 0⟩, ⟨1, 9, .packetToPort ⟨[3], 0⟩, 0⟩,
            ⟨2, 9, .packetToPort ⟨[4], 0⟩, 1⟩] :: List.replicate 6 .dispatch)).map fun r' =>
          deliveries (create 9 1 2 r.1.sys.currentTime 5 1 true) 1 r'.2) =
      some [(10, ⟨[1, 2], 0⟩), (11, ⟨[3], 0⟩)] := by decide
  obtain ⟨⟨z, history⟩, early, rest⟩ := Option.bind_eq_some_iff.mp value
  obtain ⟨⟨x, log⟩, late, delivered⟩ := Option.map_eq_some_iff.mp rest
  have channels := wire_refines_two_channels (fun size _ => size) 9 1 2 5 1 true (by decide)
    (by decide) (by decide) (Run.of_execIf early) rfl (Run.of_execIf late)
  refine ⟨z, log, delivered, ?_⟩
  rw [(channels.1 1).1]
  exact List.prefix_append _ _

end Kens.Wire
