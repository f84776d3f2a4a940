/-
# Programs at the hosts of a star

The hosts of a star run programs: they react to frames and to messages of their own by sending
frames and messages. The scheduler serves hosts, wires and switch from one queue. Seen from the
network, a host that runs a program is one that sends frames at some times, so that every run with
programs is a run of the star, and what holds of the star holds whatever the hosts do.
-/

import Mathlib
import Kens.System.Relabel
import Kens.Networking.LossyDelivery

namespace Kens.Star

open Semantics Reactive Switch

/-- The messages of a network whose hosts send themselves messages of a type `P`. -/
inductive Hosted (P : Type)
  | net (message : NetMessage)
  | own (message : P)

/-- What the network makes of a message: those of the hosts do not concern it. -/
def Hosted.plain {P : Type} : Hosted P → NetMessage
  | net message => message
  | own _ => .other

/-- What a host does: send a frame by one of its wires, or a message to itself. -/
inductive Deed (P : Type)
  | sendFrame (wire : ℕ) (frame : List UInt8)
  | sendOwn (message : P) (timeAfter : ℕ)

/-- What a host gets: a frame from one of its wires, or a message of its own. -/
inductive Incoming (P : Type)
  | frame (wire : ℕ) (packet : Packet)
  | own (message : P)

/-- The programs of all hosts with a common memory. `receive` handles what a host gets at some
time, `act` is what other code makes a host do. -/
structure Programs (P H A : Type) where
  receive : H → ℕ → ℕ → Incoming P → Option (H × List (Deed P))
  act : H → ℕ → ℕ → A → Option (H × List (Deed P))

variable {P H A : Type}

/-- The call of `sendMessage` for a deed. A host has no wires but its own. -/
def send (N : Star) (host : ℕ) : Deed P → Option (Send (Hosted P))
  | .sendFrame wire frame =>
    if wire ∈ N.ports ∧ N.hostOf wire = host then
      some ⟨host, wire, .net (.packetToPort ⟨frame, wire⟩), 0⟩
    else none
  | .sendOwn message timeAfter => some ⟨host, host, .own message, timeAfter⟩

/-- The sends for all deeds of a handler. -/
def perform (N : Star) (host : ℕ) (result : Option (H × List (Deed P))) :
    Option (H × List (Send (Hosted P))) := do
  let (memory, deeds) ← result
  let sends ← deeds.mapM (N.send host)
  pure (memory, sends)

/-- `messageReceived` of all modules, where the hosts run programs. -/
def hosted (N : Star) (O : Oracle) (Q : Programs P H A) :
    Reactive (Hosted P) (Memory × H) (ℕ × A) where
  receive m now c :=
    if c.target = N.switch ∨ c.target ∈ N.ports then
      match c.message with
      | .net _ => ((N.modules O).receive m.1 now (c.map Hosted.plain)).map fun r =>
          ((r.1, m.2), r.2.map (Send.map .net))
      -- a message of a host reaches no other module
      | .own _ => none
    else
      match c.message with
      | .net (.packetFromPort packet) =>
        (N.perform c.target (Q.receive m.2 now c.target (.frame c.source packet))).map fun r =>
          ((m.1, r.1), r.2)
      | .net _ => some (m, [])
      | .own message =>
        (N.perform c.target (Q.receive m.2 now c.target (.own message))).map fun r =>
          ((m.1, r.1), r.2)
  act m now call :=
    if call.1 ≠ N.switch ∧ call.1 ∉ N.ports then
      (N.perform call.1 (Q.act m.2 now call.1 call.2)).map fun r => ((m.1, r.1), r.2)
    else none

/-- The start of a star with a given switch and given memory of the programs. -/
def hostedStart (N : Star) (unreliable : Bool) (limit : ℕ) (memory : H) :
    State (Hosted P) (Memory × H) :=
  ⟨{}, ((N.startWith unreliable limit).memory, memory)⟩

/-- What the network sees of a state. -/
def plainState (x : State (Hosted P) (Memory × H)) : State NetMessage Memory :=
  ⟨x.sys.map Hosted.plain, x.memory.1⟩

/-- A frame that is sent has a destination address. -/
def SendAddressed (send : Send (Hosted P)) : Prop :=
  match send.message with
  | .net (.packetToPort packet) => 6 ≤ packet.getSize
  | _ => True

/-- So have all that are sent in the next step. -/
def SendsAddressed (N : Star) (O : Oracle) (Q : Programs P H A)
    (x : State (Hosted P) (Memory × H)) : Input (ℕ × A) → Prop
  | .act a => ∀ result ∈ (N.hosted O Q).act x.memory x.sys.currentTime a,
      ∀ send ∈ result.2, SendAddressed send
  | .dispatch => ∀ popped ∈ x.sys.popTimer,
      ∀ result ∈ (N.hosted O Q).receive x.memory popped.2.currentTime popped.1,
        ∀ send ∈ result.2, SendAddressed send

/-- No time and no UUID wraps, and frames have a destination address. -/
def HostedAllowed (N : Star) (O : Oracle) (Q : Programs P H A) (x : State (Hosted P) (Memory × H))
    (input : Input (ℕ × A)) : Prop :=
  (N.hosted O Q).NoWrap x input ∧
    (input = .dispatch → ∀ popped ∈ x.sys.popTimer,
      TimeFits O x.memory.1 (popped.1.map Hosted.plain)) ∧
    N.SendsAddressed O Q x input

instance (send : Send (Hosted P)) : Decidable (SendAddressed send) :=
  match h : send.message with
  | .net (.packetToPort packet) =>
    decidable_of_iff (6 ≤ packet.getSize) (by rw [SendAddressed, h])
  | .net (.packetFromPort _) | .net (.checkQueue _) | .net .other | .own _ =>
    isTrue (by rw [SendAddressed, h]; trivial)

instance (N : Star) (O : Oracle) (Q : Programs P H A) (x : State (Hosted P) (Memory × H)) :
    DecidablePred (N.SendsAddressed O Q x)
  | .act a => inferInstanceAs (Decidable
      (∀ result ∈ (N.hosted O Q).act x.memory x.sys.currentTime a, ∀ send ∈ result.2, _))
  | .dispatch => inferInstanceAs (Decidable (∀ popped ∈ x.sys.popTimer,
      ∀ result ∈ (N.hosted O Q).receive x.memory popped.2.currentTime popped.1,
        ∀ send ∈ result.2, _))

instance (N : Star) (O : Oracle) (Q : Programs P H A) (x : State (Hosted P) (Memory × H)) :
    DecidablePred (N.HostedAllowed O Q x)
  | .act a => decidable_of_iff ((N.hosted O Q).NoWrap x (.act a) ∧ N.SendsAddressed O Q x (.act a))
      (by simp [HostedAllowed])
  | .dispatch => decidable_of_iff ((N.hosted O Q).NoWrap x .dispatch ∧
      (∀ popped ∈ x.sys.popTimer, TimeFits O x.memory.1 (popped.1.map Hosted.plain)) ∧
      N.SendsAddressed O Q x .dispatch) (by simp [HostedAllowed])

/-- The frames that a host sends in a step by port `p`. -/
def hostedSent (N : Star) (p : ℕ) (record : Record (Hosted P) (ℕ × A)) : List Packet :=
  sentOn (fun message => payload message.plain) (N.hostOf p) p record.sends

/-- A frame that entered at port `p` and is delivered to the host behind port `q`. -/
def hostedDelivered (N : Star) (p q : ℕ) : Record (Hosted P) (ℕ × A) → Option Packet
  | .received c _ =>
    if c.source = q ∧ c.target = N.hostOf q then
      (payload c.message.plain).filter (·.origin = p)
    else none
  | _ => none

variable {N : Star} {O : Oracle} {Q : Programs P H A} {p q host : ℕ} {m : Memory}
  {s s' : System (Hosted P)} {deed : Deed P} {deeds : List (Deed P)}
  {sends : List (Send (Hosted P))} {x y : State (Hosted P) (Memory × H)} {unreliable : Bool}
  {limit : ℕ} {input : Input (ℕ × A)} {log new : List (Record (Hosted P) (ℕ × A))}

/-! ## What a host does is a sequence of calls -/

/-- The call of the star for a deed. -/
def Deed.call (host : ℕ) : Deed P → Call
  | .sendFrame wire frame => .sendFrame wire frame
  | .sendOwn _ timeAfter => .hostMessage host timeAfter

/-- What is looked up in the results of a loop can be looked up in its arguments. -/
theorem filterMap_mapM {α β γ : Type} {f : α → Option β} {g : β → Option γ} {g' : α → Option γ}
    {args : List α} {results : List β} (looped : args.mapM f = some results)
    (same : ∀ arg result, f arg = some result → g result = g' arg) :
    results.filterMap g = args.filterMap g' := by
  induction args generalizing results with
  | nil =>
    obtain rfl : [] = results := by simpa using looped
    rfl
  | cons arg args ih =>
    rw [List.mapM_cons] at looped
    obtain ⟨result, first, looped⟩ := Option.bind_eq_some_iff.mp looped
    obtain ⟨rest, later, joined⟩ := Option.bind_eq_some_iff.mp looped
    obtain rfl : result :: rest = results := by simpa using joined
    rw [List.filterMap_cons, List.filterMap_cons, same arg result first, ih later]

theorem exists_of_mem_mapM {α β : Type} {f : α → Option β} {args : List α} {results : List β}
    {result : β} (looped : args.mapM f = some results) (member : result ∈ results) :
    ∃ arg ∈ args, f arg = some result := by
  induction args generalizing results with
  | nil =>
    obtain rfl : [] = results := by simpa using looped
    simp at member
  | cons arg args ih =>
    rw [List.mapM_cons] at looped
    obtain ⟨head, first, looped⟩ := Option.bind_eq_some_iff.mp looped
    obtain ⟨rest, later, joined⟩ := Option.bind_eq_some_iff.mp looped
    obtain rfl : head :: rest = results := by simpa using joined
    rcases List.mem_cons.mp member with rfl | inside
    · exact ⟨arg, List.mem_cons_self, first⟩
    · obtain ⟨other, listed, found⟩ := ih later inside
      exact ⟨other, List.mem_cons_of_mem _ listed, found⟩

theorem sentOn_append {M R : Type} (carries : M → Option R) (source target : ℕ)
    (early late : List (Send M)) :
    sentOn carries source target (early ++ late) =
      sentOn carries source target early ++ sentOn carries source target late := by
  simp [sentOn]

theorem sentOn_map {M M' R : Type} (f : M → M') (carries : M' → Option R) (source target : ℕ)
    (sends : List (Send M)) :
    sentOn carries source target (sends.map (Send.map f)) =
      sentOn (fun message => carries (f message)) source target sends := by
  rw [sentOn, sentOn, List.filter_map, List.filterMap_map]
  rfl

/-- A deed sends what its call sends. -/
theorem act_call {send : Send (Hosted P)} {now : ℕ}
    (outside : host ≠ N.switch ∧ host ∉ N.ports) (sent : N.send host deed = some send) :
    (N.modules O).act m now (deed.call host) = some (m, [send.map Hosted.plain]) ∧
      ((sentBy p (.acted (deed.call host) now [send.map Hosted.plain])).toList =
        sentOn (fun message => payload message.plain) (N.hostOf p) p [send]) ∧
      (SendAddressed send → Addressed (.act (deed.call host))) := by
  cases deed with
  | sendFrame wire frame =>
    obtain ⟨⟨port, rfl⟩, rfl⟩ : (wire ∈ N.ports ∧ N.hostOf wire = host) ∧
        ⟨host, wire, .net (.packetToPort ⟨frame, wire⟩), 0⟩ = send := by
      simpa [Star.send] using sent
    refine ⟨if_pos port, ?_, fun addressed => addressed⟩
    by_cases same : wire = p
    · subst same
      simp [sentBy, Deed.call, sentOn, sendOn, Hosted.plain, payload]
    · simp [sentBy, Deed.call, sentOn, sendOn, same]
  | sendOwn message timeAfter =>
    obtain rfl : ⟨host, host, .own message, timeAfter⟩ = send := by simpa [Star.send] using sent
    refine ⟨if_pos outside, ?_, fun _ => trivial⟩
    rw [sentOn, List.filterMap_eq_nil_iff.mpr]
    · rfl
    · intro send member
      rw [List.mem_singleton.mp (List.mem_of_mem_filter member)]
      rfl

/-- The frame that leaves by port `p`, if that is what a host does. -/
def Deed.leaves (N : Star) (host p : ℕ) : Deed P → Option Packet
  | .sendFrame wire frame => if host = N.hostOf p ∧ wire = p then some ⟨frame, p⟩ else none
  | .sendOwn _ _ => none

/-- The frames that a host sends by port `p` are those among its deeds. -/
theorem sentOn_perform (performed : deeds.mapM (N.send host) = some sends) :
    sentOn (fun message => payload message.plain) (N.hostOf p) p sends =
      deeds.filterMap (Deed.leaves N host p) := by
  rw [sentOn, List.filterMap_filter]
  refine filterMap_mapM performed fun deed send sent => ?_
  cases deed with
  | sendFrame wire frame =>
    obtain ⟨-, rfl⟩ : (wire ∈ N.ports ∧ N.hostOf wire = host) ∧
        ⟨host, wire, .net (.packetToPort ⟨frame, wire⟩), 0⟩ = send := by
      simpa [Star.send] using sent
    by_cases on : host = N.hostOf p ∧ wire = p
    · rw [if_pos (sendOn_iff.mpr on), Deed.leaves, if_pos on, on.2]
      rfl
    · rw [if_neg (fun selected => on (sendOn_iff.mp selected)), Deed.leaves, if_neg on]
  | sendOwn message timeAfter =>
    obtain rfl : ⟨host, host, .own message, timeAfter⟩ = send := by simpa [Star.send] using sent
    split <;> rfl

theorem run_deeds (outside : host ≠ N.switch ∧ host ∉ N.ports)
    (performed : deeds.mapM (N.send host) = some sends) (sound : Sound s) (fits : Fits s sends)
    (addressed : ∀ send ∈ sends, SendAddressed send)
    (sent : sendAll s sends = some s') :
    ∃ log, (N.modules O).machine.Run (N.Allowed O) ⟨s.map Hosted.plain, m⟩
        (deeds.map fun deed => .act (deed.call host)) log ⟨s'.map Hosted.plain, m⟩ ∧
      (∀ p, log.filterMap (sentBy p) =
        sentOn (fun message => payload message.plain) (N.hostOf p) p sends) ∧
      ∀ p q, log.filterMap (N.deliveredFrom p q) = [] := by
  induction deeds generalizing s sends with
  | nil =>
    obtain rfl : [] = sends := by simpa using performed
    obtain rfl : s = s' := by simpa [sendAll] using sent
    exact ⟨[], .nil, fun _ => rfl, fun _ _ => rfl⟩
  | cons deed deeds ih =>
    rw [List.mapM_cons] at performed
    obtain ⟨send, first, performed⟩ := Option.bind_eq_some_iff.mp performed
    obtain ⟨rest, later, same⟩ := Option.bind_eq_some_iff.mp performed
    obtain rfl : send :: rest = sends := by simpa using same
    obtain ⟨s₁, one, sound₁, time, uuid, -⟩ := sendAll_eq sound fits.head
    rw [sendAll_cons, one, Option.bind_some] at sent
    -- the first call
    obtain ⟨acted, -, addresses⟩ := @act_call P N O 0 host m deed send s.currentTime outside first
    have step : (N.modules O).machine.step ⟨s.map Hosted.plain, m⟩ (.act (deed.call host)) =
        some (⟨s₁.map Hosted.plain, m⟩,
          [.acted (deed.call host) s.currentTime [send.map Hosted.plain]]) := by
      have mapped : sendAll (s.map Hosted.plain) [send.map Hosted.plain] =
          (sendAll s [send]).map (System.map Hosted.plain) := sendAll_map s [send]
      rw [one] at mapped
      change Reactive.step (N.modules O) ⟨s.map Hosted.plain, m⟩ (.act (deed.call host)) = _
      rw [Reactive.step]
      dsimp only
      rw [show (s.map Hosted.plain).currentTime = s.currentTime from rfl, acted]
      dsimp only
      rw [mapped]
      rfl
    have allowed : N.Allowed O ⟨s.map Hosted.plain, m⟩ (.act (deed.call host)) := by
      refine ⟨?_, by simp, addresses (addressed send List.mem_cons_self)⟩
      intro result handled
      change (N.modules O).act m s.currentTime (deed.call host) = some result at handled
      rw [acted] at handled
      obtain rfl := Option.some.inj handled
      exact fits.head.map
    obtain ⟨log, run, frames, none⟩ := @ih s₁ _ later sound₁ (fits.tail time uuid)
      (fun other member => addressed other (List.mem_cons_of_mem _ member)) sent
    refine ⟨_, (Machine.Run.single allowed step).append run, fun p => ?_, fun p q => ?_⟩
    · obtain ⟨-, sent_one, -⟩ :=
        @act_call P N O p host m deed send s.currentTime outside first
      have split := sentOn_append (fun message : Hosted P => payload message.plain) (N.hostOf p) p
        [send] rest
      rw [List.singleton_append] at split
      rw [List.filterMap_append, frames, split, ← sent_one]
      rfl
    · rw [List.filterMap_append, none]
      rfl

/-! ## Every step is some steps of the star -/

theorem perform_eq_some {result : Option (H × List (Deed P))} {memory : H}
    (performed : N.perform host result = some (memory, sends)) :
    ∃ deeds, result = some (memory, deeds) ∧ deeds.mapM (N.send host) = some sends := by
  obtain ⟨⟨memory', deeds⟩, value, rest⟩ := Option.bind_eq_some_iff.mp performed
  obtain ⟨sends', mapped, same⟩ := Option.bind_eq_some_iff.mp rest
  obtain ⟨rfl, rfl⟩ : memory' = memory ∧ sends' = sends := by simpa using same
  exact ⟨deeds, value, mapped⟩

/-- What the handler of a message does: that of a wire or of the switch does what it does in the
star, and that of a host performs some deeds. -/
theorem hosted_receive {memory : Memory × H} {now : ℕ} {c : TimerContainer (Hosted P)}
    (handled : (N.hosted O Q).receive x.memory now c = some (memory, sends)) :
    (memory.2 = x.memory.2 ∧ (N.modules O).receive x.memory.1 now (c.map Hosted.plain) =
        some (memory.1, sends.map (Send.map Hosted.plain))) ∨
      ((c.target ≠ N.switch ∧ c.target ∉ N.ports) ∧ memory.1 = x.memory.1 ∧
        ∃ deeds : List (Deed P), deeds.mapM (N.send c.target) = some sends) := by
  dsimp only [hosted] at handled
  have unnamed : ∀ sends : List (Send NetMessage),
      (sends.map (Send.map (Hosted.net (P := P)))).map (Send.map Hosted.plain) = sends := by
    intro sends
    rw [List.map_map]
    exact List.map_id sends
  by_cases inside : c.target = N.switch ∨ c.target ∈ N.ports
  · rw [if_pos inside] at handled
    left
    split at handled
    · obtain ⟨r, received, same⟩ := Option.map_eq_some_iff.mp handled
      obtain ⟨rfl, rfl⟩ : (r.1, x.memory.2) = memory ∧ _ = sends := by simpa using same
      rw [unnamed]
      exact ⟨rfl, received⟩
    · simp at handled
  · rw [if_neg inside] at handled
    have outside := not_or.mp inside
    have performs {result : Option (H × List (Deed P))}
        (done : (N.perform c.target result).map (fun r => ((x.memory.1, r.1), r.2)) =
          some (memory, sends)) :
        memory.1 = x.memory.1 ∧
          ∃ deeds : List (Deed P), deeds.mapM (N.send c.target) = some sends := by
      obtain ⟨⟨programs, sends'⟩, performed, same⟩ := Option.map_eq_some_iff.mp done
      obtain ⟨rfl, rfl⟩ : (x.memory.1, programs) = memory ∧ sends' = sends := by simpa using same
      obtain ⟨deeds, -, mapped⟩ := perform_eq_some performed
      exact ⟨rfl, deeds, mapped⟩
    refine .inr ⟨outside, ?_⟩
    split at handled
    · exact performs handled
    · obtain ⟨rfl, rfl⟩ : x.memory = memory ∧ [] = sends := by simpa using handled
      exact ⟨rfl, [], rfl⟩
    · exact performs handled

/-- The star dispatches what the network with programs dispatches. -/
theorem plain_dispatch {c : TimerContainer (Hosted P)} {sys later : System (Hosted P)}
    {memory : Memory} (sound : Sound x.sys) (pop : x.sys.popTimer = some (c, sys))
    (fits : Fits sys sends)
    (received : (N.modules O).receive x.memory.1 c.wakeup (c.map Hosted.plain) =
      some (memory, sends.map (Send.map Hosted.plain)))
    (all : sendAll sys sends = some later)
    (time : TimeFits O x.memory.1 (c.map Hosted.plain)) :
    (N.modules O).machine.step (plainState x) .dispatch =
        some (⟨(later.release c).map Hosted.plain, memory⟩,
          [.received (c.map Hosted.plain) (sends.map (Send.map Hosted.plain))]) ∧
      N.Allowed O (plainState x) .dispatch := by
  obtain ⟨sound_sys, clock, -⟩ := sound.pop pop
  have popped : (plainState x).sys.popTimer =
      some (c.map Hosted.plain, sys.map Hosted.plain) := by
    change (x.sys.map Hosted.plain).popTimer = _
    rw [System.popTimer_map, pop]
    rfl
  have live : (c.map Hosted.plain).address ∉ (sys.map Hosted.plain).canceled := by
    change c.address ∉ sys.canceled
    rw [sound_sys.uncanceled]
    exact Finset.notMem_empty _
  have received' : (N.modules O).receive (plainState x).memory (sys.map Hosted.plain).currentTime
      (c.map Hosted.plain) = some (memory, sends.map (Send.map Hosted.plain)) := by
    change (N.modules O).receive x.memory.1 sys.currentTime (c.map Hosted.plain) = _
    rw [clock]
    exact received
  constructor
  · change Reactive.step (N.modules O) (plainState x) .dispatch = _
    rw [Reactive.step, popped]
    dsimp only
    rw [if_neg live, received']
    dsimp only
    rw [sendAll_map, all, Option.map_some, Option.map_some, System.release_map]
  · refine ⟨?_, ?_, trivial⟩
    · intro result pop' r handled
      rw [popped] at pop'
      obtain rfl := Option.some.inj pop'
      rw [received'] at handled
      obtain rfl := Option.some.inj handled
      exact fits.map
    · rintro - result pop'
      rw [popped] at pop'
      obtain rfl := Option.some.inj pop'
      exact time

/-- Wires and switch send no frame in the name of a host. -/
theorem LossyInv.sentOn_network {c : TimerContainer (Hosted P)} {sys later : System (Hosted P)}
    {memory : Memory} (inv : LossyInv N unreliable limit (plainState x)) (sound : Sound x.sys)
    (pop : x.sys.popTimer = some (c, sys)) (fits : Fits sys sends)
    (received : (N.modules O).receive x.memory.1 c.wakeup (c.map Hosted.plain) =
      some (memory, sends.map (Send.map Hosted.plain)))
    (all : sendAll sys sends = some later)
    (time : TimeFits O x.memory.1 (c.map Hosted.plain)) (port : p ∈ N.ports) :
    sentOn (fun message => payload message.plain) (N.hostOf p) p sends = [] := by
  obtain ⟨step, allowed⟩ := plain_dispatch sound pop fits received all time
  obtain ⟨record, same, gone, come, -, passage⟩ := inv.move allowed step
  obtain rfl := (List.singleton_inj.mp same).symm
  have sent := passage.sent p port
  rw [← passage.joined .fromHost p port] at sent
  exact (sent.trans (sentOn_map Hosted.plain payload _ _ sends)).symm

/-- One step with programs is some steps of the star. -/
theorem LossyInv.hosted_step (inv : LossyInv N unreliable limit (plainState x))
    (sound : Sound x.sys) (allowed : N.HostedAllowed O Q x input)
    (h : (N.hosted O Q).machine.step x input = some (y, new)) :
    Sound y.sys ∧ ∃ inputs log, (N.modules O).machine.Run (N.Allowed O) (plainState x) inputs log
        (plainState y) ∧
      (∀ p ∈ N.ports, log.filterMap (sentBy p) = new.flatMap (N.hostedSent p)) ∧
      ∀ p q, log.filterMap (N.deliveredFrom p q) = new.filterMap (N.hostedDelivered p q) := by
  obtain ⟨noWrap, times, sendsAddressed⟩ := allowed
  obtain ⟨-, sound_y⟩ := effect_of_step sound noWrap h
  refine ⟨sound_y, ?_⟩
  rcases step_cases h with ⟨⟨host, a⟩, sends, rfl, handled, all, rfl⟩ |
    ⟨c, sys, rfl, pop, canceled, -⟩ |
    ⟨c, sys, later, sends, rfl, pop, handled, all, sys_eq, rfl⟩
  · -- other code makes a host do something
    have fits := noWrap _ handled
    have addressed := sendsAddressed _ handled
    dsimp only [hosted] at handled
    split at handled
    next outside =>
      obtain ⟨⟨programs, sends'⟩, performed, same⟩ := Option.map_eq_some_iff.mp handled
      obtain ⟨memory, rfl⟩ : (x.memory.1, programs) = y.memory ∧ sends' = sends := by
        simpa using same
      obtain ⟨deeds, -, mapped⟩ := perform_eq_some performed
      obtain ⟨log, run, frames, none⟩ := @run_deeds P N O _ x.memory.1 _ _ deeds _ outside mapped
        sound fits addressed all
      have target : plainState y = ⟨y.sys.map Hosted.plain, x.memory.1⟩ := by
        rw [plainState, ← memory]
      rw [target]
      refine ⟨_, log, run, fun p _ => ?_, fun p q => ?_⟩
      · rw [frames, List.flatMap_singleton]
        rfl
      · rw [none]
        rfl
    · simp at handled
  · -- nothing is ever canceled
    obtain ⟨sound_sys, -⟩ := sound.pop pop
    rw [sound_sys.uncanceled] at canceled
    exact absurd canceled (Finset.notMem_empty _)
  · obtain ⟨sound_sys, time, uuid, -, front, back, split, rest⟩ := sound.pop pop
    have handled' := handled
    rw [← time] at handled'
    have fits := noWrap _ pop _ handled'
    have addressed := sendsAddressed _ pop _ handled'
    have due := times rfl _ pop
    have target : plainState y = ⟨(later.release c).map Hosted.plain, y.memory.1⟩ := by
      rw [plainState, sys_eq]
    rw [target]
    rcases hosted_receive handled with ⟨-, received⟩ | ⟨outside, memory, deeds, mapped⟩
    · -- a wire or the switch
      obtain ⟨step, allowed'⟩ := plain_dispatch sound pop fits received all due
      refine ⟨_, _, Machine.Run.single allowed' step, fun p port => ?_, fun p q => rfl⟩
      rw [List.flatMap_singleton, hostedSent]
      exact (inv.sentOn_network sound pop fits received all due port).symm
    · -- a host
      have received : (N.modules O).receive x.memory.1 c.wakeup (c.map Hosted.plain) =
          some (x.memory.1, ([] : List (Send (Hosted P))).map (Send.map Hosted.plain)) :=
        receive_host outside.1 outside.2
      have fits_none : Fits sys ([] : List (Send (Hosted P))) := by
        refine ⟨by simp, ?_⟩
        have count : sys.currentUUID + sends.length < 2 ^ 64 := fits.2
        rw [List.length_nil]
        omega
      obtain ⟨step, allowed'⟩ := plain_dispatch sound pop fits_none received rfl due
      have old : c.uuid ≤ sys.currentUUID := by
        rw [uuid]
        exact sound.issued c (by simp [split])
      have sent : sendAll (sys.release c) sends = some (later.release c) := by
        rw [sendAll_release sound_sys fits old, all]
        rfl
      obtain ⟨log, run, frames, none⟩ := @run_deeds P N O _ x.memory.1 _ _ deeds _ outside mapped
        (sound_sys.release c) fits addressed sent
      rw [memory]
      refine ⟨_, _, (Machine.Run.single allowed' step).append run, fun p _ => ?_, fun p q => ?_⟩
      · rw [List.filterMap_append, frames, List.flatMap_singleton]
        rfl
      · rw [List.filterMap_append, none, List.append_nil]
        rfl

/-! ## Runs -/

/-- Every run with programs is a run of the star, with the same frames. -/
theorem hosted_run (limit_ne : limit ≠ 1) {memory : H} {inputs : List (Input (ℕ × A))}
    (run : (N.hosted O Q).machine.Run (N.HostedAllowed O Q)
      (N.hostedStart unreliable limit memory) inputs log x) :
    Sound x.sys ∧ ∃ inputs' log', (N.modules O).machine.Run (N.Allowed O)
        (N.startWith unreliable limit) inputs' log' (plainState x) ∧
      (∀ p ∈ N.ports, log'.filterMap (sentBy p) = log.flatMap (N.hostedSent p)) ∧
      ∀ p q, log'.filterMap (N.deliveredFrom p q) = log.filterMap (N.hostedDelivered p q) := by
  induction run with
  | nil => exact ⟨sound_start, [], [], .nil, fun _ _ => rfl, fun _ _ => rfl⟩
  | snoc before allowed step ih =>
    obtain ⟨sound, inputs', log', run', sent, delivered⟩ := ih
    obtain ⟨inv, -⟩ := conserved_of_run limit_ne run'
    obtain ⟨sound_y, inputs'', log'', run'', sent', delivered'⟩ :=
      inv.hosted_step sound allowed step
    refine ⟨sound_y, _, _, run'.append run'', fun p port => ?_, fun p q => ?_⟩
    · rw [List.filterMap_append, sent p port, sent' p port, List.flatMap_append]
    · rw [List.filterMap_append, delivered, delivered', List.filterMap_append]

/-- Whatever programs the hosts run, and whenever they send: the frames that a host gets from
another one are copies of frames that the other one sent and that the switch forwards to it, in
order and each at most once. Without a limit of the queues they are the first ones, and all when no
message is in flight. -/
theorem programs_delivery (N : Star) (O : Oracle) (Q : Programs P H A) {unreliable : Bool}
    {limit p q : ℕ} (limit_ne : limit ≠ 1) (ingress : p ∈ N.ports) (egress : q ∈ N.ports)
    {memory : H} {inputs : List (Input (ℕ × A))} {log : List (Record (Hosted P) (ℕ × A))}
    {x : State (Hosted P) (Memory × H)}
    (run : (N.hosted O Q).machine.Run (N.HostedAllowed O Q)
      (N.hostedStart unreliable limit memory) inputs log x) :
    List.SublistForall₂ (Faithful unreliable) (log.filterMap (N.hostedDelivered p q))
      ((log.flatMap (N.hostedSent p)).filter (N.forwardsTo p q)) ∧
    (limit ≠ 0 → ∀ w, (x.memory.1.switch.link.outputQueue w).length ≤ limit) ∧
    (limit = 0 → ∃ received,
      received <+: (log.flatMap (N.hostedSent p)).filter (N.forwardsTo p q) ∧
      List.Forall₂ (Faithful unreliable) (log.filterMap (N.hostedDelivered p q)) received ∧
      (x.sys.timerQueue = [] →
        received = (log.flatMap (N.hostedSent p)).filter (N.forwardsTo p q))) := by
  obtain ⟨-, inputs', log', run', sent, delivered⟩ := hosted_run limit_ne run
  obtain ⟨inv, conserved⟩ := conserved_of_run limit_ne run'
  rw [← sent p ingress, ← delivered]
  refine ⟨conserved.part ingress egress, ?_, ?_⟩
  · rw [← inv.settings.limit_eq]
    exact inv.settings.within
  · rintro rfl
    obtain ⟨received, first, copies, last⟩ := conserved.whole inv ingress egress
    refine ⟨received, first, copies, fun idle => last ?_⟩
    rw [plainState, System.map_timerQueue, idle]
    rfl

/-- Every host answers a broadcast after some time and counts other frames; other code makes the
first host send a broadcast. -/
def answering : Programs Unit ℕ Unit where
  receive count _ host
    | .frame _ packet =>
      if packet.buffer.head? = some 255 then some (count, [.sendOwn () 4]) else some (count + 1, [])
    | .own _ => some (count, [.sendFrame (host - 10) [2, 0, 0, 0, 0, 1, UInt8.ofNat host]])
  act count _ _ _ := some (count, [.sendFrame 1 [255, 255, 255, 255, 255, 255, 42]])

theorem programs_delivery_answering :
    ∃ log x, (trio.hosted trioOracle answering).machine.Run
        (trio.HostedAllowed trioOracle answering) (trio.hostedStart false 0 0)
        (.act (11, ()) :: List.replicate 26 .dispatch) log x ∧
      x.sys.timerQueue = [] ∧
      log.filterMap (trio.hostedDelivered 3 1) = [⟨[2, 0, 0, 0, 0, 1, 13], 3⟩] ∧
      List.SublistForall₂ (Faithful false) (log.filterMap (trio.hostedDelivered 3 1))
        ((log.flatMap (trio.hostedSent 3)).filter (trio.forwardsTo 3 1)) := by
  have outcome : ((trio.hosted trioOracle answering).machine.execIf
      (trio.HostedAllowed trioOracle answering) (trio.hostedStart false 0 0)
      (.act (11, ()) :: List.replicate 26 .dispatch)).map
      (fun r => (r.1.sys.timerQueue.length, r.2.filterMap (trio.hostedDelivered 3 1))) =
      some (0, [⟨[2, 0, 0, 0, 0, 1, 13], 3⟩]) := by decide +kernel
  obtain ⟨⟨x, log⟩, value, same⟩ := Option.map_eq_some_iff.mp outcome
  obtain ⟨length, delivered⟩ := Prod.mk.inj same
  have run := Machine.Run.of_execIf value
  exact ⟨log, x, run, List.length_eq_zero_iff.mp length, delivered,
    (programs_delivery trio trioOracle answering (by decide) (by decide) (by decide) run).1⟩

end Kens.Star
