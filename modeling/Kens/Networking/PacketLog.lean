/-
# The capture file of a link

A link that logs its transmissions. The file starts with the header that
`enablePCAPLogging` writes, and every packet that the link hands to a wire adds one record.
Read as a capture file, it has exactly these packets.
-/

import Mathlib
import Kens.Semantics.Capture
import Kens.Networking.OutputQueue

namespace Kens

open Semantics Machine Reactive

namespace TimeUtil

inductive TimeUnit
  | nsec | usec | msec | sec | minute | hour | day

def getMultiplier : TimeUnit → ℕ
  | .nsec => 1
  | .usec => 1000
  | .msec => 1000 * 1000
  | .sec => 1000 * 1000 * 1000
  | .minute => 60 * 1000 * 1000 * 1000
  | .hour => 60 * 60 * 1000 * 1000 * 1000
  | .day => 24 * 60 * 60 * 1000 * 1000 * 1000

def getTime (time : ℕ) (unit : TimeUnit) : ℕ := time / getMultiplier unit

end TimeUtil

/-- A link with its capture file, as far as it is written. -/
structure LoggedLink where
  link : Link
  pcap_enabled : Bool := false
  snaplen : ℕ := 65535
  pcap_file : List UInt8 := []

namespace LoggedLink

/-- The bytes of a `pcap_packet_header`, four `uint32_t` in the memory of a little-endian host. -/
def packetHeader (ts_sec ts_usec incl_len orig_len : ℕ) : List UInt8 :=
  toBytes 4 ts_sec ++ (toBytes 4 ts_usec ++ (toBytes 4 incl_len ++ toBytes 4 orig_len))

/-- The bytes of a `pcap_file_header`. -/
def fileHeader (magic version_major version_minor thiszone sigfigs snaplen linktype : ℕ) :
    List UInt8 :=
  toBytes 4 magic ++ (toBytes 2 version_major ++ (toBytes 2 version_minor ++
    (toBytes 4 thiszone ++ (toBytes 4 sigfigs ++ (toBytes 4 snaplen ++ toBytes 4 linktype)))))

/-- Opening the file makes it empty. Once enabled, the log stays as it is. -/
def enablePCAPLogging (self : LoggedLink) (snaplen : ℕ) : LoggedLink :=
  if self.pcap_enabled then self
  else
    { self with
      pcap_enabled := true
      snaplen
      pcap_file := fileHeader 0xa1b23c4d 2 4 0 0 snaplen 1 }

/-- The part of a transmission that writes to the file. -/
def record (self : LoggedLink) (current_time : ℕ) (packet : Packet) : Option LoggedLink :=
  if self.pcap_enabled then do
    let ts_sec := TimeUtil.getTime current_time .sec % 2 ^ 32
    let ts_usec := TimeUtil.getTime current_time .nsec % 1000000000 % 2 ^ 32
    let incl_len := min self.snaplen packet.getSize % 2 ^ 32
    let orig_len := packet.getSize % 2 ^ 32
    let pcap_file := self.pcap_file ++ packetHeader ts_sec ts_usec incl_len orig_len
    let (temp_buffer, _) ← packet.readData 0 (List.replicate incl_len 0) incl_len
    pure { self with pcap_file := pcap_file ++ temp_buffer }
  else some self

/-- `messageReceived` for a `CHECK_QUEUE` message: the packet that the link hands to the wire
is recorded. -/
def checkQueue (quotient : ℕ → ℕ → ℕ) (self : LoggedLink) (now wireID : ℕ) :
    Option (LoggedLink × List (Send NetMessage)) := do
  let (link, sends) ← self.link.checkQueue quotient now wireID
  let packet ← (self.link.outputQueue wireID).head?
  if now ≥ self.link.nextAvailable wireID then do
    let self ← self.record now packet
    pure ({ self with link }, sends)
  else pure ({ self with link }, sends)

/-- What other code makes a link do. -/
inductive Call
  | link (call : Link.Call)
  | setQueueSize (max_queue_length : ℕ)
  | setLinkSpeed (bps : ℕ)
  | enablePCAPLogging (snaplen : ℕ)

/-- The link on the scheduler. -/
def module (quotient : ℕ → ℕ → ℕ) : Reactive NetMessage LoggedLink Call where
  receive self now c :=
    if c.target = self.link.id then
      match c.message with
      | .checkQueue wireID => self.checkQueue quotient now wireID
      | _ => some (self, [])
    else some (self, [])
  act self now
    | .link call => ((Link.module quotient).act self.link now call).map fun result =>
      ({ self with link := result.1 }, result.2)
    | .setQueueSize max_queue_length =>
      some ({ self with link := self.link.setQueueSize max_queue_length }, [])
    | .setLinkSpeed bps => some ({ self with link := self.link.setLinkSpeed bps }, [])
    | .enablePCAPLogging snaplen => some (self.enablePCAPLogging snaplen, [])

/-! ## What the link hands to its wires -/

/-- The packet in a message of the link to a wire, with the time at which it is sent. -/
def handed (id now : ℕ) (send : Send NetMessage) : Option (ℕ × Packet) :=
  match send.message with
  | .packetToPort packet => if send.source = id then some (now, packet) else none
  | _ => none

/-- The packets that a link hands to its wires, on all ports. -/
def handovers (id : ℕ) (log : List (Record NetMessage Call)) : List (ℕ × Packet) :=
  log.flatMap fun record => record.sends.filterMap (handed id record.time)

variable {quotient : ℕ → ℕ → ℕ} {self self' : LoggedLink} {now port snaplen id : ℕ}
  {packet : Packet} {sends : List (Send NetMessage)} {log new : List (Record NetMessage Call)}
  {x y : State NetMessage LoggedLink} {input : Input Call}

theorem handovers_append :
    handovers id (log ++ new) = handovers id log ++ handovers id new := List.flatMap_append

/-- What is written for a packet. -/
def written (snaplen now : ℕ) (packet : Packet) : List UInt8 :=
  packetHeader (TimeUtil.getTime now .sec % 2 ^ 32)
      (TimeUtil.getTime now .nsec % 1000000000 % 2 ^ 32) (min snaplen packet.getSize % 2 ^ 32)
      (packet.getSize % 2 ^ 32) ++
    packet.buffer.take (min snaplen packet.getSize % 2 ^ 32)

theorem record_eq (enabled : self.pcap_enabled = true) (now : ℕ) (packet : Packet) :
    self.record now packet =
      some { self with pcap_file := self.pcap_file ++ written self.snaplen now packet } := by
  generalize incl_eq : min self.snaplen packet.getSize % 2 ^ 32 = incl_len
  have short : incl_len ≤ packet.getSize := by
    have := Nat.mod_le (min self.snaplen packet.getSize) (2 ^ 32)
    omega
  have read : packet.readData 0 (List.replicate incl_len 0) incl_len =
      some (packet.buffer.take incl_len, incl_len) := by
    have fits : 0 + (List.replicate incl_len (0 : UInt8)).length ≤ packet.getSize := by
      rw [List.length_replicate]
      omega
    have copied := Packet.readData_eq fits
    rwa [List.length_replicate] at copied
  rw [record, if_pos enabled]
  simp only [incl_eq, read, written, List.append_assoc]
  rfl

/-- What a step does to the file once it is open. -/
structure Extends (before after : LoggedLink) (packets : List (ℕ × Packet)) : Prop where
  id : after.link.id = before.link.id
  enabled : after.pcap_enabled = before.pcap_enabled
  snaplen : after.snaplen = before.snaplen
  file : after.pcap_file =
    before.pcap_file ++ packets.flatMap fun entry => written before.snaplen entry.1 entry.2

theorem Extends.quiet {link : Link} (same : link.id = self.link.id) :
    Extends self { self with link } [] :=
  ⟨same, rfl, rfl, (List.append_nil _).symm⟩

/-- A check records the packet that it hands to the wire, if any. -/
theorem extends_checkQueue (enabled : self.pcap_enabled = true)
    (h : self.checkQueue quotient now port = some (self', sends)) :
    Extends self self' (sends.filterMap (handed self.link.id now)) := by
  obtain ⟨⟨link, sends'⟩, checked, rest⟩ := Option.bind_eq_some_iff.mp h
  obtain ⟨packet, queue, head, cases⟩ := Link.checkQueue_eq_some checked
  dsimp only at rest
  rw [head, List.head?_cons] at rest
  obtain ⟨busy, rfl, rfl⟩ | ⟨free, rfl, rfl⟩ := cases
  · obtain ⟨rfl, rfl⟩ : self = self' ∧ [] = sends := by
      simpa [Nat.not_le.mpr busy] using rest
    exact .quiet rfl
  · have recorded := record_eq enabled now packet
    simp only [ge_iff_le, free, if_true, recorded, Option.bind_eq_bind, Option.bind_some,
      Option.pure_def, Option.some.injEq] at rest
    obtain ⟨rfl, rfl⟩ := Prod.mk.inj rest
    have one : List.filterMap (handed self.link.id now)
        (⟨self.link.id, port, .packetToPort packet,
            transDelay quotient self.link.bps packet.getSize⟩ ::
          if queue = [] then [] else [⟨self.link.id, self.link.id, .checkQueue port,
            transDelay quotient self.link.bps packet.getSize⟩]) = [(now, packet)] := by
      split <;> simp [handed]
    rw [one]
    exact ⟨rfl, rfl, rfl, by simp⟩

/-- Nothing that other code makes the link do hands a packet to a wire. -/
theorem extends_act {call : Call} (enabled : self.pcap_enabled = true)
    (h : (module quotient).act self now call = some (self', sends)) :
    Extends self self' (sends.filterMap (handed self.link.id now)) := by
  cases call with
  | link call =>
    obtain ⟨⟨link, sends'⟩, called, same⟩ := Option.map_eq_some_iff.mp h
    obtain ⟨rfl, rfl⟩ := Prod.mk.inj same
    cases call with
    | sendPacket port packet draw =>
      obtain ⟨-, rfl, rfl⟩ := Link.sendPacket_eq_some called
      have none : List.filterMap (handed self.link.id now)
          (if self.link.evict (self.link.outputQueue port) draw = [] then
            [⟨self.link.id, self.link.id, .checkQueue port,
              waitTime (self.link.nextAvailable port) now⟩] else []) = [] := by
        split <;> rfl
      rw [none]
      exact .quiet rfl
    | foreign send =>
      obtain ⟨foreign, rfl, rfl⟩ := Link.foreign_eq_some called
      have other : send.source ≠ self.link.id := by
        simp only [Link.isForeign, Bool.and_eq_true, decide_eq_true_eq] at foreign
        exact foreign.1
      have unseen : handed self.link.id now send = none := by
        unfold handed
        split
        · exact if_neg other
        · rfl
      rw [List.filterMap_cons_none unseen]
      exact .quiet rfl
  | setQueueSize max_queue_length =>
    obtain ⟨rfl, rfl⟩ := Prod.mk.inj (Option.some.inj h)
    exact .quiet rfl
  | setLinkSpeed bps =>
    obtain ⟨rfl, rfl⟩ := Prod.mk.inj (Option.some.inj h)
    exact .quiet rfl
  | enablePCAPLogging snaplen =>
    obtain ⟨rfl, rfl⟩ := Prod.mk.inj (Option.some.inj h)
    rw [enablePCAPLogging, if_pos enabled]
    exact .quiet rfl

/-- Each step adds to the file what it hands to the wires. -/
theorem extends_step (enabled : x.memory.pcap_enabled = true)
    (hstep : (module quotient).machine.step x input = some (y, new)) :
    Extends x.memory y.memory (handovers x.memory.link.id new) := by
  rcases step_cases hstep with ⟨call, sends, -, acted, -, rfl⟩ | ⟨c, sys, -, -, -, rfl, rfl⟩ |
    ⟨c, sys, later, sends, -, -, received, -, -, rfl⟩
  · have one : handovers x.memory.link.id [.acted call x.sys.currentTime sends] =
        sends.filterMap (handed x.memory.link.id x.sys.currentTime) := List.flatMap_singleton ..
    rw [one]
    exact extends_act enabled acted
  · exact .quiet rfl
  · have one : handovers x.memory.link.id [.received c sends] =
        sends.filterMap (handed x.memory.link.id c.wakeup) := List.flatMap_singleton ..
    rw [one]
    change (if c.target = x.memory.link.id then _ else _) = _ at received
    split at received
    · split at received
      · exact extends_checkQueue enabled received
      · obtain ⟨same, rfl⟩ := Prod.mk.inj (Option.some.inj received)
        rw [← same]
        exact .quiet rfl
    · obtain ⟨same, rfl⟩ := Prod.mk.inj (Option.some.inj received)
      rw [← same]
      exact .quiet rfl

theorem Extends.trans {self'' : LoggedLink} {packets later : List (ℕ × Packet)}
    (h : Extends self self' packets) (h' : Extends self' self'' later) :
    Extends self self'' (packets ++ later) where
  id := h'.id.trans h.id
  enabled := h'.enabled.trans h.enabled
  snaplen := h'.snaplen.trans h.snaplen
  file := by rw [h'.file, h.file, h.snaplen, List.flatMap_append, List.append_assoc]

/-- A run adds to the file what it hands to the wires. -/
theorem extends_run {acts : List (Input Call)} (enabled : x.memory.pcap_enabled = true)
    (run : (module quotient).machine.Run free x acts log y) :
    Extends x.memory y.memory (handovers x.memory.link.id log) := by
  refine run.invariant (fun log y => Extends x.memory y.memory (handovers x.memory.link.id log))
    (.quiet rfl) ?_
  intro log y input z new before _ hstep
  have later := extends_step (before.enabled.trans enabled) hstep
  rw [before.id] at later
  rw [handovers_append]
  exact before.trans later

/-! ## The file as a capture -/

/-- What the capture has of a packet. -/
def entryOf (snaplen : ℕ) (handover : ℕ × Packet) : Capture.Entry where
  time := handover.1
  size := handover.2.getSize
  data := handover.2.buffer.take (min snaplen handover.2.getSize)

/-- The sizes and times that the fields of a capture can hold. -/
def Recordable (handover : ℕ × Packet) : Prop :=
  handover.2.getSize < 2 ^ 32 ∧ handover.1 / 1000000000 < 2 ^ 32

theorem length_entryOf (snaplen : ℕ) (handover : ℕ × Packet) :
    (entryOf snaplen handover).data.length = min snaplen handover.2.getSize := by
  have size : handover.2.buffer.length = handover.2.getSize := rfl
  rw [entryOf, List.length_take, size]
  omega

theorem fits_entryOf {handover : ℕ × Packet} (small : Recordable handover) :
    Capture.Fits snaplen (entryOf snaplen handover) :=
  ⟨small.2, small.1, (length_entryOf snaplen handover).le⟩

/-- What the link writes for a packet is its entry in the capture. -/
theorem written_eq {handover : ℕ × Packet} (small : Recordable handover) :
    written snaplen handover.1 handover.2 = Capture.encode (entryOf snaplen handover) := by
  obtain ⟨size, time⟩ := small
  have fraction : handover.1 % 1000000000 < 2 ^ 32 :=
    (Nat.mod_lt _ (by decide)).trans (by decide : 1000000000 < 2 ^ 32)
  have unit : TimeUtil.getTime handover.1 .nsec = handover.1 := Nat.div_one _
  have seconds : TimeUtil.getTime handover.1 .sec = handover.1 / 1000000000 := rfl
  have kept : min snaplen handover.2.getSize < 2 ^ 32 := by omega
  rw [written, unit, seconds, Nat.mod_eq_of_lt time, Nat.mod_eq_of_lt fraction,
    Nat.mod_eq_of_lt kept, Nat.mod_eq_of_lt size, packetHeader, Capture.encode, length_entryOf]
  simp only [List.append_assoc]
  rfl

/-! ## The time stamps -/

/-- The packets handed over so far, in the order of time. -/
structure Chronicle (id : ℕ) (log : List (Record NetMessage Call))
    (y : State NetMessage LoggedLink) : Prop where
  future : Future y.sys
  past : ∀ handover ∈ handovers id log, handover.1 ≤ y.sys.currentTime
  ordered : (handovers id log).Pairwise fun a b => a.1 ≤ b.1

theorem time_of_handed {handover : ℕ × Packet}
    (member : handover ∈ sends.filterMap (handed id now)) : handover.1 = now := by
  obtain ⟨send, -, found⟩ := List.mem_filterMap.mp member
  unfold handed at found
  split at found
  · split at found
    · rw [← Option.some.inj found]
    · simp at found
  · simp at found

theorem Chronicle.step (h : Chronicle id log x) (fits : LogFits new)
    (hstep : (module quotient).machine.step x input = some (y, new)) :
    Chronicle id (log ++ new) y := by
  obtain ⟨future, clock, times⟩ := h.future.step fits hstep
  have same (handover : ℕ × Packet) (member : handover ∈ handovers id new) :
      handover.1 = y.sys.currentTime := by
    obtain ⟨record, listed, found⟩ := List.mem_flatMap.mp member
    rw [time_of_handed found, times record listed]
  refine ⟨future, fun handover member => ?_, ?_⟩
  · rw [handovers_append, List.mem_append] at member
    rcases member with member | member
    · exact (h.past handover member).trans clock
    · exact (same handover member).le
  · rw [handovers_append, List.pairwise_append]
    refine ⟨h.ordered, ?_, fun a before b after => ?_⟩
    · refine List.pairwise_of_forall_mem_list fun a first b second => ?_
      rw [same a first, same b second]
    · rw [same b after]
      exact (h.past a before).trans clock

theorem chronicle_of_run {acts : List (Input Call)} (id : ℕ) (future : Future x.sys)
    (run : (module quotient).machine.Run free x acts log y) (fits : LogFits log) :
    Chronicle id log y := by
  refine run.invariant (fun log y => LogFits log → Chronicle id log y) ?_ ?_ fits
  · intro _
    exact ⟨future, by simp [handovers], List.Pairwise.nil⟩
  · intro log y input z new chronicle _ hstep fits
    exact (chronicle fits.left).step fits.right hstep

/-! ## The faithful record -/

/-- The file of a link is a capture of the packets that it has handed to its wires since the file
was opened. The packets are in the order of time, as long as nothing wraps. -/
theorem pcap_faithful {later : List (Input Call)} {opened : State NetMessage LoggedLink}
    (disabled : x.memory.pcap_enabled = false)
    (enables : (module quotient).machine.step x (.act (.enablePCAPLogging snaplen)) =
      some (opened, new))
    (run : (module quotient).machine.Run free opened later log y) (snap : snaplen < 2 ^ 32)
    (small : ∀ handover ∈ handovers y.memory.link.id log, Recordable handover) :
    Capture.parse y.memory.pcap_file = some
        ⟨snaplen, 1, (handovers y.memory.link.id log).map (entryOf snaplen)⟩ ∧
      ∀ (start : LoggedLink) (acts : List (Input Call)) (before : List (Record NetMessage Call)),
        (module quotient).machine.Run free ⟨{}, start⟩ acts before x →
        LogFits before → LogFits log →
        (handovers y.memory.link.id log).Pairwise fun a b => a.1 ≤ b.1 := by
  have opened_eq : opened = ⟨x.sys, x.memory.enablePCAPLogging snaplen⟩ :=
    (Prod.mk.inj (Option.some.inj enables)).1.symm
  subst opened_eq
  have fresh : x.memory.enablePCAPLogging snaplen =
      { x.memory with
        pcap_enabled := true
        snaplen
        pcap_file := fileHeader 0xa1b23c4d 2 4 0 0 snaplen 1 } := by
    rw [enablePCAPLogging, disabled, if_neg Bool.false_ne_true]
  constructor
  · have added := extends_run (by rw [fresh]) run
    have file := added.file
    rw [← added.id, fresh] at file
    have entries : ((handovers y.memory.link.id log).flatMap fun handover =>
        written snaplen handover.1 handover.2) =
        ((handovers y.memory.link.id log).map (entryOf snaplen)).flatMap Capture.encode := by
      rw [List.flatMap_map]
      exact List.flatMap_congr fun handover member => written_eq (small handover member)
    rw [file]
    dsimp only
    rw [entries]
    apply Capture.parse_encode snap (by decide)
    intro entry member
    obtain ⟨handover, listed, rfl⟩ := List.mem_map.mp member
    exact fits_entryOf (small handover listed)
  · intro start acts before reached fits fits'
    -- enabling the log sends nothing, so that the messages in flight are still in the future
    have future : Future x.sys := (chronicle_of_run 0 (by simp [Future]) reached fits).future
    exact (chronicle_of_run _ (by exact future) run fits').ordered

/-- A packet of three bytes, of which the log keeps two. -/
theorem pcap_faithful_one :
    ∃ log y, (module fun _ _ => 0).machine.Run free
        ⟨{}, LoggedLink.enablePCAPLogging { link := { id := 1 } } 2⟩
        [.act (.link (.sendPacket 5 ⟨[1, 2, 3], 0⟩ 0)), .dispatch] log y ∧
      Capture.parse y.memory.pcap_file = some ⟨2, 1, [⟨0, 3, [1, 2]⟩]⟩ := by
  have run : (module fun _ _ => 0).machine.Run free
      ⟨{}, LoggedLink.enablePCAPLogging { link := { id := 1 } } 2⟩
      [.act (.link (.sendPacket 5 ⟨[1, 2, 3], 0⟩ 0)), .dispatch] _ _ := Run.of_exec rfl
  refine ⟨_, _, run, ?_⟩
  refine (pcap_faithful (x := ⟨{}, { link := { id := 1 } }⟩) rfl rfl run (by decide) ?_).1
  intro handover member
  change handover ∈ [(0, (⟨[1, 2, 3], 0⟩ : Packet))] at member
  rw [List.mem_singleton.mp member]
  exact ⟨by decide, by decide⟩

end LoggedLink

end Kens
