/-
# The registry of packet UUIDs

Packets as objects with a lifetime. A copy has the UUID of its original, and so has a packet
that has been moved from; the destructor of each of them takes the UUID out of the registry,
which does not count. The registry is exact as long as no packet dies before its copies and
no assignment discards the last packet with its UUID.
-/

import Mathlib
import Kens.Semantics.Machine
import Kens.Semantics.CyclicSearch

namespace Kens.PacketRegistry

open Semantics Machine

/-- A packet that is alive. -/
structure Object where
  buffer : List UInt8
  packetID : ℕ
deriving DecidableEq

/-- The static members of `Packet`, and the packets that are alive, by their addresses. -/
structure Registry where
  packetUUIDSet : Finset ℕ := ∅
  packetUUIDStart : ℕ := 0
  live : ℕ → Option Object := fun _ => none

/-- `UUID` is `uint64_t`. The assertion behind the loop fails when all numbers are taken. -/
def allocatePacketUUID (r : Registry) : Option (ℕ × Registry) :=
  (search (fun candidate => candidate ∈ r.packetUUIDSet) (2 ^ 64) r.packetUUIDStart).map
    fun candidate => (candidate,
      { r with
        packetUUIDStart := (candidate + 1) % 2 ^ 64
        packetUUIDSet := insert candidate r.packetUUIDSet })

def freePacketUUID (r : Registry) (uuid : ℕ) : Registry :=
  { r with packetUUIDSet := r.packetUUIDSet.erase uuid }

/-- What can be done to packets. The packets are named by their addresses. -/
inductive Operation
  | construct (object size : ℕ)
  | clone (object other : ℕ)
  | copyConstruct (object other : ℕ)
  | moveConstruct (object other : ℕ)
  | copyAssign (object other : ℕ)
  -- what a vector holds after it has been moved from is not specified
  | moveAssign (object other : ℕ) (leftover : List UInt8)
  | destroy (object : ℕ)

/-- A new packet at an address that is not in use. -/
def create (r : Registry) (object : ℕ) (packet : Object) : Option Registry :=
  if (r.live object).isNone then
    some { r with live := Function.update r.live object (some packet) }
  else none

/-- A new packet with a UUID of its own. -/
def createFresh (r : Registry) (object : ℕ) (buffer : List UInt8) :
    Option (Registry × List ℕ) := do
  let (packetID, r) ← allocatePacketUUID r
  let r ← create r object ⟨buffer, packetID⟩
  pure (r, [packetID])

/-- The operations, with the UUIDs that they hand out. -/
def step (r : Registry) : Operation → Option (Registry × List ℕ)
  | .construct object size => createFresh r object (List.replicate size 0)
  -- the local variable of `clone` is the packet that it returns
  | .clone object other => do
    let source ← r.live other
    createFresh r object source.buffer
  | .copyConstruct object other => do
    let source ← r.live other
    let r ← create r object source
    pure (r, [])
  | .moveConstruct object other => do
    let source ← r.live other
    let r ← create r object source
    pure ({ r with live := Function.update r.live other (some { source with buffer := [] }) }, [])
  | .copyAssign object other => do
    let _ ← r.live object
    let source ← r.live other
    pure ({ r with live := Function.update r.live object (some source) }, [])
  | .moveAssign object other leftover => do
    let _ ← r.live object
    let source ← r.live other
    let live := Function.update r.live object (some source)
    pure ({ r with live := Function.update live other (some { source with buffer := leftover }) },
      [])
  | .destroy object => do
    let packet ← r.live object
    let r := freePacketUUID r packet.packetID
    pure ({ r with live := Function.update r.live object none }, [])

def machine : Machine Registry Operation ℕ where
  step := step

/-! ## Who holds a UUID -/

variable {r r' : Registry} {object other id : ℕ} {packet source : Object} {operation : Operation}
  {live : ℕ → Option Object} {out : List ℕ} {buffer : List UInt8}

/-- Some packet alive has the UUID. -/
def Held (live : ℕ → Option Object) (id : ℕ) : Prop :=
  ∃ object packet, live object = some packet ∧ packet.packetID = id

/-- Some packet alive at another address has the UUID. -/
def HeldElsewhere (live : ℕ → Option Object) (object id : ℕ) : Prop :=
  ∃ other packet, other ≠ object ∧ live other = some packet ∧ packet.packetID = id

theorem held_iff (found : live object = some packet) :
    Held live id ↔ packet.packetID = id ∨ HeldElsewhere live object id := by
  constructor
  · rintro ⟨other, packet', found', same⟩
    by_cases here : other = object
    · subst here
      rw [found] at found'
      obtain rfl := Option.some.inj found'
      exact .inl same
    · exact .inr ⟨other, packet', here, found', same⟩
  · rintro (same | ⟨other, packet', -, found', same⟩)
    · exact ⟨object, packet, found, same⟩
    · exact ⟨other, packet', found', same⟩

theorem heldElsewhere_update (new : Option Object) :
    HeldElsewhere (Function.update live object new) object id ↔ HeldElsewhere live object id := by
  constructor
  · rintro ⟨other, packet, different, found, same⟩
    rw [Function.update_of_ne different] at found
    exact ⟨other, packet, different, found, same⟩
  · rintro ⟨other, packet, different, found, same⟩
    refine ⟨other, packet, different, ?_, same⟩
    rwa [Function.update_of_ne different]

theorem held_update_some :
    Held (Function.update live object (some packet)) id ↔
      packet.packetID = id ∨ HeldElsewhere live object id := by
  rw [held_iff (Function.update_self ..), heldElsewhere_update]

theorem held_update_none :
    Held (Function.update live object none) id ↔ HeldElsewhere live object id := by
  rw [← heldElsewhere_update none]
  constructor
  · rintro ⟨other, packet, found, same⟩
    refine ⟨other, packet, ?_, found, same⟩
    rintro rfl
    simp at found
  · rintro ⟨other, packet, -, found, same⟩
    exact ⟨other, packet, found, same⟩

/-- A packet at a new address adds its UUID. -/
theorem held_create (vacant : live object = none) :
    Held (Function.update live object (some packet)) id ↔ packet.packetID = id ∨ Held live id := by
  rw [held_update_some]
  refine or_congr_right ⟨?_, ?_⟩
  · rintro ⟨other, packet', -, found, same⟩
    exact ⟨other, packet', found, same⟩
  · rintro ⟨other, packet', found, same⟩
    refine ⟨other, packet', ?_, found, same⟩
    rintro rfl
    rw [vacant] at found
    simp at found

/-- Changing the buffer of a packet leaves all UUIDs where they are. -/
theorem held_update_buffer (found : live object = some packet) (buffer : List UInt8) :
    Held (Function.update live object (some { packet with buffer })) id ↔ Held live id := by
  rw [held_update_some, held_iff found]

/-! ## Exactness -/

/-- The registry has the UUIDs of the packets that are alive, and no others. -/
def Exact (r : Registry) : Prop :=
  ∀ id, id ∈ r.packetUUIDSet ↔ Held r.live id

/-- The next UUID is that of no packet alive. -/
def Fresh (r : Registry) : Prop :=
  ∀ id r', allocatePacketUUID r = some (id, r') → ¬ Held r.live id

/-- An assignment leaves a packet with the UUID that it replaces. -/
def KeepsReplaced (r : Registry) (object other : ℕ) : Prop :=
  ∀ packet source, r.live object = some packet → r.live other = some source →
    source.packetID = packet.packetID ∨ HeldElsewhere r.live object packet.packetID

/-- Only the last packet with a UUID is destroyed, and it is not assigned to. -/
def Keeps (r : Registry) : Operation → Prop
  | .copyAssign object other => KeepsReplaced r object other
  | .moveAssign object other _ => KeepsReplaced r object other
  | .destroy object => ∀ packet, r.live object = some packet →
    ¬ HeldElsewhere r.live object packet.packetID
  | _ => True

/-- What holds of an exact registry in operation. -/
structure Inv (r : Registry) : Prop where
  start : r.packetUUIDStart < 2 ^ 64
  exact : Exact r

theorem allocatePacketUUID_eq_some (inside : r.packetUUIDStart < 2 ^ 64)
    (h : allocatePacketUUID r = some (id, r')) :
    id ∉ r.packetUUIDSet ∧ r'.packetUUIDStart < 2 ^ 64 ∧
      r'.packetUUIDSet = insert id r.packetUUIDSet ∧ r'.live = r.live := by
  obtain ⟨candidate, found, same⟩ := Option.map_eq_some_iff.mp h
  obtain ⟨rfl, rfl⟩ := Prod.mk.inj same
  obtain ⟨-, unused⟩ := search_eq_some inside found
  exact ⟨of_decide_eq_false unused, Nat.mod_lt _ (by decide), rfl, rfl⟩

theorem Inv.fresh (inv : Inv r) : Fresh r := by
  intro id r' allocated held
  exact (allocatePacketUUID_eq_some inv.start allocated).1 ((inv.exact id).mpr held)

theorem create_eq_some (h : create r object packet = some r') :
    r.live object = none ∧
      r' = { r with live := Function.update r.live object (some packet) } := by
  unfold create at h
  split at h
  next vacant => exact ⟨Option.isNone_iff_eq_none.mp vacant, (Option.some.inj h).symm⟩
  · simp at h

/-- A packet with a UUID of its own keeps the registry exact. -/
theorem Inv.createFresh (inv : Inv r) (h : createFresh r object buffer = some (r', out)) :
    Inv r' := by
  obtain ⟨⟨id, middle⟩, allocated, rest⟩ := Option.bind_eq_some_iff.mp h
  obtain ⟨result, created, same⟩ := Option.bind_eq_some_iff.mp rest
  obtain ⟨rfl, -⟩ := Prod.mk.inj (Option.some.inj same)
  obtain ⟨-, start, set, live⟩ := allocatePacketUUID_eq_some inv.start allocated
  obtain ⟨vacant, rfl⟩ := create_eq_some created
  refine ⟨start, fun other => ?_⟩
  dsimp only
  rw [set, Finset.mem_insert, held_create vacant, live, inv.exact other, eq_comm]

/-- A copy at a new address changes nothing. -/
theorem Inv.copy (inv : Inv r) (found : r.live other = some source)
    (created : create r object source = some r') : Inv r' := by
  obtain ⟨vacant, rfl⟩ := create_eq_some created
  refine ⟨inv.start, fun id => ?_⟩
  dsimp only
  rw [held_create vacant, ← inv.exact id, or_iff_right_of_imp]
  intro same
  exact (inv.exact id).mpr ⟨other, source, found, same⟩

theorem Inv.assign_iff (inv : Inv r) (found : r.live object = some packet)
    (found' : r.live other = some source) :
    Exact { r with live := Function.update r.live object (some source) } ↔
      KeepsReplaced r object other := by
  have source_held : source.packetID = packet.packetID ∨
      HeldElsewhere r.live object source.packetID := by
    have held : Held r.live source.packetID := ⟨other, source, found', rfl⟩
    rwa [held_iff found, eq_comm] at held
  constructor
  · intro exact packet' source' again again'
    rw [found] at again
    rw [found'] at again'
    obtain rfl := Option.some.inj again
    obtain rfl := Option.some.inj again'
    exact held_update_some.mp ((exact packet.packetID).mp
      ((inv.exact packet.packetID).mpr ⟨object, packet, found, rfl⟩))
  · intro keeps id
    dsimp only
    rw [inv.exact id, held_update_some, held_iff found]
    constructor
    · rintro (rfl | elsewhere)
      · exact keeps packet source found found'
      · exact .inr elsewhere
    · rintro (rfl | elsewhere)
      · rwa [eq_comm] at source_held
      · exact .inr elsewhere

theorem Inv.destroy_iff (inv : Inv r) (found : r.live object = some packet) :
    Exact { freePacketUUID r packet.packetID with live := Function.update r.live object none } ↔
      ¬ HeldElsewhere r.live object packet.packetID := by
  constructor
  · intro exact elsewhere
    have kept := (exact packet.packetID).mpr (held_update_none.mpr elsewhere)
    exact absurd rfl (Finset.mem_erase.mp kept).1
  · intro alone id
    change id ∈ r.packetUUIDSet.erase packet.packetID ↔ Held (Function.update r.live object none) id
    rw [Finset.mem_erase, inv.exact id, held_update_none, held_iff found]
    constructor
    · rintro ⟨different, same | elsewhere⟩
      · exact absurd same.symm different
      · exact elsewhere
    · intro elsewhere
      refine ⟨?_, .inr elsewhere⟩
      rintro rfl
      exact alone elsewhere

/-- An operation keeps the registry exact exactly if it takes no UUID from a packet alive, and
leaves none without a packet. -/
theorem Inv.step_iff (inv : Inv r) (h : step r operation = some (r', out)) :
    r'.packetUUIDStart < 2 ^ 64 ∧ (Exact r' ↔ Keeps r operation) := by
  cases operation with
  | construct object size =>
    have after : Inv r' := inv.createFresh h
    exact ⟨after.start, iff_of_true after.exact trivial⟩
  | clone object other =>
    obtain ⟨source, -, rest⟩ := Option.bind_eq_some_iff.mp h
    have after : Inv r' := inv.createFresh rest
    exact ⟨after.start, iff_of_true after.exact trivial⟩
  | copyConstruct object other =>
    obtain ⟨source, found, rest⟩ := Option.bind_eq_some_iff.mp h
    obtain ⟨result, created, same⟩ := Option.bind_eq_some_iff.mp rest
    obtain ⟨rfl, -⟩ := Prod.mk.inj (Option.some.inj same)
    have after := inv.copy found created
    exact ⟨after.start, iff_of_true after.exact trivial⟩
  | moveConstruct object other =>
    obtain ⟨source, found, rest⟩ := Option.bind_eq_some_iff.mp h
    obtain ⟨result, created, same⟩ := Option.bind_eq_some_iff.mp rest
    obtain ⟨rfl, -⟩ := Prod.mk.inj (Option.some.inj same)
    have after := inv.copy found created
    refine ⟨after.start, iff_of_true (fun id => ?_) trivial⟩
    -- the packet that is moved from stays alive, with an empty buffer
    obtain ⟨vacant, rfl⟩ := create_eq_some created
    have different : other ≠ object := by
      rintro rfl
      rw [vacant] at found
      simp at found
    have still : Function.update r.live object (some source) other = some source := by
      rwa [Function.update_of_ne different]
    exact (after.exact id).trans (held_update_buffer still []).symm
  | copyAssign object other =>
    obtain ⟨packet, found, rest⟩ := Option.bind_eq_some_iff.mp h
    obtain ⟨source, found', same⟩ := Option.bind_eq_some_iff.mp rest
    obtain ⟨rfl, -⟩ := Prod.mk.inj (Option.some.inj same)
    exact ⟨inv.start, inv.assign_iff found found'⟩
  | moveAssign object other leftover =>
    obtain ⟨packet, found, rest⟩ := Option.bind_eq_some_iff.mp h
    obtain ⟨source, found', same⟩ := Option.bind_eq_some_iff.mp rest
    obtain ⟨rfl, -⟩ := Prod.mk.inj (Option.some.inj same)
    refine ⟨inv.start, Iff.trans ?_ (inv.assign_iff found found')⟩
    have still : Function.update r.live object (some source) other = some source := by
      by_cases here : other = object
      · rw [here, Function.update_self]
      · rwa [Function.update_of_ne here]
    exact forall_congr' fun id => iff_congr Iff.rfl (held_update_buffer still leftover)
  | destroy object =>
    obtain ⟨packet, found, same⟩ := Option.bind_eq_some_iff.mp h
    obtain ⟨rfl, -⟩ := Prod.mk.inj (Option.some.inj same)
    refine ⟨inv.start, (inv.destroy_iff found).trans ?_⟩
    constructor
    · intro alone packet' again
      rw [found] at again
      obtain rfl := Option.some.inj again
      exact alone
    · intro alone
      exact alone packet found

theorem inv_start : Inv {} where
  start := by decide
  exact := by
    intro id
    refine iff_of_false (Finset.notMem_empty id) ?_
    rintro ⟨object, packet, found, -⟩
    simp at found

/-- The registry is exact throughout a run exactly if no packet is destroyed before the others
with its UUID, and no assignment replaces a UUID that no other packet has. -/
theorem exact_iff_keeps {performed : List Operation} (run : machine.Run free {} performed out r) :
    (∀ performed' out' r', performed' <+: performed →
      machine.Run free {} performed' out' r' → Exact r' ∧ Fresh r') ↔
    machine.Run Keeps {} performed out r := by
  refine (run.always_iff (fun _ => Inv) (fun _ r => Exact r ∧ Fresh r) inv_start ?_ ?_ ?_).trans
    ⟨Run.mono fun _ _ both => both.2, Run.mono fun _ _ keeps => ⟨trivial, keeps⟩⟩
  · intro _ r inv
    exact ⟨inv.exact, inv.fresh⟩
  · intro _ r operation r' _ inv _ keeps hstep
    obtain ⟨start, exact_iff⟩ := inv.step_iff hstep
    exact ⟨start, exact_iff.mpr keeps⟩
  · intro _ r operation r' _ inv _ loses hstep claimed
    exact loses ((inv.step_iff hstep).2.mp claimed.1)

/-! A packet, and what a switch does with it for one of its ports: it clones the packet, the
output queue of the port copies the clone, and the clone is destroyed. -/

/-- The registry before the clone is destroyed. -/
def forwarded : Registry where
  packetUUIDSet := insert 1 (insert 0 ∅)
  packetUUIDStart := 2
  live := Function.update (Function.update (Function.update (fun _ => none) 0 (some ⟨[], 0⟩)) 1
    (some ⟨[], 1⟩)) 2 (some ⟨[], 1⟩)

theorem run_forwarded :
    machine.Run free {} [.construct 0 0, .clone 1 0, .copyConstruct 2 1] [0, 1] forwarded :=
  Run.of_exec rfl

theorem exact_iff_keeps_forwarded :
    (∀ performed' out' r', performed' <+: [.construct 0 0, .clone 1 0, .copyConstruct 2 1] →
      machine.Run free {} performed' out' r' → Exact r' ∧ Fresh r') ↔
    machine.Run Keeps {} [.construct 0 0, .clone 1 0, .copyConstruct 2 1] [0, 1] forwarded :=
  exact_iff_keeps run_forwarded

/-- The packet in the queue has a UUID that is no longer registered. -/
theorem not_exact_of_copy :
    ¬ ∀ (performed : List Operation) (out : List ℕ) (r : Registry),
      machine.Run free {} performed out r → Exact r ∧ Fresh r := by
  intro claimed
  have run := run_forwarded.snoc (a := .destroy 1) trivial rfl
  have registered := ((claimed _ _ _ run).1 1).mpr ⟨2, ⟨[], 1⟩, rfl, rfl⟩
  exact absurd registered (by decide)

end Kens.PacketRegistry
