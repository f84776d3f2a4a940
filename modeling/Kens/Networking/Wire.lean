/-
# Wires

A wire has two ends and forwards what one end sends to the other. Each direction
has its own transmission queue, kept as the time when it is next available.
-/

import Mathlib
import Kens.Networking.Link

namespace Kens

open Reactive

structure Wire where
  id : ℕ
  connected : Fin 2 → ℕ
  nextAvailable : Fin 2 → ℕ := fun _ => 0
  propagationDelay : ℕ := 1000000
  bps : ℕ := 1000000000
  limit_speed : Bool := true

namespace Wire

/-- The end that was given first to the constructor. -/
abbrev left : Fin 2 := 0

abbrev right : Fin 2 := 1

abbrev opposite (d : Fin 2) : Fin 2 := d + 1

/-- The direction towards an end is busy up to the given time. -/
def occupy (wire : Wire) (d : Fin 2) (available_time : ℕ) : Wire :=
  { wire with nextAvailable := Function.update wire.nextAvailable d available_time }

/-- The end that a packet from the given module goes to. -/
def destination (wire : Wire) (source : ℕ) : Option (Fin 2) :=
  if wire.connected 0 = source then some 1
  else if wire.connected 1 = source then some 0
  else none

def messageReceived (quotient : ℕ → ℕ → ℕ) (wire : Wire) (now source : ℕ) (message : NetMessage) :
    Option (Wire × List (Send NetMessage)) :=
  match message with
  | .packetToPort packet =>
    match wire.destination source with
    | none => some (wire, [])
    | some d =>
      -- module 0 stands for an open end
      if wire.connected d = 0 then some (wire, [])
      else
        let trans_delay := transDelay quotient wire.bps packet.getSize
        let available_time := wire.nextAvailable d
        let available_time := if now > available_time then now else available_time
        let available_time := (available_time + trans_delay) % 2 ^ 64
        let delay :=
          if wire.limit_speed then
            -- available_time + propagationDelay - current_time on 64 bits
            (available_time + wire.propagationDelay + (2 ^ 64 - now)) % 2 ^ 64
          else wire.propagationDelay
        some (wire.occupy d available_time,
          [⟨wire.id, wire.connected d, .packetFromPort packet, delay⟩])
  -- the message must be a packet for this wire
  | _ => none

/-- The latest time for which a delivery at an end can be scheduled already. -/
def bound (wire : Wire) (d : Fin 2) (now : ℕ) : ℕ :=
  (if wire.limit_speed then wire.nextAvailable d else now) + wire.propagationDelay

variable {quotient : ℕ → ℕ → ℕ} {wire : Wire} {now now' source : ℕ} {packet : Packet} {d : Fin 2}
  {sends : List (Send NetMessage)}

theorem bound_mono (later : now ≤ now') : wire.bound d now ≤ wire.bound d now' := by
  unfold bound
  split <;> omega

theorem bound_occupy {available_time : ℕ} (later : wire.nextAvailable d ≤ available_time)
    (e : Fin 2) : wire.bound e now ≤ (wire.occupy d available_time).bound e now := by
  unfold bound occupy
  by_cases same : e = d
  · subst same
    simp only [Function.update_self]
    split <;> omega
  · simp only [Function.update_of_ne same, le_refl]

/-- No sum that the wire forms for a packet wraps. -/
def Fits (quotient : ℕ → ℕ → ℕ) (wire : Wire) (now : ℕ) (packet : Packet) (d : Fin 2) : Prop :=
  max now (wire.nextAvailable d) + transDelay quotient wire.bps packet.getSize +
    wire.propagationDelay < 2 ^ 64

instance (quotient : ℕ → ℕ → ℕ) (wire : Wire) (now : ℕ) (packet : Packet) (d : Fin 2) :
    Decidable (Fits quotient wire now packet d) :=
  inferInstanceAs (Decidable (_ < _))

/-- When the direction towards an end is next available, after a packet. -/
def finish (quotient : ℕ → ℕ → ℕ) (wire : Wire) (now : ℕ) (packet : Packet) (d : Fin 2) : ℕ :=
  max now (wire.nextAvailable d) + transDelay quotient wire.bps packet.getSize

/-- A packet for a connected end is sent on to it, for a time not before any
earlier delivery at that end. -/
theorem messageReceived_eq (to_end : wire.destination source = some d)
    (connected : wire.connected d ≠ 0) (fits : Fits quotient wire now packet d) :
    ∃ delay, wire.messageReceived quotient now source (.packetToPort packet) =
        some (wire.occupy d (wire.finish quotient now packet d),
          [⟨wire.id, wire.connected d, .packetFromPort packet, delay⟩]) ∧
      wire.bound d now ≤ now + delay ∧
      now + delay = (wire.occupy d (wire.finish quotient now packet d)).bound d now := by
  have small : wire.finish quotient now packet d + wire.propagationDelay < 2 ^ 64 := fits
  have after_now : max now (wire.nextAvailable d) ≤ wire.finish quotient now packet d :=
    Nat.le_add_right _ _
  have later : (if now > wire.nextAvailable d then now else wire.nextAvailable d) =
      max now (wire.nextAvailable d) := by
    split <;> omega
  have no_wrap : (max now (wire.nextAvailable d) + transDelay quotient wire.bps packet.getSize) %
      2 ^ 64 = wire.finish quotient now packet d :=
    Nat.mod_eq_of_lt (by rw [finish] at small; omega)
  refine ⟨if wire.limit_speed then (wire.finish quotient now packet d + wire.propagationDelay +
    (2 ^ 64 - now)) % 2 ^ 64 else wire.propagationDelay, ?_, ?_, ?_⟩
  · simp only [messageReceived, to_end, if_neg connected, later, no_wrap]
  · cases limited : wire.limit_speed with
    | true =>
      simp only [bound, limited, if_true]
      omega
    | false => simp [bound, limited]
  · cases limited : wire.limit_speed with
    | true =>
      simp only [bound, occupy, limited, if_true, Function.update_self]
      omega
    | false => simp [bound, occupy, limited]

end Wire

end Kens
