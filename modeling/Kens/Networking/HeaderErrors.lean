/-
# Errors in the IP header

The sum of a header that IPv4 sends is a multiple of 65535. A change of one word changes the
sum by the difference of the two words, which is again a multiple of 65535 only if one of
them is 0 and the other one has all bits set.
-/

import Mathlib
import Kens.Networking.IPv4

namespace Kens.IPv4

open Semantics NetworkUtil

variable {junk : Junk} {self self' : IPv4} {packet frame outgoing : Packet} {name : String}
  {k : ℕ} {high low high' low' : UInt8}

/-! ## What IPv4 sends -/

theorem getSize_writeData {offset count written : ℕ} {data : List UInt8} {result : Packet}
    (h : packet.writeData offset data count = some (result, written)) :
    result.getSize = packet.getSize := by
  rw [Packet.writeData] at h
  split at h
  · rw [Option.some.injEq, Prod.mk.injEq] at h
    rw [h.1]
  · obtain ⟨buffer, copied, same⟩ := Option.bind_eq_some_iff.mp h
    rw [Option.pure_def, Option.some.injEq, Prod.mk.injEq] at same
    rw [← same.1]
    unfold memcpy at copied
    split at copied
    next fits =>
      rw [← Option.some.inj copied]
      refine length_splice ?_
      rw [List.length_take]
      omega
    · simp at copied

/-- IPv4 asserts that the packet has room for the header. -/
theorem fits_of_writeFields {cur_id : ℕ} {proto : UInt8} {result : Packet}
    (h : writeFields packet cur_id proto = some result) : 34 ≤ packet.getSize := by
  unfold writeFields at h
  obtain ⟨⟨first, _⟩, write, h⟩ := Option.bind_eq_some_iff.mp h
  obtain ⟨⟨second, _⟩, write', h⟩ := Option.bind_eq_some_iff.mp h
  obtain ⟨_, room, -⟩ := Option.bind_eq_some_iff.mp h
  have large : second.getSize ≥ ip_start + 20 := by
    by_contra small
    simp [guard, small] at room
  rwa [getSize_writeData write', getSize_writeData write] at large

/-- The sum of the header of a packet that IPv4 hands to Ethernet. -/
theorem oneSum_of_emitted (member : name ∈ transports)
    (emitted : packetArrived junk self name packet = some (self', some ("Ethernet", outgoing))) :
    oneSum ((outgoing.buffer.drop ip_start).take 20) = 0xFFFF := by
  have other : name ≠ "Ethernet" := by
    rintro rfl
    exact absurd member (by decide)
  have known : name = "TCP" ∨ name = "UDP" ∨ name = "OSPF" := by
    simpa [transports] using member
  have fits : 34 ≤ packet.getSize := by
    rw [packetArrived, if_neg other, if_pos known] at emitted
    obtain ⟨written, fields, -⟩ := Option.bind_eq_some_iff.mp emitted
    exact fits_of_writeFields fields
  rw [packetArrived_transport member fits] at emitted
  obtain ⟨-, rfl⟩ : _ = self' ∧ _ = outgoing := by simpa using emitted
  generalize size : (packet.getSize - ip_start) % 2 ^ 16 = length
  have header : ((packet.overwrite ip_start (fields length self.identification (protocolOf name) ++
        checksumOf (fields length self.identification (protocolOf name))
          ((packet.buffer.drop 26).take 8))).buffer.drop ip_start).take 20 =
      fields length self.identification (protocolOf name) ++
        checksumOf (fields length self.identification (protocolOf name))
          ((packet.buffer.drop 26).take 8) ++ (packet.buffer.drop 26).take 8 := by
    rw [Packet.overwrite, drop_splice (Nat.le_trans (by decide : ip_start ≤ 34) fits)]
    rfl
  rw [header]
  have ten : (fields length self.identification (protocolOf name)).length = 10 := rfl
  apply oneSum_complement (by rw [ten]; decide)
  -- the first byte of the header is never 0
  intro zero
  simp [fields, wordSum, weight] at zero

/-! ## Changing a word -/

theorem wordSum_word (high low : UInt8) :
    wordSum true [high, low] = 256 * high.toNat + low.toNat := by
  simp [wordSum, weight, Nat.shiftLeft_eq, Nat.mul_comm]

/-- Two different words are congruent only if they are the two zeros. -/
theorem zeros_of_congruent (changed : [high', low'] ≠ [high, low])
    (same : wordSum true [high', low'] % 65535 = wordSum true [high, low] % 65535) :
    ([high, low] = [0, 0] ∧ [high', low'] = [0xFF, 0xFF]) ∨
      ([high, low] = [0xFF, 0xFF] ∧ [high', low'] = [0, 0]) := by
  have bounds := And.intro (And.intro high.toNat_lt low.toNat_lt)
    (And.intro high'.toNat_lt low'.toNat_lt)
  rw [wordSum_word, wordSum_word] at same
  have byte : ∀ (a : UInt8) (n : ℕ), n < 256 → a.toNat = n → a = UInt8.ofNat n := by
    intro a n _ value
    rw [← value, UInt8.ofNat_toNat]
  by_cases equal : 256 * high'.toNat + low'.toNat = 256 * high.toNat + low.toNat
  · refine absurd ?_ changed
    have first : high' = high := UInt8.toNat.inj (by omega)
    have second : low' = low := UInt8.toNat.inj (by omega)
    rw [first, second]
  · rcases Nat.lt_or_gt_of_ne equal with less | greater
    · right
      rw [byte high 255 (by decide) (by omega), byte low 255 (by decide) (by omega),
        byte high' 0 (by decide) (by omega), byte low' 0 (by decide) (by omega)]
      exact ⟨rfl, rfl⟩
    · left
      rw [byte high' 255 (by decide) (by omega), byte low' 255 (by decide) (by omega),
        byte high 0 (by decide) (by omega), byte low 0 (by decide) (by omega)]
      exact ⟨rfl, rfl⟩

/-- A header with a valid sum, one word of which is changed, has one of the two sums that the
receiver accepts only if the words are congruent. -/
theorem congruent_of_accepted {header : List UInt8} (length : header.length = 20)
    (valid : oneSum header = 0xFFFF) (position : k < 10)
    (old : (header.drop (2 * k)).take 2 = [high, low])
    (accepted : oneSum (splice header (2 * k) [high', low']) = 0xFFFF ∨
      oneSum (splice header (2 * k) [high', low']) = 0) :
    wordSum true [high', low'] % 65535 = wordSum true [high, low] % 65535 := by
  have front : (header.take (2 * k)).length.bodd = false := by
    rw [List.length_take, min_eq_left (by omega), Nat.bodd_mul]
    rfl
  have before : header = header.take (2 * k) ++ [high, low] ++ header.drop (2 * k + 2) := by
    rw [← old, List.append_assoc, ← List.drop_drop, List.take_append_drop, List.take_append_drop]
  have sums : wordSum true (splice header (2 * k) [high', low']) + wordSum true [high, low] =
      wordSum true (header.take (2 * k) ++ [high, low] ++ header.drop (2 * k + 2)) +
        wordSum true [high', low'] :=
    @wordSum_replace _ [high, low] [high', low'] front rfl (header.drop (2 * k + 2))
  rw [← before] at sums
  have residue := representative_mod (wordSum true header)
  rw [← oneSum_eq, valid] at residue
  have residue' := representative_mod (wordSum true (splice header (2 * k) [high', low']))
  rw [← oneSum_eq] at residue'
  rcases accepted with ones | zero
  · rw [ones] at residue'
    omega
  · rw [zero] at residue'
    omega

/-- A frame with a valid header, one word of which is changed, is dropped unless the change is
between the two zeros. -/
theorem dropped_or_zeros (fits : 34 ≤ frame.getSize) (first : frame.buffer[12]? = some 0x08)
    (second : frame.buffer[13]? = some 0x00)
    (valid : oneSum ((frame.buffer.drop 14).take 20) = 0xFFFF) (position : k < 10)
    (old : (frame.buffer.drop (14 + 2 * k)).take 2 = [high, low])
    (changed : [high', low'] ≠ [high, low]) :
    packetArrived junk self "Ethernet" (frame.overwrite (14 + 2 * k) [high', low']) =
      some (self, none) ∨
    ([high, low] = [0, 0] ∧ [high', low'] = [0xFF, 0xFF]) ∨
    ([high, low] = [0xFF, 0xFF] ∧ [high', low'] = [0, 0]) := by
  have size : frame.buffer.length = frame.getSize := rfl
  have room : 14 + 2 * k + [high', low'].length ≤ frame.getSize := by
    rw [List.length_cons, List.length_singleton]
    omega
  have length : ((frame.buffer.drop 14).take 20).length = 20 := by
    rw [List.length_take, List.length_drop]
    omega
  have word : (((frame.buffer.drop 14).take 20).drop (2 * k)).take 2 = [high, low] := by
    rw [List.drop_take, List.take_take, List.drop_drop, min_eq_left (by omega)]
    exact old
  have window : ((frame.overwrite (14 + 2 * k) [high', low']).buffer.drop 14).take 20 =
      splice ((frame.buffer.drop 14).take 20) (2 * k) [high', low'] := by
    rw [Packet.overwrite, drop_splice_add (by omega), take_splice_of_le]
    · rw [List.length_drop]
      omega
    · rw [List.length_cons, List.length_singleton]
      omega
  by_cases accepted : oneSum (splice ((frame.buffer.drop 14).take 20) (2 * k) [high', low']) =
      0xFFFF ∨ oneSum (splice ((frame.buffer.drop 14).take 20) (2 * k) [high', low']) = 0
  · exact .inr (zeros_of_congruent changed
      (congruent_of_accepted length valid position word accepted))
  · rw [not_or] at accepted
    left
    apply packetArrived_ethernet_drop
    · rw [Packet.getSize_overwrite room]
      exact fits
    · rw [Packet.overwrite, getElem?_splice room, if_neg (by omega)]
      exact first
    · rw [Packet.overwrite, getElem?_splice room, if_neg (by omega)]
      exact second
    · rw [ip_start, window]
      exact accepted.1
    · rw [ip_start, window]
      exact accepted.2

/-- Whatever word of a header that IPv4 has sent is changed on the way, the receiver passes
the frame to no module, unless the change is between the two zeros. In terms of the bits in
error: unless all bits of a word of equal bits are inverted. -/
theorem altered_word_rejected (member : name ∈ transports)
    (emitted : packetArrived junk self name packet = some (self', some ("Ethernet", outgoing)))
    (fits : 34 ≤ frame.getSize) (first : frame.buffer[12]? = some 0x08)
    (second : frame.buffer[13]? = some 0x00)
    (header : (frame.buffer.drop 14).take 20 = (outgoing.buffer.drop 14).take 20)
    (position : k < 10) (old : (frame.buffer.drop (14 + 2 * k)).take 2 = [high, low])
    (junk' : Junk) (receiver : IPv4) :
    (∀ high' low', [high', low'] ≠ [high, low] →
      packetArrived junk' receiver "Ethernet" (frame.overwrite (14 + 2 * k) [high', low']) =
        some (receiver, none) ∨
      ([high, low] = [0, 0] ∧ [high', low'] = [0xFF, 0xFF]) ∨
      ([high, low] = [0xFF, 0xFF] ∧ [high', low'] = [0, 0])) ∧
    ∀ error error' : UInt8, [error, error'] ≠ [0, 0] →
      packetArrived junk' receiver "Ethernet"
        (frame.overwrite (14 + 2 * k) [high ^^^ error, low ^^^ error']) = some (receiver, none) ∨
      ([error, error'] = [0xFF, 0xFF] ∧ ([high, low] = [0, 0] ∨ [high, low] = [0xFF, 0xFF])) := by
  have valid : oneSum ((frame.buffer.drop 14).take 20) = 0xFFFF := by
    rw [header]
    exact oneSum_of_emitted member emitted
  refine ⟨fun high' low' changed => dropped_or_zeros fits first second valid position old changed,
    fun error error' nonzero => ?_⟩
  have changed : [high ^^^ error, low ^^^ error'] ≠ [high, low] := by
    intro same
    apply nonzero
    simpa using same
  rcases @dropped_or_zeros junk' receiver _ _ _ _ _ _ fits first second valid position old changed
    with rejected | ⟨zeros, ones⟩ | ⟨ones, zeros⟩
  · exact .inl rejected
  · right
    obtain ⟨rfl, rfl⟩ : high = 0 ∧ low = 0 := by simpa using zeros
    exact ⟨by simpa using ones, .inl rfl⟩
  · right
    obtain ⟨rfl, rfl⟩ : high = 0xFF ∧ low = 0xFF := by simpa using ones
    obtain ⟨first_zero, second_zero⟩ : 0xFF ^^^ error = 0 ∧ 0xFF ^^^ error' = 0 := by
      simpa using zeros
    rw [← UInt8.xor_eq_zero_iff.mp first_zero, ← UInt8.xor_eq_zero_iff.mp second_zero]
    exact ⟨rfl, .inr rfl⟩

/-- A frame with the header of a TCP packet without payload. -/
def emptySegment : Packet :=
  ⟨[0, 0, 0, 0, 0, 0, 0, 0, 0, 0, 0, 0, 0x08, 0x00, 0x45, 0x00, 0x00, 0x14, 0x00, 0x00, 0x40, 0x00,
    0x40, 0x06, 0x3A, 0xE5, 0, 0, 0, 0, 0, 0, 0, 0], 0⟩

/-- One bit of the time to live is in error. -/
theorem altered_word_rejected_ttl :
    packetArrived (fun _ _ => 0) ⟨9⟩ "Ethernet" (emptySegment.overwrite 22 [0x00, 0x06]) =
      some (⟨9⟩, none) := by
  have emitted : packetArrived (fun _ _ => 0) ⟨0⟩ "TCP"
      ⟨List.replicate 12 0 ++ [0x08, 0x00] ++ List.replicate 20 0, 0⟩ =
        some (⟨1⟩, some ("Ethernet", emptySegment)) := by decide +kernel
  have rejected := (@altered_word_rejected _ _ _ _ emptySegment _ "TCP" 4 0x40 0x06 (by decide)
    emitted (by decide) rfl rfl rfl (by decide) rfl (fun _ _ => 0) ⟨9⟩).1 0x00 0x06 (by decide)
  simpa using rejected

end Kens.IPv4
