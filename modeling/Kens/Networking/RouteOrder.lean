/-
# The order of routes does not matter

Two routes that cover one address with prefixes of the same length are routes to the same
network. If such routes always lead to the same port, the lookup returns the same port for
every order in which the routes were set.
-/

import Mathlib
import Kens.Networking.LongestPrefix

namespace Kens.RoutingInfo

/-- Two routes are to the same network. -/
def SameNetwork (entry other : RouteEntry) : Prop :=
  entry.prefixLength = other.prefixLength ∧
    ∀ i < entry.prefixLength.toNat, addressBit entry.ip_mask i = addressBit other.ip_mask i

instance (entry other : RouteEntry) : Decidable (SameNetwork entry other) :=
  inferInstanceAs (Decidable (_ ∧ _))

/-- Routes to the same network lead to the same port. -/
def Consistent (routes : List RouteEntry) : Prop :=
  ∀ entry ∈ routes, ∀ other ∈ routes, SameNetwork entry other → entry.port = other.port

instance (routes : List RouteEntry) : Decidable (Consistent routes) :=
  inferInstanceAs (Decidable (∀ entry ∈ routes, ∀ other ∈ routes, _))

variable {ip_addr : Ipv4} {routes routes' : List RouteEntry} {entry other : RouteEntry}

theorem sameNetwork_of_covers (covers : Covers ip_addr entry) (covers' : Covers ip_addr other)
    (length : entry.prefixLength = other.prefixLength) : SameNetwork entry other := by
  refine ⟨length, fun i inside => ?_⟩
  rw [← covers i inside]
  exact covers' i (length ▸ inside)

/-- The best routes of two tables with the same entries have the same length. -/
theorem IsBest.length_eq (best : IsBest ip_addr routes entry) (best' : IsBest ip_addr routes' other)
    (same : ∀ route, route ∈ routes ↔ route ∈ routes') :
    entry.prefixLength = other.prefixLength := by
  apply le_antisymm
  · exact best'.le ((same entry).mp best.mem) best.covers
  · exact best.le ((same other).mpr best'.mem) best'.covers

/-- The loops over two tables with the same entries end with the same port. -/
theorem Scanned.port_eq {state state' : ℤ × ℤ} (scanned : Scanned ip_addr routes state)
    (scanned' : Scanned ip_addr routes' state')
    (same : ∀ route, route ∈ routes ↔ route ∈ routes') (consistent : Consistent routes) :
    state.2 = state'.2 := by
  rcases scanned with ⟨rfl, low⟩ | ⟨entry, best, long, rfl⟩
  · rcases scanned' with ⟨rfl, -⟩ | ⟨other, best', long', rfl⟩
    · rfl
    · have short := low other ((same other).mpr best'.mem) best'.covers
      exact absurd short (not_le.mpr long')
  · rcases scanned' with ⟨rfl, low'⟩ | ⟨other, best', -, rfl⟩
    · have short := low' entry ((same entry).mp best.mem) best.covers
      exact absurd short (not_le.mpr long)
    · have network := sameNetwork_of_covers best.covers best'.covers (best.length_eq best' same)
      exact consistent entry best.mem other ((same other).mpr best'.mem) network

/-- Tables that are permutations of each other return the same port for every address. -/
theorem getRoutingTable_perm (calls calls' : List RouteEntry) (perm : calls.Perm calls')
    (valid : ∀ entry ∈ calls, 0 ≤ entry.prefixLength ∧ entry.prefixLength ≤ 32)
    (consistent : ∀ entry ∈ calls, ∀ other ∈ calls, SameNetwork entry other →
      entry.port = other.port) (ip_addr : Ipv4) :
    ∃ port, (built calls).getRoutingTable ip_addr = some port ∧
      (built calls').getRoutingTable ip_addr = some port := by
  have valid' : Valid calls' := fun entry member => valid entry (perm.mem_iff.mpr member)
  obtain ⟨state, value, scanned⟩ := getRoutingTable_scanned ip_addr valid
  obtain ⟨state', value', scanned'⟩ := getRoutingTable_scanned ip_addr valid'
  have port := scanned.port_eq scanned' (fun _ => perm.mem_iff) consistent
  exact ⟨state.2, value, port ▸ value'⟩

/-- Three routes, two of them to one network, in two orders. -/
theorem getRoutingTable_perm_three :
    ∃ port, (built [⟨#v[10, 0, 0, 0], 8, 1⟩, ⟨#v[10, 1, 2, 0], 15, 2⟩,
        ⟨#v[10, 0, 3, 0], 15, 2⟩]).getRoutingTable #v[10, 1, 9, 9] = some port ∧
      (built [⟨#v[10, 0, 3, 0], 15, 2⟩, ⟨#v[10, 1, 2, 0], 15, 2⟩,
        ⟨#v[10, 0, 0, 0], 8, 1⟩]).getRoutingTable #v[10, 1, 9, 9] = some port :=
  getRoutingTable_perm _ _ (by decide) (by decide) (by decide) _

end Kens.RoutingInfo
