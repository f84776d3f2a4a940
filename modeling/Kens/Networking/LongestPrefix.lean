/-
# Routing by longest prefix

A route covers an address when they agree on the first bits, as many as the length of its
prefix says. The lookup compares whole bytes and then a masked byte, and keeps the best
route so far. Since it starts from length 0 and wants a longer prefix each time, it finds
the best route unless that is a default route.
-/

import Mathlib
import Kens.Networking.RoutingInfo

namespace Kens.RoutingInfo

/-! ## Bits -/

/-- A bit of a byte, counted from the most significant one. -/
def byteBit (byte : UInt8) (j : ℕ) : Bool := byte.toNat.testBit (7 - j)

/-- A byte of an address, and 0 behind its end. -/
def octet (ip : Ipv4) (k : ℕ) : UInt8 := ip.toList.getD k 0

/-- A bit of an address, counted from the most significant one of its first byte. -/
def addressBit (ip : Ipv4) (i : ℕ) : Bool := byteBit (octet ip (i / 8)) (i % 8)

/-- The route agrees with the address on the bits of its prefix. -/
def Covers (ip_addr : Ipv4) (entry : RouteEntry) : Prop :=
  ∀ i < entry.prefixLength.toNat, addressBit ip_addr i = addressBit entry.ip_mask i

instance (ip_addr : Ipv4) : DecidablePred (Covers ip_addr) :=
  fun entry => inferInstanceAs (Decidable (∀ i < entry.prefixLength.toNat, _ = _))

theorem testBit_eq_false (byte : UInt8) {j : ℕ} (high : 8 ≤ j) : byte.toNat.testBit j = false := by
  apply Nat.testBit_eq_false_of_lt
  calc byte.toNat < 2 ^ 8 := byte.toNat_lt
    _ ≤ 2 ^ j := Nat.pow_le_pow_right (by decide) high

/-- Two bytes are equal when their bits are. -/
theorem byte_eq_iff {a b : UInt8} : a = b ↔ ∀ j < 8, byteBit a j = byteBit b j := by
  constructor
  · rintro rfl
    exact fun _ _ => rfl
  · intro bits
    apply UInt8.toNat.inj
    apply Nat.eq_of_testBit_eq
    intro j
    by_cases high : 8 ≤ j
    · rw [testBit_eq_false a high, testBit_eq_false b high]
    · have bit := bits (7 - j) (by omega)
      unfold byteBit at bit
      rwa [Nat.sub_sub_self (by omega)] at bit

theorem byteBit_highBits {remaining j : ℕ} (positive : 0 < remaining) (small : remaining < 8)
    (inside : j < 8) : byteBit (highBits (8 - remaining)) j = decide (j < remaining) := by
  interval_cases remaining <;> interval_cases j <;> rfl

/-- Masked bytes are equal when the first bits are. -/
theorem masked_eq_iff {a b : UInt8} {remaining : ℕ} (positive : 0 < remaining)
    (small : remaining < 8) :
    a &&& highBits (8 - remaining) = b &&& highBits (8 - remaining) ↔
      ∀ j < remaining, byteBit a j = byteBit b j := by
  have masked : ∀ (byte : UInt8) (j : ℕ), j < 8 →
      byteBit (byte &&& highBits (8 - remaining)) j = (byteBit byte j && decide (j < remaining)) := by
    intro byte j inside
    rw [← byteBit_highBits positive small inside]
    unfold byteBit
    rw [UInt8.toNat_and, Nat.testBit_and]
  rw [byte_eq_iff]
  constructor
  · intro bits j early
    have bit := bits j (by omega)
    rw [masked a j (by omega), masked b j (by omega)] at bit
    simpa [early] using bit
  · intro bits j inside
    rw [masked a j inside, masked b j inside]
    by_cases early : j < remaining
    · rw [bits j early]
    · simp [early]

/-! ## The comparison -/

theorem getElem?_address (ip : Ipv4) {k : ℕ} (inside : k < 4) :
    ip[k]? = some (octet ip k) := by
  have bound : k < ip.toList.length := by
    rw [Vector.length_toList]
    exact inside
  rw [octet, ← Vector.getElem?_toList, List.getD_eq_getElem?_getD, List.getElem?_eq_getElem bound]
  rfl

/-- The loop over the whole bytes. -/
theorem octetsMatch_eq (ip_addr ip_mask : Ipv4) {count : ℕ} (inside : count ≤ 4) :
    octetsMatch ip_addr ip_mask count =
      some (decide (∀ k < count, octet ip_addr k = octet ip_mask k)) := by
  induction count with
  | zero => rfl
  | succ count ih =>
    unfold octetsMatch at ih ⊢
    rw [List.range_succ, List.foldlM_append, ih (by omega)]
    simp only [Option.bind_eq_bind, Option.bind_some, List.foldlM_cons, List.foldlM_nil]
    rw [getElem?_address ip_addr (by omega), getElem?_address ip_mask (by omega)]
    simp only [Option.bind_some, Option.pure_def, ne_eq, ite_not]
    have split : (∀ k < count + 1, octet ip_addr k = octet ip_mask k) ↔
        (∀ k < count, octet ip_addr k = octet ip_mask k) ∧
          octet ip_addr count = octet ip_mask count := Nat.forall_lt_succ_right
    rw [decide_eq_decide.mpr split, Bool.decide_and]
    by_cases same : octet ip_addr count = octet ip_mask count
    · rw [if_pos same, decide_eq_true same, Bool.and_true]
    · rw [if_neg same, decide_eq_false same, Bool.and_false]

/-- The bits of a whole number of bytes, and of some more. -/
theorem addressBits_iff {a b : Ipv4} {n : ℕ} :
    (∀ i < n, addressBit a i = addressBit b i) ↔
      (∀ k < n / 8, octet a k = octet b k) ∧
        ∀ j < n % 8, byteBit (octet a (n / 8)) j = byteBit (octet b (n / 8)) j := by
  have bit : ∀ (ip : Ipv4) (k j : ℕ), j < 8 →
      addressBit ip (8 * k + j) = byteBit (octet ip k) j := by
    intro ip k j small
    unfold addressBit
    rw [Nat.mul_add_div (by decide), Nat.mul_add_mod, Nat.div_eq_of_lt small,
      Nat.mod_eq_of_lt small, Nat.add_zero]
  constructor
  · intro bits
    constructor
    · intro k whole
      refine byte_eq_iff.mpr fun j small => ?_
      rw [← bit a k j small, ← bit b k j small]
      exact bits _ (by omega)
    · intro j rest
      rw [← bit a _ j (by omega), ← bit b _ j (by omega)]
      exact bits _ (by omega)
  · rintro ⟨whole, rest⟩ i inside
    -- the bit is in one of the whole bytes, or in the one that is compared in part
    rw [← Nat.div_add_mod i 8, bit a _ _ (by omega), bit b _ _ (by omega)]
    by_cases last : i / 8 < n / 8
    · rw [whole _ last]
    · have same : i / 8 = n / 8 := by omega
      rw [same]
      exact rest _ (by omega)

/-- The comparison decides whether a route covers an address. -/
theorem matches_eq {entry : RouteEntry} (ip_addr : Ipv4) (nonnegative : 0 ≤ entry.prefixLength)
    (bounded : entry.prefixLength ≤ 32) :
    RouteEntry.matches entry ip_addr = some (decide (Covers ip_addr entry)) := by
  obtain ⟨n, length⟩ := Int.eq_ofNat_of_zero_le nonnegative
  have octets : (entry.prefixLength.tdiv 8).toNat = n / 8 := by
    rw [length]
    rfl
  have remaining : entry.prefixLength.tmod 8 = (n % 8 : ℕ) := by
    rw [length]
    rfl
  have covers : Covers ip_addr entry ↔
      (∀ k < n / 8, octet ip_addr k = octet entry.ip_mask k) ∧
        ∀ j < n % 8, byteBit (octet ip_addr (n / 8)) j =
          byteBit (octet entry.ip_mask (n / 8)) j := by
    unfold Covers
    rw [length]
    exact addressBits_iff
  rw [decide_eq_decide.mpr covers, Bool.decide_and]
  simp only [RouteEntry.matches, octets, remaining, octetsMatch_eq ip_addr entry.ip_mask
    (show n / 8 ≤ 4 by omega), Option.bind_eq_bind, Option.bind_some]
  by_cases more : 0 < n % 8
  · have last : n / 8 < 4 := by omega
    have width : (8 - ((n % 8 : ℕ) : ℤ)).toNat = 8 - n % 8 := by omega
    -- the shifted mask keeps the first `n % 8` bits of the last byte
    rw [if_pos (by exact_mod_cast more), getElem?_address ip_addr last,
      getElem?_address entry.ip_mask last, width]
    simp only [Option.bind_some, Option.pure_def, ne_eq, ite_not,
      masked_eq_iff more (Nat.mod_lt n (by decide))]
    split
    next bits => rw [decide_eq_true bits, Bool.and_true]
    next bits => rw [decide_eq_false bits, Bool.and_false]
  · have none : n % 8 = 0 := by omega
    rw [if_neg (by omega), none]
    simp

/-! ## The best route -/

variable {ip_addr : Ipv4} {routes : List RouteEntry} {entry route : RouteEntry}

/-- The route covers the address with the longest prefix, and is the first to do so. -/
def IsBest (ip_addr : Ipv4) (routes : List RouteEntry) (entry : RouteEntry) : Prop :=
  ∃ front back, routes = front ++ entry :: back ∧ Covers ip_addr entry ∧
    (∀ other ∈ front, Covers ip_addr other → other.prefixLength < entry.prefixLength) ∧
    ∀ other ∈ back, Covers ip_addr other → other.prefixLength ≤ entry.prefixLength

/-- A lookup by longest prefix, with port 0 if there is no route. -/
def LongestMatch (info : RoutingInfo) (ip_addr : Ipv4) : Prop :=
  ∃ port, info.getRoutingTable ip_addr = some port ∧
    ((∃ entry, IsBest ip_addr info.route_vector entry ∧ port = entry.port) ∨
      (∀ entry ∈ info.route_vector, ¬ Covers ip_addr entry) ∧ port = 0)

/-- The lengths that make sense for an IPv4 address. -/
def Valid (routes : List RouteEntry) : Prop :=
  ∀ entry ∈ routes, 0 ≤ entry.prefixLength ∧ entry.prefixLength ≤ 32

theorem IsBest.mem (best : IsBest ip_addr routes entry) : entry ∈ routes := by
  obtain ⟨front, back, rfl, -⟩ := best
  simp

theorem IsBest.covers (best : IsBest ip_addr routes entry) : Covers ip_addr entry := by
  obtain ⟨front, back, -, covers, -⟩ := best
  exact covers

theorem IsBest.le (best : IsBest ip_addr routes entry) (member : route ∈ routes)
    (covers : Covers ip_addr route) : route.prefixLength ≤ entry.prefixLength := by
  obtain ⟨front, back, rfl, -, before, after⟩ := best
  rw [List.mem_append, List.mem_cons] at member
  rcases member with early | rfl | late
  · exact (before route early covers).le
  · exact le_rfl
  · exact after route late covers

/-- There is only one best route. -/
theorem IsBest.unique (best : IsBest ip_addr routes entry) (best' : IsBest ip_addr routes route) :
    entry = route := by
  have longer := best.le best'.mem best'.covers
  have longer' := best'.le best.mem best.covers
  obtain ⟨front, back, rfl, covers, before, -⟩ := best
  obtain ⟨front', back', same, covers', before', -⟩ := best'
  -- if one of them came first, the other one would have a longer prefix
  rcases List.append_eq_append_iff.mp same with ⟨extra, rfl, rest⟩ | ⟨extra, rfl, rest⟩
  · cases extra with
    | nil => exact (List.cons.inj rest).1
    | cons first others =>
      obtain ⟨rfl, -⟩ := List.cons.inj rest
      exact absurd (before' entry (by simp) covers) (not_lt.mpr longer)
  · cases extra with
    | nil => exact (List.cons.inj rest).1.symm
    | cons first others =>
      obtain ⟨rfl, -⟩ := List.cons.inj rest
      exact absurd (before route (by simp) covers') (not_lt.mpr longer')

/-- A further route that is no better changes nothing. -/
theorem IsBest.append (best : IsBest ip_addr routes entry)
    (worse : Covers ip_addr route → route.prefixLength ≤ entry.prefixLength) :
    IsBest ip_addr (routes ++ [route]) entry := by
  obtain ⟨front, back, rfl, covers, before, after⟩ := best
  refine ⟨front, back ++ [route], by simp, covers, before, fun other member => ?_⟩
  rw [List.mem_append, List.mem_singleton] at member
  rcases member with member | rfl
  · exact after other member
  · exact worse

/-- A default route covers every address. -/
theorem covers_of_zero (zero : entry.prefixLength = 0) : Covers ip_addr entry := by
  intro i inside
  rw [zero] at inside
  exact absurd inside (Nat.not_lt_zero i)

/-- The variables of the loop after some routes: nothing found, or the best route found so
far, which is not a default route. -/
def Scanned (ip_addr : Ipv4) (routes : List RouteEntry) (state : ℤ × ℤ) : Prop :=
  (state = (0, 0) ∧ ∀ entry ∈ routes, Covers ip_addr entry → entry.prefixLength ≤ 0) ∨
    ∃ entry, IsBest ip_addr routes entry ∧ 0 < entry.prefixLength ∧
      state = (entry.prefixLength, entry.port)

theorem Scanned.le {state : ℤ × ℤ} (scanned : Scanned ip_addr routes state)
    (member : entry ∈ routes) (covers : Covers ip_addr entry) : entry.prefixLength ≤ state.1 := by
  rcases scanned with ⟨rfl, low⟩ | ⟨best, is_best, -, rfl⟩
  · exact low entry member covers
  · exact is_best.le member covers

/-- One iteration. -/
theorem Scanned.step {state : ℤ × ℤ} (scanned : Scanned ip_addr routes state)
    (valid : 0 ≤ route.prefixLength ∧ route.prefixLength ≤ 32) :
    ∃ state', routeStep ip_addr state route = some state' ∧
      Scanned ip_addr (routes ++ [route]) state' := by
  have value : routeStep ip_addr state route = some
      (if Covers ip_addr route ∧ route.prefixLength > state.1 then
        (route.prefixLength, route.port) else state) := by
    simp [routeStep, matches_eq ip_addr valid.1 valid.2]
  refine ⟨_, value, ?_⟩
  split
  next better =>
    -- the new route is the best, and it is not a default route as lengths are never negative
    have positive : 0 < route.prefixLength := by
      rcases scanned with ⟨rfl, -⟩ | ⟨best, -, long, rfl⟩
      · exact better.2
      · exact long.trans better.2
    refine .inr ⟨route, ⟨routes, [], rfl, better.1, ?_, by simp⟩, positive, rfl⟩
    exact fun other member covers => (scanned.le member covers).trans_lt better.2
  next worse =>
    rcases scanned with ⟨rfl, low⟩ | ⟨best, is_best, long, rfl⟩
    · refine .inl ⟨rfl, fun other member covers => ?_⟩
      rw [List.mem_append, List.mem_singleton] at member
      rcases member with member | rfl
      · exact low other member covers
      · exact not_lt.mp fun longer => worse ⟨covers, longer⟩
    · refine .inr ⟨best, is_best.append fun covers => ?_, long, rfl⟩
      exact not_lt.mp fun longer => worse ⟨covers, longer⟩

/-- The whole loop. -/
theorem scanned_of_foldlM (ip_addr : Ipv4) (valid : Valid routes) :
    ∃ state, routes.foldlM (routeStep ip_addr) (0, 0) = some state ∧
      Scanned ip_addr routes state := by
  induction routes using List.reverseRecOn with
  | nil => exact ⟨(0, 0), rfl, .inl ⟨rfl, by simp⟩⟩
  | append_singleton routes route ih =>
    obtain ⟨state, value, scanned⟩ := ih fun entry member => valid entry (by simp [member])
    obtain ⟨state', step, scanned'⟩ := scanned.step (valid route (by simp))
    refine ⟨state', ?_, scanned'⟩
    rw [List.foldlM_append, value]
    simp [step]

/-! ## Tables -/

/-- The tables of a host after some calls of `setRoutingTable`. -/
def built (calls : List RouteEntry) : RoutingInfo :=
  calls.foldl (fun info call => info.setRoutingTable call.ip_mask call.prefixLength call.port) empty

theorem built_route_vector (calls : List RouteEntry) : (built calls).route_vector = calls := by
  have grows : ∀ (calls : List RouteEntry) (info : RoutingInfo), (calls.foldl (fun info call =>
      info.setRoutingTable call.ip_mask call.prefixLength call.port) info).route_vector =
      info.route_vector ++ calls := by
    intro calls
    induction calls with
    | nil => simp
    | cons call rest ih =>
      intro info
      rw [List.foldl_cons, ih, setRoutingTable, List.append_assoc]
      rfl
  exact (grows calls empty).trans (List.nil_append calls)

/-- The lookup returns what the loop has found in the end. -/
theorem getRoutingTable_scanned (ip_addr : Ipv4) (valid : Valid routes) :
    ∃ state, (built routes).getRoutingTable ip_addr = some state.2 ∧
      Scanned ip_addr routes state := by
  obtain ⟨state, value, scanned⟩ := scanned_of_foldlM ip_addr valid
  refine ⟨state, ?_, scanned⟩
  rw [getRoutingTable, built_route_vector, value]
  rfl

/-- The first default route is the best one if only default routes cover the address. -/
theorem isBest_of_find (default : routes.find? (fun entry => entry.prefixLength = 0) = some entry)
    (low : ∀ entry ∈ routes, Covers ip_addr entry → entry.prefixLength ≤ 0)
    (valid : Valid routes) : IsBest ip_addr routes entry := by
  obtain ⟨zero, front, back, rfl, before⟩ := List.find?_eq_some_iff_append.mp default
  have zero : entry.prefixLength = 0 := by simpa using zero
  refine ⟨front, back, rfl, covers_of_zero zero, fun other member covers => ?_,
    fun other member covers => ?_⟩
  -- a route before the first default route is none, so it does not cover the address
  · have nonzero : other.prefixLength ≠ 0 := by simpa using before other member
    have nonnegative := (valid other (by simp [member])).1
    have := low other (by simp [member]) covers
    omega
  · rw [zero]
    exact low other (by simp [member]) covers

/-- The lookup is one by longest prefix exactly if a route that is not a default route
covers the address, or the first default route, if any, leads to port 0 anyway. -/
theorem getRoutingTable_longestMatch_iff (calls : List RouteEntry) (ip_addr : Ipv4)
    (valid : ∀ entry ∈ calls, 0 ≤ entry.prefixLength ∧ entry.prefixLength ≤ 32) :
    LongestMatch (built calls) ip_addr ↔
      (∃ entry ∈ calls, 0 < entry.prefixLength ∧ Covers ip_addr entry) ∨
        ∀ entry ∈ calls.find? (fun entry => entry.prefixLength = 0), entry.port = 0 := by
  obtain ⟨state, result, scanned⟩ := getRoutingTable_scanned ip_addr valid
  unfold LongestMatch
  rw [built_route_vector, result]
  rcases scanned with ⟨rfl, low⟩ | ⟨best, is_best, long, rfl⟩
  · -- only default routes cover the address, and the loop ignores them
    have no_other : ¬ ∃ entry ∈ calls, 0 < entry.prefixLength ∧ Covers ip_addr entry := by
      rintro ⟨entry, member, long, covers⟩
      exact absurd (low entry member covers) (not_le.mpr long)
    rw [or_iff_right no_other]
    constructor
    · rintro ⟨port, selected, found⟩ entry default
      have best := isBest_of_find default low valid
      rcases found with ⟨other, is_best, port_eq⟩ | ⟨nothing, -⟩
      · rw [best.unique is_best, ← port_eq]
        exact (Option.some.inj selected).symm
      · exact absurd best.covers (nothing entry best.mem)
    · intro zero
      refine ⟨0, rfl, ?_⟩
      cases default : calls.find? (fun entry => entry.prefixLength = 0) with
      -- no default route either, so nothing covers the address
      | none =>
        refine .inr ⟨fun entry member covers => ?_, rfl⟩
        have nonzero : entry.prefixLength ≠ 0 := by
          simpa using List.find?_eq_none.mp default entry member
        have := (valid entry member).1
        have := low entry member covers
        omega
      | some entry => exact .inl ⟨entry, isBest_of_find default low valid, (zero entry default).symm⟩
  -- the loop has found a route longer than a default route, and the best one
  · refine iff_of_true ⟨best.port, rfl, .inl ⟨best, is_best, rfl⟩⟩ (.inl ?_)
    exact ⟨best, is_best.mem, long, is_best.covers⟩

theorem getRoutingTable_longestMatch_iff_nested :
    LongestMatch (built [⟨#v[10, 0, 0, 0], 8, 1⟩, ⟨#v[10, 0, 1, 0], 24, 2⟩]) #v[10, 0, 1, 4] := by
  refine (getRoutingTable_longestMatch_iff _ _ (by decide)).mpr (.inl ?_)
  exact ⟨⟨#v[10, 0, 1, 0], 24, 2⟩, by decide, by decide, by decide⟩

/-- A default route to port 5 is ignored, and the packet goes to port 0. -/
theorem not_getRoutingTable_longestMatch :
    ¬ LongestMatch (built [⟨#v[0, 0, 0, 0], 0, 5⟩]) #v[10, 0, 1, 4] := by
  rintro ⟨port, selected, found⟩
  have zero : (built [⟨#v[0, 0, 0, 0], 0, 5⟩]).getRoutingTable #v[10, 0, 1, 4] = some 0 := by
    decide
  obtain rfl : 0 = port := by simpa [zero] using selected
  rcases found with ⟨entry, best, port_eq⟩ | ⟨nothing, -⟩
  · have member := best.mem
    rw [built_route_vector, List.mem_singleton] at member
    rw [member] at port_eq
    exact absurd port_eq (by decide)
  · exact nothing ⟨#v[0, 0, 0, 0], 0, 5⟩ (by decide) (by decide)

end Kens.RoutingInfo
