/-
# Address tables of a host

The four tables are vectors that only grow; lookups scan them from the front.
-/

import Mathlib

namespace Kens

/-- `ipv4_t`. -/
abbrev Ipv4 := Vector UInt8 4

/-- `mac_t`. -/
abbrev Mac := Vector UInt8 6

/-- The broadcast address. -/
def Mac.broadcast : Mac := #v[0xFF, 0xFF, 0xFF, 0xFF, 0xFF, 0xFF]

structure MacEntry where
  mac : Mac
  port : ℤ
deriving DecidableEq

structure IpEntry where
  ip : Ipv4
  port : ℤ
deriving DecidableEq

structure ArpEntry where
  ip : Ipv4
  mac : Mac
deriving DecidableEq

structure RouteEntry where
  ip_mask : Ipv4
  prefixLength : ℤ
  port : ℤ
deriving DecidableEq

/-- The tables of a host. -/
structure RoutingInfo where
  mac_vector : List MacEntry
  ip_vector : List IpEntry
  arp_vector : List ArpEntry
  route_vector : List RouteEntry

namespace RoutingInfo

def empty : RoutingInfo := ⟨[], [], [], []⟩

variable (info : RoutingInfo)

def setIPAddr (ip : Ipv4) (port : ℤ) : RoutingInfo :=
  { info with ip_vector := info.ip_vector ++ [⟨ip, port⟩] }

def setMACAddr (mac : Mac) (port : ℤ) : RoutingInfo :=
  { info with mac_vector := info.mac_vector ++ [⟨mac, port⟩] }

def setARPTable (mac : Mac) (ip : Ipv4) : RoutingInfo :=
  { info with arp_vector := info.arp_vector ++ [⟨ip, mac⟩] }

def setRoutingTable (mask : Ipv4) (prefixLength port : ℤ) : RoutingInfo :=
  { info with route_vector := info.route_vector ++ [⟨mask, prefixLength, port⟩] }

def getIPAddr (port : ℤ) : Option Ipv4 :=
  (info.ip_vector.find? fun entry => entry.port = port).map IpEntry.ip

def getMACAddr (port : ℤ) : Option Mac :=
  (info.mac_vector.find? fun entry => entry.port = port).map MacEntry.mac

def getARPTable (ipv4 : Ipv4) : Option Mac :=
  (info.arp_vector.find? fun entry => ipv4 = entry.ip).map ArpEntry.mac

/-! ## Routes -/

/-- Whether the first `count` bytes agree; `none` when an index leaves the array. -/
def octetsMatch (ip_addr ip_mask : Ipv4) (count : ℕ) : Option Bool :=
  (List.range count).foldlM (fun matched k => do
    let byte ← ip_addr[k]?
    let expected ← ip_mask[k]?
    pure (if byte ≠ expected then false else matched)) true

/-- `full >> remove << remove` on `uint8_t`, with `full` all ones. -/
def highBits (remove : ℕ) : UInt8 :=
  ((0xFF : UInt8) >>> UInt8.ofNat remove) <<< UInt8.ofNat remove

/-- Whether an entry matches the address. The division and remainder are those
of C, so that no loop runs for a negative prefix. -/
def RouteEntry.matches (entry : RouteEntry) (ip_addr : Ipv4) : Option Bool := do
  let octets := (entry.prefixLength.tdiv 8).toNat
  let matched ← octetsMatch ip_addr entry.ip_mask octets
  let remaining := entry.prefixLength.tmod 8
  if remaining > 0 then
    let full := highBits (8 - remaining).toNat
    let byte ← ip_addr[octets]?
    let expected ← entry.ip_mask[octets]?
    pure (if byte &&& full ≠ expected &&& full then false else matched)
  else
    pure matched

/-- One iteration of the loop, on `current_prefix` and `selected_port`. -/
def routeStep (ip_addr : Ipv4) (best : ℤ × ℤ) (entry : RouteEntry) : Option (ℤ × ℤ) := do
  let matched ← RouteEntry.matches entry ip_addr
  pure (if matched && decide (entry.prefixLength > best.1) then
    (entry.prefixLength, entry.port)
  else best)

/-- The selected port; `none` when a prefix above 32 makes the loop read outside
of an address. -/
def getRoutingTable (ip_addr : Ipv4) : Option ℤ :=
  (info.route_vector.foldlM (routeStep ip_addr) (0, 0)).map Prod.snd

end RoutingInfo

end Kens
