import Shahkar.Lib.Network
import Shahkar.WireGuard.Peers
import Mathlib.Data.List.ReduceOption

/-!
The address pools of the interfaces of a node: the allocator of `app/wireguard/pool.py`, the
widening of `capacity.py` and the interfaces and peers of `wg_manager.py`. A stored address is what
its text reads as; a subnet is that together with the text, since texts are compared.
-/

namespace Shahkar.WireGuard

open Shahkar.Lib

/-!
### Allocation
-/

abbrev Entry := Option Address

structure Subnet where
  net : Network
  spelling : Nat := 0
  deriving DecidableEq

def canonicalInterfaceHost (net : Network) : Address := ⟨net.family, net.firstHost⟩

def HostInSubnet (host : Address) (net : Network) : Prop :=
  host ∈ net ∧ host.value ≠ net.base ∧ (net.family = .v4 → host.value ≠ net.last)

instance (host : Address) (net : Network) : Decidable (HostInSubnet host net) :=
  inferInstanceAs (Decidable (_ ∧ _ ∧ _))

def usablePeerSlots (net : Network) : Nat :=
  net.size - (match net.family with | .v4 => 3 | .v6 => 2)

def minPrefixlen : Nat := 12

def widenLoop (minUsable : Nat) (avoid : List Network) (minPrefix : Nat) : Nat → Network → Network
  | 0, net => net
  | fuel + 1, net =>
    if minUsable ≤ usablePeerSlots net ∨ net.length ≤ minPrefix then net
    else if avoid.any (net.supernet.Overlaps ·) then net
    else widenLoop minUsable avoid minPrefix fuel net.supernet

def widenSubnet (net : Network) (minUsable : Nat) (avoid : List Network := [])
    (minPrefix : Nat := minPrefixlen) : Network :=
  widenLoop minUsable avoid minPrefix net.length net

structure Allocator where
  network : Network
  used : List Address

def Allocator.new (network : Network) (used reservedHosts : List Entry) : Allocator where
  network := network
  used := (if reservedHosts.reduceOption = [] then [canonicalInterfaceHost network]
    else reservedHosts.reduceOption) ++ used.reduceOption

/-- Without a reserved host the constructor takes the `next` of `hosts()`, which for a network of
one address is a list and raises a `TypeError` (`none`). -/
def Allocator.init? (network : Network) (used reservedHosts : List Entry) : Option Allocator :=
  if network.length = network.family.width ∧ reservedHosts.reduceOption = [] then none
  else some (.new network used reservedHosts)

def Allocator.hosts (alloc : Allocator) : List Address :=
  (List.range' alloc.network.firstHost (alloc.network.hostsEnd - alloc.network.firstHost)).map
    (Address.mk alloc.network.family)

def Allocator.allocate (alloc : Allocator) : Option (Address × Allocator) :=
  (alloc.hosts.find? (· ∉ alloc.used)).map fun a => (a, { alloc with used := a :: alloc.used })

theorem Allocator.bind_init? (network : Network) (used reservedHosts : List Entry) :
    (init? network used reservedHosts).bind allocate =
      (new network used reservedHosts).allocate := by
  rw [init?]
  split
  · next h =>
      -- the one host there is would be reserved
      simp [allocate, hosts, new, h, canonicalInterfaceHost, Network.firstHost, Network.hostsEnd,
        Network.size]
  · rfl

/-!
### Tables
-/

structure NodeConfig where
  interface : String := "wg0"
  listenPort : Nat := 51820
  subnet : Subnet
  plainEnabled : Bool := true
  awgEnabled : Bool := false
  awgInterface : String := "wg1"
  awgSubnet : Subnet
  deriving DecidableEq

structure WgProxy where
  user : Nat
  hasKey : Bool := true
  plainAddress : Option Entry := none

structure WgInterface where
  node : Nat
  name : String
  subnet : Subnet
  listenPort : Nat

structure WgPeer where
  user : Nat
  address : Entry

/-- The tables of nodes, interfaces, proxies and peers. -/
structure Pools where
  configs : Nat → Option NodeConfig
  interfaces : List WgInterface := []
  proxies : List WgProxy := []
  peers : List WgPeer := []

namespace Pools

def repool (s : Pools) (current widened : Subnet) : Pools :=
  { s with
    interfaces := s.interfaces.map fun i =>
      if i.subnet = current then { i with subnet := widened } else i
    configs := fun id => (s.configs id).map fun cfg =>
      if cfg.subnet = current then { cfg with subnet := widened } else cfg }

@[simp] theorem repool_self (s : Pools) (subnet : Subnet) : s.repool subnet subnet = s := by
  have hinterface : (fun i : WgInterface => if i.subnet = subnet then { i with subnet } else i) =
      id := by
    funext i
    split
    · next h => subst h; rfl
    · rfl
  have hconfig : (fun cfg : NodeConfig =>
      if cfg.subnet = subnet then { cfg with subnet := subnet } else cfg) = id := by
    funext cfg
    split
    · next h => subst h; rfl
    · rfl
  simp only [repool, hinterface, hconfig, List.map_id, Option.map_id_fun, id]

def widenedFleetSubnet (current : Subnet) (need : Nat) : Subnet :=
  if need ≤ usablePeerSlots current.net then current else { net := widenSubnet current.net need }

def widenFleetPlainSubnet (s : Pools) (current : Subnet) (need : Nat) : Pools :=
  s.repool current (widenedFleetSubnet current need)

def interface (s : Pools) (node : Nat) (name : String) : Option WgInterface :=
  s.interfaces.find? fun i => i.node = node ∧ i.name = name

def handTo (s : Pools) (user : Nat) (a : Address) : Pools :=
  { s with peers := s.peers ++ [⟨user, some a⟩] }

def take (s : Pools) (subnet : Subnet) : Option Address :=
  ((Allocator.init? subnet.net (s.peers.map (·.address)) []).bind Allocator.allocate).map (·.1)

def allocateIp (s : Pools) (node : Nat) (name : String) (user : Nat) : Option Pools := do
  let iface ← s.interface node name
  let need := s.peers.length + 1
  let subnet := widenedFleetSubnet iface.subnet need
  let s := s.widenFleetPlainSubnet iface.subnet need
  match s.take subnet with
  | some a => s.handTo user a
  | none =>
    let wider := widenedFleetSubnet subnet (need + 256)
    let s := s.widenFleetPlainSubnet subnet (need + 256)
    (s.take wider).map (s.handTo user)

def slotName (slot : Nat) : String := "wg" ++ toString slot

def reservedInterfaceNames (cfg : NodeConfig) : List String :=
  if cfg.awgEnabled then [if cfg.awgInterface = "" then "wg1" else cfg.awgInterface] else []

def nextSlot (s : Pools) (node : Nat) (cfg : NodeConfig) : Nat :=
  let taken := reservedInterfaceNames cfg ++
    (s.interfaces.filter (·.node = node)).map (·.name)
  ((List.range (taken.length + 1)).find? (slotName · ∉ taken)).getD 0

def subnets24 (net : Network) : List Network :=
  (List.range (2 ^ (24 - net.length))).filterMap fun j =>
    if h : net.index * 2 ^ (24 - net.length) + j < 2 ^ 24 then
      some ⟨net.family, 24, _, by cases net.family <;> decide, h⟩
    else none

def container (net : Network) : Network := Network.supernet^[net.length - 16] net

def subnetForSlot (slot : Nat) (cfg : NodeConfig) : Option Network :=
  let primary := cfg.subnet.net
  if slot = 0 then some primary
  else
    let extras := (subnets24 (container primary)).filter (¬ ·.Overlaps primary)
    extras[slot - 1]?.or
      (if slot < 256 then some (.ofV4 10 8 slot 0 24) else none)

def portForSlot (slot : Nat) : Nat := 51820 + slot

def createInterface (s : Pools) (node : Nat) : Option Pools := do
  let cfg ← s.configs node
  let slot := s.nextSlot node cfg
  let net ← subnetForSlot slot cfg
  pure { s with
    interfaces := s.interfaces ++ [⟨node, slotName slot, { net }, portForSlot slot⟩] }

def importPeer (net : Network) (peers : List WgPeer) (p : WgProxy) : List WgPeer :=
  if p.hasKey ∧ p.plainAddress.join.any (· ∈ net) ∧ ¬ peers.any (·.user = p.user) then
    peers ++ [⟨p.user, p.plainAddress.join⟩]
  else peers

def bootstrapLegacyInterfaces (s : Pools) (node : Nat) : Option Pools := do
  let cfg ← s.configs node
  let legacy := if cfg.interface = "" then "wg0" else cfg.interface
  let name := if legacy ∈ reservedInterfaceNames cfg then slotName (s.nextSlot node cfg) else legacy
  if ¬ cfg.plainEnabled ∨ (s.interface node cfg.interface).isSome ∨ (s.interface node name).isSome
  then some s
  else
    some { s with
      interfaces := s.interfaces ++ [⟨node, name, cfg.subnet, cfg.listenPort⟩]
      peers := s.proxies.foldl (importPeer cfg.subnet.net) s.peers }

end Pools

inductive PoolStep
  | allocateIp (node : Nat) (name : String) (user : Nat)
  | bootstrapLegacyInterfaces (node : Nat)
  | createInterface (node : Nat)

/-- One call that opens an interface or hands out an address. -/
def Pools.step (s : Pools) : PoolStep → Option Pools
  | .allocateIp node name user => s.allocateIp node name user
  | .bootstrapLegacyInterfaces node => s.bootstrapLegacyInterfaces node
  | .createInterface node => s.createInterface node

end Shahkar.WireGuard
