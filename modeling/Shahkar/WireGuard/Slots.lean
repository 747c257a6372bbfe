import Shahkar.Lib.Text
import Shahkar.Lib.Transition
import Shahkar.WireGuard.Pools
import Mathlib.Data.List.Perm.Subperm

/-!
# The pools of the interfaces of a node

The subnet of a slot is carved from the `/16` around the plain subnet of the node, or is
`10.8.slot.0/24`, and its port is counted from 51820; neither looks at the AmneziaWG listener or at
the interfaces that exist.
-/

namespace Shahkar.WireGuard

open Shahkar.Lib

namespace Pools

/-!
### Subnets of slots
-/

variable {cfg : NodeConfig} {slot slot' : Nat} {net net' : Network}

def historic : Network := .ofV4 10 8 0 0 16

theorem mem_subnets24 {wide : Network} (hlength : wide.length ≤ 24) (h : net ∈ subnets24 wide) :
    net.Within wide ∧ net.length = 24 := by
  obtain ⟨j, hj, hnet⟩ := List.mem_filterMap.mp h
  rw [List.mem_range] at hj
  split at hnet
  · next hlt =>
      obtain rfl := Option.some.inj hnet
      refine ⟨⟨rfl, ?_⟩, rfl⟩
      have hwidth : 24 ≤ wide.family.width := by cases wide.family <;> decide
      have hsize : wide.size = 2 ^ (24 - wide.length) * 2 ^ (wide.family.width - 24) := by
        rw [Network.size, ← pow_add]
        congr 1
        omega
      simp only [Network.base, Network.size] at hsize ⊢
      rw [hsize, ← mul_assoc, ← Nat.add_one_mul, ← Nat.add_mul]
      exact ⟨Nat.mul_le_mul_right _ (by omega), Nat.mul_le_mul_right _ (by omega)⟩
  · cases hnet

theorem nodup_subnets24 (wide : Network) : (subnets24 wide).Nodup := by
  refine List.Nodup.filterMap (fun j j' net hj hj' => ?_) List.nodup_range
  split at hj
  · split at hj'
    · have hindex := congrArg Network.index
        ((Option.some.inj hj).trans (Option.some.inj hj').symm)
      simpa using hindex
    · cases hj'
  · cases hj

theorem within_container (net : Network) : net.Within (container net) :=
  Network.within_iterate_supernet _

theorem length_container (net : Network) : (container net).length ≤ 16 := by
  rw [container, Network.length_iterate_supernet]
  omega

def extras (cfg : NodeConfig) : List Network :=
  (subnets24 (container cfg.subnet.net)).filter (¬ ·.Overlaps cfg.subnet.net)

theorem mem_extras (h : net ∈ extras cfg) :
    net.Within (container cfg.subnet.net) ∧ net.length = 24 ∧
      ¬ net.Overlaps cfg.subnet.net := by
  obtain ⟨hmem, hnot⟩ := List.mem_filter.mp h
  obtain ⟨hwithin, hlength⟩ := mem_subnets24 ((length_container _).trans (by decide)) hmem
  exact ⟨hwithin, hlength, by simpa using hnot⟩

theorem length_extras (cfg : NodeConfig) : (extras cfg).length ≤ 256 := by
  rcases Nat.lt_or_ge cfg.subnet.net.length 16 with hwide | hnarrow
  · have hcontainer : container cfg.subnet.net = cfg.subnet.net := by
      rw [container, Nat.sub_eq_zero_of_le hwide.le]
      rfl
    have hnil : extras cfg = [] := by
      refine List.eq_nil_iff_forall_not_mem.mpr fun net hnet => ?_
      obtain ⟨hwithin, -, hnot⟩ := mem_extras hnet
      exact hnot (hcontainer ▸ hwithin).overlaps
    rw [hnil]
    decide
  · have hlength : (container cfg.subnet.net).length = 16 := by
      rw [container, Network.length_iterate_supernet]
      omega
    refine (List.length_filter_le ..).trans ((List.length_filterMap_le ..).trans ?_)
    rw [hlength, List.length_range]
    decide

theorem subnetForSlot_eq (hslot : slot ≠ 0) (h : subnetForSlot slot cfg = some net) :
    (extras cfg)[slot - 1]? = some net ∨
      slot < 256 ∧ net = .ofV4 10 8 slot 0 24 := by
  rw [subnetForSlot, if_neg hslot] at h
  change (extras cfg)[slot - 1]?.or _ = some net at h
  rcases Option.or_eq_some_iff.mp h with h | ⟨-, h⟩
  · exact .inl h
  · split at h
    · next hlt => exact .inr ⟨hlt, (Option.some.inj h).symm⟩
    · cases h

theorem slot_le (h : subnetForSlot slot cfg = some net) : slot ≤ 256 := by
  rcases eq_or_ne slot 0 with rfl | hslot
  · decide
  · rcases subnetForSlot_eq hslot h with hget | ⟨hlt, -⟩
    · have := (List.getElem?_eq_some_iff.mp hget).1
      have := length_extras cfg
      omega
    · exact hlt.le

theorem index_historic (hlt : slot < 256) :
    (Network.ofV4 10 8 slot 0 24).index = 2568 * 256 + slot := by
  change ((2568 * 256 + slot) * 256 + 0) / 256 % 16777216 = _
  omega

theorem within_historic (hlt : slot < 256) :
    (Network.ofV4 10 8 slot 0 24).Within historic := by
  refine ⟨rfl, ?_⟩
  have hbase : historic.base = 2568 * 65536 := by decide +kernel
  have hsize : historic.size = 65536 := by decide +kernel
  have hslot : (Network.ofV4 10 8 slot 0 24).size = 256 := rfl
  rw [hbase, hsize, hslot, Network.base, hslot, index_historic hlt]
  omega

/-- A config that keeps clear of the ranges the slots come from. -/
structure Separated (cfg : NodeConfig) : Prop where
  v4 : cfg.subnet.net.family = .v4
  name : cfg.interface = "wg0" ∨ cfg.interface = ""
  awgName : cfg.awgEnabled → cfg.awgInterface ≠ "wg0"
  port : cfg.listenPort ≤ 51820 ∨ 51820 + 256 < cfg.listenPort
  plain : ¬ (container cfg.subnet.net).Overlaps historic
  awg : cfg.awgEnabled → ¬ (container cfg.subnet.net).Overlaps cfg.awgSubnet.net ∧
    ¬ historic.Overlaps cfg.awgSubnet.net

theorem subnetForSlot_within (h : subnetForSlot slot cfg = some net) :
    net.Within (container cfg.subnet.net) ∨ net.Within historic := by
  rcases eq_or_ne slot 0 with rfl | hslot
  · obtain rfl := Option.some.inj h
    exact .inl (within_container _)
  · rcases subnetForSlot_eq hslot h with hget | ⟨hlt, rfl⟩
    · exact .inl (mem_extras (List.mem_of_getElem? hget)).1
    · exact .inr (within_historic hlt)

namespace Separated

theorem family (hsep : Separated cfg) (h : subnetForSlot slot cfg = some net) :
    net.family = .v4 := by
  rcases subnetForSlot_within h with hwithin | hwithin
  · exact hwithin.1.trans ((within_container _).1.symm.trans hsep.v4)
  · exact hwithin.1

theorem not_overlaps_awg (hsep : Separated cfg) (hawg : cfg.awgEnabled)
    (h : subnetForSlot slot cfg = some net) : ¬ net.Overlaps cfg.awgSubnet.net := by
  rcases subnetForSlot_within h with hwithin | hwithin
  · exact Network.not_overlaps_of_within (hsep.awg hawg).1 hwithin .refl
  · exact Network.not_overlaps_of_within (hsep.awg hawg).2 hwithin .refl

theorem not_overlaps_plain (hsep : Separated cfg) (hslot : slot ≠ 0)
    (h : subnetForSlot slot cfg = some net) : ¬ net.Overlaps cfg.subnet.net := by
  rcases subnetForSlot_eq hslot h with hget | ⟨hlt, rfl⟩
  · exact (mem_extras (List.mem_of_getElem? hget)).2.2
  · intro hover
    exact Network.not_overlaps_of_within hsep.plain (within_container _) (within_historic hlt)
      (Network.overlaps_comm.mp hover)

theorem not_overlaps (hsep : Separated cfg) (hne : slot ≠ slot')
    (h : subnetForSlot slot cfg = some net) (h' : subnetForSlot slot' cfg = some net') :
    ¬ net.Overlaps net' := by
  rcases eq_or_ne slot' 0 with rfl | hslot'
  · obtain rfl := Option.some.inj h'
    exact hsep.not_overlaps_plain hne h
  rcases eq_or_ne slot 0 with rfl | hslot
  · obtain rfl := Option.some.inj h
    exact fun hover => hsep.not_overlaps_plain hslot' h' (Network.overlaps_comm.mp hover)
  rcases subnetForSlot_eq hslot h with hget | ⟨hlt, rfl⟩ <;>
    rcases subnetForSlot_eq hslot' h' with hget' | ⟨hlt', rfl⟩
  · have hne : net ≠ net' := by
      rintro rfl
      have hnodup := (nodup_subnets24 (container cfg.subnet.net)).filter
        (¬ ·.Overlaps cfg.subnet.net)
      have := (List.getElem?_inj (List.getElem?_eq_some_iff.mp hget).1 hnodup).mp
        (hget.trans hget'.symm)
      omega
    obtain ⟨hwithin, hlength, -⟩ := mem_extras (List.mem_of_getElem? hget)
    obtain ⟨hwithin', hlength', -⟩ := mem_extras (List.mem_of_getElem? hget')
    refine Network.not_overlaps_of_index_ne (hlength.trans hlength'.symm) fun hindex => hne ?_
    exact Network.ext (hwithin.1.trans hwithin'.1.symm) (hlength.trans hlength'.symm) hindex
  · exact Network.not_overlaps_of_within hsep.plain (mem_extras (List.mem_of_getElem? hget)).1
      (within_historic hlt')
  · exact fun hover => Network.not_overlaps_of_within hsep.plain
      (mem_extras (List.mem_of_getElem? hget')).1 (within_historic hlt)
      (Network.overlaps_comm.mp hover)
  · refine Network.not_overlaps_of_index_ne rfl ?_
    rw [index_historic hlt, index_historic hlt']
    omega

end Separated

variable {s s' : Pools} {node : Nat}

theorem exists_notMem_of_length_lt {α : Type} {l m : List α} (hl : l.Nodup)
    (h : m.length < l.length) : ∃ a ∈ l, a ∉ m := by
  by_contra hall
  push Not at hall
  exact absurd (hl.subperm hall).length_le (not_le.mpr h)

theorem slotName_injective : Function.Injective slotName := by
  intro m n h
  have hdigits := congrArg (fun t => t.toList ++ ['.']) ((String.append_right_inj "wg").mp h)
  exact (Text.decimal_append_inj (by decide) hdigits).1

def names (s : Pools) (node : Nat) : List String :=
  (s.interfaces.filter (·.node = node)).map (·.name)

theorem slotName_nextSlot (s : Pools) (node : Nat) (cfg : NodeConfig) :
    slotName (s.nextSlot node cfg) ∉ reservedInterfaceNames cfg ++ s.names node := by
  set taken := reservedInterfaceNames cfg ++ s.names node with htaken
  obtain ⟨name, hname, hfree⟩ := exists_notMem_of_length_lt
    ((List.nodup_range (n := taken.length + 1)).map slotName_injective) (m := taken) (by simp)
  obtain ⟨slot, hslot, rfl⟩ := List.mem_map.mp hname
  have hsome : ((List.range (taken.length + 1)).find? (slotName · ∉ taken)).isSome :=
    List.find?_isSome.mpr ⟨slot, hslot, by simpa using hfree⟩
  obtain ⟨first, hfirst⟩ := Option.isSome_iff_exists.mp hsome
  have hnext : s.nextSlot node cfg = first := by
    rw [nextSlot]
    exact congrArg (Option.getD · 0) hfirst
  rw [hnext]
  simpa using List.find?_some hfirst

/-- The interface is where its slot puts it. -/
def Placed (cfg : NodeConfig) (i : WgInterface) : Prop :=
  ∃ slot, i.name = slotName slot ∧ subnetForSlot slot cfg = some i.subnet.net ∧
    (i.listenPort = portForSlot slot ∨ slot = 0 ∧ i.listenPort = cfg.listenPort)

structure SlotInv (node : Nat) (cfg : NodeConfig) (s : Pools) : Prop where
  config : s.configs node = some cfg
  names : (s.names node).Nodup
  placed : ∀ i ∈ s.interfaces, i.node = node → Placed cfg i

/-- The pools of a node are apart: subnets and ports of its interfaces, and the AmneziaWG subnet. -/
structure Apart (node : Nat) (s : Pools) : Prop where
  interfaces : (s.interfaces.filter (·.node = node)).Pairwise fun i j =>
    ¬ i.subnet.net.Overlaps j.subnet.net ∧ i.listenPort ≠ j.listenPort
  v4 : ∀ i ∈ s.interfaces, i.node = node → i.subnet.net.family = .v4
  awg : ∀ cfg, s.configs node = some cfg → cfg.awgEnabled → ∀ i ∈ s.interfaces, i.node = node →
    ¬ i.subnet.net.Overlaps cfg.awgSubnet.net

theorem SlotInv.apart (hsep : Separated cfg) (h : SlotInv node cfg s) : s.Apart node := by
  refine ⟨?_, fun i hi hnode => ?_, fun cfg' hcfg' hawg i hi hnode => ?_⟩
  · refine (List.pairwise_map.mp h.names).imp_of_mem fun {i j} hi hj hne => ?_
    rw [List.mem_filter, decide_eq_true_iff] at hi hj
    obtain ⟨slot, hname, hnet, hport⟩ := h.placed i hi.1 hi.2
    obtain ⟨slot', hname', hnet', hport'⟩ := h.placed j hj.1 hj.2
    have hslot : slot ≠ slot' := by
      intro heq
      exact hne (by rw [hname, hname', heq])
    refine ⟨hsep.not_overlaps hslot hnet hnet', ?_⟩
    have hle := slot_le hnet
    have hle' := slot_le hnet'
    have hlisten := hsep.port
    simp only [portForSlot] at hport hport'
    omega
  · obtain ⟨slot, -, hnet, -⟩ := h.placed i hi hnode
    exact hsep.family hnet
  · obtain rfl := Option.some.inj (h.config.symm.trans hcfg')
    obtain ⟨slot, -, hnet, -⟩ := h.placed i hi hnode
    exact hsep.not_overlaps_awg hawg hnet

theorem SlotInv.add (h : SlotInv node cfg s) {i : WgInterface} (hnode : i.node = node)
    (hname : i.name ∉ s.names node) (hplaced : Placed cfg i)
    (hinterfaces : s'.interfaces = s.interfaces ++ [i]) (hconfigs : s'.configs = s.configs) :
    SlotInv node cfg s' := by
  refine ⟨hconfigs ▸ h.config, ?_, fun j hj hjnode => ?_⟩
  · have hnames : s'.names node = s.names node ++ [i.name] := by
      simp [Pools.names, hinterfaces, hnode]
    rw [hnames]
    exact List.nodup_append_comm.mp (List.nodup_cons.mpr ⟨hname, h.names⟩)
  · rw [hinterfaces, List.mem_append, List.mem_singleton] at hj
    rcases hj with hj | rfl
    · exact h.placed j hj hjnode
    · exact hplaced

/-- The condition on a call: it is one for the node, and an allocation finds room. -/
def Roomy (node : Nat) (s : Pools) : PoolStep → Prop
  | .bootstrapLegacyInterfaces n | .createInterface n => n = node
  | .allocateIp n name _ => n = node ∧ ∀ i, s.interface n name = some i →
      s.peers.length < usablePeerSlots i.subnet.net

theorem SlotInv.createInterface (h : SlotInv node cfg s)
    (hstep : s.createInterface node = some s') : SlotInv node cfg s' := by
  obtain ⟨cfg', hcfg', hstep⟩ := Option.bind_eq_some_iff.mp hstep
  obtain rfl := Option.some.inj (h.config.symm.trans hcfg')
  obtain ⟨net, hnet, hstep⟩ := Option.bind_eq_some_iff.mp hstep
  obtain rfl := Option.some.inj hstep
  have hfree := s.slotName_nextSlot node cfg
  rw [List.mem_append, not_or] at hfree
  exact h.add rfl hfree.2 ⟨_, rfl, hnet, .inl rfl⟩ rfl rfl

theorem interface_isSome {name : String} :
    (s.interface node name).isSome ↔ name ∈ s.names node := by
  rw [interface, List.find?_isSome, names, List.mem_map]
  constructor
  · intro h
    obtain ⟨i, hi, hmatch⟩ := h
    rw [decide_eq_true_iff] at hmatch
    exact ⟨i, List.mem_filter.mpr ⟨hi, by simpa using hmatch.1⟩, hmatch.2⟩
  · intro h
    obtain ⟨i, hi, rfl⟩ := h
    obtain ⟨hi, hnode⟩ := List.mem_filter.mp hi
    exact ⟨i, hi, by simpa using hnode⟩

theorem SlotInv.bootstrapLegacyInterfaces (hsep : Separated cfg) (h : SlotInv node cfg s)
    (hstep : s.bootstrapLegacyInterfaces node = some s') : SlotInv node cfg s' := by
  obtain ⟨cfg', hcfg', hstep⟩ := Option.bind_eq_some_iff.mp hstep
  obtain rfl := Option.some.inj (h.config.symm.trans hcfg')
  have hlegacy : (if cfg.interface = "" then "wg0" else cfg.interface) = slotName 0 := by
    rcases hsep.name with hname | hname <;> rw [hname] <;> decide
  have hfree : slotName 0 ∉ reservedInterfaceNames cfg := by
    rw [reservedInterfaceNames]
    split
    · next hawg =>
        rw [List.mem_singleton]
        split
        · decide
        · exact fun heq => hsep.awgName hawg (heq.symm.trans (by decide))
    · exact List.not_mem_nil
  simp only [hlegacy, if_neg hfree] at hstep
  split at hstep
  · obtain rfl := Option.some.inj hstep
    exact h
  · next hnew =>
      obtain rfl := Option.some.inj hstep
      rw [not_or, not_or, interface_isSome, interface_isSome] at hnew
      exact h.add rfl hnew.2.2 ⟨0, rfl, rfl, .inr ⟨rfl, rfl⟩⟩ rfl rfl

theorem usablePeerSlots_lt (h : 0 < usablePeerSlots net) :
    usablePeerSlots net < net.hostsEnd - net.firstHost := by
  have hsmall : ¬ net.length + 1 < net.family.width → net.size ≤ 2 := by
    intro hlength
    rw [Network.size]
    exact (Nat.pow_le_pow_right (by decide) (show _ ≤ 1 by omega)).trans (by decide)
  have hfamily : net.family = .v4 ∨ net.family = .v6 := by cases net.family <;> simp
  simp only [usablePeerSlots, Network.hostsEnd, Network.firstHost, Network.last] at h ⊢
  rcases hfamily with hfamily | hfamily <;> simp only [hfamily] at h hsmall ⊢ <;>
    split_ifs <;> simp_all <;> omega

theorem take_isSome {subnet : Subnet} (h : s.peers.length < usablePeerSlots subnet.net) :
    (s.take subnet).isSome := by
  set alloc := Allocator.new subnet.net (s.peers.map (·.address)) [] with halloc
  have hused : alloc.used.length ≤ s.peers.length + 1 := by
    have hle := List.reduceOption_length_le (s.peers.map (·.address))
    rw [List.length_map] at hle
    simp only [halloc, Allocator.new, List.reduceOption_nil, if_true, List.length_append,
      List.length_singleton]
    omega
  have hhosts : s.peers.length + 1 < alloc.hosts.length := by
    have hlt := usablePeerSlots_lt (Nat.zero_lt_of_lt h)
    rw [Allocator.hosts, List.length_map, List.length_range']
    exact lt_of_le_of_lt h hlt
  have hnodup : alloc.hosts.Nodup :=
    List.Nodup.map (fun v w hvw => (Address.mk.inj hvw).2) List.nodup_range'
  obtain ⟨a, ha, hfree⟩ := exists_notMem_of_length_lt hnodup (hused.trans_lt hhosts)
  rw [take, Option.isSome_map, Allocator.bind_init?, ← halloc, Allocator.allocate, Option.isSome_map]
  exact List.find?_isSome.mpr ⟨a, ha, by simpa using hfree⟩

theorem SlotInv.allocateIp (h : SlotInv node cfg s) {name : String} {user : Nat}
    (hok : Roomy node s (.allocateIp node name user))
    (hstep : s.allocateIp node name user = some s') : SlotInv node cfg s' := by
  obtain ⟨i, hi, hstep⟩ := Option.bind_eq_some_iff.mp hstep
  have hroom := hok.2 i hi
  have hsame : widenedFleetSubnet i.subnet (s.peers.length + 1) = i.subnet := if_pos hroom
  obtain ⟨a, ha⟩ := Option.isSome_iff_exists.mp (take_isSome hroom)
  simp only [widenFleetPlainSubnet, hsame, repool_self, ha] at hstep
  obtain rfl := Option.some.inj hstep
  exact ⟨h.config, h.names, h.placed⟩

end Pools

/-- **The pools of a node stay apart** in every run of calls that find room. -/
theorem pools_apart (node : Nat) (cfg : NodeConfig) (hsep : Pools.Separated cfg) (s₀ s : Pools)
    (hcfg : s₀.configs node = some cfg) (hinit : ∀ i ∈ s₀.interfaces, i.node ≠ node)
    (hrun : Run Pools.step (Pools.Roomy node) s₀ s) : s.Apart node := by
  have hnone : s₀.names node = [] := by
    refine List.map_eq_nil_iff.mpr (List.filter_eq_nil_iff.mpr fun i hi => ?_)
    simpa using hinit i hi
  have hstart : Pools.SlotInv node cfg s₀ :=
    ⟨hcfg, hnone ▸ List.nodup_nil, fun i hi hnode => absurd hnode (hinit i hi)⟩
  refine (hrun.invariant (Pools.SlotInv node cfg) hstart fun {s s' call} h hok hstep => ?_).apart
    hsep
  cases call with
  | bootstrapLegacyInterfaces n =>
    cases hok
    exact h.bootstrapLegacyInterfaces hsep hstep
  | createInterface n =>
    cases hok
    exact h.createInterface hstep
  | allocateIp n name user =>
    obtain rfl : n = node := hok.1
    exact h.allocateIp hok hstep

def amneziaNode (plain : Network) : NodeConfig where
  subnet := { net := plain }
  awgEnabled := true
  awgSubnet := { net := .ofV4 10 10 0 4 30 }

theorem widening_swallows_amnezia : ∃ s, Run Pools.step (fun _ _ => True)
    { configs := fun _ => some (amneziaNode (.ofV4 10 10 0 0 30)) } s ∧ ¬ s.Apart 1 := by
  refine ⟨_, .next (a := .allocateIp 1 "wg0" 2) (.next (a := .allocateIp 1 "wg0" 1)
    (.next (a := .bootstrapLegacyInterfaces 1) .init trivial rfl) trivial rfl) trivial rfl, ?_⟩
  intro h
  exact h.awg _ rfl rfl _ List.mem_cons_self rfl (by decide +kernel)

theorem two_interfaces_apart : ∃ s, Run Pools.step (Pools.Roomy 1)
    { configs := fun _ => some (amneziaNode (.ofV4 10 20 0 0 24)) } s ∧ s.interfaces.length = 2 ∧
      s.peers.length = 1 ∧ s.Apart 1 := by
  have hsep : Pools.Separated (amneziaNode (.ofV4 10 20 0 0 24)) := by
    refine ⟨rfl, .inl rfl, fun _ => ?_, .inl le_rfl, ?_, fun _ => ⟨?_, ?_⟩⟩ <;> decide +kernel
  have hslots : Run Pools.step (Pools.Roomy 1)
      { configs := fun _ => some (amneziaNode (.ofV4 10 20 0 0 24)) } _ :=
    .next (a := .createInterface 1) (.next (a := .bootstrapLegacyInterfaces 1) .init rfl rfl) rfl
      rfl
  have hrun := hslots.next (a := PoolStep.allocateIp 1 "wg0" 7) (And.intro rfl fun i hi => by
    obtain rfl := Option.some.inj hi
    decide +kernel) rfl
  exact ⟨_, hrun, rfl, rfl,
    pools_apart 1 _ hsep _ _ rfl (fun _ hi => absurd hi List.not_mem_nil) hrun⟩

end Shahkar.WireGuard
