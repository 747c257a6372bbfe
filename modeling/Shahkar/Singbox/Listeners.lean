import Shahkar.Lib.Text
import Shahkar.Singbox.Sync

/-!
# When the listeners of a node are distinct

Every tier of a protocol gets an inbound of its own. Its port is a sum in which a download of 1
weighs as much as an upload of 100, so tiers can share a port.
-/

namespace Shahkar.Singbox

open Shahkar.Lib

/-!
### Inbounds and tiers
-/

structure Served (cfg : NodeConfig) (users : List SBUser) (u : SBUser) : Prop where
  mem : u ∈ users
  active : u.active
  serves : cfg.serves u.protocol

def listeners (cfg : NodeConfig) (users : List SBUser) :
    List (Protocol × Option (Nat × Nat) × List SBUser) :=
  [.hysteria2, .tuic, .anytls].flatMap fun p => (servedTiers cfg users p).map fun e => (p, e)

section Spec

variable {cfg : NodeConfig} {users : List SBUser}

theorem inbounds_eq : (buildNodeSpec cfg users).inbounds =
    (listeners cfg users).map fun e => tierInbound cfg e.1 e.2.1 e.2.2 := by
  simp [buildNodeSpec, buildTieredInbounds, listeners, Function.comp_def]

theorem get?_groupUsersByTier (l : List SBUser) (tier : Option (Nat × Nat)) :
    (groupUsersByTier l).get? tier =
      if l.filter (fun u => u.tier = tier) = [] then none
      else some (l.filter fun u => u.tier = tier) := by
  have hcollect : ∀ acc group : List SBUser,
      group.foldl (fun acc u => acc ++ [u]) acc = acc ++ group := by
    intro acc group
    induction group generalizing acc with
    | nil => simp
    | cons u rest ih => simp [ih]
  unfold groupUsersByTier
  rw [Dict.get?_groupBy]
  simp only [Option.some.injEq, hcollect, List.nil_append]

theorem mem_listeners_iff {p : Protocol} {tier : Option (Nat × Nat)} {group : List SBUser} :
    (p, tier, group) ∈ listeners cfg users ↔
      cfg.serves p ∧ group ≠ [] ∧
        group = users.filter fun u => u.tier = tier && (u.active && u.protocol = p) := by
  have hmem : (p, tier, group) ∈ listeners cfg users ↔ (tier, group) ∈ servedTiers cfg users p := by
    cases p <;> simp [listeners]
  rw [hmem, servedTiers]
  split
  · next hserves =>
      rw [← Dict.get?_eq_some_iff, get?_groupUsersByTier, List.filter_filter]
      simp only [hserves, true_and]
      constructor
      · intro h
        split at h
        · cases h
        · next hne =>
            obtain rfl := Option.some.inj h
            exact ⟨hne, rfl⟩
      · intro h
        obtain ⟨hne, rfl⟩ := h
        rw [if_neg hne]
  · next hserves => simp [hserves]

theorem nodup_listeners : (listeners cfg users).Nodup := by
  have htiers : ∀ p, (servedTiers cfg users p).Nodup := by
    intro p
    unfold servedTiers
    split
    · exact (groupUsersByTier _).nodup.of_map _
    · exact List.nodup_nil
  refine List.nodup_flatMap.mpr ⟨fun p _ => (htiers p).map fun _ _ h => (Prod.mk.inj h).2, ?_⟩
  refine List.Pairwise.imp (fun {p q} hne => ?_)
    (by decide : [Protocol.hysteria2, .tuic, .anytls].Nodup)
  intro e hp hq
  obtain ⟨x, -, rfl⟩ := List.mem_map.mp hp
  obtain ⟨y, -, heq⟩ := List.mem_map.mp hq
  exact hne (Prod.mk.inj heq).1.symm

theorem exists_inbound {u : SBUser} (h : Served cfg users u) :
    ∃ i ∈ (buildNodeSpec cfg users).inbounds, i.type = u.protocol ∧
      i.listenPort = listenPortForUser u.protocol (cfg.port u.protocol) u.speedLimitUp
        u.speedLimitDown ∧ renderUser u ∈ i.users := by
  have hu : u ∈ users.filter fun v => v.tier = u.tier && (v.active && v.protocol = u.protocol) := by
    simp [h.mem, h.active]
  refine ⟨tierInbound cfg u.protocol u.tier _, ?_, rfl, rfl, List.mem_map_of_mem hu⟩
  rw [inbounds_eq]
  exact List.mem_map_of_mem (f := fun e : Protocol × Option (Nat × Nat) × List SBUser =>
    tierInbound cfg e.1 e.2.1 e.2.2) (mem_listeners_iff.mpr ⟨h.serves, List.ne_nil_of_mem hu, rfl⟩)

end Spec

theorem tierTag_inj {p q : Protocol} {s t : Option (Nat × Nat)} (h : tierTag p s = tierTag q t) :
    p = q ∧ s = t := by
  -- The protocols differ in their first letter.
  have hhead : ∀ p s, (tierTag p s).toList.head? = p.text.toList.head? := by
    intro p s
    cases s <;> cases p <;> simp [tierTag, Protocol.text]
  have hpq : p = q := by
    have hletter := congrArg (fun tag : String => tag.toList.head?) h
    simp only [hhead] at hletter
    cases p <;> cases q <;> first | rfl | exact absurd hletter (by decide)
  subst hpq
  refine ⟨rfl, ?_⟩
  have hlist := congrArg String.toList h
  cases s with
  | none =>
    cases t with
    | none => rfl
    | some t => simp [tierTag] at hlist
  | some s =>
    cases t with
    | none => simp [tierTag] at hlist
    | some t =>
      simp only [tierTag, String.toList_append, List.append_assoc, List.append_cancel_left_eq]
        at hlist
      obtain ⟨hup, hdown⟩ := Text.decimal_append_inj (c := '-') (by decide) hlist
      obtain ⟨hdown, -⟩ := Text.decimal_append_inj (c := '-') (r := []) (s := []) (by decide)
        (congrArg (· ++ ['-']) hdown)
      rw [Prod.ext hup hdown]

def SBUser.weight (u : SBUser) : Nat := u.speedLimitUp.getD 0 + u.speedLimitDown.getD 0 * 100

def SBUser.lift (u : SBUser) : Nat :=
  if u.weight = 0 then 0 else u.protocol.speedOffset + u.weight

theorem listenPort_eq (u : SBUser) (basePort : Nat) :
    tierListenPort u.protocol basePort u.tier = basePort + u.lift := by
  unfold SBUser.tier speedTier SBUser.lift SBUser.weight
  split
  · next h => simp [tierListenPort, h.1, h.2]
  · next h =>
      rw [if_neg (by omega)]
      simp only [tierListenPort]
      omega

theorem tier_eq_iff {u v : SBUser} : u.tier = v.tier ↔
    u.speedLimitUp.getD 0 = v.speedLimitUp.getD 0 ∧
      u.speedLimitDown.getD 0 = v.speedLimitDown.getD 0 := by
  unfold SBUser.tier speedTier
  split <;> split <;> simp <;> omega

/-- The ports of the placed users are spread out. -/
structure Spread (cfg : NodeConfig) (users : List SBUser) : Prop where
  tiers : ∀ u v, Served cfg users u → Served cfg users v → u.protocol = v.protocol →
    u.weight = v.weight → u.speedLimitUp.getD 0 = v.speedLimitUp.getD 0 ∧
      u.speedLimitDown.getD 0 = v.speedLimitDown.getD 0
  udp : ∀ u v, Served cfg users u → Served cfg users v → u.protocol = .hysteria2 →
    v.protocol = .tuic → cfg.port .hysteria2 + u.lift ≠ cfg.port .tuic + v.lift
  range : ∀ u, Served cfg users u → cfg.port u.protocol + u.lift ≤ 65535

/-- What the planner promises of a specification. -/
structure Sound (cfg : NodeConfig) (users : List SBUser) : Prop where
  tags : ((buildNodeSpec cfg users).inbounds.map Inbound.tag).Nodup
  ports : ((buildNodeSpec cfg users).inbounds.map fun i => (i.type.transport, i.listenPort)).Nodup
  range : ∀ i ∈ (buildNodeSpec cfg users).inbounds, 1 ≤ i.listenPort ∧ i.listenPort ≤ 65535
  placed : ∀ u, Served cfg users u → ∃ i ∈ (buildNodeSpec cfg users).inbounds,
    i.type = u.protocol ∧ i.listenPort = listenPortForUser u.protocol (cfg.port u.protocol)
      u.speedLimitUp u.speedLimitDown ∧ renderUser u ∈ i.users

section Ports

variable {cfg : NodeConfig} {users : List SBUser}

theorem exists_served {e : Protocol × Option (Nat × Nat) × List SBUser}
    (h : e ∈ listeners cfg users) :
    ∃ u, Served cfg users u ∧ u.protocol = e.1 ∧ u.tier = e.2.1 := by
  obtain ⟨hserves, hne, hgroup⟩ := mem_listeners_iff.mp h
  obtain ⟨u, hu⟩ := List.exists_mem_of_ne_nil _ hne
  rw [hgroup] at hu
  simp only [List.mem_filter, Bool.and_eq_true, decide_eq_true_eq] at hu
  exact ⟨u, ⟨hu.1, hu.2.2.1, hu.2.2.2 ▸ hserves⟩, hu.2.2.2, hu.2.1⟩

theorem exists_listener {u : SBUser} (h : Served cfg users u) :
    ∃ group, (u.protocol, u.tier, group) ∈ listeners cfg users := by
  refine ⟨_, mem_listeners_iff.mpr ⟨h.serves, List.ne_nil_of_mem (a := u) ?_, rfl⟩⟩
  simp [h.mem, h.active]

theorem listener_ext {e f : Protocol × Option (Nat × Nat) × List SBUser}
    (he : e ∈ listeners cfg users) (hf : f ∈ listeners cfg users) (hp : e.1 = f.1)
    (ht : e.2.1 = f.2.1) : e = f := by
  have hgroup : e.2.2 = f.2.2 := by
    rw [(mem_listeners_iff.mp he).2.2, (mem_listeners_iff.mp hf).2.2, hp, ht]
  exact Prod.ext hp (Prod.ext ht hgroup)

theorem nodup_ports_iff :
    ((buildNodeSpec cfg users).inbounds.map fun i => (i.type.transport, i.listenPort)).Nodup ↔
      ∀ u v, Served cfg users u → Served cfg users v → u.protocol.transport = v.protocol.transport →
        cfg.port u.protocol + u.lift = cfg.port v.protocol + v.lift →
        u.protocol = v.protocol ∧ u.tier = v.tier := by
  rw [inbounds_eq, List.map_map, List.nodup_map_iff_inj_on nodup_listeners]
  constructor
  · intro hinj u v hu hv htransport hport
    obtain ⟨g, hg⟩ := exists_listener hu
    obtain ⟨g', hg'⟩ := exists_listener hv
    have heq := hinj _ hg _ hg' (Prod.ext htransport (by
      simpa [tierInbound, listenPort_eq] using hport))
    exact ⟨(Prod.mk.inj heq).1, (Prod.mk.inj (Prod.mk.inj heq).2).1⟩
  · intro h e he f hf heq
    obtain ⟨u, hu, hpu, htu⟩ := exists_served he
    obtain ⟨v, hv, hpv, htv⟩ := exists_served hf
    obtain ⟨htransport, hport⟩ := Prod.mk.inj heq
    simp only [tierInbound, ← hpu, ← hpv, ← htu, ← htv, listenPort_eq] at htransport hport
    obtain ⟨hp, ht⟩ := h u v hu hv htransport hport
    exact listener_ext he hf (hpu ▸ hpv ▸ hp) (htu ▸ htv ▸ ht)

theorem weight_eq_of_lift_eq {u v : SBUser} (hp : u.protocol = v.protocol)
    (h : u.lift = v.lift) : u.weight = v.weight := by
  have hoffset : 0 < v.protocol.speedOffset := by cases v.protocol <;> decide
  unfold SBUser.lift at h
  rw [hp] at h
  split at h <;> split at h <;> omega

theorem Spread.nodup_ports (h : Spread cfg users) :
    ((buildNodeSpec cfg users).inbounds.map fun i => (i.type.transport, i.listenPort)).Nodup := by
  refine nodup_ports_iff.mpr fun u v hu hv htransport hport => ?_
  by_cases hp : u.protocol = v.protocol
  · rw [hp, Nat.add_left_cancel_iff] at hport
    exact ⟨hp, tier_eq_iff.mpr (h.tiers u v hu hv hp (weight_eq_of_lift_eq hp hport))⟩
  · -- Only the two UDP protocols share a transport.
    have hudp : (u.protocol = .hysteria2 ∧ v.protocol = .tuic) ∨
        (u.protocol = .tuic ∧ v.protocol = .hysteria2) := by
      revert hp htransport
      cases u.protocol <;> cases v.protocol <;> decide
    rcases hudp with ⟨hpu, hpv⟩ | ⟨hpu, hpv⟩
    · rw [hpu, hpv] at hport
      exact absurd hport (h.udp u v hu hv hpu hpv)
    · rw [hpu, hpv] at hport
      exact absurd hport.symm (h.udp v u hv hu hpv hpu)

theorem nodup_tags : ((buildNodeSpec cfg users).inbounds.map Inbound.tag).Nodup := by
  rw [inbounds_eq, List.map_map, List.nodup_map_iff_inj_on nodup_listeners]
  intro e he f hf heq
  obtain ⟨hp, ht⟩ := tierTag_inj heq
  exact listener_ext he hf hp ht

end Ports

/-- **Listeners never collide** exactly if the ports of the users are spread out. -/
theorem sound_iff (cfg : NodeConfig) (users : List SBUser) : Sound cfg users ↔ Spread cfg users := by
  constructor
  · intro h
    have hports := nodup_ports_iff.mp h.ports
    refine ⟨fun u v hu hv hp hweight => ?_, fun u v hu hv hpu hpv hport => ?_, fun u hu => ?_⟩
    · refine tier_eq_iff.mp (hports u v hu hv (by rw [hp]) ?_).2
      simp only [SBUser.lift, hp, hweight]
    · have hp := (hports u v hu hv (by rw [hpu, hpv]; rfl) (by rw [hpu, hpv]; exact hport)).1
      rw [hpu, hpv] at hp
      cases hp
    · obtain ⟨i, hi, -, hport, -⟩ := h.placed u hu
      have hrange := (h.range i hi).2
      rw [hport] at hrange
      rw [← listenPort_eq]
      exact hrange
  · intro h
    refine ⟨nodup_tags, h.nodup_ports, fun i hi => ?_, fun u hu => exists_inbound hu⟩
    rw [inbounds_eq] at hi
    obtain ⟨e, he, rfl⟩ := List.mem_map.mp hi
    obtain ⟨u, hu, hp, ht⟩ := exists_served he
    have hbase : cfg.port u.protocol ≠ 0 := by
      have hserves := hu.serves
      simp only [NodeConfig.serves, Bool.and_eq_true, bne_iff_ne] at hserves
      exact hserves.2
    have hrange := h.range u hu
    simp only [tierInbound, ← hp, ← ht, listenPort_eq]
    omega

def quicNode : NodeConfig where
  enabled p := p != .anytls
  port
    | .hysteria2 => 443
    | .tuic => 8443
    | .anytls => 0

theorem tiers_collide : ((buildNodeSpec quicNode
    [{ userId := 1, username := "a", protocol := .hysteria2, speedLimitUp := some 100 },
      { userId := 2, username := "b", protocol := .hysteria2, speedLimitDown := some 1 }]
    ).inbounds.map fun i => (i.type.transport, i.listenPort)) = [(.udp, 643), (.udp, 643)] := by
  decide

end Shahkar.Singbox
