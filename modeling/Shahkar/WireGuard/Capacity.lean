import Shahkar.WireGuard.Pools
import Mathlib.Data.Finset.Card

/-!
# How many peers fit

The allocator hands out every free host of its network once, in order, as `usable_peer_slots`
counts. `widen_subnet` goes up the chain of supernets and stops at the first that has enough slots,
or below the first that may not be taken.
-/

namespace Shahkar.WireGuard

open Shahkar.Lib

/-!
### The allocator
-/

namespace Allocator

def allocateAll : Nat → Allocator → List Address × Allocator
  | 0, alloc => ([], alloc)
  | calls + 1, alloc =>
    match alloc.allocate with
    | none => ([], alloc)
    | some (a, alloc) => ((alloc.allocateAll calls).1.cons a, (alloc.allocateAll calls).2)

def free (alloc : Allocator) : List Address := alloc.hosts.filter (· ∉ alloc.used)

variable {alloc : Allocator} {a : Address} {l : List Address}

theorem pairwise_hosts (alloc : Allocator) : alloc.hosts.Pairwise (·.value < ·.value) :=
  List.pairwise_map.mpr (List.pairwise_lt_range' ..)

theorem nodup_hosts (alloc : Allocator) : alloc.hosts.Nodup :=
  alloc.pairwise_hosts.imp fun hlt heq => by
    rw [heq] at hlt
    exact hlt.false

theorem le_of_free_eq {before after : List Address} {b : Address}
    (h : alloc.free = before ++ a :: after) (hb : b ∈ alloc.free) (hnew : b ∉ before) :
    a.value ≤ b.value := by
  have hpairwise := alloc.pairwise_hosts.filter (· ∉ alloc.used)
  rw [← free, h] at hpairwise
  rw [h] at hb
  rcases List.mem_cons.mp ((List.mem_append.mp hb).resolve_left hnew) with rfl | hafter
  · exact le_rfl
  · exact (List.rel_of_pairwise_cons (List.pairwise_append.mp hpairwise).2.1 hafter).le

theorem length_free_add_card (alloc : Allocator) :
    alloc.free.length + (alloc.hosts.filter (· ∈ alloc.used)).toFinset.card =
      alloc.hosts.length := by
  have hsplit := List.length_eq_length_filter_add (l := alloc.hosts) (· ∈ alloc.used)
  simp only [← decide_not] at hsplit
  rw [List.toFinset_card_of_nodup (alloc.nodup_hosts.filter _), hsplit, add_comm]
  rfl

theorem allocate_of_free_nil (h : alloc.free = []) : alloc.allocate = none := by
  rw [allocate, ← List.head?_filter, ← free, h]
  rfl

theorem allocate_of_free_cons (h : alloc.free = a :: l) :
    alloc.allocate = some (a, { alloc with used := a :: alloc.used }) := by
  rw [allocate, ← List.head?_filter, ← free, h]
  rfl

theorem free_of_free_cons (h : alloc.free = a :: l) :
    ({ alloc with used := a :: alloc.used } : Allocator).free = l := by
  have hrest : ∀ b ∈ l, b ≠ a := by
    have hpairwise := alloc.pairwise_hosts.filter (· ∉ alloc.used)
    rw [← free, h] at hpairwise
    rintro b hb rfl
    exact (List.rel_of_pairwise_cons hpairwise hb).false
  calc ({ alloc with used := a :: alloc.used } : Allocator).free
      = alloc.free.filter (· ≠ a) := by
        rw [free, free, List.filter_filter]
        refine List.filter_congr fun b _ => ?_
        simp
    _ = l := by
        rw [h, List.filter_cons_of_neg (by simp), List.filter_eq_self.mpr]
        simpa using hrest

theorem allocateAll_spec (calls : Nat) : ∀ alloc : Allocator,
    (alloc.allocateAll calls).1 = alloc.free.take calls ∧
      (alloc.free.length ≤ calls → (alloc.allocateAll calls).2.allocate = none) := by
  induction calls with
  | zero => exact fun alloc =>
      ⟨rfl, fun h => allocate_of_free_nil (List.eq_nil_of_length_eq_zero (Nat.le_zero.mp h))⟩
  | succ calls ih =>
    intro alloc
    cases hfree : alloc.free with
    | nil =>
      have hnone := allocate_of_free_nil hfree
      rw [allocateAll, hnone]
      exact ⟨rfl, fun _ => hnone⟩
    | cons a l =>
      obtain ⟨hall, hnone⟩ := ih { alloc with used := a :: alloc.used }
      rw [free_of_free_cons hfree] at hall hnone
      rw [allocateAll, allocate_of_free_cons hfree]
      exact ⟨congrArg (List.cons a) hall, fun h => hnone (Nat.le_of_succ_le_succ h)⟩

theorem mem_hosts_iff (h : alloc.network.length + 2 ≤ alloc.network.family.width) :
    a ∈ alloc.hosts ↔ HostInSubnet a alloc.network := by
  obtain ⟨family, value⟩ := a
  have hlength : alloc.network.length + 1 < alloc.network.family.width := h
  simp only [hosts, List.mem_map, List.mem_range'_1, Network.firstHost, Network.hostsEnd, hlength,
    if_true, true_and, Address.mk.injEq, exists_eq_right_right, HostInSubnet, Network.last]
  change _ ↔ (family = alloc.network.family ∧ alloc.network.base ≤ value ∧
    value < alloc.network.base + alloc.network.size) ∧ _
  by_cases hfamily : alloc.network.family = family
  · simp only [hfamily, true_and, and_true]
    split_ifs with hv4
    · simp only [hv4, forall_const]
      omega
    · simp only [hv4, false_imp_iff, and_true]
      omega
  · simp only [hfamily, Ne.symm hfamily, and_false, false_and]

theorem length_hosts (h : alloc.network.length + 2 ≤ alloc.network.family.width) :
    alloc.hosts.length = usablePeerSlots alloc.network + 1 := by
  have hlength : alloc.network.length + 1 < alloc.network.family.width := h
  have hsize : 4 ≤ alloc.network.size :=
    Nat.pow_le_pow_right (n := 2) (by decide) (Nat.le_sub_of_add_le' h)
  rw [hosts, List.length_map, List.length_range', Network.firstHost, Network.hostsEnd,
    if_pos hlength, usablePeerSlots, Network.last]
  cases hfamily : alloc.network.family with
  | v4 =>
    rw [if_pos ⟨hfamily ▸ hlength, rfl⟩]
    dsimp only
    omega
  | v6 =>
    rw [if_neg (by simp)]
    dsimp only
    omega

theorem used_new (net : Network) (used : List Entry) (reserved : Option Address) :
    (Allocator.new net used (reserved.toList.map some)).used =
      reserved.getD (canonicalInterfaceHost net) :: used.reduceOption := by
  cases reserved with
  | none => rfl
  | some host => rfl

end Allocator

theorem hostInSubnet_canonicalInterfaceHost {net : Network}
    (h : net.length + 2 ≤ net.family.width) : HostInSubnet (canonicalInterfaceHost net) net := by
  have hsize : 4 ≤ net.size :=
    Nat.pow_le_pow_right (n := 2) (by decide) (Nat.le_sub_of_add_le' h)
  have hfirst : (canonicalInterfaceHost net).value = net.base + 1 := if_pos h
  refine ⟨⟨rfl, ?_⟩, ?_, fun _ => ?_⟩
  · omega
  · omega
  · rw [Network.last]
    omega

/-- **The allocator is exact**: every free host, each once and the least first. -/
theorem allocator_exact (net : Network) (hlength : net.length + 2 ≤ net.family.width)
    (used : List Entry) (reserved : Option Address)
    (hreserved : ∀ host ∈ reserved, HostInSubnet host net) :
    let alloc := Allocator.new net used (reserved.toList.map some)
    let reserve := reserved.getD (canonicalInterfaceHost net)
    let handed := (alloc.allocateAll net.size).1
    (alloc.allocateAll net.size).2.allocate = none ∧ handed.Nodup ∧
      (∀ a ∈ handed, HostInSubnet a net ∧ some a ∉ used ∧ a ≠ reserve) ∧
      (∀ before a after, handed = before ++ a :: after → ∀ b, HostInSubnet b net →
        some b ∉ used → b ≠ reserve → b ∉ before → a.value ≤ b.value) ∧
      handed.length + (used.reduceOption.toFinset.filter fun a =>
        HostInSubnet a net ∧ a ≠ reserve).card = usablePeerSlots net := by
  intro alloc reserve handed
  have hused : alloc.used = reserve :: used.reduceOption := Allocator.used_new ..
  have hhosts : ∀ a, a ∈ alloc.hosts ↔ HostInSubnet a net := fun _ =>
    Allocator.mem_hosts_iff hlength
  have hfree : ∀ a, a ∈ alloc.free ↔ HostInSubnet a net ∧ some a ∉ used ∧ a ≠ reserve := by
    intro a
    rw [Allocator.free, List.mem_filter, hhosts, hused]
    simp [List.reduceOption_mem_iff, and_comm]
  have hreserve : HostInSubnet reserve net := by
    cases hcase : reserved with
    | none => simpa [reserve, hcase] using hostInSubnet_canonicalInterfaceHost hlength
    | some host => simpa [reserve, hcase] using hreserved host hcase
  have hcount : alloc.hosts.length = usablePeerSlots net + 1 := Allocator.length_hosts hlength
  have hcalls : alloc.free.length ≤ net.size := by
    have hslots : usablePeerSlots net < net.size :=
      Nat.sub_lt net.size_pos (by cases net.family <;> decide)
    exact (List.length_filter_le ..).trans (hcount.trans_le hslots)
  obtain ⟨hall, hnone⟩ := alloc.allocateAll_spec net.size
  rw [List.take_of_length_le hcalls] at hall
  change handed = alloc.free at hall
  rw [hall]
  refine ⟨hnone hcalls, alloc.nodup_hosts.filter _, fun a => (hfree a).mp, ?_, ?_⟩
  · intro before a after heq b hb hb' hb'' hnew
    exact Allocator.le_of_free_eq heq ((hfree b).mpr ⟨hb, hb', hb''⟩) hnew
  · -- the hosts in use are the reserved one and those that are counted
    have htaken : (alloc.hosts.filter (· ∈ alloc.used)).toFinset =
        insert reserve (used.reduceOption.toFinset.filter fun a =>
          HostInSubnet a net ∧ a ≠ reserve) := by
      ext a
      simp only [List.mem_toFinset, List.mem_filter, Finset.mem_insert, Finset.mem_filter, hhosts,
        hused, List.mem_cons, decide_eq_true_eq]
      by_cases ha : a = reserve
      · simp [ha, hreserve]
      · simp [ha, and_comm]
    have hsplit := alloc.length_free_add_card
    rw [htaken, Finset.card_insert_of_notMem (by simp), hcount] at hsplit
    omega

theorem slash29_handed :
    let alloc := Allocator.new (.ofV4 10 0 0 0 29) [some ⟨.v4, 0x0a000002⟩, none]
      [some ⟨.v4, 0x0a000003⟩]
    (alloc.allocateAll 8).1.map (·.value) = [0x0a000001, 0x0a000004, 0x0a000005, 0x0a000006] ∧
      (alloc.allocateAll 8).1.Nodup :=
  ⟨by decide +kernel, (allocator_exact (.ofV4 10 0 0 0 29) (by decide)
    [some ⟨.v4, 0x0a000002⟩, none] (some ⟨.v4, 0x0a000003⟩) (by decide)).2.1⟩

/-- The networks that `net` may be widened to: itself, and the supernets that are not too wide and
overlap nothing that is to be avoided. -/
def Permitted (net : Network) (avoid : List Network) (minPrefix : Nat) (wide : Network) : Prop :=
  net.Within wide ∧
    (wide = net ∨ minPrefix ≤ wide.length ∧ ∀ other ∈ avoid, ¬ wide.Overlaps other)

section Widen

variable {net wide : Network} {need minPrefix fuel : Nat} {avoid : List Network}

theorem usablePeerSlots_mono (h : net.Within wide) :
    usablePeerSlots net ≤ usablePeerSlots wide := by
  rw [usablePeerSlots, usablePeerSlots, h.1]
  exact Nat.sub_le_sub_right h.size_le _

def Stops (need : Nat) (avoid : List Network) (minPrefix : Nat) (net : Network) : Prop :=
  need ≤ usablePeerSlots net ∨ net.length ≤ minPrefix ∨ ∃ other ∈ avoid, net.supernet.Overlaps other

theorem widenLoop_of_stops (h : Stops need avoid minPrefix net) :
    widenLoop need avoid minPrefix fuel net = net := by
  cases fuel with
  | zero => rfl
  | succ fuel =>
    rw [widenLoop]
    split_ifs with h₁ h₂
    · rfl
    · rfl
    · simp only [List.any_eq_true, decide_eq_true_eq] at h₂
      exact absurd h (by rwa [Stops, ← or_assoc, not_or, and_iff_right h₁])

theorem widenLoop_of_not_stops (h : ¬ Stops need avoid minPrefix net) :
    widenLoop need avoid minPrefix (fuel + 1) net =
      widenLoop need avoid minPrefix fuel net.supernet := by
  simp only [Stops, not_or] at h
  rw [widenLoop, if_neg (by tauto), if_neg (by simpa using h.2.2)]

structure Widened (need : Nat) (avoid : List Network) (minPrefix : Nat) (net wide : Network) :
    Prop where
  permitted : Permitted net avoid minPrefix wide
  stops : Stops need avoid minPrefix wide
  few : ∀ w, net.Within w → w.Within wide → w ≠ wide → usablePeerSlots w < need

theorem widened_of_stops (h : Stops need avoid minPrefix net) :
    Widened need avoid minPrefix net net where
  permitted := ⟨.refl, .inl rfl⟩
  stops := h
  few _ hw hw' hne := absurd (hw.antisymm hw').symm hne

theorem Widened.widen (h : ¬ Stops need avoid minPrefix net)
    (hwide : Widened need avoid minPrefix net.supernet wide) :
    Widened need avoid minPrefix net wide := by
  simp only [Stops, not_or, not_le, not_exists, not_and] at h
  obtain ⟨hfew, hlength, havoid⟩ := h
  have hsuper : net.supernet.length = net.length - 1 := rfl
  refine ⟨⟨Network.within_supernet.trans hwide.permitted.1, .inr ?_⟩, hwide.stops, ?_⟩
  · rcases hwide.permitted.2 with rfl | hpermitted
    · exact ⟨by omega, havoid⟩
    · exact hpermitted
  · intro w hw hw' hne
    rcases hw.length_le.eq_or_lt with heq | hlt
    · rw [hw.eq_of_length_eq heq.symm] at hfew
      exact hfew
    · exact hwide.few w (Network.within_supernet.of_length_le hw (by omega)) hw' hne

theorem widened_widenLoop : ∀ (fuel : Nat) (net : Network), net.length ≤ fuel →
    Widened need avoid minPrefix net (widenLoop need avoid minPrefix fuel net) := by
  intro fuel
  induction fuel with
  | zero => exact fun net hfuel => widened_of_stops (.inr (.inl (hfuel.trans (Nat.zero_le _))))
  | succ fuel ih =>
    intro net hfuel
    by_cases hstops : Stops need avoid minPrefix net
    · rw [widenLoop_of_stops hstops]
      exact widened_of_stops hstops
    · rw [widenLoop_of_not_stops hstops]
      exact .widen hstops (ih _ (Nat.sub_le_of_le_add hfuel))

variable (h : Widened need avoid minPrefix net wide) {w : Network}
include h

theorem Widened.enough_of_length_lt (hw : Permitted net avoid minPrefix w)
    (hlt : w.length < wide.length) : need ≤ usablePeerSlots wide := by
  have hnet := h.permitted.1.length_le
  rcases hw with ⟨hnetw, rfl | ⟨hlength, havoid⟩⟩
  · omega
  · rcases h.stops with henough | hshort | ⟨other, hother, hover⟩
    · exact henough
    · omega
    · have hsuper : wide.supernet.length = wide.length - 1 := rfl
      have hwithin : wide.supernet.Within w :=
        (h.permitted.1.trans Network.within_supernet).of_length_le hnetw (by omega)
      exact absurd (hover.mono hwithin) (havoid other hother)

theorem Widened.length_le (hw : Permitted net avoid minPrefix w)
    (henough : need ≤ usablePeerSlots w) : w.length ≤ wide.length := by
  by_contra hlt
  have hwithin := hw.1.of_length_le h.permitted.1 (not_le.mp hlt).le
  refine absurd (h.few w hw.1 hwithin ?_) henough.not_gt
  rintro rfl
  exact hlt le_rfl

theorem Widened.enough (hw : Permitted net avoid minPrefix w)
    (henough : need ≤ usablePeerSlots w) : need ≤ usablePeerSlots wide := by
  rcases (h.length_le hw henough).eq_or_lt with heq | hlt
  · exact henough.trans (usablePeerSlots_mono (hw.1.of_length_le h.permitted.1 heq.ge))
  · exact h.enough_of_length_lt hw hlt

theorem Widened.le_length (hfew : usablePeerSlots wide < need)
    (hw : Permitted net avoid minPrefix w) : wide.length ≤ w.length :=
  not_lt.mp fun hlt => hfew.not_ge (h.enough_of_length_lt hw hlt)

theorem Widened.unique (hw : Widened need avoid minPrefix net w) : w = wide := by
  have hlength : w.length = wide.length := by
    by_cases henough : need ≤ usablePeerSlots wide
    · exact le_antisymm (h.length_le hw.permitted (hw.enough h.permitted henough))
        (hw.length_le h.permitted henough)
    · have hfew : ¬ need ≤ usablePeerSlots w := fun hw' => henough (h.enough hw.permitted hw')
      exact le_antisymm (hw.le_length (not_le.mp hfew) h.permitted)
        (h.le_length (not_le.mp henough) hw.permitted)
  exact (hw.permitted.1.of_length_le h.permitted.1 hlength.ge).eq_of_length_eq hlength

end Widen

/-- **`widen_subnet` is minimal, contained and safe.** -/
theorem widen_subnet_minimal (net : Network) (need : Nat) (avoid : List Network)
    (minPrefix : Nat) :
    let wide := widenSubnet net need avoid minPrefix
    (∀ fuel, net.length ≤ fuel → widenLoop need avoid minPrefix fuel net = wide) ∧
      net.Within wide ∧ (∀ a ∈ net, a ∈ wide) ∧ min minPrefix net.length ≤ wide.length ∧
      (∀ other ∈ avoid, wide.Overlaps other → net.Overlaps other) ∧
      (need ≤ usablePeerSlots net → wide = net) ∧ Permitted net avoid minPrefix wide ∧
      (∀ w, Permitted net avoid minPrefix w → need ≤ usablePeerSlots w →
        need ≤ usablePeerSlots wide ∧ w.length ≤ wide.length) ∧
      ((∀ w, Permitted net avoid minPrefix w → usablePeerSlots w < need) →
        ∀ w, Permitted net avoid minPrefix w → wide.length ≤ w.length) := by
  intro wide
  have h : Widened need avoid minPrefix net wide := widened_widenLoop _ _ le_rfl
  refine ⟨fun fuel hfuel => h.unique (widened_widenLoop fuel net hfuel), h.permitted.1,
    fun a => h.permitted.1.mem, ?_, ?_, fun henough => widenLoop_of_stops (.inl henough),
    h.permitted, fun w hw henough => ⟨h.enough hw henough, h.length_le hw henough⟩,
    fun hnone w => h.le_length (hnone wide h.permitted)⟩
  · rcases h.permitted.2 with heq | hpermitted
    · rw [heq]
      exact min_le_right ..
    · exact (min_le_left ..).trans hpermitted.1
  · intro other hother hover
    rcases h.permitted.2 with heq | hpermitted
    · exact heq ▸ hover
    · exact absurd hover (hpermitted.2 other hother)

end Shahkar.WireGuard
