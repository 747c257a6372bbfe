import Shahkar.Node.SpeedLimit

/-!
# Shahkar.Node.PortShaping

What the `tc` commands of `apply_ports` do to a packet. The limits of a port are merged to one, whose
filter is the only one that covers a packet of that port, so the rate of a packet is read off the
merged limit and its position.
-/

namespace Shahkar.Node

open Shahkar.Lib Shahkar.Singbox

structure Packet where
  ipv4 : Bool := true
  transport : Transport
  src : String := ""
  dst : String := ""
  sport : Nat
  dport : Nat

/-- The `u32` match of a filter; all filters are for `protocol ip`. -/
def Match.covers (pkt : Packet) : Match → Bool
  | .host destination name => pkt.ipv4 && (if destination then pkt.dst else pkt.src) == name
  | .port protocol source number =>
    pkt.ipv4 && protocol.all (· = pkt.transport) &&
      (if source then pkt.sport else pkt.dport) == number

def filtersOf (dev : String) (cmds : List Tc) : List (Match × Nat) :=
  cmds.filterMap fun
    | .filterAdd d which flow => if d = dev then some (which, flow) else none
    | _ => none

def classRate (dev : String) (cmds : List Tc) (minor : Nat) : Option Int :=
  ((classesOf dev cmds).find? fun e => tcMinor e.1 = minor ∧ minor ≤ 0xffff).map Prod.snd

/-- The ceiling of the class that the first filter of the device sends the packet to. -/
def shapedRate (dev : String) (cmds : List Tc) (pkt : Packet) : Option Int :=
  ((filtersOf dev cmds).find? fun e => tcMinor e.2 ≤ 0xffff ∧ e.1.covers pkt).bind fun e =>
    classRate dev cmds (tcMinor e.2)

def downloadRate (iface : String) (cmds : List Tc) (pkt : Packet) : Option Int :=
  shapedRate iface cmds pkt

/-- Upload is redirected to the `ifb` device and shaped there. -/
def uploadRate (iface : String) (cmds : List Tc) (pkt : Packet) : Option Int :=
  if cmds.any fun
    | .redirectAdd d which _ => d = iface && which.covers pkt
    | _ => false
  then shapedRate ifbDev cmds pkt
  else none

variable {dev iface : String} {cmds : List Tc} {pkt : Packet} {limits : List PortLimit}
  {lim : PortLimit}

theorem find?_eq_some_of_unique {α : Type*} {p : α → Bool} {l : List α} {a : α} (ha : a ∈ l)
    (hp : p a = true) (huniq : ∀ b ∈ l, p b = true → b = a) : l.find? p = some a := by
  cases hfind : l.find? p with
  | none => exact absurd hp (List.find?_eq_none.mp hfind a ha)
  | some b => rw [huniq b (List.mem_of_find?_eq_some hfind) (List.find?_some hfind)]

/-!
### The commands
-/

/-- The device on which a direction is shaped. -/
def shapedOn (iface : String) (up : Bool) : String := if up then ifbDev else iface

def rateOf (up : Bool) (lim : PortLimit) : Int :=
  if up then mbpsOf lim.upMbps lim.downMbps else mbpsOf lim.downMbps lim.upMbps

theorem filtersOf_applyPorts (hiface : iface ≠ ifbDev) (up : Bool) :
    filtersOf (shapedOn iface up) (applyPorts iface limits) =
      (mergePortLimits limits).zipIdx.map fun e =>
        (.port e.1.protocol (!up) e.1.port, 10 + 2 * e.2 + up.toNat) := by
  rw [applyPorts, ← List.flatMap_singleton' (List.map _ _), List.flatMap_map]
  split
  · next hnil => simp [filtersOf, hnil]
  · cases up <;> simp [filtersOf, shapedOn, setupHtbRoot, portCommands, limitCommands, addHtbLeaf,
      hiface, hiface.symm, List.filterMap_flatMap]

theorem classesOf_applyPorts (hiface : iface ≠ ifbDev) (up : Bool) (hne : mergePortLimits limits ≠ []) :
    classesOf (shapedOn iface up) (applyPorts iface limits) =
      (rootClass, 1000) :: (defaultClass, 1000) :: (mergePortLimits limits).zipIdx.map fun e =>
        (10 + 2 * e.2 + up.toNat, max (rateOf up e.1) 1) := by
  rw [applyPorts, if_neg hne, ← List.flatMap_singleton' (List.map _ _), List.flatMap_map]
  cases up <;> simp [classesOf, shapedOn, setupHtbRoot, portCommands, limitCommands, addHtbLeaf,
    hiface, hiface.symm, List.filterMap_flatMap, rateOf]

theorem classRate_applyPorts (hiface : iface ≠ ifbDev) (up : Bool) {j : Nat}
    (h : (lim, j) ∈ (mergePortLimits limits).zipIdx) (hj : j ≤ 4994) :
    classRate (shapedOn iface up) (applyPorts iface limits) (tcMinor (10 + 2 * j + up.toNat)) =
      some (if up ∧ j = 4994 then 1000 else max (rateOf up lim) 1) := by
  have hne : mergePortLimits limits ≠ [] := by
    rintro hnil
    simp [hnil] at h
  have hle : 10 + 2 * j + up.toNat ≤ 9999 := by
    have := up.toNat_le
    omega
  have hfit := tcMinor_le_iff.mpr hle
  rw [classRate, classesOf_applyPorts hiface up hne, List.find?_cons_of_neg]
  · by_cases hlast : up = true ∧ j = 4994
    · obtain ⟨rfl, rfl⟩ := hlast
      rw [List.find?_cons_of_pos, if_pos ⟨rfl, rfl⟩]
      · rfl
      · exact decide_eq_true ⟨rfl, hfit⟩
    · have hnot : 10 + 2 * j + up.toNat ≠ defaultClass := by
        unfold defaultClass
        cases up <;> simp at hlast ⊢ <;> omega
      rw [List.find?_cons_of_neg, if_neg hlast, Option.map_eq_some_iff]
      · refine ⟨_, find?_eq_some_of_unique (List.mem_map.mpr ⟨_, h, rfl⟩)
          (decide_eq_true ⟨rfl, hfit⟩) fun e he hsame => ?_, rfl⟩
        obtain ⟨⟨lim', j'⟩, hmem, rfl⟩ := List.mem_map.mp he
        have hid := tcMinor_injective (of_decide_eq_true hsame).1
        obtain rfl : j' = j := by
          dsimp only at hid
          omega
        rw [List.mem_zipIdx_iff_getElem?] at h hmem
        obtain rfl : lim' = lim := Option.some.inj (hmem.symm.trans h)
        rfl
      · simpa using fun heq => absurd (tcMinor_injective heq).symm hnot
  · have hroot : tcMinor rootClass ≠ tcMinor (10 + 2 * j + up.toNat) := by
      intro heq
      have := tcMinor_injective heq
      unfold rootClass at this
      omega
    simp [hroot]

theorem any_redirect_applyPorts :
    ((applyPorts iface limits).any fun
      | .redirectAdd d which _ => d = iface && which.covers pkt
      | _ => false) = (mergePortLimits limits).any fun lim =>
        (Match.port lim.protocol false lim.port).covers pkt := by
  rw [applyPorts]
  split
  · next hnil => simp [hnil]
  · conv_rhs => rw [← List.zipIdx_map_fst 0 (mergePortLimits limits), List.any_map]
    simp [setupHtbRoot, portCommands, limitCommands, addHtbLeaf, List.any_flatMap,
      Function.comp_def]

/-!
### Merged limits
-/

/-- What `_merge_port_limits` makes of the limits of one port. -/
structure Merged (l : List PortLimit) (lim : PortLimit) : Prop where
  port : ∀ x ∈ l, x.port = lim.port
  protocol : ∃ x ∈ l, x.protocol = lim.protocol
  up : ∃ x ∈ l, x.upMbps = lim.upMbps
  down : ∃ x ∈ l, x.downMbps = lim.downMbps
  up_le : ∀ x ∈ l, x.upMbps ≤ lim.upMbps
  down_le : ∀ x ∈ l, x.downMbps ≤ lim.downMbps

theorem merged_mergeLimit {l : List PortLimit} {x : PortLimit} (h : Merged l lim)
    (hport : x.port = lim.port) (hsome : lim.protocol.isSome) :
    ∃ lim', mergeLimit (some lim) x = some lim' ∧ lim'.protocol.isSome ∧ lim'.port = lim.port ∧
      Merged (l ++ [x]) lim' := by
  have hold : ∀ {P : PortLimit → Prop}, (∃ x ∈ l, P x) → ∃ y ∈ l ++ [x], P y :=
    fun ⟨y, hy, hP⟩ => ⟨y, List.mem_append_left _ hy, hP⟩
  have hnew : x ∈ l ++ [x] := List.mem_append_right _ List.mem_cons_self
  have hprotocol : (lim.protocol <|> x.protocol) = lim.protocol := by
    cases hp : lim.protocol with
    | none => simp [hp] at hsome
    | some => rfl
  refine ⟨_, rfl, ?_, rfl, ⟨?_, ?_, ?_, ?_, ?_, ?_⟩⟩
  · rwa [hprotocol]
  · rintro y hy
    rcases List.mem_append.mp hy with hy | hy
    · exact h.port y hy
    · exact List.mem_singleton.mp hy ▸ hport
  · rw [hprotocol]
    exact hold h.protocol
  · rcases max_choice lim.upMbps x.upMbps with hmax | hmax <;> rw [hmax]
    exacts [hold h.up, ⟨x, hnew, rfl⟩]
  · rcases max_choice lim.downMbps x.downMbps with hmax | hmax <;> rw [hmax]
    exacts [hold h.down, ⟨x, hnew, rfl⟩]
  · rintro y hy
    rcases List.mem_append.mp hy with hy | hy
    · exact (h.up_le y hy).trans (le_max_left _ _)
    · exact List.mem_singleton.mp hy ▸ le_max_right _ _
  · rintro y hy
    rcases List.mem_append.mp hy with hy | hy
    · exact (h.down_le y hy).trans (le_max_left _ _)
    · exact List.mem_singleton.mp hy ▸ le_max_right _ _

/-- A limit that `port_limits_from_spec` gives. -/
structure PortLimit.Proper (lim : PortLimit) : Prop where
  up : 1 ≤ lim.upMbps
  down : 1 ≤ lim.downMbps
  protocol : lim.protocol.isSome

theorem merged_foldl {port : Nat} {l rest : List PortLimit} (h : Merged l lim)
    (hlim : lim.port = port) (hsome : lim.protocol.isSome) (hport : ∀ x ∈ rest, x.port = port) :
    ∃ lim', rest.foldl mergeLimit (some lim) = some lim' ∧ lim'.port = port ∧
      Merged (l ++ rest) lim' := by
  induction rest generalizing l lim with
  | nil => exact ⟨lim, rfl, hlim, by rwa [List.append_nil]⟩
  | cons x rest ih =>
    obtain ⟨hx, hrest⟩ := List.forall_mem_cons.mp hport
    obtain ⟨lim', hmerge, hsome', hport', hmerged⟩ := merged_mergeLimit h (hx.trans hlim.symm) hsome
    obtain ⟨lim'', hfold, hlim'', hall⟩ := ih hmerged (hport'.trans hlim) hsome' hrest
    exact ⟨lim'', by rw [List.foldl_cons, hmerge, hfold], hlim'', by rwa [List.append_assoc] at hall⟩

section Ports

variable (hproper : ∀ lim ∈ limits, lim.Proper)

include hproper

theorem get?_ports (port : Nat) (hport : port ∈ limits.map (·.port)) :
    ∃ lim, (Dict.groupBy (fun lim => some lim.port) none mergeLimit limits).get? port =
      some (some lim) ∧ lim.port = port ∧ Merged (limits.filter (·.port = port)) lim := by
  rw [Dict.get?_groupBy]
  have hmem : ∀ x ∈ limits.filter (·.port = port), x ∈ limits ∧ x.port = port := by
    intro x hx
    simpa using hx
  cases hfilter : limits.filter (·.port = port) with
  | nil =>
    obtain ⟨lim, hlim, heq⟩ := List.mem_map.mp hport
    exact absurd heq (by simpa using List.filter_eq_nil_iff.mp hfilter lim hlim)
  | cons x rest =>
    rw [hfilter] at hmem
    obtain ⟨⟨hx, hxport⟩, hrest⟩ := List.forall_mem_cons.mp hmem
    obtain ⟨hup, hdown, hsome⟩ := hproper x hx
    have hfirst : mergeLimit none x = some x := by
      simp [mergeLimit, max_eq_left hup, max_eq_left hdown]
    have hone : Merged [x] x := by constructor <;> simp
    obtain ⟨lim, hfold, hlim, hmerged⟩ :=
      merged_foldl hone hxport hsome fun y hy => (hrest y hy).2
    refine ⟨lim, ?_, hlim, hmerged⟩
    simp only [Option.some.injEq, hfilter]
    rw [if_neg (List.cons_ne_nil _ _), List.foldl_cons, hfirst, hfold]

theorem mem_mergePortLimits (hlim : lim ∈ mergePortLimits limits) :
    lim.port ∈ limits.map (·.port) ∧ Merged (limits.filter (·.port = lim.port)) lim := by
  obtain ⟨⟨port, value⟩, hvalue, rfl⟩ := List.mem_filterMap.mp hlim
  have hkey : port ∈ limits.map (·.port) := by
    rw [← List.mem_eraseDups, ← Dict.keys_groupBy (·.port) none mergeLimit]
    exact List.mem_map.mpr ⟨_, hvalue, rfl⟩
  obtain ⟨lim', hget, hport, hmerged⟩ := get?_ports hproper port hkey
  have hsame : some lim = some lim' :=
    Option.some.inj ((Dict.get?_eq_some_iff.mpr hvalue).symm.trans hget)
  cases hsame
  subst hport
  exact ⟨hkey, hmerged⟩

theorem ports_mergePortLimits :
    (mergePortLimits limits).map (·.port) = (limits.map (·.port)).eraseDups := by
  rw [← Dict.keys_groupBy (·.port) none mergeLimit, mergePortLimits, Dict.keys,
    List.map_filterMap, ← List.filterMap_eq_map]
  refine List.filterMap_congr fun e he => ?_
  have hkey : e.1 ∈ limits.map (·.port) := by
    rw [← List.mem_eraseDups, ← Dict.keys_groupBy (·.port) none mergeLimit]
    exact List.mem_map.mpr ⟨_, he, rfl⟩
  obtain ⟨lim, hget, hport, -⟩ := get?_ports hproper e.1 hkey
  have hvalue : e.2 = some lim :=
    Option.some.inj ((Dict.get?_eq_some_iff.mpr he).symm.trans hget)
  simp [hvalue, hport]

theorem idx_of_mem_zipIdx {j : Nat} (h : (lim, j) ∈ (mergePortLimits limits).zipIdx) :
    j = (limits.map (·.port)).eraseDups.idxOf lim.port := by
  have hports := ports_mergePortLimits hproper
  have hnodup : (limits.map (·.port)).eraseDups.Nodup := by
    rw [← Dict.keys_groupBy (·.port) none mergeLimit]
    exact Dict.nodup _
  obtain ⟨hj, hlim⟩ := List.getElem?_eq_some_iff.mp (List.mem_zipIdx_iff_getElem?.mp h)
  dsimp only at hj hlim
  have hj' : j < (limits.map (·.port)).eraseDups.length := by
    rwa [← hports, List.length_map]
  have hget : (limits.map (·.port)).eraseDups[j] = lim.port := by
    simp [← hports, hlim]
  rw [← hget, hnodup.idxOf_getElem j hj']

theorem merged_unique {lim' : PortLimit} {j j' : Nat}
    (h : (lim, j) ∈ (mergePortLimits limits).zipIdx)
    (h' : (lim', j') ∈ (mergePortLimits limits).zipIdx) (hport : lim'.port = lim.port) :
    (lim', j') = (lim, j) := by
  obtain rfl : j' = j := by
    rw [idx_of_mem_zipIdx hproper h', hport, ← idx_of_mem_zipIdx hproper h]
  obtain rfl : lim' = lim := Option.some.inj
    ((List.mem_zipIdx_iff_getElem?.mp h').symm.trans (List.mem_zipIdx_iff_getElem?.mp h))
  rfl

/-!
### The rate of a packet
-/

theorem shapedRate_applyPorts (hiface : iface ≠ ifbDev) (up : Bool) {j : Nat}
    (h : (lim, j) ∈ (mergePortLimits limits).zipIdx)
    (hcovers : (Match.port lim.protocol (!up) lim.port).covers pkt) :
    shapedRate (shapedOn iface up) (applyPorts iface limits) pkt =
      if j ≤ 4994 then some (if up ∧ j = 4994 then 1000 else max (rateOf up lim) 1) else none := by
  have huniq : ∀ e' ∈ (mergePortLimits limits).zipIdx,
      (Match.port e'.1.protocol (!up) e'.1.port).covers pkt → e' = (lim, j) := by
    rintro ⟨lim', j'⟩ h' hcovers'
    simp only [Match.covers, Bool.and_eq_true, beq_iff_eq] at hcovers hcovers'
    exact merged_unique hproper h h' (hcovers'.2.symm.trans hcovers.2)
  have hid : tcMinor (10 + 2 * j + up.toNat) ≤ 0xffff ↔ j ≤ 4994 := by
    have := up.toNat_le
    rw [tcMinor_le_iff]
    omega
  rw [shapedRate, filtersOf_applyPorts hiface]
  by_cases hj : j ≤ 4994
  · have hfound := decide_eq_true (And.intro (hid.mpr hj) hcovers)
    rw [if_pos hj, find?_eq_some_of_unique (List.mem_map.mpr ⟨_, h, rfl⟩) hfound, Option.bind_some]
    · exact classRate_applyPorts hiface up h hj
    · rintro e he hsame
      obtain ⟨e', h', rfl⟩ := List.mem_map.mp he
      rw [huniq e' h' (of_decide_eq_true hsame).2]
  · rw [if_neg hj, List.find?_eq_none.mpr, Option.bind_none]
    rintro e he hsame
    obtain ⟨e', h', rfl⟩ := List.mem_map.mp he
    obtain rfl := huniq e' h' (of_decide_eq_true hsame).2
    exact hj (hid.mp (of_decide_eq_true hsame).1)

omit hproper in
theorem shapedRate_eq_none (hiface : iface ≠ ifbDev) (up : Bool)
    (h : ∀ lim ∈ mergePortLimits limits,
      (Match.port lim.protocol (!up) lim.port).covers pkt = false) :
    shapedRate (shapedOn iface up) (applyPorts iface limits) pkt = none := by
  rw [shapedRate, filtersOf_applyPorts hiface, List.find?_eq_none.mpr, Option.bind_none]
  rintro e he
  obtain ⟨⟨lim, j⟩, hmem, rfl⟩ := List.mem_map.mp he
  simp [h lim (List.fst_mem_of_mem_zipIdx hmem)]

end Ports

theorem mem_portLimitsFromSpec {spec : NodeSpec} : lim ∈ portLimitsFromSpec spec ↔
    ∃ item ∈ spec.trafficLimits, (0 < item.upMbps ∨ 0 < item.downMbps) ∧ portLimit item = lim := by
  simp [portLimitsFromSpec, Nat.pos_iff_ne_zero, and_assoc]

theorem proper_of_mem {spec : NodeSpec} (h : lim ∈ portLimitsFromSpec spec) : lim.Proper := by
  obtain ⟨item, -, hrate, rfl⟩ := mem_portLimitsFromSpec.mp h
  refine ⟨?_, ?_, rfl⟩ <;> simp only [portLimit] <;> split <;> omega

theorem rateOf_eq (h : lim.Proper) (up : Bool) :
    rateOf up lim = if up then lim.upMbps else lim.downMbps := by
  obtain ⟨hup, hdown, -⟩ := h
  simp only [rateOf, mbpsOf]
  split <;> split <;> omega

def portOf (up : Bool) (pkt : Packet) : Nat := if up then pkt.dport else pkt.sport

theorem covers_portLimit (item : TrafficLimit) (up : Bool) :
    (Match.port (portLimit item).protocol (!up) (portLimit item).port).covers pkt ↔
      pkt.ipv4 = true ∧ pkt.transport = item.protocol ∧ portOf up pkt = item.port := by
  simp only [Match.covers, portLimit, portOf, Option.all_some, Bool.and_eq_true, and_assoc,
    decide_eq_true_eq, beq_iff_eq, @eq_comm _ item.protocol]
  cases up <;> rfl

def rateIn (iface : String) (cmds : List Tc) (up : Bool) (pkt : Packet) : Option Int :=
  if up then uploadRate iface cmds pkt else downloadRate iface cmds pkt

theorem rate_applyPorts (hiface : iface ≠ ifbDev) (up : Bool) :
    rateIn iface (applyPorts iface limits) up pkt =
      shapedRate (shapedOn iface up) (applyPorts iface limits) pkt := by
  cases up with
  | false => rfl
  | true =>
    rw [rateIn, if_pos rfl, uploadRate, any_redirect_applyPorts]
    split_ifs with hany
    · rfl
    · refine (shapedRate_eq_none hiface true fun lim hlim => ?_).symm
      exact Bool.eq_false_iff.mpr fun hcovers => hany (List.any_eq_true.mpr ⟨lim, hlim, hcovers⟩)

/-- Every entry with a positive rate is enforced on the IPv4 packets of its protocol and port, and
packets without an entry are not shaped, in each direction. -/
def Enforced (iface : String) (spec : NodeSpec) : Prop :=
  let cmds := applyPorts iface (portLimitsFromSpec spec)
  (∀ item ∈ spec.trafficLimits, 0 < item.upMbps ∨ 0 < item.downMbps →
    ∀ up pkt, pkt.ipv4 = true → pkt.transport = item.protocol → portOf up pkt = item.port →
      ∃ rate, rateIn iface cmds up pkt = some rate ∧
        rate ≤ if up then (portLimit item).upMbps else (portLimit item).downMbps) ∧
  ∀ up pkt, (∀ item ∈ spec.trafficLimits, 0 < item.upMbps ∨ 0 < item.downMbps →
      pkt.transport = item.protocol → portOf up pkt ≠ item.port) →
    rateIn iface cmds up pkt = none

/-- How many other ports have an entry listed before the first of this port. -/
def portRank (spec : NodeSpec) (port : Nat) : Nat :=
  ((portLimitsFromSpec spec).map (·.port)).eraseDups.idxOf port

/-- Entries of one port agree, and each of them is among the first 4994 ports, or the 4995th with an
upload rate from 1000 on. -/
def Enforceable (spec : NodeSpec) : Prop :=
  ∀ lim ∈ portLimitsFromSpec spec, ∀ lim' ∈ portLimitsFromSpec spec, lim.port = lim'.port →
    lim.protocol = lim'.protocol ∧ lim.downMbps = lim'.downMbps ∧
      if portRank spec lim.port < 4994 then lim.upMbps = lim'.upMbps
      else portRank spec lim.port = 4994 ∧ 1000 ≤ lim.upMbps

instance (spec : NodeSpec) : Decidable (Enforceable spec) :=
  inferInstanceAs (Decidable (∀ lim ∈ portLimitsFromSpec spec, ∀ lim' ∈ portLimitsFromSpec spec,
    lim.port = lim'.port → lim.protocol = lim'.protocol ∧ lim.downMbps = lim'.downMbps ∧
      if portRank spec lim.port < 4994 then lim.upMbps = lim'.upMbps
      else portRank spec lim.port = 4994 ∧ 1000 ≤ lim.upMbps))

section Spec

variable {spec : NodeSpec} (hiface : iface ≠ ifbDev)

/-- The merged limit of a port that has an entry, at the position of the port. -/
theorem exists_merged (h : lim ∈ portLimitsFromSpec spec) :
    ∃ m, (m, portRank spec lim.port) ∈ (mergePortLimits (portLimitsFromSpec spec)).zipIdx ∧
      m.port = lim.port ∧ Merged ((portLimitsFromSpec spec).filter (·.port = lim.port)) m := by
  have hport : lim.port ∈ (mergePortLimits (portLimitsFromSpec spec)).map (·.port) := by
    rw [ports_mergePortLimits fun _ => proper_of_mem, List.mem_eraseDups]
    exact List.mem_map.mpr ⟨lim, h, rfl⟩
  obtain ⟨m, hm, hmport⟩ := List.mem_map.mp hport
  obtain ⟨j, hj⟩ := List.getElem?_of_mem hm
  have hmem : (m, j) ∈ (mergePortLimits (portLimitsFromSpec spec)).zipIdx :=
    List.mem_zipIdx_iff_getElem?.mpr hj
  have hrank := idx_of_mem_zipIdx (fun _ => proper_of_mem) hmem
  have hmerged := (mem_mergePortLimits (fun _ => proper_of_mem) hm).2
  rw [hmport] at hrank hmerged
  subst hrank
  exact ⟨m, hmem, hmport, hmerged⟩

include hiface

/-- What a packet of the merged protocol gets. -/
theorem rateIn_of_merged {m : PortLimit} {j : Nat} (up : Bool)
    (hmem : (m, j) ∈ (mergePortLimits (portLimitsFromSpec spec)).zipIdx)
    (hcovers : (Match.port m.protocol (!up) m.port).covers pkt) :
    rateIn iface (applyPorts iface (portLimitsFromSpec spec)) up pkt =
      if j ≤ 4994 then some (if up ∧ j = 4994 then 1000 else max (rateOf up m) 1) else none := by
  rw [rate_applyPorts hiface, shapedRate_applyPorts (fun _ => proper_of_mem) hiface up hmem hcovers]

theorem unlisted_not_shaped (up : Bool) (h : ∀ item ∈ spec.trafficLimits,
    0 < item.upMbps ∨ 0 < item.downMbps → pkt.transport = item.protocol →
      portOf up pkt ≠ item.port) :
    rateIn iface (applyPorts iface (portLimitsFromSpec spec)) up pkt = none := by
  rw [rate_applyPorts hiface]
  refine shapedRate_eq_none hiface up fun m hm => Bool.eq_false_iff.mpr fun hcovers => ?_
  obtain ⟨x, hx, hprotocol⟩ := (mem_mergePortLimits (fun _ => proper_of_mem) hm).2.protocol
  obtain ⟨hmem, hport⟩ : x ∈ portLimitsFromSpec spec ∧ x.port = m.port := by simpa using hx
  obtain ⟨item, hitem, hrate, rfl⟩ := mem_portLimitsFromSpec.mp hmem
  rw [← hprotocol, ← hport] at hcovers
  obtain ⟨-, hproto, hports⟩ := (covers_portLimit _ up).mp hcovers
  exact h item hitem hrate hproto hports

/-- A packet of the entry's protocol and port, in the given direction. -/
def packetOf (up : Bool) (item : TrafficLimit) : Packet where
  transport := item.protocol
  sport := if up then 0 else item.port
  dport := if up then item.port else 0

omit hiface in
theorem covers_merged {item : TrafficLimit} {m : PortLimit} (up : Bool)
    (hport : m.port = item.port) (hprotocol : m.protocol = some item.protocol) (h4 : pkt.ipv4 = true)
    (htransport : pkt.transport = item.protocol) (hpkt : portOf up pkt = item.port) :
    (Match.port m.protocol (!up) m.port).covers pkt := by
  rw [hport, hprotocol]
  exact (covers_portLimit item up).mpr ⟨h4, htransport, hpkt⟩

/-- An entry that is enforced has the protocol of the merged limit, a class, and rates that are not
below those of the merged limit, but for the 4995th upload class. -/
theorem merged_of_enforced (h : Enforced iface spec) {item : TrafficLimit}
    (hitem : item ∈ spec.trafficLimits) (hrate : 0 < item.upMbps ∨ 0 < item.downMbps)
    {m : PortLimit} {j : Nat} (hport : m.port = item.port) (hm : m.Proper)
    (hmem : (m, j) ∈ (mergePortLimits (portLimitsFromSpec spec)).zipIdx) :
    m.protocol = some item.protocol ∧ j ≤ 4994 ∧ m.downMbps ≤ (portLimit item).downMbps ∧
      if j = 4994 then 1000 ≤ (portLimit item).upMbps
      else m.upMbps ≤ (portLimit item).upMbps := by
  have hshaped : ∀ up, ∃ rate, rateIn iface (applyPorts iface (portLimitsFromSpec spec)) up
      (packetOf up item) = some rate ∧
        rate ≤ if up then (portLimit item).upMbps else (portLimit item).downMbps :=
    fun up => h.1 item hitem hrate up _ rfl rfl (by cases up <;> rfl)
  have hprotocol : m.protocol = some item.protocol := by
    obtain ⟨rate, hsome, -⟩ := hshaped false
    by_contra hne
    -- no other filter is of this port, so the packet would go unshaped
    rw [rate_applyPorts hiface, shapedRate_eq_none hiface] at hsome
    · cases hsome
    · intro m' hm'
      refine Bool.eq_false_iff.mpr fun hcovers => hne ?_
      simp only [Match.covers, Bool.and_eq_true, beq_iff_eq] at hcovers
      obtain ⟨j', hj'⟩ := List.getElem?_of_mem hm'
      have hmem' : (m', j') ∈ (mergePortLimits (portLimitsFromSpec spec)).zipIdx :=
        List.mem_zipIdx_iff_getElem?.mpr hj'
      obtain ⟨rfl, -⟩ := Prod.mk.inj (merged_unique (fun _ => proper_of_mem) hmem hmem'
        (hcovers.2.symm.trans hport.symm))
      obtain ⟨protocol, hp⟩ := Option.isSome_iff_exists.mp hm.protocol
      rw [hp] at hcovers ⊢
      simpa [packetOf] using hcovers.1.2
  have hrates : ∀ up : Bool, j ≤ 4994 ∧ (if up ∧ j = 4994 then 1000 else rateOf up m) ≤
      if up then (portLimit item).upMbps else (portLimit item).downMbps := by
    intro up
    obtain ⟨rate, hsome, hle⟩ := hshaped up
    rw [rateIn_of_merged hiface up hmem (covers_merged up hport hprotocol rfl rfl
      (by cases up <;> rfl))] at hsome
    split_ifs at hsome with hj hlast
    · exact ⟨hj, by rw [if_pos hlast]; exact Option.some.inj hsome ▸ hle⟩
    · refine ⟨hj, ?_⟩
      rw [if_neg hlast]
      exact (le_max_left _ _).trans (Option.some.inj hsome ▸ hle)
  refine ⟨hprotocol, (hrates true).1, ?_, ?_⟩
  · simpa [rateOf_eq hm] using (hrates false).2
  · have hup := (hrates true).2
    split_ifs with hlast <;> simpa [hlast, rateOf_eq hm] using hup

omit hiface in
theorem proper_of_merged {m : PortLimit} {port : Nat}
    (h : Merged ((portLimitsFromSpec spec).filter (·.port = port)) m) : m.Proper := by
  have hproper : ∀ x ∈ (portLimitsFromSpec spec).filter (·.port = port), x.Proper :=
    fun x hx => proper_of_mem (List.mem_of_mem_filter hx)
  obtain ⟨x, hx, hup⟩ := h.up
  obtain ⟨y, hy, hdown⟩ := h.down
  obtain ⟨z, hz, hprotocol⟩ := h.protocol
  exact ⟨hup ▸ (hproper x hx).up, hdown ▸ (hproper y hy).down, hprotocol ▸ (hproper z hz).protocol⟩

theorem enforceable_of_enforced (h : Enforced iface spec) : Enforceable spec := by
  intro lim hlim lim' hlim' hsame
  obtain ⟨m, hmem, hport, hmerged⟩ := exists_merged hlim
  have hm := proper_of_merged hmerged
  have hin : lim ∈ (portLimitsFromSpec spec).filter (·.port = lim.port) := by simp [hlim]
  have hin' : lim' ∈ (portLimitsFromSpec spec).filter (·.port = lim.port) := by simp [hlim', hsame]
  obtain ⟨item, hitem, hrate, rfl⟩ := mem_portLimitsFromSpec.mp hlim
  obtain ⟨item', hitem', hrate', rfl⟩ := mem_portLimitsFromSpec.mp hlim'
  obtain ⟨hprotocol, hfew, hdown, hup⟩ := merged_of_enforced hiface h hitem hrate hport hm hmem
  obtain ⟨hprotocol', -, hdown', hup'⟩ :=
    merged_of_enforced hiface h hitem' hrate' (hport.trans hsame) hm hmem
  refine ⟨hprotocol.symm.trans hprotocol', ?_, ?_⟩
  · exact le_antisymm ((hmerged.down_le _ hin).trans hdown') ((hmerged.down_le _ hin').trans hdown)
  · split_ifs with hfirst
    · rw [if_neg hfirst.ne] at hup hup'
      exact le_antisymm ((hmerged.up_le _ hin).trans hup') ((hmerged.up_le _ hin').trans hup)
    · have hlast : portRank spec (portLimit item).port = 4994 := by omega
      rw [if_pos hlast] at hup
      exact ⟨hlast, hup⟩

theorem enforced_of_enforceable (h : Enforceable spec) : Enforced iface spec := by
  refine ⟨fun item hitem hrate up pkt h4 htransport hpkt => ?_,
    fun up pkt => unlisted_not_shaped hiface up⟩
  have hlim := mem_portLimitsFromSpec.mpr ⟨item, hitem, hrate, rfl⟩
  obtain ⟨m, hmem, hport, hmerged⟩ := exists_merged hlim
  have hagree : ∀ x ∈ (portLimitsFromSpec spec).filter (·.port = (portLimit item).port),
      x ∈ portLimitsFromSpec spec ∧ (portLimit item).port = x.port := by
    intro x hx
    simpa [eq_comm] using hx
  obtain ⟨x, hx, hprotocol⟩ := hmerged.protocol
  obtain ⟨y, hy, hdown⟩ := hmerged.down
  obtain ⟨z, hz, hup⟩ := hmerged.up
  have hsameProtocol := (h _ hlim x (hagree x hx).1 (hagree x hx).2).1
  have hsameDown := (h _ hlim y (hagree y hy).1 (hagree y hy).2).2.1
  have hsameUp := (h _ hlim z (hagree z hz).1 (hagree z hz).2).2.2
  have hfew : portRank spec (portLimit item).port ≤ 4994 := by
    split_ifs at hsameUp with hfirst
    exacts [hfirst.le, hsameUp.1.le]
  refine ⟨_, (rateIn_of_merged hiface up hmem (covers_merged up hport
    (hprotocol.symm.trans hsameProtocol.symm) h4 htransport hpkt)).trans (if_pos hfew), ?_⟩
  have hm := proper_of_merged hmerged
  rw [rateOf_eq hm]
  cases up with
  | false =>
    simp only [Bool.false_eq_true, false_and, if_false, ← hdown, ← hsameDown]
    exact max_le le_rfl (proper_of_mem hlim).down
  | true =>
    simp only [true_and, if_true]
    by_cases hfirst : portRank spec (portLimit item).port < 4994
    · rw [if_pos hfirst] at hsameUp
      rw [if_neg hfirst.ne, ← hup, ← hsameUp]
      exact max_le le_rfl (proper_of_mem hlim).up
    · rw [if_neg hfirst] at hsameUp
      rw [if_pos hsameUp.1]
      exact hsameUp.2

end Spec

/-- **Port limits are enforced** on IPv4 exactly if entries of one port agree and the class ids
suffice. -/
theorem shaping_enforced_iff (spec : NodeSpec) (iface : String) (hiface : iface ≠ ifbDev) :
    Enforced iface spec ↔ Enforceable spec :=
  ⟨enforceable_of_enforced hiface, enforced_of_enforceable hiface⟩

def sharedPort : NodeConfig where
  enabled p := p ≠ .tuic
  port _ := 10443

def udpUser : SBUser where
  userId := 1
  username := "a"
  protocol := .hysteria2
  speedLimitUp := some 5
  speedLimitDown := some 20

def tcpUser : SBUser where
  userId := 2
  username := "b"
  protocol := .anytls
  speedLimitUp := some 5
  speedLimitDown := some 1

theorem udp_user_shaped :
    ∃ rate, rateIn "eth0"
      (applyPorts "eth0" (portLimitsFromSpec (buildNodeSpec sharedPort [udpUser]))) false
      { transport := .udp, sport := 12548, dport := 50000 } = some rate ∧ rate ≤ 20 :=
  ((shaping_enforced_iff (buildNodeSpec sharedPort [udpUser]) "eth0" (by decide)).mpr
    (by decide)).1 ⟨12548, .udp, 5, 20⟩ (by decide) (by decide) false
    { transport := .udp, sport := 12548, dport := 50000 } rfl rfl rfl

theorem tcp_user_not_shaped :
    let spec := buildNodeSpec sharedPort [udpUser, tcpUser]
    ⟨12548, .tcp, 5, 1⟩ ∈ spec.trafficLimits ∧
      downloadRate "eth0" (applyPorts "eth0" (portLimitsFromSpec spec))
        { transport := .tcp, sport := 12548, dport := 50000 } = none := by
  decide +kernel

end Shahkar.Node
