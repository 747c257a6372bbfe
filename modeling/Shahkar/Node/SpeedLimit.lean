import Shahkar.Singbox.Sync
import Mathlib.Data.Nat.Digits.Lemmas

/-!
# Speed limits of peers and ports (`node/speed_limit.py`)

They are commands that are given to `tc`. A class id is a counter in decimal digits, which `tc`
reads as a hexadecimal number, and the counter runs into the default class.
-/

namespace Shahkar.Node

open Shahkar.Lib Shahkar.Singbox

structure PeerLimit where
  address : String
  upMbps : Int
  downMbps : Int

structure PortLimit where
  port : Nat
  upMbps : Int
  downMbps : Int
  protocol : Option Transport := none
  deriving DecidableEq

inductive Match
  | host (destination : Bool) (host : String)
  | port (protocol : Option Transport) (source : Bool) (port : Nat)
  deriving DecidableEq

inductive Tc
  | classAdd (dev : String) (id : Nat) (ceil : Int)
  | filterAdd (dev : String) (which : Match) (flow : Nat)
  | redirectAdd (dev : String) (which : Match) (target : String)
  deriving DecidableEq

def ifbDev : String := "ifb0"

def rootClass : Nat := 1

def defaultClass : Nat := 9999

def mbpsOf (a b : Int) : Int := max (if a ≠ 0 then a else if b ≠ 0 then b else 1) 1

def setupHtbRoot (dev : String) : List Tc :=
  [.classAdd dev rootClass 1000, .classAdd dev defaultClass 1000]

def addHtbLeaf (dev : String) (id : Nat) (mbps : Int) : Tc := .classAdd dev id (max mbps 1)

/-!
### Peers
-/

def hostOf (address : String) : String := String.ofList (address.toList.takeWhile (· ≠ '/'))

def peerCommands (dev : String) : Nat → List PeerLimit → List Tc
  | _, [] => []
  | id, lim :: rest =>
    let host := hostOf lim.address
    let up := mbpsOf lim.upMbps lim.downMbps
    let down := mbpsOf lim.downMbps lim.upMbps
    if up = down then
      [addHtbLeaf dev id down, .filterAdd dev (.host true host) id,
        .filterAdd dev (.host false host) id] ++ peerCommands dev (id + 1) rest
    else
      [addHtbLeaf dev id down, addHtbLeaf dev (id + 1) up, .filterAdd dev (.host true host) id,
        .filterAdd dev (.host false host) (id + 1)] ++ peerCommands dev (id + 2) rest

def applyWireguard (dev : String) (limits : List PeerLimit) : List Tc :=
  if limits = [] then [] else setupHtbRoot dev ++ peerCommands dev 10 limits

/-!
### Ports
-/

def portLimit (item : TrafficLimit) : PortLimit where
  port := item.port
  upMbps := if item.upMbps ≠ 0 then item.upMbps else item.downMbps
  downMbps := if item.downMbps ≠ 0 then item.downMbps else item.upMbps
  protocol := some item.protocol

def portLimitsFromSpec (spec : NodeSpec) : List PortLimit :=
  (spec.trafficLimits.filter fun item => item.upMbps ≠ 0 ∨ item.downMbps ≠ 0).map portLimit

def mergeLimit : Option PortLimit → PortLimit → Option PortLimit
  | none, lim => some { lim with upMbps := max lim.upMbps 1, downMbps := max lim.downMbps 1 }
  | some cur, lim => some
    { cur with
      upMbps := max cur.upMbps lim.upMbps
      downMbps := max cur.downMbps lim.downMbps
      protocol := cur.protocol <|> lim.protocol }

def mergePortLimits (limits : List PortLimit) : List PortLimit :=
  (Dict.groupBy (fun lim => some lim.port) none mergeLimit limits).entries.filterMap Prod.snd

def limitCommands (iface : String) (lim : PortLimit) (id : Nat) : List Tc :=
  [addHtbLeaf iface id (mbpsOf lim.downMbps lim.upMbps),
    .filterAdd iface (.port lim.protocol true lim.port) id,
    addHtbLeaf ifbDev (id + 1) (mbpsOf lim.upMbps lim.downMbps),
    .redirectAdd iface (.port lim.protocol false lim.port) ifbDev,
    .filterAdd ifbDev (.port lim.protocol false lim.port) (id + 1)]

def portCommands (iface : String) (merged : List PortLimit) : List Tc :=
  merged.zipIdx.flatMap fun e => limitCommands iface e.1 (10 + 2 * e.2)

def applyPorts (iface : String) (limits : List PortLimit) : List Tc :=
  let merged := mergePortLimits limits
  if merged = [] then []
  else setupHtbRoot iface ++ setupHtbRoot ifbDev ++ portCommands iface merged

def tcMinor (id : Nat) : Nat := Nat.ofDigits 16 (Nat.digits 10 id)

def classesOf (dev : String) (cmds : List Tc) : List (Nat × Int) :=
  cmds.filterMap fun
    | .classAdd d id ceil => if d = dev then some (id, ceil) else none
    | _ => none

def classIds (dev : String) (cmds : List Tc) : List Nat := (classesOf dev cmds).map Prod.fst

/-- Every class on the device is one that `tc` can number, and no two have the same number. -/
def ClassesApart (dev : String) (cmds : List Tc) : Prop :=
  ((classIds dev cmds).map tcMinor).Nodup ∧
    ∀ id ∈ classIds dev cmds, 1 ≤ tcMinor id ∧ tcMinor id ≤ 0xffff

def peerClasses (limits : List PeerLimit) : Nat :=
  (limits.map fun lim =>
    if mbpsOf lim.upMbps lim.downMbps = mbpsOf lim.downMbps lim.upMbps then 1 else 2).sum

section ClassIds

variable {dev iface : String} {cmds : List Tc} {ids : List Nat}

theorem digits_tcMinor (id : Nat) : Nat.digits 16 (tcMinor id) = Nat.digits 10 id := by
  refine Nat.digits_ofDigits 16 (by decide) _ (fun d hd => ?_) fun hne => ?_
  · exact (Nat.digits_lt_base (by decide) hd).trans (by decide)
  · exact Nat.getLast_digit_ne_zero 10 (Nat.digits_ne_nil_iff_ne_zero.mp hne)

theorem tcMinor_injective : Function.Injective tcMinor := by
  intro m n h
  rw [← Nat.digits_inj_iff (b := 10), ← digits_tcMinor, ← digits_tcMinor, h]

theorem tcMinor_le_iff {id : Nat} : tcMinor id ≤ 0xffff ↔ id ≤ 9999 := by
  have hhex := Nat.digits_length_le_iff (b := 16) (k := 4) (by decide) (tcMinor id)
  have hdec := Nat.digits_length_le_iff (b := 10) (k := 4) (by decide) id
  rw [digits_tcMinor, hdec] at hhex
  omega

theorem one_le_tcMinor_iff {id : Nat} : 1 ≤ tcMinor id ↔ 1 ≤ id := by
  have hzero : tcMinor id = 0 ↔ id = 0 := tcMinor_injective.eq_iff' (by simp [tcMinor])
  omega

theorem classesApart_iff (h : classIds dev cmds = rootClass :: defaultClass :: ids)
    (hids : ids.Nodup) (hbig : ∀ id ∈ ids, 10 ≤ id) :
    ClassesApart dev cmds ↔ ∀ id ∈ ids, id < defaultClass := by
  rw [ClassesApart, h, List.nodup_map_iff tcMinor_injective]
  simp only [tcMinor_le_iff, one_le_tcMinor_iff, rootClass, defaultClass, List.nodup_cons,
    List.mem_cons, forall_eq_or_imp]
  constructor
  · rintro ⟨⟨-, hdefault, -⟩, -, -, hle⟩ id hid
    exact lt_of_le_of_ne (hle id hid).2 fun heq => hdefault (heq ▸ hid)
  · intro hlt
    refine ⟨⟨?_, fun hmem => (hlt _ hmem).false, hids⟩, by decide, by decide, fun id hid => ?_⟩
    · rintro (heq | hmem)
      · cases heq
      · exact absurd (hbig 1 hmem) (by decide)
    · have := hbig id hid
      have := hlt id hid
      omega

theorem classIds_append (l : List Tc) :
    classIds dev (l ++ cmds) = classIds dev l ++ classIds dev cmds := by
  rw [classIds, classesOf, List.filterMap_append, List.map_append]
  rfl

theorem classIds_peerCommands (id : Nat) (limits : List PeerLimit) :
    classIds dev (peerCommands dev id limits) = List.range' id (peerClasses limits) := by
  induction limits generalizing id with
  | nil => rfl
  | cons lim rest ih =>
    rw [peerCommands, peerClasses, List.map_cons, List.sum_cons, ← peerClasses]
    split
    · rw [classIds_append, ih, ← List.range'_append_1]
      simp [classIds, classesOf, addHtbLeaf]
    · rw [classIds_append, ih, ← List.range'_append_1]
      simp [classIds, classesOf, addHtbLeaf, List.range'_succ]

theorem classIds_portCommands (hiface : iface ≠ ifbDev) (merged : List PortLimit) :
    classIds iface (portCommands iface merged) = (List.range merged.length).map (10 + 2 * ·) ∧
      classIds ifbDev (portCommands iface merged) =
        (List.range merged.length).map (11 + 2 * ·) := by
  rw [List.range_eq_range', ← List.zipIdx_map_snd 0 merged, List.map_map, List.map_map, portCommands,
    classIds, classIds, classesOf, classesOf, List.filterMap_flatMap, List.filterMap_flatMap,
    List.map_flatMap, List.map_flatMap]
  constructor
  · rw [← List.flatMap_singleton' (List.map _ _), List.flatMap_map]
    refine List.flatMap_congr fun e _ => ?_
    simp [limitCommands, addHtbLeaf, hiface.symm]
  · rw [← List.flatMap_singleton' (List.map _ _), List.flatMap_map]
    refine List.flatMap_congr fun e _ => ?_
    simp [limitCommands, addHtbLeaf, hiface]
    omega

theorem classIds_setup (hne : iface ≠ dev) :
    classIds dev (setupHtbRoot dev) = [rootClass, defaultClass] ∧
      classIds dev (setupHtbRoot iface) = [] := by
  simp [classIds, classesOf, setupHtbRoot, hne]

theorem classIds_applyPorts (hiface : iface ≠ ifbDev) {limits : List PortLimit}
    (hne : mergePortLimits limits ≠ []) :
    classIds iface (applyPorts iface limits) = rootClass :: defaultClass ::
        (List.range (mergePortLimits limits).length).map (10 + 2 * ·) ∧
      classIds ifbDev (applyPorts iface limits) = rootClass :: defaultClass ::
        (List.range (mergePortLimits limits).length).map (11 + 2 * ·) := by
  obtain ⟨hdown, hup⟩ := classIds_portCommands hiface (mergePortLimits limits)
  obtain ⟨hroot, hother⟩ := classIds_setup hiface.symm
  obtain ⟨hroot', hother'⟩ := classIds_setup hiface
  rw [applyPorts, if_neg hne, classIds_append, classIds_append, classIds_append, classIds_append,
    hdown, hup, hroot, hother, hroot', hother']
  exact ⟨rfl, rfl⟩

theorem forall_counter_lt_iff {k n : Nat} (hk : k ≠ 0) (hn : n ≠ 0) :
    (∀ id ∈ (List.range k).map (n + 2 * ·), id < defaultClass) ↔
      n + 2 * (k - 1) < defaultClass := by
  simp only [List.mem_map, List.mem_range, forall_exists_index, and_imp, forall_apply_eq_imp_iff₂]
  constructor
  · exact fun h => h (k - 1) (by omega)
  · intro h i hi
    omega

theorem classesApart_applyPorts_iff (hiface : iface ≠ ifbDev) (limits : List PortLimit) :
    (ClassesApart iface (applyPorts iface limits) ∧ ClassesApart ifbDev (applyPorts iface limits)) ↔
      (mergePortLimits limits).length ≤ 4994 := by
  by_cases hne : mergePortLimits limits = []
  · simp [applyPorts, hne, ClassesApart, classIds, classesOf]
  · obtain ⟨hdown, hup⟩ := classIds_applyPorts hiface hne
    have hlength := mt List.length_eq_zero_iff.mp hne
    have hnodup : ∀ n, ((List.range (mergePortLimits limits).length).map (n + 2 * ·)).Nodup :=
      fun n => List.nodup_range.map fun i j h => by simpa using h
    rw [classesApart_iff hdown (hnodup 10) (by simp), classesApart_iff hup (hnodup 11) (by simp; omega),
      forall_counter_lt_iff hlength (by decide), forall_counter_lt_iff hlength (by decide),
      defaultClass]
    omega

theorem classesApart_applyWireguard_iff (limits : List PeerLimit) :
    ClassesApart dev (applyWireguard dev limits) ↔ peerClasses limits ≤ 9989 := by
  rw [applyWireguard]
  split
  · next hnil => simp [hnil, ClassesApart, classIds, classesOf, peerClasses]
  · have hids : classIds dev (setupHtbRoot dev ++ peerCommands dev 10 limits) =
        rootClass :: defaultClass :: List.range' 10 (peerClasses limits) := by
      rw [classIds_append, classIds_peerCommands]
      simp [classIds, classesOf, setupHtbRoot]
    rw [classesApart_iff hids List.nodup_range' (by simp [List.mem_range'_1]; omega)]
    simp only [List.mem_range'_1, defaultClass]
    constructor
    · intro h
      by_contra hmany
      exact absurd (h 9999 (by omega)) (by decide)
    · intro h id hid
      omega

/-- **Every limit has a class of its own** below the default class. -/
theorem classes_apart_iff (dev iface : String) (hiface : iface ≠ ifbDev) (peers : List PeerLimit)
    (ports : List PortLimit) :
    (ClassesApart dev (applyWireguard dev peers) ↔ peerClasses peers ≤ 9989) ∧
      ((ClassesApart iface (applyPorts iface ports) ∧ ClassesApart ifbDev (applyPorts iface ports)) ↔
        (mergePortLimits ports).length ≤ 4994) :=
  ⟨classesApart_applyWireguard_iff peers, classesApart_applyPorts_iff hiface ports⟩

def twoPeers : List PeerLimit := [⟨"10.8.0.2/32", 5, 20⟩, ⟨"10.8.0.3/32", 10, 10⟩]

def twoPorts : List PortLimit := [⟨8443, 5, 20, some .udp⟩, ⟨8444, 50, 50, none⟩]

theorem two_peers_two_ports_apart : ClassesApart "wg0" (applyWireguard "wg0" twoPeers) ∧
    ClassesApart "eth0" (applyPorts "eth0" twoPorts) ∧
      ClassesApart ifbDev (applyPorts "eth0" twoPorts) := by
  obtain ⟨hpeers, hports⟩ := classes_apart_iff "wg0" "eth0" (by decide) twoPeers twoPorts
  exact ⟨hpeers.mpr (by decide), hports.mpr (by decide)⟩

/-- **A peer in the default class.** -/
theorem peer_9990_not_apart :
    ¬ ClassesApart "wg0" (applyWireguard "wg0" (List.replicate 9990 ⟨"10.8.0.2/32", 5, 5⟩)) := by
  rw [classesApart_applyWireguard_iff, peerClasses, List.map_replicate, List.sum_replicate]
  decide

end ClassIds

end Shahkar.Node
