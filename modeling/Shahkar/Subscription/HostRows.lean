import Shahkar.Subscription.WireGuardExports
import Mathlib.Data.List.Perm.Subperm

/-!
# Endpoints of Hosts rows

`resolve_native_host_endpoints`: the endpoints that the addresses of the Hosts rows of a native tag
give on a node, and when they do not depend on one another.
-/

namespace Shahkar.Subscription

open Shahkar.Lib.Text

def replaceFrom (old new : List Char) : Nat → List Char → List Char
  | _, [] => []
  | skip + 1, _ :: rest => replaceFrom old new skip rest
  | 0, c :: rest =>
    if old.isPrefixOf (c :: rest) then new ++ replaceFrom old new (old.length - 1) rest
    else c :: replaceFrom old new 0 rest

def replaced (old new text : String) : String :=
  String.ofList (replaceFrom old.toList new.toList 0 text.toList)

structure NativeRow where
  nodeIds : List Nat := []
  address : List String ⊕ String
  port : Option Int := none
  remark : String := ""

def nativeTemplateMarkers : List String :=
  ["__native:wireguard", "__native:amneziawg", "__native:hysteria2", "__native:tuic",
    "__native:anytls"]

def isNativeHostTag (tag : String) : Bool := stripped tag ∈ nativeTemplateMarkers

def hostVisibleOnNode (nodeIds : List Nat) (nodeId : Nat) : Bool :=
  nodeIds = [] || nodeId ∈ nodeIds

def NativeRow.addresses (row : NativeRow) : List String :=
  match row.address with
  | .inl list => list
  | .inr text =>
    ((text.toList.splitOn ',').map fun part => stripped (String.ofList part)).filter (· ≠ "")

def expandAddress (raw panelIp nodeIp : String) : String :=
  stripped (replaced "\x7bNODE_IP\x7d" nodeIp (replaced "\x7bSERVER_IP\x7d" panelIp (stripped raw)))

/-- The port that the loop reads out of an address. -/
def ownPort (r : Readers) (text : String) : Option Int :=
  if text.toList.count ':' = 1 ∧ ¬ startsWith "[" text then r.int (lastPart text) else none

def dialHost (r : Readers) (text : String) : String :=
  let host := if (ownPort r text).isSome then String.ofList (text.toList.takeWhile (· ≠ ':'))
    else text
  if endpointHost host = "" then host else endpointHost host

section Rows

variable (r : Readers) (panelIp : String) (node : WgExportNode) (defaultPort : Int)

def NativeRow.defaultedPort (row : NativeRow) : Int := (row.port.filter (· ≠ 0)).getD defaultPort

def addressEndpoint (remark : String) (port : Int) (raw : String) :
    Option (String × Int × String) :=
  let text := expandAddress raw panelIp (publicDialHost node)
  let port := (ownPort r text).getD port
  let host := dialHost r text
  if host = "" ∨ isNonRoutableHost host ∨ port ≤ 0 then none else some (host, port, remark)

def portAfter (port : Int) (raw : String) : Int :=
  (ownPort r (expandAddress raw panelIp (publicDialHost node))).getD port

/-- The loop over the addresses of a row; `port` is carried from one to the next. -/
def addressLoop (remark : String) : Int → List String → List (String × Int × String)
  | _, [] => []
  | port, raw :: rest =>
    (addressEndpoint r panelIp node remark port raw).toList ++
      addressLoop remark (portAfter r panelIp node port raw) rest

def rowHosts (row : NativeRow) : List (String × Int × String) :=
  addressLoop r panelIp node row.remark (row.defaultedPort defaultPort) row.addresses

def resolveNativeHostEndpoints (tag : String) (rows : List NativeRow) :
    List (String × Int × String) :=
  if isNativeHostTag tag then
    (rows.filter fun row => hostVisibleOnNode row.nodeIds node.id).flatMap
      (rowHosts r panelIp node defaultPort)
  else []

def NativeRow.withAddresses (row : NativeRow) (l : List String) : NativeRow :=
  { row with address := .inl l }

/-- The row with its placeholders filled in, as the exports of a node read it. -/
def NativeRow.hostRow (row : NativeRow) : HostRow where
  nodeIds := row.nodeIds
  addresses := row.addresses.map (expandAddress · panelIp (publicDialHost node))
  port := (row.port.getD 0).toNat

variable {defaultPort} in
theorem map_addressLoop (hdefault : 0 < defaultPort) (remark : String) (l : List String) :
    ∀ port : Option Int,
      (addressLoop r panelIp node remark (port.getD defaultPort) l).map (fun e => (e.1, e.2.1)) =
        (rowEndpoints r port (l.map (expandAddress · panelIp (publicDialHost node)))).map
          fun e => (e.1, e.2.getD defaultPort) := by
  induction l with
  | nil => exact fun _ => rfl
  | cons raw rest ih =>
    intro port
    rw [addressLoop, portAfter, List.map_append, List.map_cons, rowEndpoints, addressEndpoint]
    generalize expandAddress raw panelIp (publicDialHost node) = text
    have hport : (ownPort r text).getD (port.getD defaultPort) =
        ((ownPort r text).or port).getD defaultPort := by
      cases ownPort r text <;> rfl
    rw [hport, ih]
    change _ = List.map _ (if dialHost r text = "" ∨ isNonRoutableHost (dialHost r text) ∨
      ((ownPort r text).or port).any (· ≤ 0) then rowEndpoints r ((ownPort r text).or port) _
      else (dialHost r text, (ownPort r text).or port) :: rowEndpoints r ((ownPort r text).or port) _)
    generalize dialHost r text = host
    generalize (ownPort r text).or port = port'
    have hsign : port'.getD defaultPort ≤ 0 ↔ port'.any (· ≤ 0) := by
      cases port' <;> simp [hdefault]
    simp only [hsign]
    split
    · rw [Option.toList_none, List.map_nil, List.nil_append]
    · rw [Option.toList_some, List.map_cons, List.map_cons, List.map_nil, List.singleton_append]

/-- Both readings of the Hosts rows are one, for a positive default port. -/
theorem resolveNativeHostEndpoints_eq (hdefault : 0 < defaultPort) {tag : String}
    (htag : isNativeHostTag tag = true) (rows : List NativeRow)
    (hports : ∀ row ∈ rows, ∀ port ∈ row.port, 0 ≤ port) :
    (resolveNativeHostEndpoints r panelIp node defaultPort tag rows).map
        (fun e => (e.1, e.2.1)) =
      (nativeHosts r (rows.map (NativeRow.hostRow panelIp node)) node).map
        fun e => (e.1, e.2.getD defaultPort) := by
  rw [resolveNativeHostEndpoints, if_pos htag, nativeHosts, List.filter_map, List.flatMap_map,
    List.map_flatMap, List.map_flatMap]
  have hvisible : (rows.filter fun row => hostVisibleOnNode row.nodeIds node.id) =
      rows.filter ((fun row : HostRow => decide (row.nodeIds = [] ∨ node.id ∈ row.nodeIds)) ∘
        NativeRow.hostRow panelIp node) :=
    List.filter_congr fun row _ => (Bool.decide_or _ _).symm
  rw [← hvisible]
  refine List.flatMap_congr fun row hrow => ?_
  have hport : row.defaultedPort defaultPort = (if (row.hostRow panelIp node).port = 0 then none
      else some ((row.hostRow panelIp node).port : Int)).getD defaultPort := by
    have hpos := hports row (List.mem_of_mem_filter hrow)
    obtain ⟨nodeIds, address, port, remark⟩ := row
    cases port with
    | none => rfl
    | some port =>
      have := hpos port rfl
      simp only [NativeRow.defaultedPort, NativeRow.hostRow, Option.getD_some]
      by_cases hzero : port = 0
      · simp [hzero, Option.filter]
      · have hne : port.toNat ≠ 0 := by omega
        simp [hzero, hne, Int.toNat_of_nonneg this, Option.filter]
  rw [rowHosts, hport]
  exact map_addressLoop r panelIp node hdefault ..

/-!
### An address alone
-/

/-- The port of an address that is written `host:port` or `[host]:port`; `front` is what stands
before the last colon, from its end. -/
def writtenPort (text : String) : Option Int :=
  match text.toList.reverse.dropWhile (· ≠ ':') with
  | _ :: front =>
    if (if startsWith "[" text then front.head? = some ']' else ':' ∉ front) then
      r.int (lastPart text)
    else none
  | [] => none

/-- The host of an address, without its port and without brackets. -/
def writtenHost (text : String) : String :=
  let bare := if startsWith "[" text ∨ writtenPort r text = none then text
    else String.ofList (text.toList.takeWhile (· ≠ ':'))
  if endpointHost bare = "" then bare else endpointHost bare

/-- An address gives an endpoint, whatever its port is. -/
def Dials (text : String) : Prop :=
  writtenHost r text ≠ "" ∧ ¬ isNonRoutableHost (writtenHost r text)

instance (text : String) : Decidable (Dials r text) := inferInstanceAs (Decidable (_ ∧ _))

/-- The endpoint of an address at a port. -/
def endpointAt (text : String) (port : Int) (remark : String) : Option (String × Int × String) :=
  if Dials r text ∧ 0 < port then some (writtenHost r text, port, remark) else none

variable (row : NativeRow)

/-- The port an address is to have: its own, or the row's, or the default. -/
def portAlone (raw : String) : Int :=
  (writtenPort r (expandAddress raw panelIp (publicDialHost node))).getD
    (row.defaultedPort defaultPort)

/-- The endpoint that an address of a row gives alone. -/
def endpointAlone (raw : String) : Option (String × Int × String) :=
  endpointAt r (expandAddress raw panelIp (publicDialHost node))
    (portAlone r panelIp node defaultPort row raw) row.remark

/-- The port of an address that is written `host:port` without brackets. -/
def carriedPort (raw : String) : Option Int :=
  let text := expandAddress raw panelIp (publicDialHost node)
  if startsWith "[" text then none else writtenPort r text

/-- Wherever an address that gives an endpoint carries no port, the port of the row and the ports
carried by other addresses are the one it is to have (or no more positive than that). -/
def PortsAgree : Prop :=
  ∀ raw ∈ row.addresses, carriedPort r panelIp node raw = none →
    Dials r (expandAddress raw panelIp (publicDialHost node)) →
    ∀ port ∈ row.defaultedPort defaultPort :: row.addresses.filterMap (carriedPort r panelIp node),
      port = portAlone r panelIp node defaultPort row raw ∨
        port ≤ 0 ∧ portAlone r panelIp node defaultPort row raw ≤ 0

instance : Decidable (PortsAgree r panelIp node defaultPort row) :=
  inferInstanceAs (Decidable (∀ _ ∈ _, _))

variable {r panelIp node defaultPort row} {text raw : String} {port : Int}

theorem count_eq_count_dropWhile (c : Char) (l : List Char) :
    l.count c = (l.dropWhile (· ≠ c)).count c := by
  conv_lhs => rw [← List.takeWhile_append_dropWhile (p := (· ≠ c)) (l := l)]
  rw [List.count_append, List.count_eq_zero.mpr, Nat.zero_add]
  intro hmem
  simpa using List.mem_takeWhile_imp hmem

theorem ownPort_eq : ownPort r text = if startsWith "[" text then none else writtenPort r text := by
  rw [ownPort, writtenPort, ← List.count_reverse, count_eq_count_dropWhile]
  by_cases hbracket : startsWith "[" text
  · simp [hbracket]
  · have hhead := List.head?_dropWhile_not (· ≠ ':') text.toList.reverse
    cases hdrop : text.toList.reverse.dropWhile (· ≠ ':') with
    | nil => simp [hbracket]
    | cons c front =>
      rw [hdrop] at hhead
      obtain rfl : c = ':' := by simpa using hhead
      simp [hbracket, List.count_eq_zero]

theorem dialHost_eq : dialHost r text = writtenHost r text := by
  rw [dialHost, writtenHost, ownPort_eq]
  by_cases hbracket : startsWith "[" text <;> cases writtenPort r text <;> simp [hbracket]

theorem addressEndpoint_eq {remark : String} : addressEndpoint r panelIp node remark port raw =
    endpointAt r (expandAddress raw panelIp (publicDialHost node))
      ((carriedPort r panelIp node raw).getD port) remark := by
  have hown : ownPort r (expandAddress raw panelIp (publicDialHost node)) =
    carriedPort r panelIp node raw := ownPort_eq
  rw [addressEndpoint, hown, dialHost_eq, endpointAt, ← ite_not]
  refine if_congr ?_ rfl rfl
  rw [Dials, not_or, not_or, not_le, and_assoc]

theorem portAfter_eq :
    portAfter r panelIp node port raw = (carriedPort r panelIp node raw).getD port :=
  congrArg (Option.getD · port) ownPort_eq

theorem endpointAlone_of_carried {own : Int} (hown : carriedPort r panelIp node raw = some own) :
    endpointAlone r panelIp node defaultPort row raw =
      endpointAt r (expandAddress raw panelIp (publicDialHost node)) own row.remark := by
  rw [carriedPort] at hown
  split at hown
  · cases hown
  · rw [endpointAlone, portAlone, hown, Option.getD_some]

theorem endpointAt_eq_iff {port' : Int} {remark : String} :
    endpointAt r text port remark = endpointAt r text port' remark ↔
      (Dials r text → port = port' ∨ port ≤ 0 ∧ port' ≤ 0) := by
  unfold endpointAt
  by_cases hdials : Dials r text
  · by_cases hport : 0 < port <;> by_cases hport' : 0 < port' <;> simp [hdials, hport, hport'] <;>
      omega
  · simp [hdials]

theorem addressLoop_eq (hagree : PortsAgree r panelIp node defaultPort row) {l : List String}
    (hl : l ⊆ row.addresses)
    (hport : port ∈ row.defaultedPort defaultPort ::
      row.addresses.filterMap (carriedPort r panelIp node)) :
    addressLoop r panelIp node row.remark port l =
      l.filterMap (endpointAlone r panelIp node defaultPort row) := by
  -- the port that is carried is always one of the row
  induction l generalizing port with
  | nil => rfl
  | cons raw rest ih =>
    obtain ⟨hraw, hrest⟩ := List.cons_subset.mp hl
    have hhead : addressEndpoint r panelIp node row.remark port raw =
        endpointAlone r panelIp node defaultPort row raw := by
      rw [addressEndpoint_eq]
      cases hown : carriedPort r panelIp node raw with
      | none => exact endpointAt_eq_iff.mpr fun hdials => hagree raw hraw hown hdials port hport
      | some own => exact (endpointAlone_of_carried hown).symm
    have hnext : portAfter r panelIp node port raw ∈ row.defaultedPort defaultPort ::
        row.addresses.filterMap (carriedPort r panelIp node) := by
      rw [portAfter_eq]
      cases hown : carriedPort r panelIp node raw with
      | none => exact hport
      | some own => exact List.mem_cons_of_mem _ (List.mem_filterMap.mpr ⟨raw, hraw, hown⟩)
    rw [addressLoop, hhead, ih hrest hnext]
    cases hone : endpointAlone r panelIp node defaultPort row raw <;> simp [hone]

theorem filterMap_eq_flatMap_toList {α β : Type} (f : α → Option β) (l : List α) :
    l.filterMap f = l.flatMap fun a => (f a).toList := by
  induction l with
  | nil => rfl
  | cons a l ih => cases h : f a <;> simp [h, ih]

theorem portsAgree_of_rearranged (h : ∀ l, l.Subperm row.addresses →
      rowHosts r panelIp node defaultPort (row.withAddresses l) =
        l.filterMap (endpointAlone r panelIp node defaultPort row)) :
    PortsAgree r panelIp node defaultPort row := by
  replace h (l : List String) (hl : l.Subperm row.addresses) :
      addressLoop r panelIp node row.remark (row.defaultedPort defaultPort) l =
        l.flatMap fun raw => (endpointAlone r panelIp node defaultPort row raw).toList :=
    (h l hl).trans (filterMap_eq_flatMap_toList _ _)
  intro raw hraw hnone hdials port hport
  suffices heq : addressEndpoint r panelIp node row.remark port raw =
      endpointAlone r panelIp node defaultPort row raw by
    rw [addressEndpoint_eq, hnone, Option.getD_none] at heq
    exact endpointAt_eq_iff.mp heq hdials
  suffices heq : (addressEndpoint r panelIp node row.remark port raw).toList =
      (endpointAlone r panelIp node defaultPort row raw).toList by
    simpa using congrArg List.head? heq
  rcases List.mem_cons.mp hport with rfl | hport
  · -- the address alone
    have hone := h [raw] (List.singleton_subperm_iff.mpr hraw)
    rwa [addressLoop, addressLoop, List.flatMap_cons, List.flatMap_nil, List.append_nil,
      List.append_nil] at hone
  · -- the address after the one that carries the port
    obtain ⟨other, hother, hcarried⟩ := List.mem_filterMap.mp hport
    have hne : other ≠ raw := by
      rintro rfl
      simp [hnone] at hcarried
    have hpair := h [other, raw] (List.Nodup.subperm (by simp [hne]) (by simp [hother, hraw]))
    have hfirst : addressEndpoint r panelIp node row.remark (row.defaultedPort defaultPort) other =
        endpointAlone r panelIp node defaultPort row other := by
      rw [addressEndpoint_eq, hcarried, endpointAlone_of_carried hcarried, Option.getD_some]
    have hafter : portAfter r panelIp node (row.defaultedPort defaultPort) other = port := by
      rw [portAfter_eq, hcarried, Option.getD_some]
    rw [addressLoop, addressLoop, addressLoop, hfirst, hafter, List.flatMap_cons,
      List.flatMap_cons, List.flatMap_nil, List.append_nil, List.append_nil] at hpair
    exact List.append_cancel_left hpair

end Rows

/-- **The addresses of a row do not influence each other** if and only if the ports of the row and
those its addresses carry agree wherever an address carries none. -/
theorem addresses_apart_iff (r : Readers) (panelIp : String) (node : WgExportNode)
    (defaultPort : Int) (tag : String) (htag : isNativeHostTag tag = true) (rows : List NativeRow) :
    (resolveNativeHostEndpoints r panelIp node defaultPort tag rows =
        (rows.filter fun row => hostVisibleOnNode row.nodeIds node.id).flatMap (fun row =>
          row.addresses.filterMap (endpointAlone r panelIp node defaultPort row)) ∧
      ∀ row ∈ rows, hostVisibleOnNode row.nodeIds node.id = true →
        ∀ l, l.Subperm row.addresses →
          resolveNativeHostEndpoints r panelIp node defaultPort tag [row.withAddresses l] =
            l.filterMap (endpointAlone r panelIp node defaultPort row)) ↔
    ∀ row ∈ rows, hostVisibleOnNode row.nodeIds node.id = true →
      PortsAgree r panelIp node defaultPort row := by
  have hsingle (row : NativeRow) (l : List String)
      (hvisible : hostVisibleOnNode row.nodeIds node.id = true) :
      resolveNativeHostEndpoints r panelIp node defaultPort tag [row.withAddresses l] =
        rowHosts r panelIp node defaultPort (row.withAddresses l) := by
    simp [resolveNativeHostEndpoints, htag, NativeRow.withAddresses, hvisible]
  constructor
  · intro h row hrow hvisible
    exact portsAgree_of_rearranged fun l hl =>
      (hsingle row l hvisible).symm.trans (h.2 row hrow hvisible l hl)
  · intro h
    refine ⟨?_, fun row hrow hvisible l hl => ?_⟩
    · rw [resolveNativeHostEndpoints, if_pos htag]
      refine List.flatMap_congr fun row hrow => ?_
      obtain ⟨hrow, hvisible⟩ := List.mem_filter.mp hrow
      exact addressLoop_eq (h row hrow hvisible) (List.Subset.refl _) List.mem_cons_self
    · rw [hsingle row l hvisible]
      exact addressLoop_eq (h row hrow hvisible) hl.subset List.mem_cons_self

def portReaders : Readers := ⟨fun _ => none, fun text => if text = "8443" then some 8443 else none⟩

def twoAddresses (second : String) : NativeRow where
  address := .inl ["a.example:8443", second]
  remark := "eu"

/-- An address without a port that is not dialled is not harmed. -/
theorem loopback_apart :
    resolveNativeHostEndpoints portReaders "203.0.113.1" relayB 443 "__native:tuic"
      [twoAddresses "127.0.0.1"] = [("a.example", 8443, "eu")] := by
  have h := ((addresses_apart_iff portReaders "203.0.113.1" relayB 443 "__native:tuic" (by decide)
    [twoAddresses "127.0.0.1"]).mpr (by decide +kernel)).1
  exact h.trans (by decide +kernel)

/-- **The port of an address leaks to the next.** -/
theorem port_leaks :
    resolveNativeHostEndpoints portReaders "203.0.113.1" relayB 443 "__native:tuic"
        [twoAddresses "b.example"] ≠ (twoAddresses "b.example").addresses.filterMap
          (endpointAlone portReaders "203.0.113.1" relayB 443 (twoAddresses "b.example")) := by
  decide +kernel

end Shahkar.Subscription
