import Shahkar.Lib.Network
import Shahkar.Lib.Text

/-!
# The plain WireGuard exports of a node

The `.conf` and the link of `app/subscription/wireguard.py`, and the outbound that `unified.py`
gives to the apps. A text `host:port` is read at its last colon, so it is the pair here.
-/

namespace Shahkar.Subscription

open Shahkar.Lib Shahkar.Lib.Text

structure Readers where
  ip : String → Option (Family × String)
  int : String → Option Int

structure HostRow where
  nodeIds : List Nat := []
  addresses : List String
  port : Nat := 0

structure TunnelIndex where
  delegatePort : Nat → Option Nat := fun _ => none
  panelExitRelays : List Nat := []
  canonicalPubkey : String := ""
  relayPubkey : Nat → String := fun _ => ""
  suspended : Nat → Bool := fun _ => false

structure WgExportNode where
  id : Nat
  address : String
  provisionHost : String := ""
  publicKey : String
  listenPort : Nat := 51820
  endpoint : String := ""
  awgEndpoint : String := ""
  plainEnabled : Bool := true
  xrayNative : Bool := false

structure WgSettings where
  privateKey : String
  address : String

structure WgEndpoint where
  host : String
  port : Int
  deriving DecidableEq

structure WgConf where
  privateKey : String
  address : String
  serverPublicKey : String
  endpoint : WgEndpoint

structure WgLink where
  privateKey : String
  address : String
  serverPublicKey : String
  endpoint : WgEndpoint

structure WgOutbound where
  serverPublicKey : String
  host : String
  port : Int
  localAddr : String

/-!
### Hosts
-/

def isBracket (c : Char) : Bool := c == '[' || c == ']'

def stripBrackets (host : String) : String := String.ofList (strip isBracket host.toList)

def endpointHost (raw : String) : String :=
  let text := stripped raw
  let inner := (text.toList.drop 1).takeWhile (· ≠ ']')
  if startsWith "[" text ∧ ']' ∈ text.toList ∧ inner ≠ [] then stripped (String.ofList inner)
  else if text.toList.count ':' = 1 then
    stripped (String.ofList (text.toList.takeWhile (· ≠ ':')))
  else text

def isNonRoutableHost (host : String) : Bool :=
  let h := stripBrackets (stripped host).toLower
  h ∈ ["", "0.0.0.0", "::", "::1", "127.0.0.1", "localhost"] || startsWith "127." h

def publicDialHost (node : WgExportNode) : String :=
  let candidates := [endpointHost node.endpoint, endpointHost node.awgEndpoint,
    stripped node.provisionHost, stripped node.address].filter (· ≠ "")
  ((candidates.find? (!isNonRoutableHost ·)).or candidates.head?).getD ""

def lastPart (text : String) : String :=
  String.ofList (text.toList.reverse.takeWhile (· ≠ ':')).reverse

def joinHostPort (r : Readers) (host : String) (port : Int) : WgEndpoint :=
  let host := stripBrackets host
  ⟨if (r.ip host).any (·.1 = .v6) then "[" ++ host ++ "]" else host, port⟩

def normalizeClientAddress (r : Readers) (address : String) : String :=
  let raw := stripped address
  if raw = "" ∨ '/' ∈ raw.toList then raw
  else
    match r.ip (stripBrackets raw) with
    | some (.v4, ip) => ip ++ "/32"
    | some (.v6, ip) => ip ++ "/128"
    | none => raw

section Exports

variable (r : Readers) (rows : List HostRow) (index : TunnelIndex) (node : WgExportNode)

def rowEndpoints : Option Int → List String → List (String × Option Int)
  | _, [] => []
  | port, text :: rest =>
    let own := if text.toList.count ':' = 1 ∧ ¬ startsWith "[" text then r.int (lastPart text)
      else none
    let bare := if own.isSome then String.ofList (text.toList.takeWhile (· ≠ ':')) else text
    let host := if endpointHost bare = "" then bare else endpointHost bare
    let port := own.or port
    if host = "" ∨ isNonRoutableHost host ∨ port.any (· ≤ 0) then rowEndpoints port rest
    else (host, port) :: rowEndpoints port rest

def nativeHosts : List (String × Option Int) :=
  (rows.filter fun row => row.nodeIds = [] ∨ node.id ∈ row.nodeIds).flatMap fun row =>
    rowEndpoints r (if row.port = 0 then none else some row.port) row.addresses

def tunnelPort : Option Nat := (index.delegatePort node.id).filter (· ≠ 0)

def defaultPort : Nat := if node.listenPort = 0 then 51820 else node.listenPort

def nodeEndpoint : WgEndpoint :=
  match nativeHosts r rows node with
  | (host, port) :: _ => joinHostPort r host (port.getD (defaultPort node))
  | [] =>
    let explicit := endpointHost node.endpoint
    let routable := node.endpoint ≠ "" ∧ explicit ≠ "" ∧ ¬ isNonRoutableHost explicit
    let host := if routable then explicit else publicDialHost node
    let port : Int :=
      if routable then (r.int (lastPart node.endpoint)).getD node.listenPort else node.listenPort
    let port := ((tunnelPort index node).map Int.ofNat).getD port
    if host ≠ "" ∧ port ≠ 0 then joinHostPort r host port else ⟨host, port⟩

def nodeHostEndpoints : List WgEndpoint :=
  let port := (tunnelPort index node).getD (defaultPort node)
  match nativeHosts r rows node with
  | [] => [nodeEndpoint r rows index node]
  | native => native.map fun e => joinHostPort r e.1 (e.2.getD port)

def relayWireguardServerPublicKey : String :=
  if node.id ∈ index.panelExitRelays ∧ index.canonicalPubkey ≠ "" then index.canonicalPubkey
  else index.relayPubkey node.id

def delegatesToTunnel : Bool :=
  !index.suspended node.id && (index.delegatePort node.id).isSome

def serverPublicKey : Option String :=
  let delegated := relayWireguardServerPublicKey index node
  if ¬ node.plainEnabled then none
  else if delegatesToTunnel index node ∧ delegated ≠ "" then some delegated
  else if node.publicKey = "" then none
  else some node.publicKey

variable (user : WgSettings)

def userConfig : Option WgConf :=
  if user.privateKey = "" ∨ user.address = "" then none
  else (serverPublicKey index node).map fun key =>
    { privateKey := stripped user.privateKey
      address := normalizeClientAddress r user.address
      serverPublicKey := key
      endpoint := nodeEndpoint r rows index node }

def userShareLink : Option WgLink :=
  let endpoint := nodeEndpoint r rows index node
  if (userConfig r rows index node user).isNone then none
  else (serverPublicKey index node).map fun key =>
    { privateKey := user.privateKey
      address := user.address
      serverPublicKey := key
      endpoint := joinHostPort r endpoint.host endpoint.port }

def hostClean (host : String) : String :=
  if startsWith "[" host ∧ endsWith "]" host then String.ofList (host.toList.drop 1).dropLast
  else host

def plainOutbounds (relayReady preferXrayNative : Bool) : List WgOutbound :=
  if delegatesToTunnel index node ∧ ¬ relayReady then []
  else if preferXrayNative ∧ node.xrayNative ∧ user.privateKey ≠ "" then []
  else if (userConfig r rows index node user).isNone then []
  else (nodeHostEndpoints r rows index node).map fun e =>
    { serverPublicKey := node.publicKey
      host := hostClean e.host
      port := e.port
      localAddr := user.address }

end Exports

/-- The exports name the same server: key, host up to brackets, port, and address of the client. -/
structure SameServer (conf : WgConf) (link : WgLink) (outbound : WgOutbound) : Prop where
  link_key : link.serverPublicKey = conf.serverPublicKey
  outbound_key : outbound.serverPublicKey = conf.serverPublicKey
  link_host : stripBrackets link.endpoint.host = stripBrackets conf.endpoint.host
  outbound_host : stripBrackets outbound.host = stripBrackets conf.endpoint.host
  link_port : link.endpoint.port = conf.endpoint.port
  outbound_port : outbound.port = conf.endpoint.port
  link_address : link.address = conf.address
  outbound_address : outbound.localAddr = conf.address

/-- What the exports differ in. -/
structure Agreeing (r : Readers) (rows : List HostRow) (index : TunnelIndex) (node : WgExportNode)
    (user : WgSettings) : Prop where
  key : delegatesToTunnel index node → relayWireguardServerPublicKey index node ≠ "" →
    relayWireguardServerPublicKey index node = node.publicKey
  port : ∀ host, (nativeHosts r rows node).head? = some (host, none) →
    ∀ port, tunnelPort index node = some port → port = defaultPort node
  address : normalizeClientAddress r user.address = user.address

section Agreement

variable {r : Readers} {rows : List HostRow} {index : TunnelIndex} {node : WgExportNode}
  {user : WgSettings} {relayReady preferXrayNative : Bool}

theorem strip_cons_concat {p : Char → Bool} {a b : Char} (ha : p a) (hb : p b) (l : List Char) :
    strip p (a :: (l ++ [b])) = strip p l := by
  rw [strip, strip, List.dropWhile_cons_of_pos ha, List.dropWhile_append]
  split
  · next hnil =>
      rw [List.isEmpty_iff.mp hnil, List.dropWhile_cons_of_pos hb]
      rfl
  · rw [List.rdropWhile_concat_pos _ _ _ hb]

theorem stripBrackets_joinHostPort (host : String) (port : Int) :
    stripBrackets (joinHostPort r host port).host = stripBrackets host := by
  rw [joinHostPort]
  split
  · have hbrackets := strip_cons_concat (p := isBracket) (a := '[') (b := ']') rfl rfl
      (stripBrackets host).toList
    simp_all [stripBrackets]
  · simp [stripBrackets]

theorem stripBrackets_hostClean (host : String) :
    stripBrackets (hostClean host) = stripBrackets host := by
  rw [hostClean]
  split
  · next h =>
      obtain ⟨rest, hrest⟩ := List.isPrefixOf_iff_prefix.mp h.1
      obtain ⟨front, hfront⟩ := List.isSuffixOf_iff_suffix.mp h.2
      change '[' :: rest = host.toList at hrest
      change front ++ [']'] = host.toList at hfront
      cases front with
      | nil => cases hfront.trans hrest.symm
      | cons c l =>
        obtain ⟨rfl, rfl⟩ := List.cons.inj (hfront.trans hrest.symm)
        have hbrackets := strip_cons_concat (p := isBracket) (a := '[') (b := ']') rfl rfl l
        simp [stripBrackets, ← hfront, hbrackets]
  · rfl

theorem exists_of_produced {conf : WgConf} {link : WgLink}
    (hconf : userConfig r rows index node user = some conf)
    (hlink : userShareLink r rows index node user = some link) :
    ∃ key, serverPublicKey index node = some key ∧
      conf = ⟨stripped user.privateKey, normalizeClientAddress r user.address, key,
        nodeEndpoint r rows index node⟩ ∧
      link = ⟨user.privateKey, user.address, key, joinHostPort r
        (nodeEndpoint r rows index node).host (nodeEndpoint r rows index node).port⟩ := by
  rw [userShareLink, hconf] at hlink
  obtain ⟨key, hkey, hlink⟩ := Option.map_eq_some_iff.mp hlink
  rw [userConfig, hkey] at hconf
  split at hconf
  · cases hconf
  · exact ⟨key, hkey, (Option.some.inj hconf).symm, hlink.symm⟩

theorem serverPublicKey_eq {key : String} (h : serverPublicKey index node = some key) :
    key = node.publicKey ↔ (delegatesToTunnel index node →
      relayWireguardServerPublicKey index node ≠ "" →
        relayWireguardServerPublicKey index node = node.publicKey) := by
  rw [serverPublicKey] at h
  split at h
  · cases h
  · split at h
    · next hdelegated =>
        obtain rfl := Option.some.inj h
        exact ⟨fun heq _ _ => heq, fun heq => heq hdelegated.1 hdelegated.2⟩
    · next hown =>
        split at h
        · cases h
        · obtain rfl := Option.some.inj h
          exact ⟨fun _ hd hne => absurd ⟨hd, hne⟩ hown, fun _ => rfl⟩

theorem nodeHostEndpoints_head {e : WgEndpoint} (h : (nodeHostEndpoints r rows index node).head? =
    some e) : e.host = (nodeEndpoint r rows index node).host ∧
      (e.port = (nodeEndpoint r rows index node).port ↔
        ∀ host, (nativeHosts r rows node).head? = some (host, none) →
          ∀ port, tunnelPort index node = some port → port = defaultPort node) := by
  rw [nodeHostEndpoints] at h
  cases hnative : nativeHosts r rows node with
  | nil =>
    simp only [hnative, List.head?_cons, Option.some.injEq] at h
    simp [← h]
  | cons first rest =>
    obtain ⟨host, port⟩ := first
    simp only [hnative, List.map_cons, List.head?_cons, Option.some.injEq] at h
    rw [nodeEndpoint, hnative, ← h]
    refine ⟨rfl, ?_⟩
    cases port with
    | some port => simp [joinHostPort]
    | none => cases htunnel : tunnelPort index node <;> simp [joinHostPort]

end Agreement

/-- **All exports name the same server** exactly where they take key, port and address alike. -/
theorem same_server_iff (r : Readers) (rows : List HostRow) (index : TunnelIndex)
    (node : WgExportNode) (user : WgSettings) (relayReady preferXrayNative : Bool)
    (conf : WgConf) (hconf : userConfig r rows index node user = some conf)
    (link : WgLink) (hlink : userShareLink r rows index node user = some link)
    (outbound : WgOutbound)
    (houtbound : (plainOutbounds r rows index node user relayReady preferXrayNative).head? =
      some outbound) :
    SameServer conf link outbound ↔ Agreeing r rows index node user := by
  obtain ⟨key, hkey, rfl, rfl⟩ := exists_of_produced hconf hlink
  obtain ⟨e, he, rfl⟩ : ∃ e, (nodeHostEndpoints r rows index node).head? = some e ∧
      outbound = ⟨node.publicKey, hostClean e.host, e.port, user.address⟩ := by
    rw [plainOutbounds] at houtbound
    split at houtbound
    · cases houtbound
    split at houtbound
    · cases houtbound
    split at houtbound
    · cases houtbound
    rw [List.head?_map, Option.map_eq_some_iff] at houtbound
    obtain ⟨e, he, rfl⟩ := houtbound
    exact ⟨e, he, rfl⟩
  obtain ⟨hhost, hport⟩ := nodeHostEndpoints_head he
  have hagree := serverPublicKey_eq hkey
  constructor
  · intro h
    have hkey' := h.outbound_key
    have hport' := h.outbound_port
    have haddress := h.link_address
    exact ⟨hagree.mp hkey'.symm, hport.mp hport', haddress.symm⟩
  · intro h
    refine ⟨rfl, ?_, ?_, ?_, rfl, ?_, ?_, ?_⟩ <;> dsimp only
    · exact (hagree.mpr h.key).symm
    · exact stripBrackets_joinHostPort _ _
    · rw [stripBrackets_hostClean, hhost]
    · exact hport.mpr h.port
    · exact h.address.symm
    · exact h.address.symm

def wordReaders : Readers := ⟨fun _ => none, fun _ => none⟩

def relayB : WgExportNode := { id := 2, address := "relay-b", publicKey := "key-b" }

def relayUser : WgSettings := ⟨"private", "10.10.0.2/32"⟩

def twoRelays : TunnelIndex where
  delegatePort _ := some 51820
  panelExitRelays := [1, 2]
  canonicalPubkey := "key-a"

/-- **The exports of the second relay name two servers.** -/
theorem second_relay_names_two_servers : ∃ conf link outbound,
    userConfig wordReaders [] twoRelays relayB relayUser = some conf ∧
    userShareLink wordReaders [] twoRelays relayB relayUser = some link ∧
    (plainOutbounds wordReaders [] twoRelays relayB relayUser true false).head? = some outbound ∧
    ¬ SameServer conf link outbound :=
  ⟨_, _, _, rfl, rfl, rfl, fun h => absurd h.outbound_key (by decide)⟩

def relayA : WgExportNode := { id := 1, address := "relay-a", publicKey := "key-a" }

def edgeRow : HostRow := { nodeIds := [1], addresses := ["edge"] }

/-- The relay whose key is the canonical one, behind a tunnel and a Hosts row without a port. -/
theorem first_relay_names_one_server : ∃ conf link outbound,
    userConfig wordReaders [edgeRow] twoRelays relayA relayUser = some conf ∧
    userShareLink wordReaders [edgeRow] twoRelays relayA relayUser = some link ∧
    (plainOutbounds wordReaders [edgeRow] twoRelays relayA relayUser true false).head? =
      some outbound ∧
    SameServer conf link outbound := by
  have hconf := (Option.some_get (show (userConfig wordReaders [edgeRow] twoRelays relayA
    relayUser).isSome by decide +kernel)).symm
  have hlink := (Option.some_get (show (userShareLink wordReaders [edgeRow] twoRelays relayA
    relayUser).isSome by decide +kernel)).symm
  have houtbound := (Option.some_get (show (plainOutbounds wordReaders [edgeRow] twoRelays relayA
    relayUser true false).head?.isSome by decide +kernel)).symm
  refine ⟨_, _, _, hconf, hlink, houtbound, (same_server_iff wordReaders [edgeRow] twoRelays
    relayA relayUser true false _ hconf _ hlink _ houtbound).mpr ⟨?_, ?_, ?_⟩⟩
  · exact fun _ _ => by decide
  · rintro _ - port hport
    exact (Option.some.inj hport).symm
  · decide +kernel

end Shahkar.Subscription
