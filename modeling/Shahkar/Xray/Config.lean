import Shahkar.Db.Models
import Shahkar.Lib.Dict

/-!
The Xray configuration, and the places that turn a user of the database into an account of an
inbound (`app/xray/config.py`, `app/xray/serving.py`, `app/xray/operations.py`).
-/

namespace Shahkar.Xray

open Shahkar.Db Shahkar.Lib

abbrev Tag := String

abbrev Email := String

/-!
### Proxies and credentials
-/

inductive ProxyType
  | vmess
  | vless
  | trojan
  | shadowsocks
  | wireGuard
  | hysteria2
  | tuic
  | anyTls
  deriving Repr, DecidableEq

def ProxyType.isXrayAccount : ProxyType → Bool
  | .wireGuard | .hysteria2 | .tuic | .anyTls => false
  | _ => true

inductive XtlsFlow
  | none
  | vision
  deriving Repr, DecidableEq

inductive ShadowsocksMethod
  | aes128Gcm
  | aes256Gcm
  | chacha20Poly1305
  | blake3Aes128Gcm
  | blake3Aes256Gcm
  | blake3Chacha20Poly1305
  deriving Repr, DecidableEq

def isSs2022 : ShadowsocksMethod → Bool
  | .blake3Aes128Gcm | .blake3Aes256Gcm | .blake3Chacha20Poly1305 => true
  | _ => false

inductive ProxySettings
  | vmess (id : String)
  | vless (id : String) (flow : XtlsFlow)
  | trojan (password : String) (flow : XtlsFlow)
  | shadowsocks (password : String) (method : ShadowsocksMethod)
  | wireGuard
  | hysteria2
  | tuic
  | anyTls
  deriving Repr, DecidableEq

inductive Credentials
  | vmess (id : String)
  | vless (id : String)
  | trojan (password : String)
  | shadowsocks (password : String) (method : Option ShadowsocksMethod)
  deriving Repr, DecidableEq

namespace ProxySettings

def type : ProxySettings → ProxyType
  | vmess _ => .vmess
  | vless _ _ => .vless
  | trojan _ _ => .trojan
  | shadowsocks _ _ => .shadowsocks
  | wireGuard => .wireGuard
  | hysteria2 => .hysteria2
  | tuic => .tuic
  | anyTls => .anyTls

def credentials : ProxySettings → Option Credentials
  | vmess id => some (.vmess id)
  | vless id _ => some (.vless id)
  | trojan password _ => some (.trojan password)
  | shadowsocks password method => some (.shadowsocks password (some method))
  | _ => none

def flow : ProxySettings → Option XtlsFlow
  | vless _ flow | trojan _ flow => some flow
  | _ => none

def is2022 : ProxySettings → Bool
  | shadowsocks _ method => isSs2022 method
  | _ => false

end ProxySettings

structure Proxy where
  settings : ProxySettings
  excludedInbounds : List Tag := []
  deriving Repr, DecidableEq

structure DbUser extends User where
  id : Nat
  proxies : List Proxy
  types_nodup : (proxies.map fun p => p.settings.type).Nodup
  deriving Repr

namespace DbUser

def email (u : DbUser) : Email := toString u.id ++ "." ++ u.username

def proxySettingsMap (u : DbUser) : Dict ProxyType ProxySettings where
  entries := u.proxies.map fun p => (p.settings.type, p.settings)
  nodup := by
    rw [List.map_map]
    exact u.types_nodup

def speedLimited (u : DbUser) : Bool :=
  u.speedLimitUp.any (· ≠ 0) || u.speedLimitDown.any (· ≠ 0)

def isXrayProxyHeld (_ : DbUser) (_ : ProxyType) : Bool := false

def level (u : DbUser) : Nat := u.id % 9000 + 100

end DbUser

inductive Network
  | tcp
  | raw
  | kcp
  | ws
  | grpc
  | httpupgrade
  | xhttp
  | other (name : String)
  deriving Repr, DecidableEq

inductive Security
  | none
  | tls
  | reality
  deriving Repr, DecidableEq

structure Client where
  email : Email
  credentials : Credentials
  flow : Option XtlsFlow := none
  level : Option Nat := none
  deriving Repr, DecidableEq

structure Inbound where
  tag : Tag
  protocol : Option ProxyType
  listed : Bool := true
  network : Network := .tcp
  tls : Security := .none
  headerType : String := ""
  ssMethod : Option ShadowsocksMethod := none
  clients : List Client := []
  deriving Repr, DecidableEq

def Inbound.resolved (i : Inbound) : Bool := i.protocol.isSome && i.listed

def Inbound.is2022 (i : Inbound) : Bool := i.ssMethod.any isSs2022

structure LevelPolicy where
  statsUserUplink : Bool
  statsUserDownlink : Bool
  statsUserOnline : Bool
  deriving Repr, DecidableEq

def LevelPolicy.allStats : LevelPolicy := ⟨true, true, true⟩

structure Config where
  inbounds : List Inbound
  levels : Dict Nat LevelPolicy
  tags_nodup : (inbounds.map (·.tag)).Nodup
  forced : levels.get? 0 = some .allStats

namespace Config

def getInbound (config : Config) (tag : Tag) : Option Inbound :=
  config.inbounds.find? fun i => i.tag = tag

def inboundsByTag (config : Config) (tag : Tag) : Option Inbound :=
  config.inbounds.find? fun i => i.tag = tag ∧ i.resolved

def productInboundsForType (config : Config) (type : ProxyType) : List Inbound :=
  config.inbounds.filter fun i => i.resolved ∧ i.protocol = some type

end Config

def inboundMatchesProxy (i : Inbound) (settings : ProxySettings) : Bool :=
  settings.type ≠ .shadowsocks ∨ i.is2022 = settings.is2022

def Proxy.inboundTags (config : Config) (p : Proxy) : List Tag :=
  ((config.productInboundsForType p.settings.type).filter fun i =>
    i.tag ∉ p.excludedInbounds ∧ inboundMatchesProxy i p.settings).map (·.tag)

def DbUser.visits (config : Config) (u : DbUser) : List (ProxyType × Tag) :=
  u.proxies.flatMap fun p => (p.inboundTags config).map fun tag => (p.settings.type, tag)

inductive Raised
  | notCallable
  | tagNotFound
  | noMessage
  | noAttribute
  deriving Repr, DecidableEq

structure Account where
  email : Email
  level : Nat := 0
  credentials : Credentials
  flow : Option XtlsFlow
  deriving Repr, DecidableEq

def Account.is2022 (a : Account) : Bool :=
  match a.credentials with
  | .shadowsocks _ (some method) => isSs2022 method
  | _ => false

def newAccount (email : Email) (settings : ProxySettings) : Except Raised Account :=
  match settings.credentials with
  | some credentials => .ok { email, credentials, flow := settings.flow }
  | none => .error .notCallable

def effectiveVlessFlow (flow : Option XtlsFlow) : XtlsFlow := flow.getD .none

def dropsFlow (networks : List Network) (inbound : Option Inbound) : Bool :=
  let network := (inbound.map (·.network)).getD .tcp
  let secured := inbound.any fun i => i.tls = .tls ∨ i.tls = .reality
  network ∉ networks ∨ (network ∈ networks ∧ ¬ secured) ∨
    inbound.any fun i => i.headerType = "http"

def flowNetworks : List Network := [.tcp, .raw, .kcp]

def nodeFlowNetworks : List Network := [.tcp, .kcp]

def hotFlow (type : ProxyType) (inbound : Option Inbound) (flow : Option XtlsFlow) :
    Option XtlsFlow :=
  let flow := match type with
    | .vless => some (effectiveVlessFlow flow)
    | .trojan => some .none
    | _ => flow
  if flow.isSome ∧ dropsFlow flowNetworks inbound then some .none else flow

def accountForInbound (config : Config) (u : DbUser) (type : ProxyType) (tag : Tag) :
    Except Raised (Option Account) :=
  match u.proxySettingsMap.get? type with
  | none => .ok none
  | some settings => (newAccount u.email settings).map fun account => some
      { account with
        level := if u.speedLimited then u.level else account.level
        flow := hotFlow type (config.inboundsByTag tag) account.flow }

def nodeFlow (type : ProxyType) (inbound : Option Inbound) (flow : Option XtlsFlow) :
    Option XtlsFlow :=
  if type = .trojan then some .none
  else if flow.isSome ∧ dropsFlow nodeFlowNetworks inbound then some .none
  else flow

def nodeAccount (config : Config) (u : DbUser) (type : ProxyType) (tag : Tag) :
    Except Raised (Option Account) :=
  match u.proxySettingsMap.get? type with
  | none => .ok none
  | some settings => (newAccount u.email settings).map fun account =>
    if account.is2022 then none
    else some { account with flow := nodeFlow type (config.inboundsByTag tag) account.flow }

theorem newAccount_eq_ok {email : Email} {settings : ProxySettings} {a : Account}
    (h : newAccount email settings = .ok a) :
    ∃ credentials, settings.credentials = some credentials ∧
      a = { email, credentials, flow := settings.flow } := by
  unfold newAccount at h
  split at h
  · next credentials hcredentials => exact ⟨credentials, hcredentials, (Except.ok.inj h).symm⟩
  · cases h

theorem accountForInbound_eq_some {config : Config} {u : DbUser} {type : ProxyType} {tag : Tag}
    {a : Account} (h : accountForInbound config u type tag = .ok (some a)) :
    a.email = u.email ∧ a.level = if u.speedLimited then u.level else 0 := by
  unfold accountForInbound at h
  split at h
  · cases h
  · next settings _ =>
      cases hnew : newAccount u.email settings with
      | error e =>
        rw [hnew] at h
        cases h
      | ok account =>
        rw [hnew] at h
        obtain ⟨credentials, -, rfl⟩ := newAccount_eq_ok hnew
        cases h
        exact ⟨rfl, rfl⟩

def collect {α : Type} : List (Except Raised (Option α)) → List α × Option Raised
  | [] => ([], none)
  | .error e :: _ => ([], some e)
  | .ok none :: rest => collect rest
  | .ok (some a) :: rest => (a :: (collect rest).1, (collect rest).2)

theorem mem_collect {α : Type} {a : α} {l : List (Except Raised (Option α))}
    (h : a ∈ (collect l).1) : .ok (some a) ∈ l := by
  induction l with
  | nil => cases h
  | cons x rest ih =>
    match x with
    | .error _ => cases h
    | .ok none => exact List.mem_cons_of_mem _ (ih h)
    | .ok (some b) =>
      rcases List.mem_cons.mp h with rfl | h
      · exact List.mem_cons_self
      · exact List.mem_cons_of_mem _ (ih h)

def tagged (tag : Tag) (built : Except Raised (Option Account)) :
    Except Raised (Option (Tag × Account)) :=
  built.map (Option.map fun account => (tag, account))

theorem tagged_eq_ok_some {tag : Tag} {built : Except Raised (Option Account)}
    {e : Tag × Account} (h : tagged tag built = .ok (some e)) :
    e.1 = tag ∧ built = .ok (some e.2) := by
  match built with
  | .error _ | .ok none => cases h
  | .ok (some account) =>
    cases h
    exact ⟨rfl, rfl⟩

def pushUserToNodes (config : Config) (u : DbUser) : List (Tag × Account) × Option Raised :=
  collect ((u.visits config).map fun v => tagged v.2 (nodeAccount config u v.1 v.2))

def bootFlow (i : Inbound) (flow : Option XtlsFlow) : Option XtlsFlow :=
  let flow := match i.protocol with
    | some .trojan => none
    | some .vless => some (effectiveVlessFlow flow)
    | _ => flow
  -- an empty flow is left in place, and means the same as a missing one
  if flow = some .vision ∧ dropsFlow flowNetworks (some i) then none else flow

def bootCredentials (i : Inbound) : Credentials → Credentials
  | .shadowsocks password method => .shadowsocks password (if i.is2022 then none else method)
  | credentials => credentials

def clientFor (i : Inbound) (u : DbUser) (p : Proxy) : Option Client :=
  if i.tag ∈ p.excludedInbounds then none
  else if i.protocol = some .shadowsocks ∧ i.is2022 ≠ p.settings.is2022 then none
  else p.settings.credentials.map fun credentials =>
    { email := u.email
      credentials := bootCredentials i credentials
      flow := bootFlow i p.settings.flow
      level := if u.speedLimited then some u.level else none }

def bootClient (i : Inbound) (u : DbUser) : Option Client :=
  match i.protocol with
  | none | some .wireGuard => none
  | some type =>
    if i.listed ∧ u.status.billable ∧ ¬ u.isXrayProxyHeld type then
      (u.proxies.find? fun p => p.settings.type = type).bind (clientFor i u)
    else none

def hasLevel (u : DbUser) : Bool :=
  u.status.billable && u.speedLimited && u.proxies.any fun p => !u.isXrayProxyHeld p.settings.type

theorem get?_zero_levels (users : List DbUser) (levels : Dict Nat LevelPolicy) :
    (users.foldl (fun d u => d.set u.level .allStats) levels).get? 0 = levels.get? 0 := by
  induction users generalizing levels with
  | nil => rfl
  | cons u rest ih =>
    rw [List.foldl_cons, ih, Dict.get?_set, if_neg]
    exact fun h => absurd h (by unfold DbUser.level; omega)

def Config.includeDbUsers (config : Config) (users : List DbUser) : Config where
  inbounds := config.inbounds.map fun i =>
    { i with clients := i.clients ++ users.filterMap (bootClient i) }
  levels := (users.filter hasLevel).foldl (fun d u => d.set u.level .allStats) config.levels
  tags_nodup := by
    rw [List.map_map]
    exact config.tags_nodup
  forced := (get?_zero_levels _ _).trans config.forced

end Shahkar.Xray
