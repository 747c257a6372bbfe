import Shahkar.Lib.FirstMatch
import Shahkar.Lib.Grouping
import Shahkar.Migration.MergeInbound
import Shahkar.Portal.Plans
import Shahkar.Xray.Config

/-!
# The import of a 3x-ui panel

`_apply_panel_migration` merges the inbounds of the source into the core's configuration, keeps the
other panels' users off them, collects the clients under their usernames, and creates or updates one
account for each; one that is refused is left out.
-/

namespace Shahkar.Migration

open Shahkar.Lib Shahkar.Lib.Text Shahkar.Xray

/-!
### Settings of a proxy
-/

structure Settings where
  credential : String
  flow : String := ""
  method : String := ""
deriving DecidableEq, Repr

def proxyTypeOf (name : String) : Option ProxyType :=
  [("vmess", .vmess), ("vless", .vless), ("trojan", .trojan), ("shadowsocks", .shadowsocks),
    ("wireguard", .wireGuard), ("hysteria2", .hysteria2), ("tuic", .tuic),
    ("anytls", .anyTls)].lookup name

def PanelInbound.clientProtocol (inbound : PanelInbound) : Option ProxyType :=
  (proxyTypeOf (String.ofList ((orElse inbound.protocol "vless").toList.map Char.toLower))).filter
    fun type => type ∈ [.vless, .vmess, .trojan, .shadowsocks]

def Client.settings (client : Client) (type : ProxyType) : Settings :=
  let uuid := orElse (orElse client.id client.password) client.uuid
  let flow := stripped client.flow
  match type with
  | .vless | .trojan => { credential := uuid, flow := flow }
  | .shadowsocks =>
    { credential := orElse client.password uuid,
      method := orElse client.method "chacha20-ietf-poly1305" }
  | _ => { credential := uuid }

def flows : List String := ["", "xtls-rprx-vision"]

def ss2022Methods : List String :=
  ["2022-blake3-aes-128-gcm", "2022-blake3-aes-256-gcm", "2022-blake3-chacha20-poly1305"]

def ssMethods : List String :=
  ["aes-128-gcm", "aes-256-gcm", "chacha20-ietf-poly1305"] ++ ss2022Methods

def isSs2022Name (method : String) : Bool := ss2022Methods.contains method

structure Formats where
  uuid : String → Option String
  validKey : String → String → Bool
  mintKey : String → String → String
  mint_valid : ∀ method password, validKey method (mintKey method password) = true

def validate (f : Formats) (type : ProxyType) (settings : Settings) : Option Settings :=
  if settings.credential = "" then none
  else
    match type with
    | .vmess => (f.uuid settings.credential).map fun id => { credential := id }
    | .vless =>
      if settings.flow ∈ flows then
        (f.uuid settings.credential).map fun id => { credential := id, flow := settings.flow }
      else none
    | .trojan =>
      if settings.flow ∈ flows then
        some { credential := settings.credential, flow := settings.flow }
      else none
    | .shadowsocks =>
      if settings.method ∈ ssMethods then
        -- A password that is no key for the cipher is replaced by a new key.
        let key := settings.credential
        some { credential :=
                 if isSs2022Name settings.method ∧ ¬ f.validKey settings.method key then
                   f.mintKey settings.method key
                 else key
               method := settings.method }
      else none
    | _ => none

/-- The digest, the formats, the tags that are hidden from users, and whether the core accepts a
configuration. -/
structure Environment where
  sha1 : Digest
  formats : Formats
  hidden : List String
  accepts : List CoreInbound → Bool

def plainEnvironment : Environment where
  sha1 := plainDigest
  formats :=
    { uuid := some
      validKey := fun _ _ => true
      mintKey := fun _ password => password
      mint_valid := fun _ _ => rfl }
  hidden := []
  accepts := fun _ => true

section Core

variable (env : Environment) (core : List CoreInbound)

def CoreInbound.product (row : CoreInbound) : Option ProxyType :=
  if row.tag ∈ env.hidden then none
  else (proxyTypeOf row.protocol).filter fun type => type ≠ .wireGuard

def inboundByTag (tag : String) : Option CoreInbound :=
  core.find? fun row => row.tag = tag ∧ (row.product env).isSome

def productTags (type : ProxyType) : List String :=
  (core.filter fun row => row.product env = some type).map CoreInbound.tag

def ssMethodOf (tag : String) : String :=
  ((inboundByTag env core tag).map CoreInbound.method).getD ""

def alignShadowsocks (tags : List String) (settings : Settings) : Settings :=
  let method := stripped ((tags.head?.map (ssMethodOf env core)).getD "")
  if method = "" ∨ isSs2022Name method = isSs2022Name settings.method then settings
  else { settings with method := method }

def tagsFit (type : ProxyType) (tags : List String) (settings : Settings) : Bool :=
  tags.all fun tag => (inboundByTag env core tag).any fun row =>
    type != .shadowsocks || isSs2022Name row.method == isSs2022Name settings.method

def excludedTags (type : ProxyType) (tags : List String) : List String :=
  (productTags env core type).filter fun tag => tag ∉ tags

end Core

structure ProxyRow where
  settings : Settings
  excluded : List String
deriving DecidableEq, Repr

abbrev Account := Dict ProxyType ProxyRow

structure Group where
  proxies : Dict ProxyType Settings
  inbounds : Dict ProxyType (List String)
  email : String

def Group.empty : Group := { proxies := Dict.empty, inbounds := Dict.empty, email := "" }

def addTag (tags : List String) (tag : String) : List String :=
  if tag ∈ tags then tags else tags ++ [tag]

abbrev Member := PanelInbound × Client

def Group.add (slug : String) (g : Group) (m : Member) : Group where
  proxies := g.proxies.defaultStep (fun m => m.1.clientProtocol)
    (fun m => m.2.settings (m.1.clientProtocol.getD .vless)) m
  inbounds := g.inbounds.groupStep (fun m => m.1.clientProtocol) []
    (fun tags m => addTag tags (attachedTag slug m.1)) m
  email := orElse g.email (stripped m.2.email)

def Client.label (client : Client) : String := stripped (orElse client.email client.id)

def Client.username (sha1 : Digest) (slug : String) (client : Client) : String :=
  migrationUsername sha1 slug client.label client

def groupKey (sha1 : Digest) (slug : String) (m : Member) : Option String :=
  if m.2.label = "" then none else some (m.2.username sha1 slug)

/-- The clients `_clients_from_inbound` finds when the accounts are imported: the merge before has
taken them out of settings that are an object. -/
def clientsFromInbound (inbound : PanelInbound) : List Client :=
  if inbound.place = .object then [] else inbound.clients

def members (inbounds : List PanelInbound) : List Member :=
  inbounds.flatMap fun inbound => (clientsFromInbound inbound).map fun client => (inbound, client)

def groupClients (sha1 : Digest) (slug : String) (inbounds : List PanelInbound) :
    Dict String Group :=
  Dict.groupBy (groupKey sha1 slug) Group.empty (Group.add slug) (members inbounds)

def legacyNote (g : Group) : String := if g.email = "" then "" else "3x-ui: " ++ g.email

section Accounts

variable (env : Environment) (core : List CoreInbound)

def createRow (g : Group) (type : ProxyType) (raw : Settings) : Option ProxyRow :=
  let tags := (g.inbounds.get? type).getD []
  (validate env.formats type raw).bind fun settings =>
    let settings :=
      if type = .shadowsocks then alignShadowsocks env core tags settings else settings
    if tagsFit env core type tags settings then
      some { settings := settings, excluded := excludedTags env core type tags }
    else none

def createAccount (username : String) (g : Group) : Option Account :=
  if Portal.usernameFormatOk username ∧ (legacyNote g).length ≤ 500 ∧ g.proxies.entries ≠ [] then
    g.proxies.mapOption (createRow env core g)
  else none

def alignPatch (tags : List String) (patch : Settings) : Option Settings :=
  if stripped ((tags.head?.map (ssMethodOf env core)).getD "") = "" then some patch
  else (validate env.formats .shadowsocks patch).map fun settings =>
    let aligned := alignShadowsocks env core tags settings
    if aligned.method = settings.method then patch else aligned

def updateRow (u : Account) (g : Group) (type : ProxyType) (patch : Settings) : Option ProxyRow :=
  let tags := (g.inbounds.get? type).getD []
  (if type = .shadowsocks then alignPatch env core tags patch else some patch).bind fun patch =>
    if tagsFit env core type tags patch then
      let old := (u.get? type).map ProxyRow.settings
      let flow := orElse patch.flow ((old.map Settings.flow).getD "")
      (validate env.formats type { patch with flow := flow }).map fun settings =>
        { settings := settings, excluded := excludedTags env core type tags }
    else none

def updateAccount (u : Account) (g : Group) : Option Account :=
  if g.proxies.entries = [] then some u else g.proxies.mapOption (updateRow env core u g)

def foldCase (username : String) : List Char := username.toList.map Char.toLower

def importOutcome (users : Dict String Account) (entry : String × Group) : Option Account :=
  match users.get? entry.1 with
  | some u => updateAccount env core u entry.2
  | none =>
    if users.keys.any fun name => foldCase name == foldCase entry.1 then none
    else createAccount env core entry.1 entry.2

def importGroup (users : Dict String Account) (entry : String × Group) : Dict String Account :=
  match importOutcome env core users entry with
  | some account => users.set entry.1 account
  | none => users

end Accounts

def ownPrefix (slug : String) : String :=
  let front := strippedOf '-' (tagSafeSub '-' (stripped slug))
  if front = "" then "" else front ++ "_"

def tagMap (slug : String) (inbounds : List PanelInbound) : Dict String String :=
  inbounds.foldl (fun tags inbound =>
    let newTag := slugifyTag slug inbound.sourceTag
    let tags := tags.set (orElse inbound.tag inbound.remark) newTag
    if inbound.id = "" then tags else tags.set inbound.id newTag) Dict.empty

def newTags (slug : String) (inbounds : List PanelInbound) : List String :=
  dedupe ((tagMap slug inbounds).entries.map Prod.snd)

def fenceRow (env : Environment) (core : List CoreInbound) (tags : List String)
    (type : ProxyType) (row : ProxyRow) : ProxyRow :=
  { row with
    excluded := row.excluded ++ tags.filter fun tag =>
      ((inboundByTag env core tag).bind fun inbound => inbound.product env) = some type ∧
        tag ∉ row.excluded }

def fenceAccount (env : Environment) (core : List CoreInbound) (slug : String) (tags : List String)
    (username : String) (u : Account) : Account :=
  if ownPrefix slug ≠ "" ∧ startsWith (ownPrefix slug) username then u
  else u.filterMapWithKey fun type row => some (fenceRow env core tags type row)

/-- The configuration of the core and the accounts. -/
structure Panel where
  core : List CoreInbound
  users : Dict String Account

def coreAfter (env : Environment) (panel : Panel) (merged : List CoreInbound) :
    List CoreInbound :=
  if env.accepts merged then merged else panel.core

def applyPanelMigration (env : Environment) (slug : String)
    (steps : List (List Nat × PanelInbound)) (panel : Panel) : Option Panel :=
  (mergeAll slug steps panel.core).map fun merged =>
    let inbounds := steps.map Prod.snd
    let core := coreAfter env panel merged
    let users := panel.users.filterMapWithKey fun username u =>
      some (fenceAccount env core slug (newTags slug inbounds) username u)
    { core := core
      users := (groupClients env.sha1 slug inbounds).entries.foldl (importGroup env core) users }

end Shahkar.Migration
