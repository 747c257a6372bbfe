import Shahkar.Xray.Serving

/-!
# The three account builders agree

But `_push_user_to_nodes` never sets a level and takes the flow away on the network `raw`, and it
and `iter_user_hot_accounts` stop at an inbound without an account model.
-/

namespace Shahkar.Xray

open Shahkar.Db Shahkar.Lib

/-!
### What a loop produces for one inbound
-/

def accountOf : Except Raised (Option Account) → Option Account
  | .ok account? => account?
  | .error _ => none

def passes : Except Raised (Option Account) → Bool
  | .ok _ => true
  | .error _ => false

theorem lookup_collect (f : ProxyType × Tag → Except Raised (Option Account))
    {visits : List (ProxyType × Tag)} (type : ProxyType) {tag : Tag}
    (huniq : ∀ v ∈ visits, v.2 = tag → v.1 = type) :
    (collect (visits.map fun v => tagged v.2 (f v))).1.lookup tag =
      if (type, tag) ∈ visits ∧
          ∀ v ∈ visits.takeWhile (fun v => v ≠ (type, tag)), passes (f v) then
        accountOf (f (type, tag))
      else none := by
  induction visits with
  | nil => simp [collect]
  | cons v rest ih =>
    have hrest := ih fun v' hv' => huniq v' (List.mem_cons_of_mem _ hv')
    rw [List.map_cons]
    by_cases hv : v = (type, tag)
    · subst hv
      rw [List.takeWhile_cons_of_neg (by simp), if_pos ⟨List.mem_cons_self, by simp⟩]
      match hf : f (type, tag) with
      | .error e => rfl
      | .ok none =>
        -- a later visit of the same pair gives nothing either
        show (collect (rest.map fun v => tagged v.2 (f v))).1.lookup tag = none
        rw [hrest, hf]
        exact ite_self _
      | .ok (some account) =>
        show List.lookup tag ((tag, account) :: _) = some account
        rw [List.lookup_cons_self]
    · have htag : v.2 ≠ tag := fun h => hv (Prod.ext (huniq v List.mem_cons_self h) h)
      rw [List.takeWhile_cons_of_pos (by simpa using hv)]
      have hmem : (type, tag) ∈ v :: rest ↔ (type, tag) ∈ rest := by
        rw [List.mem_cons]
        exact or_iff_right fun h => hv h.symm
      match hf : f v with
      | .error e =>
        rw [if_neg]
        · rfl
        · intro h
          have hpass := h.2 v List.mem_cons_self
          rw [hf] at hpass
          cases hpass
      | .ok account? =>
        have hskip : (collect (tagged v.2 (.ok account?) ::
            rest.map fun v => tagged v.2 (f v))).1.lookup tag =
            (collect (rest.map fun v => tagged v.2 (f v))).1.lookup tag := by
          cases account? with
          | none => rfl
          | some account =>
            show List.lookup tag ((v.2, account) :: _) = _
            rw [List.lookup_cons, beq_eq_false_iff_ne.mpr (Ne.symm htag)]
        have hpass : passes (f v) := by
          rw [hf]
          rfl
        rw [hskip, hrest]
        refine if_congr ?_ rfl rfl
        rw [hmem, List.forall_mem_cons]
        exact and_congr_right fun _ => (and_iff_right hpass).symm

theorem lookup_filter {l : List (Tag × Account)} {q : Tag × Account → Bool} {tag : Tag}
    (h : ∀ account, l.lookup tag = some account → q (tag, account)) :
    (l.filter q).lookup tag = l.lookup tag := by
  induction l with
  | nil => rfl
  | cons e rest ih =>
    by_cases he : tag = e.1
    · subst he
      have hkeep : q e := h e.2 (List.lookup_cons_self ..)
      rw [List.filter_cons_of_pos hkeep]
      exact (List.lookup_cons_self ..).trans (List.lookup_cons_self ..).symm
    · have hskip : ∀ l : List (Tag × Account), List.lookup tag (e :: l) = List.lookup tag l := by
        intro l
        rw [List.lookup_cons, beq_eq_false_iff_ne.mpr he]
      rw [hskip] at h ⊢
      cases hq : q e with
      | true => rw [List.filter_cons_of_pos hq, hskip, ih h]
      | false => rw [List.filter_cons_of_neg (by simp [hq]), ih h]

theorem takeWhile_filter {α : Type} [DecidableEq α] {q : α → Bool} {x : α} (hx : q x) (l : List α) :
    (l.filter q).takeWhile (fun v => v ≠ x) = (l.takeWhile fun v => v ≠ x).filter q := by
  induction l with
  | nil => rfl
  | cons v rest ih =>
    by_cases hv : v = x
    · subst hv
      rw [List.filter_cons_of_pos hx]
      simp
    · rw [List.takeWhile_cons_of_pos (by simpa using hv)]
      cases hq : q v with
      | true =>
        rw [List.filter_cons_of_pos hq, List.filter_cons_of_pos hq,
          List.takeWhile_cons_of_pos (by simpa using hv), ih]
      | false =>
        rw [List.filter_cons_of_neg (by simp [hq]), List.filter_cons_of_neg (by simp [hq]), ih]

section Lookup

variable {config : Config} {u : DbUser} {i : Inbound} {p : Proxy} {type : ProxyType}

theorem Config.eq_of_tag {j : Inbound} (hi : i ∈ config.inbounds) (hj : j ∈ config.inbounds)
    (h : i.tag = j.tag) : i = j :=
  List.inj_on_of_nodup_map config.tags_nodup hi hj h

theorem Config.inboundsByTag_eq (hi : i ∈ config.inbounds) (hresolved : i.resolved) :
    config.inboundsByTag i.tag = some i := by
  cases hfind : config.inboundsByTag i.tag with
  | none =>
    have hnone := List.find?_eq_none.mp hfind i hi
    simp [hresolved] at hnone
  | some j =>
    have hj := List.find?_some hfind
    rw [eq_of_tag hi (List.mem_of_find?_eq_some hfind) (of_decide_eq_true hj).1.symm]

theorem DbUser.find?_proxy (hp : p ∈ u.proxies) :
    (u.proxies.find? fun q => q.settings.type = p.settings.type) = some p := by
  cases hfind : u.proxies.find? fun q => q.settings.type = p.settings.type with
  | none =>
    have hnone := List.find?_eq_none.mp hfind p hp
    simp at hnone
  | some q =>
    have hq := List.find?_some hfind
    rw [List.inj_on_of_nodup_map u.types_nodup hp (List.mem_of_find?_eq_some hfind)
      (of_decide_eq_true hq).symm]

theorem DbUser.get?_proxySettingsMap (hp : p ∈ u.proxies) :
    u.proxySettingsMap.get? p.settings.type = some p.settings :=
  Dict.get?_eq_some_iff.mpr
    (List.mem_map_of_mem (f := fun p : Proxy => (p.settings.type, p.settings)) hp)

theorem mem_inboundTags (hi : i ∈ config.inbounds) :
    i.tag ∈ p.inboundTags config ↔ (i.resolved ∧ i.protocol = some p.settings.type) ∧
      i.tag ∉ p.excludedInbounds ∧ inboundMatchesProxy i p.settings := by
  constructor
  · intro h
    obtain ⟨j, hj, htag⟩ := List.mem_map.mp h
    obtain ⟨hproduct, hassigned⟩ := List.mem_filter.mp hj
    obtain ⟨hmem, hresolved⟩ := List.mem_filter.mp hproduct
    rw [Config.eq_of_tag hi hmem htag.symm]
    exact ⟨of_decide_eq_true hresolved, of_decide_eq_true hassigned⟩
  · intro h
    refine List.mem_map_of_mem (f := Inbound.tag) (List.mem_filter.mpr ⟨?_, decide_eq_true h.2⟩)
    exact List.mem_filter.mpr ⟨hi, decide_eq_true h.1⟩

theorem mem_visits {tag : Tag} : (type, tag) ∈ u.visits config ↔
      ∃ p ∈ u.proxies, p.settings.type = type ∧ tag ∈ p.inboundTags config := by
  unfold DbUser.visits
  rw [List.mem_flatMap]
  constructor
  · rintro ⟨p, hp, hv⟩
    obtain ⟨tag', htag', heq⟩ := List.mem_map.mp hv
    cases heq
    exact ⟨p, hp, rfl, htag'⟩
  · rintro ⟨p, hp, rfl, htag⟩
    exact ⟨p, hp, List.mem_map_of_mem htag⟩

theorem inbound_of_mem_visits {v : ProxyType × Tag} (h : v ∈ u.visits config) :
    ∃ j ∈ config.inbounds, j.tag = v.2 ∧ j.resolved ∧ j.protocol = some v.1 := by
  obtain ⟨p, -, htype, htag⟩ := mem_visits.mp (show (v.1, v.2) ∈ _ from h)
  obtain ⟨j, hj, hjtag⟩ := List.mem_map.mp htag
  obtain ⟨hmem, hresolved⟩ := List.mem_filter.mp (List.mem_filter.mp hj).1
  obtain ⟨hresolved, hprotocol⟩ := of_decide_eq_true hresolved
  exact ⟨j, hmem, hjtag, hresolved, htype ▸ hprotocol⟩

theorem type_of_mem_visits (hi : i ∈ config.inbounds) (hprotocol : i.protocol = some type)
    {v : ProxyType × Tag} (h : v ∈ u.visits config) (htag : v.2 = i.tag) : v.1 = type := by
  obtain ⟨j, hj, hjtag, -, hjprotocol⟩ := inbound_of_mem_visits h
  rw [Config.eq_of_tag hj hi (hjtag.trans htag), hprotocol] at hjprotocol
  exact (Option.some.inj hjprotocol).symm

end Lookup

section Agreement

variable {s : Serving} {config : Config} {u : DbUser} {i : Inbound} {p : Proxy}
  {type : ProxyType}

def bootUser (i : Inbound) (u : DbUser) : Option LiveUser := (bootClient i u).map Client.live

def Serving.hotUser (s : Serving) (u : DbUser) (tag : Tag) : Option LiveUser :=
  ((s.iterUserHotAccounts u).1.lookup tag).map Account.live

def nodeUser (config : Config) (u : DbUser) (tag : Tag) : Option LiveUser :=
  ((pushUserToNodes config u).1.lookup tag).map Account.live

theorem isSome_credentials (settings : ProxySettings) :
    settings.credentials.isSome = settings.type.isXrayAccount := by
  cases settings <;> rfl

theorem clientFor_eq (hprotocol : i.protocol = some p.settings.type) :
    clientFor i u p =
      if i.tag ∉ p.excludedInbounds ∧ inboundMatchesProxy i p.settings then
        p.settings.credentials.map fun credentials =>
          { email := u.email
            credentials := bootCredentials i credentials
            flow := bootFlow i p.settings.flow
            level := if u.speedLimited then some u.level else none }
      else none := by
  unfold clientFor inboundMatchesProxy
  rw [hprotocol]
  by_cases hexcluded : i.tag ∈ p.excludedInbounds
  · simp [hexcluded]
  · by_cases hmismatch : p.settings.type = .shadowsocks ∧ i.is2022 ≠ p.settings.is2022
    · simp [hexcluded, hmismatch]
    · have hmatches : p.settings.type ≠ .shadowsocks ∨ i.is2022 = p.settings.is2022 := by
        by_cases hss : p.settings.type = .shadowsocks
        · exact .inr (by_contra fun hne => hmismatch ⟨hss, hne⟩)
        · exact .inl hss
      rw [if_neg hexcluded, if_neg (by simpa using hmismatch)]
      exact (if_pos ⟨hexcluded, decide_eq_true hmatches⟩).symm

theorem bootClient_eq (hprotocol : i.protocol = some type) (hxray : type.isXrayAccount)
    (hserved : u.status.billable) :
    bootClient i u =
      if i.listed then (u.proxies.find? fun p => p.settings.type = type).bind (clientFor i u)
      else none := by
  unfold bootClient
  rw [hprotocol]
  cases type with
  | wireGuard => cases hxray
  | _ => simp [hserved, DbUser.isXrayProxyHeld]

theorem bootUser_eq_none (hi : i ∈ config.inbounds) (hprotocol : i.protocol = some type)
    (hxray : type.isXrayAccount) (hserved : u.status.billable)
    (h : (type, i.tag) ∉ u.visits config) : bootUser i u = none := by
  unfold bootUser
  rw [bootClient_eq hprotocol hxray hserved]
  split
  · next hlisted =>
      cases hfind : u.proxies.find? fun p => p.settings.type = type with
      | none => rfl
      | some p =>
        have hfound := List.find?_some hfind
        obtain rfl : p.settings.type = type := of_decide_eq_true hfound
        have hresolved : i.resolved := by
          unfold Inbound.resolved
          rw [hprotocol, hlisted]
          rfl
        rw [Option.bind_some, clientFor_eq hprotocol, if_neg]
        · rfl
        · intro hassigned
          exact h (mem_visits.mpr ⟨p, List.mem_of_find?_eq_some hfind, rfl,
            (mem_inboundTags hi).mpr ⟨⟨hresolved, hprotocol⟩, hassigned⟩⟩)
  · rfl

theorem accountForInbound_eq (hp : p ∈ u.proxies) (tag : Tag) :
    accountForInbound config u p.settings.type tag =
      (newAccount u.email p.settings).map fun account => some
        { account with
          level := if u.speedLimited then u.level else account.level
          flow := hotFlow p.settings.type (config.inboundsByTag tag) account.flow } := by
  unfold accountForInbound
  rw [DbUser.get?_proxySettingsMap hp]

theorem nodeAccount_eq (hp : p ∈ u.proxies) (tag : Tag) :
    nodeAccount config u p.settings.type tag =
      (newAccount u.email p.settings).map fun account =>
        if account.is2022 then none
        else some { account with
          flow := nodeFlow p.settings.type (config.inboundsByTag tag) account.flow } := by
  unfold nodeAccount
  rw [DbUser.get?_proxySettingsMap hp]

theorem passes_map (email : Email) (settings : ProxySettings) (g : Account → Option Account) :
    passes ((newAccount email settings).map g) = settings.type.isXrayAccount := by
  rw [← isSome_credentials]
  unfold newAccount
  cases settings.credentials <;> rfl

variable {credentials : Credentials} {v : ProxyType × Tag} {settings : ProxySettings}

theorem passes_accountForInbound (hv : v ∈ u.visits config) :
    passes (accountForInbound config u v.1 v.2) = v.1.isXrayAccount := by
  obtain ⟨p, hp, htype, -⟩ := mem_visits.mp (show (v.1, v.2) ∈ _ from hv)
  rw [← htype, accountForInbound_eq hp, passes_map]

theorem passes_nodeAccount (hv : v ∈ u.visits config) :
    passes (nodeAccount config u v.1 v.2) = v.1.isXrayAccount := by
  obtain ⟨p, hp, htype, -⟩ := mem_visits.mp (show (v.1, v.2) ∈ _ from hv)
  rw [← htype, nodeAccount_eq hp, passes_map]

def DbUser.reaches (config : Config) (u : DbUser) (type : ProxyType) (tag : Tag) : Bool :=
  ((u.visits config).takeWhile fun v => v ≠ (type, tag)).all fun v => v.1.isXrayAccount

theorem lookup_pushUserToNodes (hi : i ∈ config.inbounds) (hprotocol : i.protocol = some type) :
    (pushUserToNodes config u).1.lookup i.tag =
      if (type, i.tag) ∈ u.visits config ∧ u.reaches config type i.tag then
        accountOf (nodeAccount config u type i.tag)
      else none := by
  unfold pushUserToNodes
  rw [lookup_collect (fun v => nodeAccount config u v.1 v.2) type
    fun v hv => type_of_mem_visits hi hprotocol hv]
  refine if_congr (and_congr_right fun _ => ?_) rfl rfl
  unfold DbUser.reaches
  rw [List.all_eq_true]
  refine forall₂_congr fun v hv => ?_
  rw [passes_nodeAccount ((List.takeWhile_sublist _).mem hv)]

theorem supportsHotSync_eq (hi : i ∈ s.config.inbounds) (hresolved : i.resolved) :
    s.supportsHotSync i.tag = decide (i.protocol ≠ some .shadowsocks ∨ ¬ i.is2022) := by
  unfold Serving.supportsHotSync Serving.findInbound
  rw [Config.inboundsByTag_eq hi hresolved]
  rfl

theorem lookup_hotAccounts (hi : i ∈ s.config.inbounds) (hprotocol : i.protocol = some type)
    (hhot : s.supportsHotSync i.tag) :
    (s.hotAccounts u).1.lookup i.tag =
      if (type, i.tag) ∈ u.visits s.config ∧ u.reaches s.config type i.tag then
        accountOf (accountForInbound s.config u type i.tag)
      else none := by
  unfold Serving.hotAccounts
  rw [lookup_collect (fun v => accountForInbound s.config u v.1 v.2) type
    fun v hv => type_of_mem_visits hi hprotocol (List.mem_of_mem_filter hv)]
  refine if_congr ?_ rfl rfl
  rw [takeWhile_filter (by simp [DbUser.isXrayProxyHeld, hhot]), List.mem_filter]
  refine and_congr (and_iff_left (by simp [DbUser.isXrayProxyHeld, hhot])) ?_
  unfold DbUser.reaches
  rw [List.all_eq_true]
  constructor
  · intro h v hv
    have hvisit := (List.takeWhile_sublist _).mem hv
    by_cases hss : v.1 = .shadowsocks
    · rw [hss]
      rfl
    · -- the pairs that are filtered out are Shadowsocks-2022 inbounds
      obtain ⟨j, hj, hjtag, hresolved, hjprotocol⟩ := inbound_of_mem_visits hvisit
      have hkeep : s.supportsHotSync v.2 := by
        rw [← hjtag, supportsHotSync_eq hj hresolved, hjprotocol]
        exact decide_eq_true (.inl fun h => hss (Option.some.inj h))
      rw [← passes_accountForInbound hvisit]
      exact h v (List.mem_filter.mpr ⟨hv, by simp [DbUser.isXrayProxyHeld, hkeep]⟩)
  · intro h v hv
    obtain ⟨hv, -⟩ := List.mem_filter.mp hv
    rw [passes_accountForInbound ((List.takeWhile_sublist _).mem hv)]
    exact h v hv

theorem hotFlow_eq_bootFlow (settings : ProxySettings)
    (hprotocol : i.protocol = some settings.type) :
    (hotFlow settings.type (some i) settings.flow).getD .none =
      (bootFlow i settings.flow).getD .none := by
  unfold hotFlow bootFlow
  rw [hprotocol]
  cases settings with
  | vless id flow => cases flow <;> cases dropsFlow flowNetworks (some i) <;> rfl
  | trojan password flow => cases dropsFlow flowNetworks (some i) <;> rfl
  | vmess | shadowsocks | wireGuard | hysteria2 | tuic | anyTls => rfl

def losesFlow (i : Inbound) (settings : ProxySettings) : Bool :=
  settings.type = .vless ∧ settings.flow = some .vision ∧ i.network = .raw ∧
    (i.tls = .tls ∨ i.tls = .reality) ∧ i.headerType ≠ "http"

theorem dropsFlow_eq_false_iff (networks : List Network) (i : Inbound) :
    dropsFlow networks (some i) = false ↔
      i.network ∈ networks ∧ (i.tls = .tls ∨ i.tls = .reality) ∧ i.headerType ≠ "http" := by
  unfold dropsFlow
  by_cases hnetwork : i.network ∈ networks
  · by_cases hsecured : i.tls = .tls ∨ i.tls = .reality
    · simp [hnetwork, hsecured]
    · simp [hnetwork, hsecured]
  · simp [hnetwork]

theorem dropsFlow_congr {networks networks' : List Network}
    (h : i.network ∈ networks ↔ i.network ∈ networks') :
    dropsFlow networks (some i) = dropsFlow networks' (some i) := by
  rw [Bool.eq_iff_iff, ← not_iff_not, Bool.not_eq_true, Bool.not_eq_true,
    dropsFlow_eq_false_iff, dropsFlow_eq_false_iff, h]

theorem nodeFlow_vision (i : Inbound) : (nodeFlow .vless (some i) (some .vision)).getD .none =
      if dropsFlow nodeFlowNetworks (some i) then .none else .vision := by
  unfold nodeFlow
  cases dropsFlow nodeFlowNetworks (some i) <;> rfl

theorem bootFlow_vision (hprotocol : i.protocol = some .vless) :
    (bootFlow i (some .vision)).getD .none =
      if dropsFlow flowNetworks (some i) then .none else .vision := by
  unfold bootFlow
  rw [hprotocol]
  cases dropsFlow flowNetworks (some i) <;> rfl

theorem nodeFlow_eq_bootFlow_iff (settings : ProxySettings)
    (hprotocol : i.protocol = some settings.type) :
    (nodeFlow settings.type (some i) settings.flow).getD .none =
      (bootFlow i settings.flow).getD .none ↔ ¬ losesFlow i settings := by
  cases settings with
  | vless id flow =>
    cases flow with
    | none =>
      unfold nodeFlow bootFlow losesFlow
      rw [hprotocol]
      cases dropsFlow nodeFlowNetworks (some i) <;>
        simp [ProxySettings.type, ProxySettings.flow, effectiveVlessFlow]
    | vision =>
      show (nodeFlow .vless (some i) (some .vision)).getD .none =
        (bootFlow i (some .vision)).getD .none ↔ _
      rw [nodeFlow_vision, bootFlow_vision hprotocol]
      have hloses : losesFlow i (.vless id .vision) ↔ i.network = .raw ∧
          (i.tls = .tls ∨ i.tls = .reality) ∧ i.headerType ≠ "http" := by
        simp [losesFlow, ProxySettings.type, ProxySettings.flow]
      rw [hloses]
      by_cases hraw : i.network = .raw
      · have hnode : dropsFlow nodeFlowNetworks (some i) = true := by
          rw [← Bool.not_eq_false, dropsFlow_eq_false_iff, hraw]
          exact fun h => absurd h.1 (by decide)
        have hboot := dropsFlow_eq_false_iff flowNetworks i
        rw [hraw] at hboot
        rw [hnode, if_pos rfl]
        cases hdrops : dropsFlow flowNetworks (some i) with
        | false =>
          obtain ⟨-, hsecured, hheader⟩ := hboot.mp hdrops
          refine iff_of_false (by decide) (not_not_intro ⟨hraw, hsecured, hheader⟩)
        | true =>
          refine iff_of_true rfl ?_
          rintro ⟨-, hkeeps⟩
          rw [hboot.mpr ⟨by decide, hkeeps⟩] at hdrops
          cases hdrops
      · have hsame : i.network ∈ nodeFlowNetworks ↔ i.network ∈ flowNetworks := by
          simp [nodeFlowNetworks, flowNetworks, hraw]
        rw [dropsFlow_congr hsame]
        exact iff_of_true rfl fun h => hraw h.1
  | trojan password flow =>
    unfold bootFlow
    rw [hprotocol]
    simp [nodeFlow, losesFlow, ProxySettings.type]
  | vmess | shadowsocks | wireGuard | hysteria2 | tuic | anyTls =>
    unfold bootFlow
    rw [hprotocol]
    simp [nodeFlow, losesFlow, ProxySettings.type, ProxySettings.flow]

/-- The three builders give the same user on an inbound, or none. -/
def BuildersAgree (s : Serving) (u : DbUser) (i : Inbound) : Prop :=
  bootUser i u = s.hotUser u i.tag ∧ s.hotUser u i.tag = nodeUser s.config u i.tag

/-- The user is not assigned to the inbound; or the loops come to it, the user has no speed limit,
and the nodes do not take its flow away. -/
def builtAlike (config : Config) (u : DbUser) (i : Inbound) : Prop :=
  ∀ p ∈ u.proxies, i.protocol = some p.settings.type → i.tag ∈ p.inboundTags config →
    u.reaches config p.settings.type i.tag ∧ ¬ u.speedLimited ∧ ¬ losesFlow i p.settings

theorem hotUser_eq (hserved : u.status.billable)
    (hnot2022 : ∀ a, (s.hotAccounts u).1.lookup i.tag = some a → a.is2022 = false) :
    s.hotUser u i.tag = ((s.hotAccounts u).1.lookup i.tag).map Account.live := by
  unfold Serving.hotUser Serving.iterUserHotAccounts
  rw [if_pos hserved]
  rw [lookup_filter]
  intro a ha
  rw [hnot2022 a ha]
  rfl

theorem is2022_of_assigned (hi : i ∈ s.config.inbounds) (hhot : s.supportsHotSync i.tag)
    (hprotocol : i.protocol = some p.settings.type) (htag : i.tag ∈ p.inboundTags s.config)
    (hss : p.settings.type = .shadowsocks) : i.is2022 = false ∧ p.settings.is2022 = false := by
  obtain ⟨⟨hresolved, -⟩, -, hmatches⟩ := (mem_inboundTags hi).mp htag
  rw [supportsHotSync_eq hi hresolved, hprotocol, hss] at hhot
  have hi2022 : i.is2022 = false := by simpa using hhot
  have hsame : p.settings.type ≠ .shadowsocks ∨ i.is2022 = p.settings.is2022 :=
    of_decide_eq_true hmatches
  exact ⟨hi2022, (hsame.resolve_left (not_not_intro hss)).symm.trans hi2022⟩

theorem bootCredentials_eq (hcredentials : settings.credentials = some credentials)
    (hold : settings.type = .shadowsocks → i.is2022 = false) :
    bootCredentials i credentials = credentials := by
  cases settings with
  | shadowsocks password method =>
    cases hcredentials
    show Credentials.shadowsocks password (if i.is2022 then none else some method) = _
    rw [hold rfl]
    rfl
  | vmess | vless | trojan =>
    cases hcredentials
    rfl
  | wireGuard | hysteria2 | tuic | anyTls => cases hcredentials

theorem is2022_account (hcredentials : settings.credentials = some credentials)
    (hold : settings.type = .shadowsocks → settings.is2022 = false) (email : Email) (level : Nat)
    (flow : Option XtlsFlow) : (Account.mk email level credentials flow).is2022 = false := by
  cases settings with
  | shadowsocks password method =>
    cases hcredentials
    exact hold rfl
  | vmess | vless | trojan =>
    cases hcredentials
    rfl
  | wireGuard | hysteria2 | tuic | anyTls => cases hcredentials

theorem users_of_assigned (hserved : u.status.billable) (hi : i ∈ s.config.inbounds)
    (hhot : s.supportsHotSync i.tag) (hp : p ∈ u.proxies)
    (hprotocol : i.protocol = some p.settings.type) (htag : i.tag ∈ p.inboundTags s.config)
    (hcredentials : p.settings.credentials = some credentials) :
    bootUser i u = some ⟨credentials, (bootFlow i p.settings.flow).getD .none,
      if u.speedLimited then u.level else 0⟩ ∧
    s.hotUser u i.tag = (if u.reaches s.config p.settings.type i.tag then
      some ⟨credentials, (bootFlow i p.settings.flow).getD .none,
        if u.speedLimited then u.level else 0⟩ else none) ∧
    nodeUser s.config u i.tag = (if u.reaches s.config p.settings.type i.tag then
      some ⟨credentials, (nodeFlow p.settings.type (some i) p.settings.flow).getD .none, 0⟩
      else none) := by
  obtain ⟨⟨hresolved, -⟩, hassigned⟩ := (mem_inboundTags hi).mp htag
  have hxray : p.settings.type.isXrayAccount := by
    rw [← isSome_credentials, hcredentials]
    rfl
  have hlisted : i.listed := (Bool.and_eq_true_iff.mp hresolved).2
  have hvisit : (p.settings.type, i.tag) ∈ u.visits s.config :=
    mem_visits.mpr ⟨p, hp, rfl, htag⟩
  have hbytag := Config.inboundsByTag_eq hi hresolved
  have hold := is2022_of_assigned hi hhot hprotocol htag
  have hnew : newAccount u.email p.settings =
      .ok { email := u.email, credentials, flow := p.settings.flow } := by
    unfold newAccount
    rw [hcredentials]
  have h2022 := is2022_account hcredentials fun hss => (hold hss).2
  refine ⟨?_, ?_, ?_⟩
  · unfold bootUser
    rw [bootClient_eq hprotocol hxray hserved, if_pos hlisted, DbUser.find?_proxy hp,
      Option.bind_some, clientFor_eq hprotocol, if_pos hassigned, hcredentials]
    simp only [Option.map_some, Client.live]
    rw [bootCredentials_eq hcredentials fun hss => (hold hss).1]
    cases u.speedLimited <;> rfl
  · have hlookup := lookup_hotAccounts (u := u) hi hprotocol hhot
    rw [accountForInbound_eq hp, hnew, hbytag] at hlookup
    simp only [hvisit, true_and, Except.map, accountOf] at hlookup
    rw [hotUser_eq hserved, hlookup]
    · split
      · simp only [Option.map_some, Account.live]
        rw [hotFlow_eq_bootFlow p.settings hprotocol]
      · rfl
    · intro a ha
      rw [hlookup] at ha
      split at ha
      · cases ha
        exact h2022 _ _ _
      · cases ha
  · have hlookup := lookup_pushUserToNodes (u := u) hi hprotocol
    rw [nodeAccount_eq hp, hnew, hbytag] at hlookup
    simp only [hvisit, true_and, Except.map, accountOf, h2022, Bool.false_eq_true, if_false]
      at hlookup
    unfold nodeUser
    rw [hlookup]
    split <;> rfl

theorem users_of_not_assigned (hserved : u.status.billable) (hi : i ∈ s.config.inbounds)
    (hprotocol : i.protocol = some type) (hxray : type.isXrayAccount)
    (hhot : s.supportsHotSync i.tag) (h : (type, i.tag) ∉ u.visits s.config) :
    bootUser i u = none ∧ s.hotUser u i.tag = none ∧ nodeUser s.config u i.tag = none := by
  have hlookup := lookup_hotAccounts (u := u) hi hprotocol hhot
  rw [if_neg fun hvisit => h hvisit.1] at hlookup
  refine ⟨bootUser_eq_none hi hprotocol hxray hserved h, ?_, ?_⟩
  · rw [hotUser_eq hserved, hlookup]
    · rfl
    · intro a ha
      rw [hlookup] at ha
      cases ha
  · unfold nodeUser
    rw [lookup_pushUserToNodes hi hprotocol, if_neg fun hvisit => h hvisit.1]
    rfl

/-- **The builders agree exactly if they look at the same things.** -/
theorem builders_agree_iff (s : Serving) (u : DbUser) (i : Inbound)
    (hserved : u.status.billable) (hi : i ∈ s.config.inbounds)
    (hxray : i.protocol.any ProxyType.isXrayAccount) (hhot : s.supportsHotSync i.tag) :
    BuildersAgree s u i ↔ builtAlike s.config u i := by
  obtain ⟨type, hprotocol, hxray⟩ := (Option.any_eq_true _ _).mp hxray
  by_cases hassigned : ∃ p ∈ u.proxies, p.settings.type = type ∧ i.tag ∈ p.inboundTags s.config
  · obtain ⟨p, hp, rfl, htag⟩ := hassigned
    obtain ⟨credentials, hcredentials⟩ := Option.isSome_iff_exists.mp
      ((isSome_credentials p.settings).trans hxray)
    obtain ⟨hboot, hhotUser, hnode⟩ :=
      users_of_assigned hserved hi hhot hp hprotocol htag hcredentials
    have hflow := nodeFlow_eq_bootFlow_iff p.settings hprotocol
    have hlevel : (if u.speedLimited then u.level else 0) = 0 ↔ ¬ u.speedLimited := by
      unfold DbUser.level
      cases u.speedLimited <;> simp
    have halike : builtAlike s.config u i ↔ u.reaches s.config p.settings.type i.tag ∧
        ¬ u.speedLimited ∧ ¬ losesFlow i p.settings := by
      refine ⟨fun h => h p hp hprotocol htag, fun h q hq hqprotocol _ => ?_⟩
      have hsame : q.settings.type = p.settings.type :=
        Option.some.inj (hqprotocol.symm.trans hprotocol)
      rw [List.inj_on_of_nodup_map u.types_nodup hq hp hsame]
      exact h
    unfold BuildersAgree
    rw [hboot, hhotUser, hnode, halike, ← hflow, ← hlevel]
    by_cases hreaches : u.reaches s.config p.settings.type i.tag
    · rw [if_pos hreaches, if_pos hreaches]
      refine (and_iff_right rfl).trans ?_
      rw [Option.some.injEq, LiveUser.mk.injEq]
      constructor
      · intro h
        exact ⟨hreaches, h.2.2, h.2.1.symm⟩
      · intro h
        exact ⟨rfl, h.2.2.symm, h.2.1⟩
    · rw [if_neg hreaches]
      exact iff_of_false (fun h => Option.some_ne_none _ h.1) fun h => hreaches h.1
  · have hvisit : (type, i.tag) ∉ u.visits s.config := fun h => hassigned (mem_visits.mp h)
    obtain ⟨hboot, hhotUser, hnode⟩ :=
      users_of_not_assigned hserved hi hprotocol hxray hhot hvisit
    unfold BuildersAgree
    rw [hboot, hhotUser, hnode]
    refine iff_of_true ⟨rfl, rfl⟩ fun p hp hpprotocol htag => ?_
    exact absurd ⟨p, hp, Option.some.inj (hpprotocol.symm.trans hprotocol), htag⟩ hassigned

end Agreement

def exampleServing (config : Config) : Serving := ⟨config, .init, [], none⟩

theorem plain_user_built_alike :
    BuildersAgree (exampleServing exampleConfig) (exampleUser 1 "ali" .active) exampleInbound :=
  (builders_agree_iff _ _ _ rfl (by decide) rfl rfl).mpr fun p hp _ _ => by
    obtain rfl := List.mem_singleton.mp hp
    exact ⟨rfl, by decide, by decide⟩

def rawInbound : Inbound :=
  { tag := "raw", protocol := some .vless, network := .raw, tls := .reality }

def oneInbound (i : Inbound) : Config where
  inbounds := [i]
  levels := Dict.empty.set 0 .allStats
  tags_nodup := List.nodup_singleton _
  forced := get?_set_allStats

def visionUser : DbUser where
  username := "ali"
  id := 1
  proxies := [⟨.vless "11111111-2222-4333-8444-555555555555" .vision, []⟩]
  types_nodup := by decide

def mixedConfig : Config where
  inbounds := [{ tag := "awg", protocol := some .wireGuard }, exampleInbound]
  levels := Dict.empty.set 0 .allStats
  tags_nodup := by decide
  forced := get?_set_allStats

def mixedUser : DbUser where
  username := "ali"
  id := 1
  proxies := [⟨.wireGuard, []⟩, ⟨.vless "11111111-2222-4333-8444-555555555555" .none, []⟩]
  types_nodup := by decide

/-- No level or flow on the nodes, and nothing by the hot path next to WireGuard. -/
theorem builders_differ : ((bootUser exampleInbound limitedUser).map (·.level) = some 101 ∧
      (nodeUser exampleConfig limitedUser "in").map (·.level) = some 0) ∧
    ((bootUser rawInbound visionUser).map (·.flow) = some .vision ∧
      (nodeUser (oneInbound rawInbound) visionUser "raw").map (·.flow) = some .none) ∧
    ((bootUser exampleInbound mixedUser).isSome ∧
      (exampleServing mixedConfig).hotUser mixedUser "in" = none) := by
  decide

end Shahkar.Xray
