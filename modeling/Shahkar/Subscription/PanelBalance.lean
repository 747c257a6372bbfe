import Shahkar.Migration.Source
import Shahkar.Portal.Plans

/-!
# The panel a new account is bound to

A subscription endpoint serves the accounts that have an alias on it. The token of a new account is
read off its username; a migrated one has its old subscription id.
-/

namespace Shahkar.Subscription

open Shahkar.Lib Shahkar.Lib.Text Shahkar.Migration

/-!
### The tables
-/

structure Endpoint where
  id : Nat
  slug : String
  host : String := ""
  inboundTag : String := ""
  legacyPanelId : String := ""
  enabled : Bool := true
deriving DecidableEq, Repr

/-- The tables of users, endpoints and aliases; an alias is keyed by its endpoint and its token. -/
structure Panels where
  endpoints : List Endpoint
  users : Dict Nat String
  aliases : Dict (Nat × String) Nat
  nextUser : Nat
  fresh : ∀ user ∈ users.keys, user < nextUser
  owned : ∀ row ∈ aliases.entries, row.2 ∈ users.keys

namespace Panels

variable {s : Panels}

def init (endpoints : List Endpoint) : Panels where
  endpoints := endpoints
  users := Dict.empty
  aliases := Dict.empty
  nextUser := 1
  fresh := by simp [Dict.keys, Dict.empty]
  owned := by simp [Dict.empty]

def sameUsername (a b : String) : Bool :=
  a.toList.map Char.toLower == b.toList.map Char.toLower

def getUser (s : Panels) (username : String) : Option Nat :=
  (s.users.entries.find? fun row => sameUsername row.2 username).map Prod.fst

def addUser (s : Panels) (username : String) : Panels where
  endpoints := s.endpoints
  users := s.users.set s.nextUser username
  aliases := s.aliases
  nextUser := s.nextUser + 1
  fresh := by
    intro user huser
    rw [Dict.keys, Dict.set, Dict.mem_keys_setEntries] at huser
    cases huser with
    | inl heq => omega
    | inr hmem => exact Nat.lt_succ_of_lt (s.fresh user hmem)
  owned := by
    intro row hrow
    rw [Dict.keys, Dict.set, Dict.mem_keys_setEntries]
    exact .inr (s.owned row hrow)

theorem nextUser_mem_addUser (s : Panels) (username : String) :
    s.nextUser ∈ (s.addUser username).users.keys := by
  simp [addUser, Dict.keys, Dict.set, Dict.mem_keys_setEntries]

def getSubscriptionTokenAlias (s : Panels) (token : String) (endpointId : Nat) : Option Nat :=
  if token = "" then none else s.aliases.get? (endpointId, token)

def setAlias (s : Panels) (token : String) (userId endpointId : Nat)
    (huser : userId ∈ s.users.keys) : Panels where
  endpoints := s.endpoints
  users := s.users
  aliases := s.aliases.set (endpointId, token) userId
  nextUser := s.nextUser
  fresh := s.fresh
  owned := by
    intro row hrow
    cases Dict.mem_entries_set hrow with
    | inl heq => rwa [heq]
    | inr hmem => exact s.owned row hmem

def createSubscriptionTokenAlias (s : Panels) (token : String) (userId endpointId : Nat)
    (huser : userId ∈ s.users.keys) : Option Panels :=
  if (s.aliases.get? (endpointId, token)).isSome then none
  else some (s.setAlias token userId endpointId huser)

def upsertSubscriptionTokenAlias (s : Panels) (token : String) (userId endpointId : Nat)
    (huser : userId ∈ s.users.keys) : Option Panels :=
  if (s.getSubscriptionTokenAlias token endpointId).isSome then
    some (s.setAlias token userId endpointId huser)
  else s.createSubscriptionTokenAlias token userId endpointId huser

variable {token : String} {endpointId user : Nat}

theorem upsertSubscriptionTokenAlias_of_ne_empty (htoken : token ≠ "") (userId endpointId : Nat)
    (huser : userId ∈ s.users.keys) :
    s.upsertSubscriptionTokenAlias token userId endpointId huser =
      some (s.setAlias token userId endpointId huser) := by
  rw [upsertSubscriptionTokenAlias, createSubscriptionTokenAlias, getSubscriptionTokenAlias,
    if_neg htoken]
  split <;> rfl

@[simp] theorem getSubscriptionTokenAlias_addUser (username token : String) (endpointId : Nat) :
    (s.addUser username).getSubscriptionTokenAlias token endpointId =
      s.getSubscriptionTokenAlias token endpointId := rfl

theorem getSubscriptionTokenAlias_setAlias (s : Panels) (token token' : String)
    (userId endpointId endpointId' : Nat) (huser : userId ∈ s.users.keys) :
    (s.setAlias token userId endpointId huser).getSubscriptionTokenAlias token' endpointId' =
      if token' ≠ "" ∧ endpointId' = endpointId ∧ token' = token then some userId
      else s.getSubscriptionTokenAlias token' endpointId' := by
  rw [getSubscriptionTokenAlias, getSubscriptionTokenAlias, setAlias, Dict.get?_set]
  by_cases hempty : token' = ""
  · simp [hempty]
  · simp [hempty]

theorem mem_users_of_getSubscriptionTokenAlias
    (h : s.getSubscriptionTokenAlias token endpointId = some user) : user ∈ s.users.keys := by
  rw [getSubscriptionTokenAlias] at h
  split at h
  · cases h
  · exact s.owned _ (Dict.get?_eq_some_iff.mp h)

theorem token_ne_empty_of_getSubscriptionTokenAlias
    (h : s.getSubscriptionTokenAlias token endpointId = some user) : token ≠ "" := by
  rw [getSubscriptionTokenAlias] at h
  split at h
  · cases h
  · assumption

end Panels

open Panels

def isPanelSlug (slug : String) : Bool :=
  match slug.toList with
  | [] => false
  | c :: digits => (c == 'p' || c == 'P') && !digits.isEmpty && digits.all Char.isDigit

def aliasTokenForUsername (username panelSlug : String) : String :=
  let front := panelSlug ++ "_"
  if startsWith front username ∧ front.length < username.length then
    dropChars front.length username
  else username

/-- The tokens that are read off a username on a panel: what follows the panel's name, if anything
does, and the whole username otherwise. -/
def ReadsAs (username panelSlug token : String) : Prop :=
  username = panelSlug ++ "_" ++ token ∨
    username = token ∧ ∀ rest, username = panelSlug ++ "_" ++ rest → rest = ""

theorem aliasTokenForUsername_of_front {panelSlug rest : String} (hrest : rest ≠ "") :
    aliasTokenForUsername (panelSlug ++ "_" ++ rest) panelSlug = rest := by
  rw [aliasTokenForUsername]
  have hlen : rest.length ≠ 0 := fun h => hrest (String.length_eq_zero_iff.mp h)
  have hlonger : (panelSlug ++ "_").length < (panelSlug ++ "_" ++ rest).length := by
    rw [String.length_append (panelSlug ++ "_") rest]
    omega
  rw [if_pos ⟨startsWith_iff.mpr ⟨rest, rfl⟩, hlonger⟩, dropChars_length_append]

theorem aliasTokenForUsername_of_no_front {username panelSlug : String}
    (h : ∀ rest, username = panelSlug ++ "_" ++ rest → rest = "") :
    aliasTokenForUsername username panelSlug = username := by
  rw [aliasTokenForUsername, if_neg]
  intro ⟨hstarts, hlonger⟩
  obtain ⟨rest, hrest⟩ := startsWith_iff.mp hstarts
  rw [h rest hrest, String.append_empty] at hrest
  rw [hrest] at hlonger
  exact Nat.lt_irrefl _ hlonger

theorem aliasTokenForUsername_eq_iff {username panelSlug token : String} (htoken : token ≠ "") :
    aliasTokenForUsername username panelSlug = token ↔ ReadsAs username panelSlug token := by
  by_cases hfront : ∃ rest, username = panelSlug ++ "_" ++ rest ∧ rest ≠ ""
  · obtain ⟨rest, rfl, hrest⟩ := hfront
    rw [aliasTokenForUsername_of_front hrest]
    constructor
    · intro heq
      exact .inl (by rw [heq])
    · intro hreads
      cases hreads with
      | inl heq => exact String.append_right_inj _ |>.mp heq
      | inr hwhole => exact absurd (hwhole.2 rest rfl) hrest
  · have hno : ∀ rest, username = panelSlug ++ "_" ++ rest → rest = "" := by
      intro rest hrest
      by_contra hne
      exact hfront ⟨rest, hrest, hne⟩
    rw [aliasTokenForUsername_of_no_front hno]
    constructor
    · intro heq
      exact .inr ⟨heq, hno⟩
    · intro hreads
      cases hreads with
      | inl heq => exact absurd (hno token heq) htoken
      | inr hwhole => exact hwhole.1

structure Creator where
  isSudo : Bool
  tenantId : Option Nat
deriving DecidableEq, Repr

def slugLe (a b : Endpoint) : Bool :=
  !(b.slug.toList.map Char.toNat).lex (a.slug.toList.map Char.toNat) fun m n => m.blt n

def listBalancePanels (s : Panels) : List Endpoint :=
  (s.endpoints.filter fun ep =>
    ep.enabled && ep.inboundTag == "" && isPanelSlug (stripped ep.slug)).insertionSort
      fun a b => slugLe a b = true

def panelUserCount (s : Panels) (endpointId : Nat) : Nat :=
  s.aliases.entries.countP fun row => row.1.1 == endpointId

def pickLeastLoadedPanel (s : Panels) : Option Endpoint :=
  (listBalancePanels s).foldl (fun best ep =>
    match best with
    | none => some ep
    | some b =>
      if panelUserCount s ep.id < panelUserCount s b.id ∨
          (panelUserCount s ep.id = panelUserCount s b.id ∧ ep.id < b.id) then some ep
      else some b) none

def resellerBrandingPanel (s : Panels) (admin : Option Creator) : Option Endpoint :=
  match admin with
  | none => none
  | some admin =>
    if admin.isSudo then none
    else admin.tenantId.bind fun tenant =>
      (s.endpoints.find? fun ep => ep.slug == "reseller-" ++ toString tenant).filter fun ep =>
        ep.enabled && stripped ep.host != ""

def defaultPanelForCreate (s : Panels) (admin : Option Creator) : Option Endpoint :=
  (resellerBrandingPanel s admin).or (pickLeastLoadedPanel s)

def bindUserToPanel (s : Panels) (userId : Nat) (huser : userId ∈ s.users.keys)
    (username : String) (endpoint : Endpoint) : Option Panels :=
  s.upsertSubscriptionTokenAlias (aliasTokenForUsername username endpoint.slug) userId endpoint.id
    huser

def createAndBind (s : Panels) (username : String) (endpoint : Endpoint) : Option Panels :=
  if (s.getUser username).isSome then none
  else bindUserToPanel (s.addUser username) s.nextUser (s.nextUser_mem_addUser username) username
    endpoint

def importSubscriber (sha1 : Digest) (s : Panels) (slug : String) (endpoint : Endpoint)
    (client : Client) : Option Panels :=
  let username := migrationUsername sha1 slug (stripped (orElse client.email client.id)) client
  let route (s : Panels) (userId : Nat) (huser : userId ∈ s.users.keys) : Panels :=
    if client.subscription = "" then s
    else s.setAlias client.subscription userId endpoint.id huser
  match hfind : s.users.entries.find? fun row => row.2 == username with
  | some row => some (route s row.1 (List.mem_map_of_mem (List.mem_of_find?_eq_some hfind)))
  | none =>
    if Portal.usernameFormatOk username ∧ s.getUser username = none then
      some (route (s.addUser username) s.nextUser (s.nextUser_mem_addUser username))
    else none

end Shahkar.Subscription
