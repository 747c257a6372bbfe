import Shahkar.Subscription.PanelBalance

/-!
# Who owns an alias after an account is opened

A new account takes the token that is read off its username, whether or not the token stands for
somebody. That the username is free does not help: the account `p1_bob` of the panel `p1` has the
token `bob`, and so has the account `bob`.
-/

namespace Shahkar.Subscription

open Shahkar.Lib Shahkar.Lib.Text Shahkar.Migration Panels

variable {s : Panels} {username : String} {endpoint : Endpoint}

def KeepsOwners (s s' : Panels) : Prop :=
  ∀ endpointId token user, s.getSubscriptionTokenAlias token endpointId = some user →
    s'.getSubscriptionTokenAlias token endpointId = some user

theorem aliasTokenForUsername_ne_empty (hname : username ≠ "") (panelSlug : String) :
    aliasTokenForUsername username panelSlug ≠ "" := by
  by_cases hfront : ∃ rest, username = panelSlug ++ "_" ++ rest ∧ rest ≠ ""
  · obtain ⟨rest, rfl, hrest⟩ := hfront
    rwa [aliasTokenForUsername_of_front hrest]
  · rw [aliasTokenForUsername_of_no_front]
    · exact hname
    · intro rest hrest
      by_contra hne
      exact hfront ⟨rest, hrest, hne⟩

theorem createAndBind_of_free (hname : username ≠ "") (hfree : s.getUser username = none) :
    createAndBind s username endpoint =
      some ((s.addUser username).setAlias (aliasTokenForUsername username endpoint.slug)
        s.nextUser endpoint.id (s.nextUser_mem_addUser username)) := by
  rw [createAndBind, hfree, bindUserToPanel]
  exact upsertSubscriptionTokenAlias_of_ne_empty (aliasTokenForUsername_ne_empty hname _) _ _ _

theorem ne_nextUser_of_getSubscriptionTokenAlias {token : String} {endpointId user : Nat}
    (h : s.getSubscriptionTokenAlias token endpointId = some user) : user ≠ s.nextUser :=
  Nat.ne_of_lt (s.fresh user (mem_users_of_getSubscriptionTokenAlias h))

theorem keepsOwners_setAlias_iff {token : String} {userId endpointId : Nat}
    (huser : userId ∈ (s.addUser username).users.keys) (hnew : userId = s.nextUser) :
    KeepsOwners s ((s.addUser username).setAlias token userId endpointId huser) ↔
      s.getSubscriptionTokenAlias token endpointId = none := by
  constructor
  · intro hkeeps
    by_contra htaken
    obtain ⟨owner, howner⟩ := Option.ne_none_iff_exists'.mp htaken
    have hafter := hkeeps endpointId token owner howner
    rw [getSubscriptionTokenAlias_setAlias,
      if_pos ⟨token_ne_empty_of_getSubscriptionTokenAlias howner, rfl, rfl⟩, hnew] at hafter
    exact ne_nextUser_of_getSubscriptionTokenAlias howner (Option.some.inj hafter).symm
  · intro hnone endpointId' token' owner howner
    rw [getSubscriptionTokenAlias_setAlias, if_neg, getSubscriptionTokenAlias_addUser]
    · exact howner
    · intro ⟨_, hendpoint, htoken⟩
      rw [hendpoint, htoken, hnone] at howner
      cases howner

/-- Every alias keeps its owner exactly when the username reads as nobody's token. -/
theorem owners_kept_iff (s : Panels) (endpoint : Endpoint) (hname : username ≠ "")
    (hfree : s.getUser username = none) :
    ∃ s', createAndBind s username endpoint = some s' ∧
      (KeepsOwners s s' ↔ ∀ token, ReadsAs username endpoint.slug token →
        s.getSubscriptionTokenAlias token endpoint.id = none) := by
  refine ⟨_, createAndBind_of_free hname hfree, ?_⟩
  rw [keepsOwners_setAlias_iff _ rfl]
  have htoken := aliasTokenForUsername_ne_empty hname endpoint.slug
  constructor
  · intro hnone token hreads
    by_cases hempty : token = ""
    · rw [getSubscriptionTokenAlias, if_pos hempty]
    · rwa [(aliasTokenForUsername_eq_iff hempty).mpr hreads] at hnone
  · intro hnew
    exact hnew _ ((aliasTokenForUsername_eq_iff htoken).mp rfl)

def firstPanel : Endpoint := { id := 1, slug := "p1", host := "sub.example" }

def importedBob : Option Panels :=
  importSubscriber plainDigest (Panels.init [firstPanel]) "p1" firstPanel
    { email := "bob@mail", id := "b831381d-6324-4d53-ad4f-8cda48b30811", subId := "bob" }

/-- A new account `carol` leaves the alias `bob` with the imported `p1_bob`. -/
theorem second_account_takes_nothing :
    ∃ s s', importedBob = some s ∧ s.getSubscriptionTokenAlias "bob" 1 = some 1 ∧
      createAndBind s "carol" firstPanel = some s' ∧ KeepsOwners s s' := by
  obtain ⟨s', hcreated, hkeeps⟩ := owners_kept_iff (importedBob.get (by decide +kernel))
    firstPanel (show "carol" ≠ "" by decide) (by decide +kernel)
  refine ⟨_, s', (Option.some_get _).symm, by decide +kernel, hcreated, hkeeps.mpr ?_⟩
  rintro token (hfront | ⟨rfl, -⟩)
  · have hlist := congrArg String.toList hfront
    simp [firstPanel] at hlist
  · decide +kernel

/-- The alias `bob` of the imported `p1_bob` goes to a new account. -/
theorem migrated_alias_changes_owner :
    ∃ s s', importedBob = some s ∧
      s.getUser "bob" = none ∧ defaultPanelForCreate s none = some firstPanel ∧
      createAndBind s "bob" firstPanel = some s' ∧
      s.getSubscriptionTokenAlias "bob" 1 = some 1 ∧
      s'.getSubscriptionTokenAlias "bob" 1 = some 2 := by
  refine ⟨_, _, (Option.some_get (by decide +kernel)).symm, by decide +kernel, by decide +kernel,
    (Option.some_get (by decide +kernel)).symm, by decide +kernel, by decide +kernel⟩

end Shahkar.Subscription
