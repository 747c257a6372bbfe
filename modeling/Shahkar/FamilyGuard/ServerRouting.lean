import Shahkar.Xray.WarpRouting

/-!
# Blocks of a family plan in the core (`app/family_guard/server_routing.py`)

For each user with active controls the core gets `BLOCK` rules, each for that user and a part of the
blocked names or addresses, in front of all other rules.
-/

namespace Shahkar.FamilyGuard

open Shahkar.Lib Shahkar.Lib.Text Shahkar.Xray.Routing

/-- The result of `collect_block_targets`. -/
structure BlockTargets where
  domains : List String
  geosites : List String
  geoips : List String

/-- A row of the query for active and waiting users. Without targets the controls are off. -/
structure GuardedUser where
  id : Nat
  username : String
  targets : Option BlockTargets

def xrayUserEmail (id : Nat) (username : String) : String := toString id ++ "." ++ username

def ruleChunk : Nat := 64

def cleanDomain (d : String) : String :=
  String.ofList (((stripped d).toList.map Char.toLower).dropWhile (· = '.'))

def domainEntries (domains : List String) : List String :=
  ((domains.map cleanDomain).filter fun d => !d.isEmpty).flatMap fun d =>
    ["domain:" ++ d, "full:" ++ d]

def listEntries (kind : String) (names : List String) : List String :=
  ((names.map stripped).filter fun g => !g.isEmpty).map fun g =>
    if startsWith kind g then g else kind ++ g

def nameEntries (t : BlockTargets) : List String :=
  listEntries "geosite:" t.geosites ++
    domainEntries (if t.geosites.isEmpty then t.domains else t.domains.take 24)

def guardRule (email : String) (domain ip : List String) : Rule where
  user := [email]
  domain := domain
  ip := ip
  outboundTag := "BLOCK"
  familyGuard := true

def guardRules (email : String) (t : BlockTargets) : List Rule :=
  ((chunks ruleChunk (nameEntries t)).map fun part => guardRule email part []) ++
  (if (listEntries "geoip:" t.geoips).isEmpty then []
   else [guardRule email [] (listEntries "geoip:" t.geoips)])

def buildFamilyGuardRules (users : List GuardedUser) : List Rule :=
  users.flatMap fun u =>
    (u.targets.map (guardRules (xrayUserEmail u.id u.username))).getD []

def stripFamilyGuardRules (rules : List Rule) : List Rule :=
  rules.filter fun r => !r.familyGuard

def applyFamilyGuardServerRouting (config : Payload) (users : List GuardedUser) : Payload :=
  { config with
    routing := some (buildFamilyGuardRules users ++ stripFamilyGuardRules config.rules) }

variable {users : List GuardedUser} {r : Rule}

theorem eq_of_mem_guardRules {email : String} {t : BlockTargets} (h : r ∈ guardRules email t) :
    ∃ domain ip, r = guardRule email domain ip := by
  simp only [guardRules, List.mem_append, List.mem_map, List.mem_ite_nil_left,
    List.mem_singleton] at h
  obtain ⟨part, -, rfl⟩ | ⟨-, rfl⟩ := h
  · exact ⟨part, [], rfl⟩
  · exact ⟨[], _, rfl⟩

theorem blocks_of_mem_build (h : r ∈ buildFamilyGuardRules users) :
    r.outboundTag = "BLOCK" ∧ r.user ≠ [] := by
  obtain ⟨u, -, hr⟩ := List.mem_flatMap.mp h
  cases ht : u.targets with
  | none => simp [ht] at hr
  | some t =>
    rw [ht, Option.map_some, Option.getD_some] at hr
    obtain ⟨domain, ip, rfl⟩ := eq_of_mem_guardRules hr
    exact ⟨rfl, List.cons_ne_nil _ _⟩

theorem exists_rule_of_nameEntry {u : GuardedUser} {t : BlockTargets} {entry : String}
    (hu : u ∈ users) (ht : u.targets = some t) (he : entry ∈ nameEntries t) :
    ∃ part, entry ∈ part ∧
      guardRule (xrayUserEmail u.id u.username) part [] ∈ buildFamilyGuardRules users := by
  obtain ⟨part, hpart, hmem⟩ := (mem_chunks_iff (k := ruleChunk) (by decide)).mpr he
  refine ⟨part, hmem, List.mem_flatMap.mpr ⟨u, hu, ?_⟩⟩
  rw [ht, Option.map_some, Option.getD_some, guardRules]
  exact List.mem_append_left _ (List.mem_map.mpr ⟨part, hpart, rfl⟩)

/-- **A blocked name is blocked** for the user, by a rule of theirs before all others. -/
theorem guarded_flow_blocked {m : Matcher} {config : Payload} {f : Flow} {u : GuardedUser}
    {t : BlockTargets} {entry name email : String} (hu : u ∈ users) (ht : u.targets = some t)
    (he : entry ∈ nameEntries t) (hname : f.domain = some name)
    (hcovers : m.domain entry name = true) (huser : f.user = some email)
    (hemail : m.user (xrayUserEmail u.id u.username) email = true) :
    ∃ r, decidingRule m (applyFamilyGuardServerRouting config users).rules f = some r ∧
      r.outboundTag = "BLOCK" ∧ r.user ≠ [] := by
  obtain ⟨part, hentry, hrule⟩ := exists_rule_of_nameEntry hu ht he
  have happlies : (guardRule (xrayUserEmail u.id u.username) part []).applies m f = true := by
    have hdomain : part = [] ∨ ∃ e, e ∈ part ∧ f.domain.any (m.domain e) = true :=
      .inr ⟨entry, hentry, by simp [hname, hcovers]⟩
    simpa [Rule.applies, guardRule, anyOf, huser, hemail, coversNetwork] using hdomain
  have hsome : ((buildFamilyGuardRules users).find? (Rule.applies m f)).isSome :=
    List.find?_isSome.mpr ⟨_, hrule, happlies⟩
  obtain ⟨r, hr⟩ := Option.isSome_iff_exists.mp hsome
  refine ⟨r, ?_, blocks_of_mem_build (List.mem_of_find?_eq_some hr)⟩
  have hrules : (applyFamilyGuardServerRouting config users).rules =
      buildFamilyGuardRules users ++ stripFamilyGuardRules config.rules := rfl
  rw [decidingRule, hrules, List.find?_append, hr, Option.some_or]

def sameText : Matcher := ⟨(· == ·), (· == ·), fun _ _ => true, fun _ _ => true, (· == ·), rfl⟩

def visit (user : String) : Flow :=
  ⟨some user, some "full:x.com", none, 443, "tcp", "in", none, "10.0.0.1"⟩

def kid : GuardedUser := ⟨1, "kid", some ⟨["x.com"], [], []⟩⟩

theorem kid_blocked :
    ∃ r, decidingRule sameText (applyFamilyGuardServerRouting ⟨[], [], none⟩ [kid]).rules
      (visit "1.kid") = some r ∧ r.outboundTag = "BLOCK" ∧ r.user ≠ [] :=
  guarded_flow_blocked List.mem_cons_self rfl
    (show "full:x.com" ∈ nameEntries ⟨["x.com"], [], []⟩ by decide) rfl rfl rfl (by decide)

theorem exists_user_of_mem_build (h : r ∈ buildFamilyGuardRules users) :
    r.familyGuard = true ∧ ∃ u ∈ users, r.user = [xrayUserEmail u.id u.username] := by
  obtain ⟨u, hu, hr⟩ := List.mem_flatMap.mp h
  cases ht : u.targets with
  | none => simp [ht] at hr
  | some t =>
    rw [ht, Option.map_some, Option.getD_some] at hr
    obtain ⟨domain, ip, rfl⟩ := eq_of_mem_guardRules hr
    exact ⟨rfl, u, hu, rfl⟩

theorem strip_applyFamilyGuardServerRouting (config : Payload) (users : List GuardedUser) :
    stripFamilyGuardRules (applyFamilyGuardServerRouting config users).rules =
      stripFamilyGuardRules config.rules := by
  show (buildFamilyGuardRules users ++ _).filter _ = _
  rw [List.filter_append, List.filter_eq_nil_iff.mpr, List.nil_append, stripFamilyGuardRules,
    List.filter_filter]
  · simp
  · intro r hr
    simp [(exists_user_of_mem_build hr).1]

/-- **Nobody else is affected**, however often rules were injected for whom. -/
theorem unguarded_flow_unaffected {m : Matcher} {f : Flow} (config : Payload)
    (history : List (List GuardedUser))
    (hf : ∀ u ∈ users, f.user.any (m.user (xrayUserEmail u.id u.username)) = false) :
    decidingRule m (applyFamilyGuardServerRouting
      (history.foldl applyFamilyGuardServerRouting config) users).rules f =
        decidingRule m (stripFamilyGuardRules config.rules) f := by
  have hstrip : stripFamilyGuardRules (history.foldl applyFamilyGuardServerRouting config).rules =
      stripFamilyGuardRules config.rules := by
    induction history generalizing config with
    | nil => rfl
    | cons users rest ih => exact (ih _).trans (strip_applyFamilyGuardServerRouting config users)
  have hnone : (buildFamilyGuardRules users).find? (Rule.applies m f) = none := by
    refine List.find?_eq_none.mpr fun r hr => ?_
    obtain ⟨-, u, hu, huser⟩ := exists_user_of_mem_build hr
    simp [Rule.applies, anyOf, huser, hf u hu]
  show (buildFamilyGuardRules users ++ _).find? _ = _
  rw [List.find?_append, hnone, hstrip]
  rfl

theorem parent_unaffected :
    decidingRule sameText (applyFamilyGuardServerRouting
      ([[kid]].foldl applyFamilyGuardServerRouting ⟨[], [], none⟩) [kid]).rules (visit "2.mum") =
        decidingRule sameText [] (visit "2.mum") :=
  unguarded_flow_unaffected _ _ (by decide)

end Shahkar.FamilyGuard
