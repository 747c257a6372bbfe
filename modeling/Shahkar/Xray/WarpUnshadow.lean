import Shahkar.FamilyGuard.ServerRouting

/-!
# What sorting the rules for WARP does to decisions

The rules of a core config are sorted into groups so that the WARP default shadows no other rule.
`Undisturbed` says which decisions survive that.
-/

namespace Shahkar.Xray.Routing

open Shahkar.Lib Shahkar.Lib.Text

variable {m : Matcher} {f : Flow} {data : Payload} {rules : List Rule} {r : Rule}
  {p : Rule → Bool} {address : Option String}

/-!
### Retargeting
-/

def retargeted (data : Payload) : List Rule := data.rules.map (retarget (missingWarpTags data))

@[simp] theorem applies_retarget {targets : List String} :
    Rule.applies m f (retarget targets r) = Rule.applies m f r := by
  rw [retarget]
  split
  · rfl
  · rfl

theorem isWarpTag_of_mem_missing {tag : String} (h : tag ∈ missingWarpTags data) :
    isWarpTag tag = true := by
  simp only [missingWarpTags, List.mem_filter, Bool.and_eq_true] at h
  exact h.2.1

theorem not_mem_missing_of_present {ob : Outbound} (h : ob ∈ data.outbounds) :
    ob.tag ∉ missingWarpTags data := by
  intro hmem
  simp only [missingWarpTags, List.mem_filter, Bool.and_eq_true, Bool.not_eq_true',
    List.any_eq_false, decide_eq_true_eq] at hmem
  exact hmem.2.2 ob h rfl

theorem not_isWarpTag_direct : isWarpTag "DIRECT" = false := by decide

theorem outboundTag_retargeted (h : r ∈ retargeted data) :
    r.outboundTag ∉ missingWarpTags data := by
  obtain ⟨x, -, rfl⟩ := List.mem_map.mp h
  intro hmem
  by_cases hx : x.outboundTag ∈ missingWarpTags data
  · have hdirect : (retarget (missingWarpTags data) x).outboundTag = "DIRECT" := by
      simp [retarget, hx]
    rw [hdirect] at hmem
    simpa [not_isWarpTag_direct] using isWarpTag_of_mem_missing hmem
  · have hsame : retarget (missingWarpTags data) x = x := by simp [retarget, hx]
    rw [hsame] at hmem
    exact hx hmem

@[simp] theorem rewriteMissing_outbounds :
    (rewriteMissingWarpRoutes data).outbounds = data.outbounds := by
  simp only [rewriteMissingWarpRoutes, rewriteWarpRoutes]
  split
  · rfl
  · rfl

@[simp] theorem rewriteMissing_inbounds :
    (rewriteMissingWarpRoutes data).inbounds = data.inbounds := by
  simp only [rewriteMissingWarpRoutes, rewriteWarpRoutes]
  split
  · rfl
  · rfl

theorem find?_rewriteWarpRoutes {targets : List String} :
    (rewriteWarpRoutes data targets).rules.find? p =
      (data.rules.map (retarget targets)).find? p := by
  by_cases htargets : targets = []
  · have hid : retarget [] = id := by
      funext x
      simp [retarget]
    simp [rewriteWarpRoutes, htargets, hid]
  · cases hrouting : data.routing with
    | none => simp [rewriteWarpRoutes, htargets, Payload.rules, hrouting]
    | some rules => simp [rewriteWarpRoutes, htargets, Payload.rules, hrouting]

theorem find?_rewriteMissing :
    (rewriteMissingWarpRoutes data).rules.find? p = (retargeted data).find? p :=
  find?_rewriteWarpRoutes

@[simp] theorem mem_rewriteMissing :
    r ∈ (rewriteMissingWarpRoutes data).rules ↔ r ∈ retargeted data :=
  mem_iff_of_find?_eq fun _ => find?_rewriteMissing

@[simp] theorem isApi_retarget :
    isApiInboundRule (retarget (missingWarpTags data) r) = isApiInboundRule r := by
  by_cases h : r.outboundTag ∈ missingWarpTags data
  · have hne : r.outboundTag ≠ "API" := by
      intro heq
      have hwarp := isWarpTag_of_mem_missing (heq ▸ h)
      exact absurd hwarp (by decide)
    simp [retarget, h, isApiInboundRule, hne]
  · simp [retarget, h]

def Bucket.rank : Bucket → Nat
  | .api => 0
  | .bootstrap => 1
  | .specificWarp => 2
  | .specificOther => 3
  | .catchWarp => 4
  | .catchDirect => 5

theorem Bucket.rank_lt (b : Bucket) : b.rank < 6 := by cases b <;> decide

def rankOf (r : Rule) : Nat := (bucket r).rank

theorem rankOf_eq_zero_iff : rankOf r = 0 ↔ isApiInboundRule r = true := by
  have hbucket : rankOf r = 0 ↔ bucket r = .api := by
    rw [rankOf]
    cases bucket r <;> simp [Bucket.rank]
  rw [hbucket, bucket]
  cases isApiInboundRule r <;> simp
  repeat' split
  all_goals simp

def kept (rules : List Rule) : List Rule :=
  if rules.any fun r => bucket r = .catchWarp then rules.filter fun r => bucket r ≠ .catchDirect
  else rules

theorem filter_rankOf (b : Bucket) (n : Nat) (h : b.rank = n) (rules : List Rule) :
    (rules.filter fun r => rankOf r = n) = rules.filter fun r => bucket r = b := by
  subst n
  congr 1
  funext r
  rw [rankOf]
  cases bucket r <;> cases b <;> rfl

theorem byRank_rankOf (rules : List Rule) :
    byRank rankOf 6 rules =
      rules.filter (fun r => bucket r = .api) ++ rules.filter (fun r => bucket r = .bootstrap) ++
      rules.filter (fun r => bucket r = .specificWarp) ++
      rules.filter (fun r => bucket r = .specificOther) ++
      rules.filter (fun r => bucket r = .catchWarp) ++
      rules.filter (fun r => bucket r = .catchDirect) := by
  simp [byRank, List.range_succ, filter_rankOf .api 0 rfl, filter_rankOf .bootstrap 1 rfl,
    filter_rankOf .specificWarp 2 rfl, filter_rankOf .specificOther 3 rfl,
    filter_rankOf .catchWarp 4 rfl, filter_rankOf .catchDirect 5 rfl]

theorem unshadow_eq (rules : List Rule) :
    unshadowWarpRules rules = dedupe (byRank rankOf 6 (kept rules)) := by
  rw [byRank_rankOf, unshadowWarpRules, kept]
  by_cases h : rules.any fun r => bucket r = .catchWarp
  · have hne : (rules.filter fun r => bucket r = .catchWarp).isEmpty = false := by
      simpa using h
    have hsame : ∀ b : Bucket, b ≠ .catchDirect →
        ((rules.filter fun r => bucket r ≠ .catchDirect).filter fun r => bucket r = b) =
          rules.filter fun r => bucket r = b := by
      intro b hb
      rw [List.filter_filter]
      congr 1
      funext r
      by_cases hr : bucket r = b
      · simp [hr, hb]
      · simp [hr]
    have hnone : ((rules.filter fun r => bucket r ≠ .catchDirect).filter fun r =>
        bucket r = .catchDirect) = [] := by
      simp
    simp only [h, if_true, hne, hsame _ (by decide : Bucket.api ≠ .catchDirect),
      hsame _ (by decide : Bucket.bootstrap ≠ .catchDirect),
      hsame _ (by decide : Bucket.specificWarp ≠ .catchDirect),
      hsame _ (by decide : Bucket.specificOther ≠ .catchDirect),
      hsame _ (by decide : Bucket.catchWarp ≠ .catchDirect), hnone]
    simp
  · have hempty : (rules.filter fun r => bucket r = .catchWarp).isEmpty = true := by
      simpa using h
    simp only [h, hempty, if_true]
    simp

theorem mem_kept : r ∈ kept rules ↔ r ∈ rules ∧
    (bucket r = .catchDirect → ∀ x ∈ rules, bucket x ≠ .catchWarp) := by
  rw [kept]
  split
  case isTrue h =>
    simp only [List.any_eq_true, decide_eq_true_eq] at h
    simp only [List.mem_filter, decide_eq_true_eq]
    obtain ⟨x, hx, hwarp⟩ := h
    constructor
    · intro hr
      exact ⟨hr.1, fun heq => absurd heq hr.2⟩
    · intro hr
      exact ⟨hr.1, fun heq => hr.2 heq x hx hwarp⟩
  case isFalse h =>
    simp only [List.any_eq_true, decide_eq_true_eq] at h
    constructor
    · intro hr
      exact ⟨hr, fun _ x hx hwarp => h ⟨x, hx, hwarp⟩⟩
    · intro hr
      exact hr.1

theorem find?_unshadow_iff (h : rules.find? p = some r) :
    (unshadowWarpRules rules).find? p = some r ↔
      (∀ x ∈ rules, p x = true → rankOf r ≤ rankOf x) ∧
        (bucket r = .catchDirect → ∀ x ∈ rules, bucket x ≠ .catchWarp) := by
  have hmem : r ∈ rules := List.mem_of_find?_eq_some h
  rw [unshadow_eq, find?_dedupe]
  by_cases hkept : r ∈ kept rules
  · have hfirst : (kept rules).find? p = some r := by
      rw [kept] at hkept ⊢
      split
      case isTrue hwarp =>
        rw [if_pos hwarp] at hkept
        exact find?_filter_of_find? h (List.mem_filter.mp hkept).2
      case isFalse => exact h
    rw [find?_byRank_iff hfirst (bucket r).rank_lt]
    constructor
    · intro hall
      refine ⟨fun x hx hp => ?_, (mem_kept.mp hkept).2⟩
      by_cases hx' : x ∈ kept rules
      · exact hall x hx' hp
      · -- Only rules of the last group are dropped.
        have hlast : bucket x = .catchDirect := by
          by_contra hne
          exact hx' (mem_kept.mpr ⟨hx, fun heq => absurd heq hne⟩)
        have hrank : rankOf x = 5 := by rw [rankOf, hlast, Bucket.rank]
        have hlt : rankOf r < 6 := (bucket r).rank_lt
        omega
    · intro hall x hx hp
      exact hall.1 x (mem_kept.mp hx).1 hp
  · constructor
    · intro hfind
      have hsorted := mem_byRank.mp (List.mem_of_find?_eq_some hfind)
      exact absurd hsorted.1 hkept
    · intro hall
      exact absurd (mem_kept.mpr ⟨hmem, hall.2⟩) hkept

def apiRank (r : Rule) : Nat := if isApiInboundRule r then 0 else 1

def addedApiRule (data : Payload) : List Rule :=
  if data.rules.any isApiInboundRule || !data.inbounds.any (fun ib => ib.tag = "API_INBOUND")
  then [] else [apiInboundRule]

theorem addedApiRule_cases (data : Payload) :
    addedApiRule data = [] ∨ addedApiRule data = [apiInboundRule] := by
  rw [addedApiRule]
  split
  · exact .inl rfl
  · exact .inr rfl

theorem byRank_apiRank (rules : List Rule) :
    byRank apiRank 2 rules =
      rules.filter isApiInboundRule ++ rules.filter fun r => !isApiInboundRule r := by
  have hzero : (rules.filter fun r => apiRank r = 0) = rules.filter isApiInboundRule := by
    congr 1
    funext r
    cases h : isApiInboundRule r <;> simp [apiRank, h]
  have hone : (rules.filter fun r => apiRank r = 1) =
      rules.filter fun r => !isApiInboundRule r := by
    congr 1
    funext r
    cases h : isApiInboundRule r <;> simp [apiRank, h]
  rw [← hzero, ← hone]
  simp [byRank, List.range_succ]

theorem rules_pinApiInboundRoute :
    (pinApiInboundRoute data).rules = addedApiRule data ++ byRank apiRank 2 data.rules := by
  rw [byRank_apiRank, pinApiInboundRoute, addedApiRule]
  by_cases hapi : data.rules.any isApiInboundRule
  · have hne : (data.rules.filter isApiInboundRule).isEmpty = false := by simpa using hapi
    simp only [hapi, hne, Bool.true_or, if_true, Bool.false_eq_true, if_false, List.nil_append]
    rfl
  · have hempty : data.rules.filter isApiInboundRule = [] := by simpa using hapi
    have hall : (data.rules.filter fun r => !isApiInboundRule r) = data.rules := by
      simpa [List.filter_eq_self] using hapi
    by_cases hib : data.inbounds.any fun ib => ib.tag = "API_INBOUND"
    · simp only [hapi, hempty, hib, hall, List.isEmpty_nil, if_true, Bool.not_true, Bool.or_self,
        Bool.false_eq_true, if_false, List.nil_append]
      rfl
    · simp [hapi, hempty, hib, hall]

theorem find?_byRank_apiRank_unshadow :
    (byRank apiRank 2 (unshadowWarpRules rules)).find? p =
      (unshadowWarpRules rules).find? p := by
  apply find?_byRank_of_le
  · intro a
    rw [apiRank]
    split
    · decide
    · decide
  · intro a b ha hb hp
    rw [unshadow_eq, find?_dedupe] at ha
    rw [unshadow_eq, mem_dedupe] at hb
    have hle := rank_le_of_find?_byRank ha (mem_byRank.mp hb).1 hp
    rw [apiRank, apiRank]
    by_cases hapi : isApiInboundRule b
    · have hzero : rankOf a = 0 := by
        have hb0 := rankOf_eq_zero_iff.mpr hapi
        omega
      simp [rankOf_eq_zero_iff.mp hzero]
    · simp only [hapi]
      split
      · decide
      · decide

theorem applies_apiInboundRule :
    Rule.applies m f apiInboundRule = decide (f.inboundTag = "API_INBOUND") := by
  simp [Rule.applies, apiInboundRule, anyOf, coversNetwork]

def escapes : List Rule := [warpBypassRule, warpPrivateDirectRule, warpDnsDirectRule]

theorem mem_escapes_of_mem_missingEscapes (h : r ∈ missingEscapes rules) : r ∈ escapes := by
  simp only [missingEscapes, List.mem_append] at h
  simp only [escapes, List.mem_cons, List.not_mem_nil, or_false]
  obtain (h | h) | h := h
  · exact .inl (by simpa using (List.mem_ite_nil_left.mp h).2)
  · exact .inr (.inl (by simpa using (List.mem_ite_nil_left.mp h).2))
  · exact .inr (.inr (by simpa using (List.mem_ite_nil_left.mp h).2))

theorem any_missingEscapes_append {q : Rule → Bool} (h : ∀ x ∈ escapes, q x = false) :
    (missingEscapes rules ++ rules).any q = rules.any q := by
  rw [List.any_append]
  have hnone : (missingEscapes rules).any q = false := by
    rw [List.any_eq_false]
    intro x hx
    simp [h x (mem_escapes_of_mem_missingEscapes hx)]
  rw [hnone, Bool.false_or]

theorem missingDefault_escapes {outbounds : List Outbound} {rules' : List Rule}
    (h : ∀ x, x ∈ rules ↔ x ∈ rules') :
    missingDefault outbounds (missingEscapes rules ++ rules) = missingDefault outbounds rules' := by
  have hany : ∀ q : Rule → Bool, rules.any q = rules'.any q := by
    intro q
    rw [Bool.eq_iff_iff, List.any_eq_true, List.any_eq_true]
    simp [h]
  have hsplit : (missingEscapes rules ++ rules).any Rule.marksSplit =
      rules'.any Rule.marksSplit := by
    rw [any_missingEscapes_append (by decide), hany]
  have hdefault : ∀ tag, hasWarpDefaultRule (missingEscapes rules ++ rules) tag =
      hasWarpDefaultRule rules' tag := by
    intro tag
    rw [hasWarpDefaultRule, hasWarpDefaultRule, ← hany]
    apply any_missingEscapes_append
    have hcatch : ∀ x ∈ escapes, isCatchAllNetworkRule x = false := by decide
    intro x hx
    simp [hcatch x hx]
  cases outbounds with
  | nil => rfl
  | cons first rest =>
    cases hwarp : warpOutbounds (first :: rest) with
    | nil => simp only [missingDefault, hwarp]
    | cons warp others => simp only [missingDefault, hwarp, hsplit, hdefault]

def contenders (data : Payload) : List Rule :=
  retargeted data ++ missingDefault data.outbounds (retargeted data)

def sortInput (data : Payload) : List Rule :=
  let rules := missingEscapes (rewriteMissingWarpRoutes data).rules ++
    (rewriteMissingWarpRoutes data).rules
  dedupe (rules ++ missingDefault data.outbounds rules)

theorem mem_sortInput : r ∈ sortInput data ↔
    r ∈ missingEscapes (rewriteMissingWarpRoutes data).rules ∨ r ∈ contenders data := by
  simp only [sortInput, mem_dedupe, List.mem_append, contenders, mem_rewriteMissing,
    missingDefault_escapes (fun _ => mem_rewriteMissing)]
  tauto

theorem eq_default_of_mem_missingDefault {outbounds : List Outbound}
    (h : r ∈ missingDefault outbounds rules) : ∃ ob ∈ outbounds, r = warpDefaultRule ob.tag := by
  cases outbounds with
  | nil => simp [missingDefault] at h
  | cons first rest =>
    cases hwarp : warpOutbounds (first :: rest) with
    | nil => simp [missingDefault, hwarp] at h
    | cons warp others =>
      simp only [missingDefault, hwarp, List.mem_ite_nil_right, List.mem_singleton,
        Bool.and_eq_true, decide_eq_true_eq] at h
      obtain ⟨⟨⟨-, hfirst⟩, -⟩, rfl⟩ := h
      exact ⟨first, List.mem_cons_self, by rw [hfirst]⟩

theorem isApi_warpDefaultRule {tag : String} : isApiInboundRule (warpDefaultRule tag) = false := by
  simp [isApiInboundRule, warpDefaultRule]

theorem any_isApi_sortInput :
    (sortInput data).any isApiInboundRule = data.rules.any isApiInboundRule := by
  have hescape : ∀ x ∈ escapes, isApiInboundRule x = false := by decide
  rw [Bool.eq_iff_iff, List.any_eq_true, List.any_eq_true]
  constructor
  · intro h
    obtain ⟨x, hx, hapi⟩ := h
    obtain hx | hx := mem_sortInput.mp hx
    · exact absurd hapi (by simp [hescape x (mem_escapes_of_mem_missingEscapes hx)])
    · obtain hx | hx := List.mem_append.mp hx
      · obtain ⟨y, hy, rfl⟩ := List.mem_map.mp hx
        exact ⟨y, hy, isApi_retarget.symm.trans hapi⟩
      · obtain ⟨ob, -, rfl⟩ := eq_default_of_mem_missingDefault hx
        exact absurd hapi (by simp [isApi_warpDefaultRule])
  · intro h
    obtain ⟨y, hy, hapi⟩ := h
    have hmem : retarget (missingWarpTags data) y ∈ contenders data :=
      List.mem_append_left _ (List.mem_map_of_mem hy)
    exact ⟨_, mem_sortInput.mpr (.inr hmem), isApi_retarget.trans hapi⟩

theorem mem_unshadow : r ∈ unshadowWarpRules rules ↔ r ∈ kept rules := by
  rw [unshadow_eq, mem_dedupe, mem_byRank]
  exact and_iff_left (bucket r).rank_lt

theorem any_isApi_unshadow :
    (unshadowWarpRules rules).any isApiInboundRule = rules.any isApiInboundRule := by
  rw [Bool.eq_iff_iff, List.any_eq_true, List.any_eq_true]
  constructor
  · intro h
    obtain ⟨x, hx, hapi⟩ := h
    exact ⟨x, (mem_kept.mp (mem_unshadow.mp hx)).1, hapi⟩
  · intro h
    obtain ⟨x, hx, hapi⟩ := h
    have hbucket : bucket x = .api := by simp [bucket, hapi]
    refine ⟨x, mem_unshadow.mpr (mem_kept.mpr ⟨hx, ?_⟩), hapi⟩
    rw [hbucket]
    intro heq
    cases heq

theorem find?_applyWarpSafeRouting (h : warpOutbounds data.outbounds ≠ []) :
    (applyWarpSafeRouting address data).rules.find? p =
      ((addedApiRule data).find? p).or ((unshadowWarpRules (sortInput data)).find? p) := by
  have hne : (warpOutbounds (rewriteMissingWarpRoutes data).outbounds).isEmpty = false := by
    simpa using h
  have hadded : ∀ d : Payload, d.rules = unshadowWarpRules (sortInput data) →
      d.inbounds = data.inbounds → addedApiRule d = addedApiRule data := by
    intro d hrules hinbounds
    rw [addedApiRule, addedApiRule, hrules, hinbounds, any_isApi_unshadow, any_isApi_sortInput]
  rw [applyWarpSafeRouting]
  simp only [hne, Bool.false_eq_true, if_false]
  rw [rules_pinApiInboundRoute, List.find?_append]
  rw [hadded _ (by simp [Payload.rules, sortInput]) (by simp)]
  have hrules : ∀ d : Payload, d.rules = unshadowWarpRules (sortInput data) →
      (byRank apiRank 2 d.rules).find? p = (unshadowWarpRules (sortInput data)).find? p := by
    intro d hd
    rw [hd, find?_byRank_apiRank_unshadow]
  rw [hrules _ (by simp [Payload.rules, sortInput])]

theorem mem_applyWarpSafeRouting (h : warpOutbounds data.outbounds ≠ []) :
    r ∈ (applyWarpSafeRouting address data).rules ↔
      r ∈ addedApiRule data ++ unshadowWarpRules (sortInput data) :=
  mem_iff_of_find?_eq fun _ => (find?_applyWarpSafeRouting h).trans List.find?_append.symm

/-- The rule's outbound exists and, if there is a WARP outbound, no rule of an earlier group holds
for the flow, no default displaces the rule, and no API rule is put in front of it. -/
def Undisturbed (m : Matcher) (data : Payload) (f : Flow) (r : Rule) : Prop :=
  r.outboundTag ∉ missingWarpTags data ∧
  (warpOutbounds data.outbounds ≠ [] →
    (∀ x ∈ contenders data, x.applies m f = true → rankOf r ≤ rankOf x) ∧
    (bucket r = .catchDirect → ∀ x ∈ contenders data, bucket x ≠ .catchWarp) ∧
    (f.inboundTag = "API_INBOUND" → addedApiRule data = []))

theorem not_mem_applyWarpSafeRouting (h : r.outboundTag ∈ missingWarpTags data) :
    r ∉ (applyWarpSafeRouting address data).rules := by
  have hwarp := isWarpTag_of_mem_missing h
  have hcontender : r ∉ contenders data := by
    intro hmem
    obtain hmem | hmem := List.mem_append.mp hmem
    · exact outboundTag_retargeted hmem h
    · obtain ⟨ob, hob, rfl⟩ := eq_default_of_mem_missingDefault hmem
      exact not_mem_missing_of_present hob h
  by_cases hpresent : warpOutbounds data.outbounds = []
  · simp only [applyWarpSafeRouting, rewriteMissing_outbounds, hpresent, List.isEmpty_nil, if_true,
      mem_rewriteMissing]
    exact fun hmem => hcontender (List.mem_append_left _ hmem)
  · rw [mem_applyWarpSafeRouting hpresent, List.mem_append, mem_unshadow]
    intro hmem
    obtain hmem | hmem := hmem
    · have heq : r = apiInboundRule := by
        obtain hempty | hadded := addedApiRule_cases data
        · simp [hempty] at hmem
        · simpa [hadded] using hmem
      rw [heq] at hwarp
      exact absurd hwarp (by decide)
    · obtain hmem | hmem := mem_sortInput.mp (mem_kept.mp hmem).1
      · have htags : ∀ x ∈ escapes, isWarpTag x.outboundTag = false := by decide
        exact absurd hwarp (by simp [htags r (mem_escapes_of_mem_missingEscapes hmem)])
      · exact hcontender hmem

theorem find?_retargeted (h : decidingRule m data.rules f = some r)
    (hkeep : r.outboundTag ∉ missingWarpTags data) :
    (retargeted data).find? (Rule.applies m f) = some r := by
  have happlies : (Rule.applies m f ∘ retarget (missingWarpTags data)) = Rule.applies m f := by
    funext x
    exact applies_retarget
  have hsame : retarget (missingWarpTags data) r = r := by simp [retarget, hkeep]
  rw [decidingRule] at h
  rw [retargeted, List.find?_map, happlies, h, Option.map_some, hsame]

theorem find?_sortInput (hescape : ∀ x ∈ escapes, x.applies m f = false)
    (h : (retargeted data).find? (Rule.applies m f) = some r) :
    (sortInput data).find? (Rule.applies m f) = some r := by
  have hfront : (missingEscapes (rewriteMissingWarpRoutes data).rules).find? (Rule.applies m f) =
      none := by
    rw [List.find?_eq_none]
    intro x hx
    simp [hescape x (mem_escapes_of_mem_missingEscapes hx)]
  rw [sortInput, find?_dedupe, List.find?_append, List.find?_append, hfront, Option.none_or,
    find?_rewriteMissing, h, Option.some_or]

theorem find?_unshadow_sortInput_iff (hescape : ∀ x ∈ escapes, x.applies m f = false)
    (h : (retargeted data).find? (Rule.applies m f) = some r) :
    (unshadowWarpRules (sortInput data)).find? (Rule.applies m f) = some r ↔
      (∀ x ∈ contenders data, x.applies m f = true → rankOf r ≤ rankOf x) ∧
        (bucket r = .catchDirect → ∀ x ∈ contenders data, bucket x ≠ .catchWarp) := by
  have hbucket : ∀ x ∈ escapes, bucket x ≠ .catchWarp := by decide +kernel
  rw [find?_unshadow_iff (find?_sortInput hescape h)]
  constructor
  · intro hall
    exact ⟨fun x hx => hall.1 x (mem_sortInput.mpr (.inr hx)),
      fun hlast x hx => hall.2 hlast x (mem_sortInput.mpr (.inr hx))⟩
  · intro hall
    constructor
    · intro x hx happlies
      obtain hx | hx := mem_sortInput.mp hx
      · simp [hescape x (mem_escapes_of_mem_missingEscapes hx)] at happlies
      · exact hall.1 x hx happlies
    · intro hlast x hx
      obtain hx | hx := mem_sortInput.mp hx
      · exact hbucket x (mem_escapes_of_mem_missingEscapes hx)
      · exact hall.2 hlast x hx

/-- The pass keeps the deciding rule exactly if nothing it does concerns that rule. -/
theorem decision_kept_iff (m : Matcher) (address : Option String) (data : Payload) (f : Flow)
    (r : Rule)
    (hescape : ∀ x ∈ escapes, x.applies m f = false)
    (h : decidingRule m data.rules f = some r) :
    decidingRule m (applyWarpSafeRouting address data).rules f = some r ↔
      Undisturbed m data f r := by
  by_cases hmissing : r.outboundTag ∈ missingWarpTags data
  · constructor
    · intro hafter
      exact absurd (List.mem_of_find?_eq_some hafter) (not_mem_applyWarpSafeRouting hmissing)
    · intro hundisturbed
      exact absurd hmissing hundisturbed.1
  have hretargeted := find?_retargeted h hmissing
  by_cases hpresent : warpOutbounds data.outbounds = []
  · have hafter : (applyWarpSafeRouting address data).rules =
        (rewriteMissingWarpRoutes data).rules := by
      simp only [applyWarpSafeRouting, rewriteMissing_outbounds, hpresent, List.isEmpty_nil,
        if_true]
    rw [decidingRule, hafter, find?_rewriteMissing, hretargeted]
    simp [Undisturbed, hmissing, hpresent]
  rw [decidingRule, find?_applyWarpSafeRouting hpresent, Undisturbed]
  by_cases hpinned : f.inboundTag = "API_INBOUND" → addedApiRule data = []
  · have hnone : (addedApiRule data).find? (Rule.applies m f) = none := by
      obtain hempty | hadded := addedApiRule_cases data
      · rw [hempty, List.find?_nil]
      · rw [hadded] at hpinned
        simpa [hadded, applies_apiInboundRule] using hpinned
    rw [hnone, Option.none_or, find?_unshadow_sortInput_iff hescape hretargeted]
    tauto
  · -- An API rule is added in front, so the input has none and the deciding rule is another one.
    obtain ⟨hinbound, hadded⟩ := Classical.not_imp.mp hpinned
    have heq : addedApiRule data = [apiInboundRule] :=
      (addedApiRule_cases data).resolve_left hadded
    have hnotapi : isApiInboundRule r = false := by
      by_contra hapi
      have hany : data.rules.any isApiInboundRule = true :=
        List.any_eq_true.mpr ⟨r, List.mem_of_find?_eq_some h, by simpa using hapi⟩
      exact hadded (by simp [addedApiRule, hany])
    have hne : apiInboundRule ≠ r := by
      intro heq
      rw [← heq] at hnotapi
      exact absurd hnotapi (by decide)
    simp [heq, applies_apiInboundRule, hinbound, hne, hpresent]

def literalMatcher : Matcher where
  user e u := e = u
  domain e name := e = "domain:" ++ name || (e = "geosite:youtube" && name = "youtube.com")
  ip e address := e = address || (e = "geoip:private" && address = "127.0.0.1")
  port e n := e = toString n
  protocol e name := e = name
  loopback := by decide

def guardedPayload : Payload :=
  FamilyGuard.applyFamilyGuardServerRouting
    { outbounds := [{ tag := "DIRECT", protocol := "freedom" },
        { tag := "warp", protocol := "wireguard"
          endpoint := some "engage.cloudflareclient.com:2408" }]
      inbounds := [⟨"in1", "vless", false⟩]
      routing := some [{ domain := ["domain:youtube.com"], outboundTag := "warp" }] }
    [⟨7, "kid", some ⟨[], ["youtube"], []⟩⟩]

def guardedFlow : Flow where
  user := some "7.kid"
  domain := some "youtube.com"
  ip := none
  port := 443
  network := "tcp"
  inboundTag := "in1"
  protocol := some "tls"
  source := "10.1.2.3"

def exemptPayload : Payload :=
  { guardedPayload with
    routing := some [{ user := ["7.kid"], network := "tcp,udp", outboundTag := "DIRECT" },
      { network := "tcp,udp", outboundTag := "warp" }] }

/-- A family's block is overtaken by WARP, and an exemption removed. -/
theorem block_overtaken :
    let before data := (decidingRule literalMatcher data.rules guardedFlow).map Rule.outboundTag
    let after data := before (applyWarpSafeRouting none data)
    (before guardedPayload = some "BLOCK" ∧ after guardedPayload = some "warp") ∧
    (before exemptPayload = some "DIRECT" ∧ after exemptPayload = some "warp") ∧
    ∀ x ∈ escapes, x.applies literalMatcher guardedFlow = false := by
  decide +kernel

def unsharedPayload : Payload :=
  FamilyGuard.applyFamilyGuardServerRouting guardedPayload
    [⟨7, "kid", some ⟨["games.example"], [], []⟩⟩]

def unsharedFlow : Flow := { guardedFlow with domain := some "games.example" }

/-- A block of a host that WARP does not route is kept; that of `guardedPayload` is disturbed. -/
theorem unshared_block_kept :
    decidingRule literalMatcher (applyWarpSafeRouting none unsharedPayload).rules unsharedFlow =
      some (FamilyGuard.guardRule "7.kid" ["domain:games.example", "full:games.example"] []) ∧
    ¬ Undisturbed literalMatcher guardedPayload guardedFlow
      ((decidingRule literalMatcher guardedPayload.rules guardedFlow).get (by decide +kernel)) := by
  constructor
  · refine (decision_kept_iff literalMatcher none unsharedPayload unsharedFlow _
      (by decide +kernel) (by decide +kernel)).mpr ⟨by decide +kernel, fun _ => ⟨?_, ?_, ?_⟩⟩
    all_goals decide +kernel
  · intro hundisturbed
    have hkept := (decision_kept_iff literalMatcher none guardedPayload guardedFlow _
      (by decide +kernel) (Option.some_get _).symm).mpr hundisturbed
    exact absurd hkept (by decide +kernel)

end Shahkar.Xray.Routing
