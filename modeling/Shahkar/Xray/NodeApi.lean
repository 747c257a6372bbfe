import Shahkar.Xray.ApiRoute

/-!
# The API of a node's core

What each step of `apply_node_warp_policy` does to the rule that decides a connection to the core's
API, and from that whether an API rule decides it in the end.
-/

namespace Shahkar.Xray.Routing

open Shahkar.Lib Shahkar.Lib.Text

variable {m : Matcher} {f : Flow} {data : Payload} {rules : List Rule} {r : Rule}
  {p : Rule → Bool} {address : Option String} {n : Nat} {tag : String}

/-- A connection to the core's API: TCP to the loopback address through the API's inbound. -/
structure ApiFlow (f : Flow) : Prop where
  inbound : f.inboundTag = "API_INBOUND"
  network : f.network = "tcp"
  ip : f.ip = some "127.0.0.1"

def matchesOn (m : Matcher) (f : Flow) (n : Nat) (r : Rule) : Bool :=
  r.applies m f && !(n ≠ 0 && namesTproxy n r)

@[simp] theorem matchesOn_zero : matchesOn m f 0 = Rule.applies m f := by
  funext r
  simp [matchesOn]

/-!
### The rules that the passes add
-/

theorem applies_warpPrivateDirectRule (h : ApiFlow f) :
    warpPrivateDirectRule.applies m f = true := by
  simp [Rule.applies, warpPrivateDirectRule, anyOf, coversNetwork, h.ip, m.loopback]

theorem not_applies_udp (h : ApiFlow f) (hr : r.network = "udp") : r.applies m f = false := by
  have hnetwork : coversNetwork r.network f.network = false := by
    rw [hr, h.network]
    decide
  simp [Rule.applies, hnetwork]

theorem api_ne_warpTproxyInboundTag : "API_INBOUND" ≠ warpTproxyInboundTag n := by
  intro h
  have hlist := congrArg String.toList h
  simp [warpTproxyInboundTag] at hlist

theorem not_isFinalmask_api : isFinalmaskInboundTag n "API_INBOUND" = false := by
  have hne : "API_INBOUND" ≠ xrayWgInboundTag n := by
    intro h
    have hlist := congrArg String.toList h
    simp [xrayWgInboundTag] at hlist
  have hstart : startsWith (xrayWgInboundTag n ++ "-") "API_INBOUND" = false := by
    simp [startsWith, xrayWgInboundTag, List.isPrefixOf]
  simp [isFinalmaskInboundTag, hne, hstart]

theorem not_applies_tproxy (h : ApiFlow f) :
    Rule.applies m f { inboundTag := [warpTproxyInboundTag n], outboundTag := tag } = false := by
  apply not_applies_of_inboundTag
  · simp
  · rw [h.inbound, List.mem_singleton]
    exact api_ne_warpTproxyInboundTag

theorem isFinalmask_of_mem_shardTags (h : tag ∈ shardTags data n) :
    isFinalmaskInboundTag n tag = true := by
  rw [shardTags] at h
  split at h
  · rw [List.mem_singleton.mp h]
    simp [isFinalmaskInboundTag]
  · have hfilter : tag ∈ (data.inbounds.map Inbound.tag).filter (isFinalmaskInboundTag n) := h
    exact (List.mem_filter.mp hfilter).2

theorem shardTags_ne_nil : shardTags data n ≠ [] := by
  rw [shardTags]
  split
  · simp
  · assumption

theorem not_applies_shards (h : ApiFlow f) :
    Rule.applies m f { inboundTag := shardTags data n, outboundTag := tag } = false := by
  apply not_applies_of_inboundTag shardTags_ne_nil
  rw [h.inbound]
  intro hmem
  have hfinalmask := isFinalmask_of_mem_shardTags hmem
  rw [not_isFinalmask_api] at hfinalmask
  cases hfinalmask

theorem find?_filter_namesTproxy (hn : n ≠ 0) :
    (rules.filter fun r => !namesTproxy n r).find? (Rule.applies m f) =
      rules.find? (matchesOn m f n) := by
  rw [List.find?_filter]
  congr 1
  funext r
  cases hr : namesTproxy n r <;> simp [matchesOn, hr, hn]

theorem find?_injectWarpTproxyInbound (h : ApiFlow f) (hn : n ≠ 0) (catchAll : Bool) :
    (injectWarpTproxyInbound data n tag catchAll).rules.find? (Rule.applies m f) =
      data.rules.find? (matchesOn m f n) := by
  cases catchAll with
  | true =>
    have hrules : (injectWarpTproxyInbound data n tag true).rules =
        { inboundTag := [warpTproxyInboundTag n], outboundTag := tag } ::
          data.rules.filter fun r => !namesTproxy n r := rfl
    rw [hrules, List.find?_cons_of_neg (by simp [not_applies_tproxy h]),
      find?_filter_namesTproxy hn]
  | false =>
    have hrules : (injectWarpTproxyInbound data n tag false).rules =
        (data.rules.filter fun r => !namesTproxy n r) ++
          [{ inboundTag := [warpTproxyInboundTag n], outboundTag := "DIRECT" }] := rfl
    rw [hrules, List.find?_append, find?_filter_namesTproxy hn,
      List.find?_cons_of_neg (by simp [not_applies_tproxy h]), List.find?_nil, Option.or_none]

theorem find?_retargetXrayWgToWarp (h : ApiFlow f) :
    (retargetXrayWgToWarp data n tag).rules.find? (matchesOn m f n) =
      (data.rules.find? (matchesOn m f n)).map (toWarp n tag) := by
  have hmoved : matchesOn m f n ∘ toWarp n tag = matchesOn m f n := by
    funext r
    simp only [Function.comp_apply, toWarp]
    split
    · rfl
    · rfl
  have hshards :
      matchesOn m f n { inboundTag := shardTags data n, outboundTag := tag } = false := by
    simp [matchesOn, not_applies_shards h]
  cases hrouting : data.routing with
  | none => simp [retargetXrayWgToWarp, Payload.rules, hrouting]
  | some rules =>
    have hrules : (retargetXrayWgToWarp data n tag).rules =
        if rules.any (namesFinalmask n) then rules.map (toWarp n tag)
        else { inboundTag := shardTags data n, outboundTag := tag } ::
          rules.map (toWarp n tag) := by
      simp only [retargetXrayWgToWarp, Payload.rules, hrouting, Option.map_some, Option.getD_some]
    rw [hrules, Payload.rules, hrouting, Option.getD_some]
    split
    · rw [List.find?_map, hmoved]
    · rw [List.find?_cons_of_neg (by simp [hshards]), List.find?_map, hmoved]

theorem find?_refreshSensitiveQuicBlock (hp : ∀ r, r.isQuicBlock = true → p r = false) :
    (refreshSensitiveQuicBlock data).rules.find? p = data.rules.find? p := by
  have hkept : (data.rules.filter fun r => !r.isQuicBlock).find? p = data.rules.find? p := by
    rw [List.find?_filter]
    congr 1
    funext r
    cases hr : r.isQuicBlock with
    | false => simp
    | true => simp [hp r hr]
  rw [refreshSensitiveQuicBlock]
  by_cases htags : sensitiveQuicInboundTags data = []
  · simp only [htags, List.isEmpty_nil, if_true]
    exact hkept
  · have hne : (sensitiveQuicInboundTags data).isEmpty = false := by simpa using htags
    have hblock : (sensitiveQuicBlockRule (sensitiveQuicInboundTags data)).isQuicBlock = true := by
      simp [sensitiveQuicBlockRule, Rule.isQuicBlock, htags]
    simp only [hne, Bool.false_eq_true, if_false]
    have hinsert : ∀ (xs ys : List Rule) (b : Rule), p b = false →
        (xs ++ b :: ys).find? p = (xs ++ ys).find? p := by
      intro xs ys b hb
      rw [List.find?_append, List.find?_append, List.find?_cons_of_neg (by simp [hb])]
    rw [Payload.rules, Option.getD_some, hinsert _ _ _ (hp _ hblock),
      List.takeWhile_append_dropWhile]
    exact hkept

def KeptWithoutWarp (p : Rule → Bool) (data : Payload) : Prop :=
  (data.rules.find? fun r => p r && !(removedTags data ≠ [] && isSensitiveWarpRule r)).any
      isApiInboundRule = true ∧
    "API" ∉ removedTags data

theorem rules_stripSensitiveWarpRouting : (stripSensitiveWarpRouting data).rules =
    data.rules.filter fun r => !isSensitiveWarpRule r := by
  cases hrouting : data.routing with
  | none => simp [stripSensitiveWarpRouting, Payload.rules, hrouting]
  | some rules => simp [stripSensitiveWarpRouting, Payload.rules, hrouting]

theorem isApi_retarget_iff {targets : List String} :
    isApiInboundRule (retarget targets r) = true ↔
      isApiInboundRule r = true ∧ "API" ∉ targets := by
  by_cases hr : isApiInboundRule r = true
  · have htag := outboundTag_of_isApi hr
    by_cases htargets : "API" ∈ targets
    · simp [retarget, htag, htargets, isApiInboundRule]
    · simp [retarget, htag, htargets, hr]
  · by_cases htargets : r.outboundTag ∈ targets
    · have hdirect : isApiInboundRule (retarget targets r) = false := by
        simp [retarget, htargets, isApiInboundRule]
      simp [hdirect, hr]
    · simp [retarget, htargets, hr]

theorem apiDecides_stripWarpFromConfig (hp : ∀ r tag, p { r with outboundTag := tag } = p r) :
    ApiDecides p (stripWarpFromConfig data).rules ↔ KeptWithoutWarp p data := by
  have hretarget : ∀ targets, p ∘ retarget targets = p := by
    intro targets
    funext r
    simp only [Function.comp_apply, retarget]
    split
    · exact hp r _
    · rfl
  rw [ApiDecides, KeptWithoutWarp]
  by_cases htags : removedTags data = []
  · have hmissing : missingWarpTags data = [] := by
      have hfilter := (List.append_eq_nil_iff.mp htags).2
      rw [List.eq_nil_iff_forall_not_mem] at hfilter ⊢
      intro tag hmem
      have hwarp := isWarpTag_of_mem_missing hmem
      exact hfilter tag (List.mem_filter.mpr ⟨(List.mem_filter.mp hmem).1, hwarp⟩)
    have hresult : stripWarpFromConfig data = rewriteMissingWarpRoutes data := by
      simp [stripWarpFromConfig, htags]
    have hid : retarget [] = id := by
      funext r
      simp [retarget]
    rw [hresult, find?_rewriteMissing, retargeted, hmissing, hid, List.map_id]
    simp [htags]
  · have hresult : stripWarpFromConfig data =
        rewriteWarpRoutes (stripSensitiveWarpRouting { data with
          outbounds := data.outbounds.filter fun o => !(removedTags data).contains o.tag })
          ((removedTags data).filter fun tag => !tag.isEmpty) := by
      simp [stripWarpFromConfig, htags, rewriteMissingWarpRoutes]
    have hrules : (stripSensitiveWarpRouting { data with
          outbounds := data.outbounds.filter fun o => !(removedTags data).contains o.tag }).rules =
        data.rules.filter fun r => !isSensitiveWarpRule r :=
      rules_stripSensitiveWarpRouting
    have hfind : ((data.rules.filter fun r => !isSensitiveWarpRule r).find? p) =
        data.rules.find? fun r =>
          p r && !(removedTags data ≠ [] && isSensitiveWarpRule r) := by
      rw [List.find?_filter]
      congr 1
      funext r
      cases isSensitiveWarpRule r <;> simp [htags]
    rw [hresult, find?_rewriteWarpRoutes, hrules, List.find?_map, hretarget, hfind]
    cases data.rules.find? fun r => p r && !(removedTags data ≠ [] && isSensitiveWarpRule r) with
    | none => simp
    | some r =>
      rw [Option.map_some, Option.any_some, Option.any_some, isApi_retarget_iff]
      simp

theorem apiDecides_withoutWarp :
    ApiDecides (Rule.applies m f) (withoutWarp data n).rules ↔
      KeptWithoutWarp (matchesOn m f n) data := by
  by_cases hn : n = 0
  · rw [withoutWarp, if_pos hn, hn, matchesOn_zero]
    exact apiDecides_stripWarpFromConfig fun _ _ => rfl
  · rw [withoutWarp, if_neg hn, ← apiDecides_stripWarpFromConfig fun _ _ => rfl, ApiDecides,
      ApiDecides]
    have hrules : (stripWarpTproxyInbound (stripWarpFromConfig data) n).rules =
        (stripWarpFromConfig data).rules.filter fun r => !namesTproxy n r := by
      cases hrouting : (stripWarpFromConfig data).routing with
      | none => simp [stripWarpTproxyInbound, Payload.rules, hrouting]
      | some rules => simp [stripWarpTproxyInbound, Payload.rules, hrouting]
    rw [hrules, find?_filter_namesTproxy hn]

def KeptInSplit (p : Rule → Bool) (data : Payload) : Prop :=
  (∃ r ∈ data.rules, isApiInboundRule r = true ∧ isSensitiveWarpRule r = false ∧ p r = true) ∨
  ((∀ r ∈ data.rules, isApiInboundRule r = true → isSensitiveWarpRule r = true) ∧
    ∃ ib ∈ data.inbounds, ib.tag = "API_INBOUND")

theorem not_isApi_of_isQuicBlock (h : r.isQuicBlock = true) : isApiInboundRule r = false := by
  have htag : r.outboundTag = "BLOCK" := by
    simp only [Rule.isQuicBlock, Bool.and_eq_true, decide_eq_true_eq] at h
    exact h.1.1.1
  simp [isApiInboundRule, htag]

theorem sameApi_refreshSensitiveQuicBlock :
    SameApi data.rules (refreshSensitiveQuicBlock data).rules := by
  intro q
  apply find?_refreshSensitiveQuicBlock
  intro r hr
  simp [not_isApi_of_isQuicBlock hr]

@[simp] theorem refreshSensitiveQuicBlock_inbounds :
    (refreshSensitiveQuicBlock data).inbounds = data.inbounds := by
  simp only [refreshSensitiveQuicBlock, ensureBlockOutbound]
  repeat' split
  all_goals rfl

variable {outbounds : List Outbound} {prepared : List Outbound} {ob : Outbound} {node : NodeWarp}
  {others : List Outbound} {target : Rule} {first : Outbound} {accounts : String → Option String}

theorem not_isApi_sensitiveDomainRules (htarget : target.inboundTag = []) :
    ∀ x ∈ sensitiveDomainRules target, isApiInboundRule x = false := by
  intro x hx
  simp only [sensitiveDomainRules, List.mem_append, List.mem_map] at hx
  obtain (⟨_, -, rfl⟩ | ⟨_, -, rfl⟩) | ⟨_, -, rfl⟩ := hx
  all_goals simp [isApiInboundRule, htarget]

theorem mem_of_mem_ite_cons {c : Bool} {x : Rule} (h : r ∈ if c then rules else x :: rules) :
    r = x ∨ r ∈ rules := by
  cases c with
  | false => exact List.mem_cons.mp h
  | true => exact .inr h

theorem mem_of_mem_ite_append {c : Bool} {x : Rule} (h : r ∈ if c then rules else rules ++ [x]) :
    r = x ∨ r ∈ rules := by
  cases c with
  | false => exact (List.mem_append.mp h).symm.imp_left List.mem_singleton.mp
  | true => exact .inr h

theorem sameApi_splitRules (htarget : target.inboundTag = []) :
    SameApi rules (splitRules rules target) := by
  have hescapes : ∀ x ∈ escapes, isApiInboundRule x = false := by decide
  have hwarp : isWarpTag "API" = false := by decide
  rw [splitRules]
  refine SameApi.trans ?_ sameApi_dedupe
  refine SameApi.trans ?_ (sameApi_append_left ?_)
  · refine SameApi.trans (sameApi_filter ?_) (sameApi_filter ?_)
    · intro r _ hr
      simp [outboundTag_of_isApi hr, hwarp]
    · exact fun r _ => not_isEscape_of_isApi
  · -- In front there are escapes, old and new, and the rules of the split.
    intro x hx
    obtain hx | hx := List.mem_append.mp hx
    · obtain hdns | hx := mem_of_mem_ite_append hx
      · exact hescapes x (by simp [hdns, escapes])
      obtain hprivate | hx := mem_of_mem_ite_append hx
      · exact hescapes x (by simp [hprivate, escapes])
      obtain hbypass | hx := mem_of_mem_ite_cons hx
      · exact hescapes x (by simp [hbypass, escapes])
      exact not_isApi_of_mem_escapes x hx
    · exact not_isApi_sensitiveDomainRules htarget x hx

@[simp] theorem installSplit_rules : (installSplit data prepared).rules = data.rules := by
  simp only [installSplit, ensureBlockOutbound]
  split
  · rfl
  · rfl

@[simp] theorem installSplit_inbounds : (installSplit data prepared).inbounds = data.inbounds := by
  simp only [installSplit, ensureBlockOutbound]
  split
  · rfl
  · rfl

theorem mem_installSplit_outbounds
    (h : ob ∈ prepared) : ob ∈ (installSplit data prepared).outbounds := by
  simp only [installSplit, ensureBlockOutbound]
  split
  · simp [h]
  · simp [h]

theorem applyWarpSafeRouting_inbounds :
    (applyWarpSafeRouting address data).inbounds = data.inbounds := by
  simp only [applyWarpSafeRouting, pinApiInboundRoute]
  repeat' split
  all_goals simp

theorem addedApiRule_of_sameApi {data' : Payload}
    (h : SameApi (addedApiRule data ++ data.rules) data'.rules)
    (hib : data'.inbounds = data.inbounds) : addedApiRule data' = [] := by
  have hany := h.any_eq
  by_cases hapi : data.rules.any isApiInboundRule = true
  · exact addedApiRule_eq_nil (by rw [hany, List.any_append, hapi, Bool.or_true])
  · by_cases hinbound : data.inbounds.any fun ib => ib.tag = "API_INBOUND"
    · have hadded : addedApiRule data = [apiInboundRule] := by
        simp only [addedApiRule, hapi, hinbound]
        decide
      have hisApi : isApiInboundRule apiInboundRule = true := by decide
      apply addedApiRule_eq_nil
      rw [hany, hadded, List.cons_append, List.any_cons, hisApi, Bool.true_or]
    · simp only [addedApiRule, hib, hinbound, Bool.not_false, Bool.or_true, if_true]

theorem sensitiveTarget_inboundTag : (sensitiveTarget outbounds).inboundTag = [] := by
  match outbounds with
  | [] => rfl
  | [_] => rfl
  | _ :: _ :: _ => rfl

section Split

variable {cleaned : Payload} {prepared : List Outbound}

theorem sameApi_sortedSplit (hclean : ∀ r ∈ cleaned.rules, isSensitiveWarpRule r = false)
    (hwarp : ∃ ob ∈ prepared, ob.isWarp = true) :
    SameApi (addedApiRule cleaned ++ cleaned.rules)
      (stripSensitiveWarpRouting
        (applyWarpSafeRouting address (installSplit cleaned prepared))).rules := by
  have hpresent : warpOutbounds (installSplit cleaned prepared).outbounds ≠ [] := by
    obtain ⟨ob, hob, hisWarp⟩ := hwarp
    exact List.ne_nil_of_mem (List.mem_filter.mpr ⟨mem_installSplit_outbounds hob, hisWarp⟩)
  have hadded : addedApiRule (installSplit cleaned prepared) = addedApiRule cleaned := by
    rw [addedApiRule, addedApiRule, installSplit_rules, installSplit_inbounds]
  have hsorted := sameApi_applyWarpSafeRouting address hpresent
  rw [hadded, installSplit_rules] at hsorted
  rw [rules_stripSensitiveWarpRouting]
  refine hsorted.trans (sameApi_filter fun r hr hapi => ?_)
  -- The API's rules in the sorted list are those of the input, or the added one.
  obtain hmem | hmem := List.mem_append.mp ((hsorted.mem_iff hapi).mp hr)
  · have heq : r = apiInboundRule := by
      obtain hempty | hone := addedApiRule_cases cleaned
      · simp [hempty] at hmem
      · simpa [hone] using hmem
    rw [heq]
    decide
  · simp [hclean r hmem]

theorem sameApi_finishSplit {sorted : Payload} (hinbounds : sorted.inbounds = cleaned.inbounds)
    (hsorted : SameApi (addedApiRule cleaned ++ cleaned.rules) sorted.rules) :
    SameApi (addedApiRule cleaned ++ cleaned.rules)
      (pinApiInboundRoute (refreshSensitiveQuicBlock
        { sorted with routing := some (splitRules sorted.rules (sensitiveTarget prepared)) })).rules
    := by
  have hsplit : SameApi (addedApiRule cleaned ++ cleaned.rules)
      (refreshSensitiveQuicBlock { sorted with
        routing := some (splitRules sorted.rules (sensitiveTarget prepared)) }).rules :=
    (hsorted.trans (sameApi_splitRules sensitiveTarget_inboundTag)).trans
      sameApi_refreshSensitiveQuicBlock
  have hadded := addedApiRule_of_sameApi hsplit
    (refreshSensitiveQuicBlock_inbounds.trans hinbounds)
  intro q
  rw [sameApi_pin, hadded, List.nil_append, hsplit]

end Split

theorem ensureWarpSensitiveExit_api (data : Payload)
    (hwarp : ∃ ob ∈ preparedOutbounds address outbounds, ob.isWarp = true) :
    SameApi (addedApiRule (stripSensitiveWarpRouting data) ++
        (stripSensitiveWarpRouting data).rules)
        (ensureWarpSensitiveExit address data outbounds).rules ∧
      Leads isApiInboundRule (ensureWarpSensitiveExit address data outbounds).rules := by
  have hne : (preparedOutbounds address outbounds).isEmpty = false := by
    obtain ⟨ob, hob, -⟩ := hwarp
    simpa using List.ne_nil_of_mem hob
  have hclean : ∀ r ∈ (stripSensitiveWarpRouting data).rules, isSensitiveWarpRule r = false := by
    intro r hr
    rw [rules_stripSensitiveWarpRouting] at hr
    simpa using (List.mem_filter.mp hr).2
  have hinbounds : (stripSensitiveWarpRouting (applyWarpSafeRouting address (installSplit
      (stripSensitiveWarpRouting data) (preparedOutbounds address outbounds)))).inbounds =
      (stripSensitiveWarpRouting data).inbounds :=
    applyWarpSafeRouting_inbounds.trans installSplit_inbounds
  rw [ensureWarpSensitiveExit]
  simp only [hne, Bool.false_eq_true, if_false]
  exact ⟨sameApi_finishSplit hinbounds (sameApi_sortedSplit hclean hwarp), leads_pin⟩

theorem matchesOn_apiInboundRule (h : ApiFlow f) : matchesOn m f n apiInboundRule = true := by
  have hnames : namesTproxy n apiInboundRule = false := by
    simpa [namesTproxy, apiInboundRule] using api_ne_warpTproxyInboundTag.symm
  simp [matchesOn, applies_apiInboundRule, h.inbound, hnames]

theorem not_applies_of_isQuicBlock (h : ApiFlow f) (hr : r.isQuicBlock = true) :
    r.applies m f = false := by
  simp only [Rule.isQuicBlock, Bool.and_eq_true, decide_eq_true_eq] at hr
  exact not_applies_udp h hr.1.1.2

theorem firstApi_added_isSome_iff (hp : p apiInboundRule = true) :
    (firstApi (addedApiRule data ++ data.rules) p).isSome = true ↔
      (∃ r ∈ data.rules, isApiInboundRule r = true ∧ p r = true) ∨
      ((∀ r ∈ data.rules, isApiInboundRule r = false) ∧
        ∃ ib ∈ data.inbounds, ib.tag = "API_INBOUND") := by
  have hisApi : isApiInboundRule apiInboundRule = true := by decide
  by_cases hapi : data.rules.any isApiInboundRule = true
  · have hnot : ¬ ∀ r ∈ data.rules, isApiInboundRule r = false := by
      intro hall
      obtain ⟨r, hr, hrapi⟩ := List.any_eq_true.mp hapi
      exact absurd hrapi (by simp [hall r hr])
    rw [addedApiRule_eq_nil hapi, List.nil_append, firstApi, List.find?_isSome]
    simp only [hnot, false_and, or_false, Bool.and_eq_true]
  · have hnone : ∀ r ∈ data.rules, isApiInboundRule r = false := by simpa using hapi
    have hrest : data.rules.find? (fun r => isApiInboundRule r && p r) = none := by
      rw [List.find?_eq_none]
      intro r hr
      simp [hnone r hr]
    have hnot : ¬ ∃ r ∈ data.rules, isApiInboundRule r = true ∧ p r = true := by
      intro hex
      obtain ⟨r, hr, hrapi, -⟩ := hex
      exact absurd hrapi (by simp [hnone r hr])
    have hany : data.rules.any isApiInboundRule = false := by simpa using hapi
    have hinbound : (∃ ib ∈ data.inbounds, ib.tag = "API_INBOUND") ↔
        (data.inbounds.any fun ib => ib.tag = "API_INBOUND") = true := by
      simp
    rw [firstApi, List.find?_append, hrest, Option.or_none, addedApiRule, hany, hinbound]
    cases data.inbounds.any fun ib => ib.tag = "API_INBOUND" with
    | false => simp [hnot]
    | true => simpa [hisApi, hp] using Or.inr hnone

theorem firstApi_cleaned_isSome_iff (hp : p apiInboundRule = true) :
    (firstApi (addedApiRule (stripSensitiveWarpRouting data) ++
      (stripSensitiveWarpRouting data).rules) p).isSome = true ↔ KeptInSplit p data := by
  have hinbounds : (stripSensitiveWarpRouting data).inbounds = data.inbounds := rfl
  rw [firstApi_added_isSome_iff hp, KeptInSplit, hinbounds, rules_stripSensitiveWarpRouting]
  simp only [List.mem_filter, Bool.not_eq_true']
  refine or_congr ?_ (and_congr_left fun _ => ?_)
  · constructor
    · intro h
      obtain ⟨r, ⟨hr, hunmarked⟩, hapi, hpass⟩ := h
      exact ⟨r, hr, hapi, hunmarked, hpass⟩
    · intro h
      obtain ⟨r, hr, hapi, hunmarked, hpass⟩ := h
      exact ⟨r, ⟨hr, hunmarked⟩, hapi, hpass⟩
  · refine forall_congr' fun r => ?_
    cases isApiInboundRule r <;> cases isSensitiveWarpRule r <;> simp

theorem apiDecides_sensitiveWarp (h : ApiFlow f)
    (hwarp : ∃ ob ∈ preparedOutbounds address outbounds, ob.isWarp = true) :
    ApiDecides (Rule.applies m f) (sensitiveWarp address data node outbounds).rules ↔
      KeptInSplit (matchesOn m f node.id) data := by
  obtain ⟨hsame, hleads⟩ := ensureWarpSensitiveExit_api data hwarp
  rw [← firstApi_cleaned_isSome_iff (matchesOn_apiInboundRule h),
    ← apiDecides_iff_of_leads hleads hsame]
  by_cases hn : node.id = 0
  · rw [sensitiveWarp, if_pos hn, hn, matchesOn_zero]
  · rw [sensitiveWarp, if_neg hn, ApiDecides, ApiDecides,
      find?_refreshSensitiveQuicBlock fun _ => not_applies_of_isQuicBlock h,
      ← find?_injectWarpTproxyInbound h hn false]
    rfl

theorem foldl_ensureWarpExit (hne : others ≠ []) (hwarp : ∀ ob ∈ others, InstallsWarp address ob)
    (hapi : data.rules.any isApiInboundRule = true) :
    let cleaned := others.foldl (fun cleaned ob => ensureWarpExit address cleaned ob false) data
    SameApi data.rules cleaned.rules ∧ Leads isApiInboundRule cleaned.rules := by
  induction others generalizing data with
  | nil => exact absurd rfl hne
  | cons ob rest ih =>
    obtain ⟨hsame, hleads⟩ := ensureWarpExit_standby (hwarp ob List.mem_cons_self) hapi
    rw [List.foldl_cons]
    generalize ensureWarpExit address data ob false = standby at *
    cases rest with
    | nil => exact ⟨hsame, hleads⟩
    | cons next others =>
      have hrest := ih (List.cons_ne_nil _ _)
        (fun ob hob => hwarp ob (List.mem_cons_of_mem _ hob)) (hsame.any_eq.trans hapi)
      exact ⟨hsame.trans hrest.1, hrest.2⟩

theorem exits_api (hwarp : ∀ ob ∈ first :: others, InstallsWarp address ob)
    (hapi : data.rules.any isApiInboundRule = true) :
    let cleaned := others.foldl (fun cleaned ob => ensureWarpExit address cleaned ob false)
      (ensureWarpExit address data first true)
    SameApi data.rules cleaned.rules ∧ ApiAhead cleaned.rules ∧
      ∀ p, p warpPrivateDirectRule = true → p warpDnsDirectRule = false →
        (ApiDecides p cleaned.rules ↔
          (others = [] → NoEscape p (retargeted (installWarp address data first true))) ∧
            (firstApi data.rules p).isSome = true) := by
  obtain ⟨hsame, hahead, hdecides⟩ := ensureWarpExit_default (hwarp first List.mem_cons_self) hapi
  by_cases hothers : others = []
  · subst hothers
    refine ⟨hsame, hahead, fun p hprivate hdns => ?_⟩
    simpa using hdecides p hprivate hdns
  · obtain ⟨hfold, hleads⟩ := foldl_ensureWarpExit hothers
      (fun ob hob => hwarp ob (List.mem_cons_of_mem _ hob)) (hsame.any_eq.trans hapi)
    refine ⟨hsame.trans hfold, apiAhead_of_leads hleads, fun p _ _ => ?_⟩
    rw [apiDecides_iff_of_leads hleads (hsame.trans hfold)]
    simp [hothers]

theorem apiDecides_nodeInbounds (h : ApiFlow f) (hn : n ≠ 0) (htag : tag ≠ "API")
    (hahead : ApiAhead data.rules) :
    let wg := if (xrayWgOutboundTag data n).any (startsWith "tunnel-") then data
      else retargetXrayWgToWarp data n tag
    ApiDecides (Rule.applies m f) (injectWarpTproxyInbound wg n tag).rules ↔
      (data.rules.find? (matchesOn m f n)).any
        (fun r => isApiInboundRule r && !namesFinalmask n r) = true := by
  intro wg
  rw [ApiDecides, find?_injectWarpTproxyInbound h hn true]
  by_cases htunnel : (xrayWgOutboundTag data n).any (startsWith "tunnel-") = true
  · have hwg : wg = data := if_pos htunnel
    rw [hwg]
    cases hfind : data.rules.find? (matchesOn m f n) with
    | none => simp
    | some r =>
      -- An API rule that names the tunnel would come first, and it does not lead to a tunnel.
      have hnames : isApiInboundRule r = true → namesFinalmask n r = false := by
        intro hrapi
        by_contra hnames
        have hsome : (firstApi data.rules (namesFinalmask n)).isSome = true := by
          rw [firstApi, List.find?_isSome]
          exact ⟨r, List.mem_of_find?_eq_some hfind, by simpa [hrapi] using hnames⟩
        obtain ⟨x, hx, hkind⟩ := (Option.any_eq_true _ _).mp (hahead _ hsome)
        have hxtag : x.outboundTag = "API" ∨ x.outboundTag = "DIRECT" := by
          simp only [Bool.or_eq_true, isApiInboundRule, isEscape, Bool.and_eq_true,
            decide_eq_true_eq] at hkind
          exact hkind.imp And.left And.left
        rw [xrayWgOutboundTag, hx, Option.bind_some] at htunnel
        cases hxtag with
        | inl heq =>
          rw [heq] at htunnel
          exact absurd htunnel (by decide)
        | inr heq =>
          rw [heq] at htunnel
          exact absurd htunnel (by decide)
      cases hrapi : isApiInboundRule r with
      | false => simp [hrapi]
      | true => simp [hrapi, hnames hrapi]
  · have hwg : wg = retargetXrayWgToWarp data n tag := if_neg htunnel
    rw [hwg, find?_retargetXrayWgToWarp h, Option.any_map]
    have hmoved : (fun r => isApiInboundRule (toWarp n tag r)) =
        fun r => isApiInboundRule r && !namesFinalmask n r := by
      funext r
      cases hr : namesFinalmask n r with
      | false => simp [toWarp, hr]
      | true => simp [toWarp, hr, isApiInboundRule, htag]
    rw [hmoved]

theorem apiDecides_fullWarp (h : ApiFlow f) (htag : first.tag ≠ "API")
    (hwarp : ∀ ob ∈ first :: others, InstallsWarp address ob)
    (hapi : data.rules.any isApiInboundRule = true) :
    ApiDecides (Rule.applies m f) (fullWarp address data n first others).rules ↔
      (firstApi data.rules (matchesOn m f n)).any (fun r => !(n ≠ 0 && namesFinalmask n r)) = true ∧
        (others = [] →
          NoEscape (matchesOn m f n) (retargeted (installWarp address data first true))) := by
  have hprivate : matchesOn m f n warpPrivateDirectRule = true := by
    have hnames : namesTproxy n warpPrivateDirectRule = false := rfl
    simp [matchesOn, applies_warpPrivateDirectRule h, hnames]
  have hdns : matchesOn m f n warpDnsDirectRule = false := by
    simp [matchesOn, not_applies_udp h (r := warpDnsDirectRule) rfl]
  obtain ⟨hsame, hahead, hdecides⟩ := exits_api hwarp hapi
  have hdecides := hdecides _ hprivate hdns
  rw [fullWarp]
  generalize others.foldl (fun cleaned ob => ensureWarpExit address cleaned ob false)
    (ensureWarpExit address data first true) = cleaned at *
  by_cases hn : n = 0
  · subst hn
    rw [if_pos rfl, ← matchesOn_zero, hdecides, and_comm]
    simp [Option.any_true]
  · rw [if_neg hn]
    have hinject : ∀ d : Payload, (injectSingboxWarpInbound d n).rules = d.rules := fun _ => rfl
    rw [hinject]
    refine (apiDecides_nodeInbounds h hn htag hahead).trans ?_
    rw [any_find?_and_iff]
    change ApiDecides _ _ ∧ (firstApi cleaned.rules _).any _ = true ↔ _
    rw [hdecides, hsame]
    have hnames : (fun r => !(decide (n ≠ 0) && namesFinalmask n r)) =
        fun r => !namesFinalmask n r := by
      funext r
      simp [hn]
    rw [hnames]
    cases firstApi data.rules (matchesOn m f n) with
    | none => simp
    | some r =>
      simp only [Option.isSome_some, and_true]
      exact and_comm

theorem stripped_of_mem_parseWarpTags {raw : Option String} (h : tag ∈ parseWarpTags raw) :
    stripped tag = tag ∧ tag ≠ "" := by
  simp only [parseWarpTags] at h
  split at h
  · rw [List.mem_singleton.mp h]
    decide
  · rw [mem_dedupe, List.mem_filter, List.mem_map] at h
    obtain ⟨⟨part, -, rfl⟩, hne⟩ := h
    exact ⟨stripped_stripped part, by simpa using hne⟩

structure WarpAccounts (address : Option String) (accounts : String → Option String) : Prop where
  installs : ∀ tag endpoint, accounts tag = some endpoint →
    InstallsWarp address (buildOutbound address tag endpoint)
  api : accounts "API" = none

theorem WarpAccounts.of_mem_outbounds (h : WarpAccounts address accounts)
    (hob : ob ∈ node.outbounds address accounts) :
    InstallsWarp address ob ∧ stripped ob.tag = ob.tag ∧ ob.tag ≠ "" ∧ ob.tag ≠ "API" := by
  obtain ⟨tag, htag, hmap⟩ := List.mem_filterMap.mp hob
  obtain ⟨endpoint, haccount, rfl⟩ := Option.map_eq_some_iff.mp hmap
  obtain ⟨hstripped, hne⟩ := stripped_of_mem_parseWarpTags htag
  refine ⟨h.installs tag endpoint haccount, hstripped, hne, ?_⟩
  intro heq
  rw [show tag = "API" from heq, h.api] at haccount
  cases haccount

theorem exists_prepared_isWarp (hob : ob ∈ outbounds) (h : InstallsWarp address ob)
    (hstripped : stripped ob.tag = ob.tag)
    (hne : ob.tag ≠ "") : ∃ ob ∈ preparedOutbounds address outbounds, ob.isWarp = true := by
  have hnamed : ob.named = ob := by
    have hempty : ob.tag.isEmpty = false := by simpa [String.isEmpty_iff] using hne
    simp [Outbound.named, hempty]
  rw [InstallsWarp, hnamed] at h
  refine ⟨_, List.mem_map_of_mem (List.mem_filter.mpr ⟨List.mem_map_of_mem hob, ?_⟩), ?_⟩
  · simp [hstripped, hne]
  · rwa [hstripped]

/-- What it takes for an API rule to decide the connection on the node. -/
def KeptByPolicy (m : Matcher) (f : Flow) (address : Option String)
    (accounts : String → Option String) (data : Payload) (node : NodeWarp) : Prop :=
  if node.warpEnabled then
    match node.outbounds address accounts with
    | [] => KeptWithoutWarp (matchesOn m f node.id) data
    | first :: others =>
      if node.sensitive then KeptInSplit (matchesOn m f node.id) data
      else
        (firstApi data.rules (matchesOn m f node.id)).any
            (fun r => !(node.id ≠ 0 && namesFinalmask node.id r)) = true ∧
          (others = [] → NoEscape (matchesOn m f node.id)
            (retargeted (installWarp address data first true)))
  else KeptWithoutWarp (matchesOn m f node.id) data

theorem apiDecides_applyNodeWarpPolicy (h : ApiFlow f)
    (hapi : data.rules.any isApiInboundRule = true) (haccounts : WarpAccounts address accounts) :
    ApiDecides (Rule.applies m f) (applyNodeWarpPolicy address accounts data node).rules ↔
      KeptByPolicy m f address accounts data node := by
  rw [applyNodeWarpPolicy, KeptByPolicy]
  cases node.warpEnabled with
  | false => exact apiDecides_withoutWarp
  | true =>
    simp only [if_true]
    cases houtbounds : node.outbounds address accounts with
    | nil => exact apiDecides_withoutWarp
    | cons first others =>
      have hmem : ∀ ob ∈ first :: others, ob ∈ node.outbounds address accounts := by
        rw [houtbounds]
        exact fun _ => id
      obtain ⟨hinstalls, hstripped, hne, htag⟩ :=
        haccounts.of_mem_outbounds (hmem first List.mem_cons_self)
      cases node.sensitive with
      | true =>
        exact apiDecides_sensitiveWarp h
          (exists_prepared_isWarp List.mem_cons_self hinstalls hstripped hne)
      | false =>
        exact apiDecides_fullWarp h htag
          (fun ob hob => (haccounts.of_mem_outbounds (hmem ob hob)).1) hapi

/-- The API under a WARP exit is reached if its rule holds and no escape does. -/
theorem api_reached_iff (m : Matcher) (f : Flow) (hf : ApiFlow f) (data : Payload)
    (hapi : ∃ r ∈ data.rules, isApiInboundRule r = true) (address : Option String) :
    (∀ ob, InstallsWarp address ob →
      (ApiDecides (Rule.applies m f) (ensureWarpExit address data ob false).rules ↔
        ∃ r ∈ data.rules, isApiInboundRule r = true ∧ r.applies m f = true) ∧
      (ApiDecides (Rule.applies m f) (ensureWarpExit address data ob true).rules ↔
        NoEscape (Rule.applies m f) (retargeted (installWarp address data ob true)) ∧
          ∃ r ∈ data.rules, isApiInboundRule r = true ∧ r.applies m f = true)) ∧
    ∀ accounts node, WarpAccounts address accounts →
      (ApiDecides (Rule.applies m f) (applyNodeWarpPolicy address accounts data node).rules ↔
        KeptByPolicy m f address accounts data node) := by
  have hany : data.rules.any isApiInboundRule = true := List.any_eq_true.mpr hapi
  have hsome : (firstApi data.rules (Rule.applies m f)).isSome = true ↔
      ∃ r ∈ data.rules, isApiInboundRule r = true ∧ r.applies m f = true := by
    simp only [firstApi, List.find?_isSome, Bool.and_eq_true]
  refine ⟨fun ob hob => ⟨?_, ?_⟩, fun accounts node => apiDecides_applyNodeWarpPolicy hf hany⟩
  · obtain ⟨hsame, hleads⟩ := ensureWarpExit_standby hob hany
    rw [apiDecides_iff_of_leads hleads hsame, hsome]
  · have hdecides := (ensureWarpExit_default hob hany).2.2
    rw [hdecides _ (applies_warpPrivateDirectRule hf) (not_applies_udp hf rfl), hsome]

def apiPayload : Payload where
  outbounds := [{ tag := "DIRECT", protocol := "freedom" }]
  inbounds := [⟨"API_INBOUND", "dokodemo-door", false⟩]
  routing := some [apiInboundRule]

def apiConnection : Flow where
  user := none
  domain := none
  ip := some "127.0.0.1"
  port := 62789
  network := "tcp"
  inboundTag := "API_INBOUND"
  protocol := none
  source := "127.0.0.1"

def oneAccount (tag : String) : Option String :=
  if tag = "warp" then some "engage.cloudflareclient.com:2408" else none

def warpAccount : Outbound := buildOutbound none "warp" "engage.cloudflareclient.com:2408"

def fullNode : NodeWarp := ⟨3, true, some "full", some "warp"⟩

/-- With WARP as the default exit the API's connection goes to `DIRECT`. -/
theorem api_behind_private :
    let decided (data : Payload) :=
      (decidingRule literalMatcher data.rules apiConnection).map Rule.outboundTag
    decided apiPayload = some "API" ∧
      decided (ensureWarpExit none apiPayload warpAccount true) = some "DIRECT" ∧
      decided (applyNodeWarpPolicy none oneAccount apiPayload fullNode) = some "DIRECT" := by
  decide +kernel

theorem api_ahead_of_private :
    ApiDecides (Rule.applies literalMatcher apiConnection)
      (ensureWarpExit none apiPayload warpAccount false).rules :=
  ((api_reached_iff literalMatcher apiConnection ⟨rfl, rfl, rfl⟩ apiPayload
    ⟨apiInboundRule, by decide, by decide⟩ none).1 warpAccount
    (by rw [InstallsWarp]; decide)).1.mpr
    ⟨apiInboundRule, by decide, by decide, by decide⟩

end Shahkar.Xray.Routing
