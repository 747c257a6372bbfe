import Mathlib.Data.List.Find
import Shahkar.Xray.WarpNode
import Shahkar.Xray.WarpUnshadow

/-!
# The API's rule under a WARP exit

A pass is described by two facts: it keeps the API's rules, in their order (`SameApi`), and leaves
them in front of all others (`Leads isApiInboundRule`).
-/

namespace Shahkar.Xray.Routing

open Shahkar.Lib Shahkar.Lib.Text

variable {m : Matcher} {f : Flow} {data : Payload} {rules rules' : List Rule} {r : Rule}
  {p q : Rule → Bool} {address : Option String}

def firstApi (rules : List Rule) (q : Rule → Bool) : Option Rule :=
  rules.find? fun r => isApiInboundRule r && q r

def SameApi (rules rules' : List Rule) : Prop := ∀ q, firstApi rules' q = firstApi rules q

theorem SameApi.trans {rules'' : List Rule} (h : SameApi rules rules')
    (h' : SameApi rules' rules'') : SameApi rules rules'' :=
  fun q => (h' q).trans (h q)

theorem any_isApi_eq_firstApi :
    rules.any isApiInboundRule = (firstApi rules fun _ => true).isSome := by
  simp [firstApi, List.isSome_find?]

theorem SameApi.any_eq (h : SameApi rules rules') :
    rules'.any isApiInboundRule = rules.any isApiInboundRule := by
  rw [any_isApi_eq_firstApi, any_isApi_eq_firstApi, h]

theorem SameApi.mem_iff (h : SameApi rules rules') (hr : isApiInboundRule r = true) :
    r ∈ rules' ↔ r ∈ rules := by
  have hiff : ∀ xs : List Rule, r ∈ xs ↔ (firstApi xs fun x => decide (x = r)).isSome = true := by
    intro xs
    simp only [firstApi, List.find?_isSome, Bool.and_eq_true, decide_eq_true_eq]
    constructor
    · intro hmem
      exact ⟨r, hmem, hr, rfl⟩
    · intro hex
      obtain ⟨x, hx, -, heq⟩ := hex
      exact heq ▸ hx
  rw [hiff, hiff, h]

theorem sameApi_dedupe : SameApi rules (dedupe rules) := fun _ => find?_dedupe

variable {tag : String} {ob : Outbound} {keep : Rule → Bool}

theorem sameApi_filter (h : ∀ r ∈ rules, isApiInboundRule r = true → keep r = true) :
    SameApi rules (rules.filter keep) := by
  intro q
  simp only [firstApi, List.find?_filter]
  apply List.find?_congr
  intro r hmem
  cases hr : isApiInboundRule r with
  | false => simp
  | true => simp [h r hmem hr]

theorem sameApi_append_left (h : ∀ r ∈ rules, isApiInboundRule r = false) :
    SameApi rules' (rules ++ rules') := by
  intro q
  have hnone : rules.find? (fun r => isApiInboundRule r && q r) = none := by
    rw [List.find?_eq_none]
    intro r hr
    simp [h r hr]
  rw [firstApi, List.find?_append, hnone, Option.none_or, firstApi]

theorem sameApi_append_right (h : ∀ r ∈ rules', isApiInboundRule r = false) :
    SameApi rules (rules ++ rules') := by
  intro q
  have hnone : rules'.find? (fun r => isApiInboundRule r && q r) = none := by
    rw [List.find?_eq_none]
    intro r hr
    simp [h r hr]
  rw [firstApi, List.find?_append, hnone, Option.or_none, firstApi]

theorem sameApi_partition {move : Rule → Bool}
    (h : ∀ r, move r = true → isApiInboundRule r = false) :
    SameApi rules (rules.filter move ++ rules.filter fun r => !move r) := by
  have hfront : ∀ r ∈ rules.filter move, isApiInboundRule r = false := by
    intro r hr
    exact h r (List.mem_filter.mp hr).2
  refine SameApi.trans (sameApi_filter ?_) (sameApi_append_left hfront)
  intro r _ hr
  cases hmove : move r with
  | false => rfl
  | true => exact absurd hr (by simp [h r hmove])

theorem outboundTag_of_isApi (h : isApiInboundRule r = true) : r.outboundTag = "API" := by
  simp only [isApiInboundRule, Bool.and_eq_true, decide_eq_true_eq] at h
  exact h.1

theorem sameApi_retarget {targets : List String} (h : "API" ∉ targets) :
    SameApi rules (rules.map (retarget targets)) := by
  intro q
  have happly : ∀ r, isApiInboundRule r = true → retarget targets r = r := by
    intro r hr
    simp [retarget, outboundTag_of_isApi hr, h]
  have hapi : ∀ r, isApiInboundRule (retarget targets r) = true → isApiInboundRule r = true := by
    intro r hr
    by_cases hmem : r.outboundTag ∈ targets
    · simp [retarget, hmem, isApiInboundRule] at hr
    · simpa [retarget, hmem] using hr
  induction rules with
  | nil => rfl
  | cons a rest ih =>
    rw [firstApi, firstApi, List.map_cons, List.find?_cons, List.find?_cons]
    cases ha : isApiInboundRule a with
    | true =>
      rw [happly a ha, ha]
      split
      · rfl
      · exact ih
    | false =>
      have ha' : isApiInboundRule (retarget targets a) = false := by
        by_contra hne
        exact absurd (hapi a (by simpa using hne)) (by simp [ha])
      simp only [ha', Bool.false_and]
      exact ih

theorem api_not_mem_missing : "API" ∉ missingWarpTags data := by
  intro h
  exact absurd (isWarpTag_of_mem_missing h) (by decide)

theorem sameApi_rewriteMissing : SameApi data.rules (rewriteMissingWarpRoutes data).rules := by
  intro q
  rw [firstApi, find?_rewriteMissing]
  exact sameApi_retarget api_not_mem_missing q

theorem sameApi_byRank {rank : Rule → Nat} {n : Nat} (hn : ∀ r, rank r < n)
    (h : ∀ r, isApiInboundRule r = true → rank r = 0) : SameApi rules (byRank rank n rules) := by
  intro q
  apply find?_byRank_of_le hn
  intro a b ha _ _
  have happly := List.find?_some ha
  rw [Bool.and_eq_true] at happly
  rw [h a happly.1]
  exact Nat.zero_le _

theorem apiRank_lt : apiRank r < 2 := by
  rw [apiRank]
  split
  · decide
  · decide

theorem apiRank_eq_zero_iff : isApiInboundRule r = true ↔ apiRank r = 0 := by
  rw [apiRank]
  cases isApiInboundRule r <;> simp

theorem sameApi_pin :
    SameApi (addedApiRule data ++ data.rules) (pinApiInboundRoute data).rules := by
  intro q
  have hsort : firstApi (byRank apiRank 2 data.rules) q = firstApi data.rules q :=
    sameApi_byRank (fun _ => apiRank_lt) (fun _ h => apiRank_eq_zero_iff.mp h) q
  rw [firstApi] at hsort
  rw [rules_pinApiInboundRoute, firstApi, firstApi, List.find?_append, List.find?_append, hsort,
    firstApi]

theorem leads_pin : Leads isApiInboundRule (pinApiInboundRoute data).rules := by
  rw [rules_pinApiInboundRoute]
  apply leads_append
  · intro r hr
    obtain hempty | hadded := addedApiRule_cases data
    · simp [hempty] at hr
    · have heq : r = apiInboundRule := by simpa [hadded] using hr
      rw [heq]
      decide
  · exact leads_byRank fun _ => apiRank_eq_zero_iff

theorem addedApiRule_eq_nil (h : data.rules.any isApiInboundRule = true) :
    addedApiRule data = [] := by
  simp [addedApiRule, h]

theorem sameApi_sortInput : SameApi data.rules (sortInput data) := by
  have hescapes : ∀ x ∈ escapes, isApiInboundRule x = false := by decide
  refine sameApi_rewriteMissing.trans (SameApi.trans ?_ sameApi_dedupe)
  refine (sameApi_append_left ?_).trans (sameApi_append_right ?_)
  · intro x hx
    exact hescapes x (mem_escapes_of_mem_missingEscapes hx)
  · intro x hx
    obtain ⟨ob, -, rfl⟩ := eq_default_of_mem_missingDefault hx
    exact isApi_warpDefaultRule

theorem sameApi_unshadow : SameApi rules (unshadowWarpRules rules) := by
  have hkept : SameApi rules (kept rules) := by
    rw [kept]
    split
    · apply sameApi_filter
      intro r _ hr
      simp [bucket, hr]
    · exact fun _ => rfl
  have hsorted : SameApi (kept rules) (byRank rankOf 6 (kept rules)) :=
    sameApi_byRank (fun r => (bucket r).rank_lt) fun _ h => rankOf_eq_zero_iff.mpr h
  rw [unshadow_eq]
  exact (hkept.trans hsorted).trans sameApi_dedupe

theorem sameApi_applyWarpSafeRouting (address : Option String)
    (h : warpOutbounds data.outbounds ≠ []) :
    SameApi (addedApiRule data ++ data.rules) (applyWarpSafeRouting address data).rules := by
  intro q
  have hsort : firstApi (unshadowWarpRules (sortInput data)) q = firstApi data.rules q :=
    (sameApi_sortInput.trans sameApi_unshadow) q
  rw [firstApi] at hsort
  rw [firstApi, find?_applyWarpSafeRouting h, firstApi, List.find?_append, hsort, firstApi]

theorem leads_applyWarpSafeRouting (h : warpOutbounds data.outbounds ≠ []) :
    Leads isApiInboundRule (applyWarpSafeRouting address data).rules := by
  have hne : (warpOutbounds (rewriteMissingWarpRoutes data).outbounds).isEmpty = false := by
    simpa using h
  rw [applyWarpSafeRouting]
  simp only [hne, Bool.false_eq_true, if_false]
  exact leads_pin

def InstallsWarp (address : Option String) (ob : Outbound) : Prop :=
  (pinWarpEndpointIp address ob.named).isWarp = true

theorem warpOutbounds_installWarp (h : InstallsWarp address ob) (data : Payload)
    (asDefault : Bool) :
    warpOutbounds (installWarp address data ob asDefault).outbounds ≠ [] := by
  intro hnil
  have hmem : pinWarpEndpointIp address ob.named ∈
      warpOutbounds (installWarp address data ob asDefault).outbounds :=
    List.mem_filter.mpr ⟨by simp [installWarp], h⟩
  rw [hnil] at hmem
  cases hmem

theorem applyWarpSafeRouting_installWarp (h : InstallsWarp address ob)
    (hapi : data.rules.any isApiInboundRule = true) (asDefault : Bool) :
    let sorted := applyWarpSafeRouting address (installWarp address data ob asDefault)
    SameApi data.rules sorted.rules ∧ Leads isApiInboundRule sorted.rules := by
  have hpresent := warpOutbounds_installWarp h data asDefault
  have hadded : addedApiRule (installWarp address data ob asDefault) = [] :=
    addedApiRule_eq_nil hapi
  have hsame : SameApi (addedApiRule (installWarp address data ob asDefault) ++ data.rules)
      (applyWarpSafeRouting address (installWarp address data ob asDefault)).rules :=
    sameApi_applyWarpSafeRouting address hpresent
  rw [hadded, List.nil_append] at hsame
  exact ⟨hsame, leads_applyWarpSafeRouting hpresent⟩

/-- An API rule is the first of the list that passes the test. -/
def ApiDecides (p : Rule → Bool) (rules : List Rule) : Prop :=
  (rules.find? p).any isApiInboundRule = true

theorem apiDecides_iff_of_leads (h : Leads isApiInboundRule rules') (hsame : SameApi rules rules') :
    ApiDecides p rules' ↔ (firstApi rules p).isSome = true := by
  rw [ApiDecides, h.any_find?_iff, ← hsame]
  rfl

/-- No escape, present or to be added, passes the test. -/
def NoEscape (p : Rule → Bool) (rules : List Rule) : Prop :=
  rules.any Rule.isPrivateDirect = true ∧
  (rules.any Rule.isWarpBypass = true ∨ p warpBypassRule = false) ∧
  ∀ x ∈ rules, isEscape x = true → p x = false

theorem not_catchAll_of_isEscape (h : isEscape r = true) : isCatchAllNetworkRule r = false := by
  by_contra hcatch
  simp only [Bool.not_eq_false, isCatchAllNetworkRule, Bool.and_eq_true, List.isEmpty_iff,
    String.isEmpty_iff] at hcatch
  obtain ⟨⟨⟨⟨⟨⟨⟨⟨-, -⟩, hdomain⟩, hip⟩, -⟩, -⟩, -⟩, -⟩, hport⟩ := hcatch
  simp [isEscape, hdomain, hip, hport] at h

theorem isApi_of_isEscape (h : isEscape r = true) : isApiInboundRule r = false := by
  have htag : r.outboundTag = "DIRECT" := by
    simp only [isEscape, Bool.and_eq_true, decide_eq_true_eq] at h
    exact h.1
  simp [isApiInboundRule, htag]

theorem not_isEscape_of_isApi (h : isApiInboundRule r = true) : (!isEscape r) = true := by
  cases hescape : isEscape r with
  | false => rfl
  | true => exact absurd h (by simp [isApi_of_isEscape hescape])

theorem mem_sorted_of_isEscape (h : warpOutbounds data.outbounds ≠ []) (hr : isEscape r = true) :
    r ∈ (applyWarpSafeRouting address data).rules ↔
      r ∈ missingEscapes (retargeted data) ∨ r ∈ retargeted data := by
  have hmissing : missingEscapes (rewriteMissingWarpRoutes data).rules =
      missingEscapes (retargeted data) := by
    have hany : ∀ q : Rule → Bool,
        (rewriteMissingWarpRoutes data).rules.any q = (retargeted data).any q := by
      intro q
      rw [Bool.eq_iff_iff, List.any_eq_true, List.any_eq_true]
      simp
    simp only [missingEscapes, hany]
  have hnotapi : r ∉ addedApiRule data := by
    intro hmem
    obtain hempty | hadded := addedApiRule_cases data
    · simp [hempty] at hmem
    · have heq : r = apiInboundRule := by simpa [hadded] using hmem
      rw [heq] at hr
      exact absurd hr (by decide)
  have hdefault : r ∉ missingDefault data.outbounds (retargeted data) := by
    intro hmem
    obtain ⟨ob, -, rfl⟩ := eq_default_of_mem_missingDefault hmem
    simp [isEscape, warpDefaultRule] at hr
  have hbucket : bucket r ≠ .catchDirect := by
    have hcatch := not_catchAll_of_isEscape hr
    simp only [bucket, hcatch, Bool.and_false, Bool.false_eq_true, if_false]
    repeat' split
    all_goals simp
  rw [mem_applyWarpSafeRouting h, List.mem_append, mem_unshadow, mem_kept, mem_sortInput, hmissing,
    contenders, List.mem_append]
  simp [hnotapi, hdefault, hbucket]

def keptByDefault (r : Rule) : Bool :=
  !(isWarpTag r.outboundTag && isCatchAllNetworkRule r) &&
    !(r.outboundTag = "DIRECT" && isCatchAllNetworkRule r)

theorem keptByDefault_of_isApi (h : isApiInboundRule r = true) : keptByDefault r = true := by
  have hwarp : isWarpTag "API" = false := by decide
  simp [keptByDefault, outboundTag_of_isApi h, hwarp]

theorem keptByDefault_of_isEscape (h : isEscape r = true) : keptByDefault r = true := by
  simp [keptByDefault, not_catchAll_of_isEscape h]

theorem isEscape_of_isWarpBypass (h : r.isWarpBypass = true) : isEscape r = true := by
  simp only [Rule.isWarpBypass, Bool.and_eq_true] at h
  simp [isEscape, h.1, h.2]

theorem isEscape_of_isPrivateDirect (h : r.isPrivateDirect = true) : isEscape r = true := by
  simp only [Rule.isPrivateDirect, Bool.and_eq_true] at h
  simp [isEscape, h.1, h.2]

theorem isEscape_of_isDnsDirect (h : r.isDnsDirect = true) : isEscape r = true := by
  simp only [Rule.isDnsDirect, Bool.and_eq_true] at h
  simp [isEscape, h.1.1, h.1.2]

theorem any_filter_of_isEscape (hq : ∀ r, q r = true → isEscape r = true)
    (hkeep : ∀ r, isEscape r = true → keep r = true) :
    (rules.filter keep).any q = rules.any q := by
  rw [Bool.eq_iff_iff, List.any_eq_true, List.any_eq_true]
  constructor
  · intro h
    obtain ⟨x, hx, hpass⟩ := h
    exact ⟨x, (List.mem_filter.mp hx).1, hpass⟩
  · intro h
    obtain ⟨x, hx, hpass⟩ := h
    exact ⟨x, List.mem_filter.mpr ⟨hx, hkeep x (hq x hpass)⟩, hpass⟩

theorem missingEscapes_filter_keptByDefault :
    missingEscapes (rules.filter keptByDefault) = missingEscapes rules := by
  rw [missingEscapes, missingEscapes,
    any_filter_of_isEscape (fun _ => isEscape_of_isWarpBypass) fun _ => keptByDefault_of_isEscape,
    any_filter_of_isEscape (fun _ => isEscape_of_isPrivateDirect) fun _ =>
      keptByDefault_of_isEscape,
    any_filter_of_isEscape (fun _ => isEscape_of_isDnsDirect) fun _ => keptByDefault_of_isEscape]

theorem find?_defaultExitRules (hescapes : missingEscapes rules = []) :
    (defaultExitRules rules tag).find? p =
      ((rules.filter keptByDefault).filter isEscape ++
        ((rules.filter keptByDefault).filter (fun r => !isEscape r) ++
          [warpDefaultRule tag])).find? p := by
  have hmissing : missingEscapes (rules.filter keptByDefault) = [] := by
    rw [missingEscapes_filter_keptByDefault, hescapes]
  have hrules : defaultExitRules rules tag =
      dedupe (missingEscapes (rules.filter keptByDefault) ++
        (rules.filter keptByDefault).filter isEscape ++
        (rules.filter keptByDefault).filter (fun r => !isEscape r) ++ [warpDefaultRule tag]) := rfl
  rw [hrules, find?_dedupe, hmissing, List.nil_append, List.append_assoc]

theorem not_isApi_of_mem_escapes : ∀ x ∈ rules.filter isEscape, isApiInboundRule x = false := by
  intro x hx
  exact isApi_of_isEscape (List.mem_filter.mp hx).2

theorem not_isApi_default :
    ∀ x ∈ [warpDefaultRule tag], isApiInboundRule x = false := by
  intro x hx
  rw [List.mem_singleton.mp hx]
  exact isApi_warpDefaultRule

theorem sameApi_defaultExitRules (hescapes : missingEscapes rules = []) :
    SameApi rules (defaultExitRules rules tag) := by
  intro q
  rw [firstApi, find?_defaultExitRules hescapes, ← List.append_assoc]
  refine SameApi.trans (SameApi.trans (sameApi_filter ?_) (sameApi_partition ?_))
    (sameApi_append_right not_isApi_default) q
  · exact fun r _ => keptByDefault_of_isApi
  · exact fun r => isApi_of_isEscape

theorem apiDecides_defaultExitRules (hleads : Leads isApiInboundRule rules)
    (hescapes : missingEscapes rules = []) :
    ApiDecides p (defaultExitRules rules tag) ↔
      (∀ x ∈ rules, isEscape x = true → p x = false) ∧ (firstApi rules p).isSome = true := by
  have hrest : SameApi rules ((rules.filter keptByDefault).filter fun r => !isEscape r) := by
    have hkept : SameApi rules (rules.filter keptByDefault) :=
      sameApi_filter fun r _ => keptByDefault_of_isApi
    exact hkept.trans (sameApi_filter fun r _ => not_isEscape_of_isApi)
  have hrestLeads : Leads isApiInboundRule
      ((rules.filter keptByDefault).filter fun r => !isEscape r) :=
    hleads.sublist (List.filter_sublist.trans List.filter_sublist)
  have hnone : ((rules.filter keptByDefault).filter isEscape).find? p = none ↔
      ∀ x ∈ rules, isEscape x = true → p x = false := by
    simp only [List.find?_eq_none, List.mem_filter, Bool.not_eq_true]
    constructor
    · intro h x hx hescape
      exact h x ⟨⟨hx, keptByDefault_of_isEscape hescape⟩, hescape⟩
    · intro h x hx
      exact h x hx.1.1 hx.2
  rw [ApiDecides, find?_defaultExitRules hescapes, any_find?_append_left not_isApi_of_mem_escapes,
    any_find?_append_right not_isApi_default, hnone]
  exact and_congr_right fun _ => apiDecides_iff_of_leads hrestLeads hrest

theorem missingEscapes_applyWarpSafeRouting (address : Option String)
    (h : warpOutbounds data.outbounds ≠ []) :
    missingEscapes (applyWarpSafeRouting address data).rules = [] := by
  have hall : ∀ (q : Rule → Bool) (x : Rule), q x = true → isEscape x = true →
      ((retargeted data).any q = false → x ∈ missingEscapes (retargeted data)) →
      (∀ y, q y = true → isEscape y = true) →
      (applyWarpSafeRouting address data).rules.any q = true := by
    intro q x hx hescape hadded hq
    rw [List.any_eq_true]
    cases hany : (retargeted data).any q with
    | false =>
      exact ⟨x, (mem_sorted_of_isEscape h hescape).mpr (.inl (hadded hany)), hx⟩
    | true =>
      obtain ⟨y, hy, hpass⟩ := List.any_eq_true.mp hany
      exact ⟨y, (mem_sorted_of_isEscape h (hq y hpass)).mpr (.inr hy), hpass⟩
  have hbypass := hall Rule.isWarpBypass warpBypassRule (by decide) (by decide)
    (fun hany => by simp [missingEscapes, hany]) fun _ => isEscape_of_isWarpBypass
  have hprivate := hall Rule.isPrivateDirect warpPrivateDirectRule (by decide) (by decide)
    (fun hany => by simp [missingEscapes, hany]) fun _ => isEscape_of_isPrivateDirect
  have hdns := hall Rule.isDnsDirect warpDnsDirectRule (by decide) (by decide)
    (fun hany => by simp [missingEscapes, hany]) fun _ => isEscape_of_isDnsDirect
  simp [missingEscapes, hbypass, hprivate, hdns]

theorem no_escape_sorted_iff (address : Option String) (h : warpOutbounds data.outbounds ≠ [])
    (hprivate : p warpPrivateDirectRule = true) (hdns : p warpDnsDirectRule = false) :
    (∀ x ∈ (applyWarpSafeRouting address data).rules, isEscape x = true → p x = false) ↔
      NoEscape p (retargeted data) := by
  have hescape : ∀ x ∈ escapes, isEscape x = true := by decide
  have hadded : (∀ x ∈ missingEscapes (retargeted data), p x = false) ↔
      (retargeted data).any Rule.isPrivateDirect = true ∧
        ((retargeted data).any Rule.isWarpBypass = true ∨ p warpBypassRule = false) := by
    rw [missingEscapes]
    generalize (retargeted data).any Rule.isPrivateDirect = hasPrivate
    generalize (retargeted data).any Rule.isWarpBypass = hasBypass
    generalize (retargeted data).any Rule.isDnsDirect = hasDns
    cases hasPrivate <;> cases hasBypass <;> cases hasDns <;> simp [hprivate, hdns]
  rw [NoEscape, ← and_assoc, ← hadded]
  constructor
  · intro hall
    refine ⟨fun x hx => ?_, fun x hx hx' => ?_⟩
    · have hx' := hescape x (mem_escapes_of_mem_missingEscapes hx)
      exact hall x ((mem_sorted_of_isEscape h hx').mpr (.inl hx)) hx'
    · exact hall x ((mem_sorted_of_isEscape h hx').mpr (.inr hx)) hx'
  · intro hall x hx hx'
    cases (mem_sorted_of_isEscape h hx').mp hx with
    | inl hmissing => exact hall.1 x hmissing
    | inr hmem => exact hall.2 x hmem hx'

def ApiAhead (rules : List Rule) : Prop :=
  ∀ q, (firstApi rules q).isSome = true →
    (rules.find? q).any (fun r => isApiInboundRule r || isEscape r) = true

theorem apiAhead_of_leads (h : Leads isApiInboundRule rules) : ApiAhead rules := by
  intro q hsome
  obtain ⟨r, hr⟩ := Option.isSome_iff_exists.mp hsome
  have happly := List.find?_some hr
  rw [Bool.and_eq_true] at happly
  simp [h.find?_eq hr, happly.1]

theorem apiAhead_defaultExitRules (hleads : Leads isApiInboundRule rules)
    (hescapes : missingEscapes rules = []) : ApiAhead (defaultExitRules rules tag) := by
  intro q hsome
  rw [sameApi_defaultExitRules hescapes] at hsome
  by_cases hnone : ∀ x ∈ rules, isEscape x = true → q x = false
  · have hdecides : ApiDecides q (defaultExitRules rules tag) :=
      (apiDecides_defaultExitRules hleads hescapes).mpr ⟨hnone, hsome⟩
    obtain ⟨r, hr, hapi⟩ := (Option.any_eq_true _ _).mp hdecides
    simp [hr, hapi]
  · -- An escape passes the test, and the first one that does is the first rule.
    simp only [not_forall, Bool.not_eq_false] at hnone
    obtain ⟨x, hx, hescape, hpass⟩ := hnone
    rw [find?_defaultExitRules hescapes, List.find?_append]
    have hfound : (((rules.filter keptByDefault).filter isEscape).find? q).isSome = true := by
      rw [List.find?_isSome]
      refine ⟨x, ?_, hpass⟩
      simp [hx, hescape, keptByDefault_of_isEscape hescape]
    obtain ⟨y, hy⟩ := Option.isSome_iff_exists.mp hfound
    have hy' := (List.mem_filter.mp (List.mem_of_find?_eq_some hy)).2
    rw [hy, Option.some_or, Option.any_some, hy', Bool.or_true]

theorem ensureWarpExit_default (h : InstallsWarp address ob)
    (hapi : data.rules.any isApiInboundRule = true) :
    SameApi data.rules (ensureWarpExit address data ob true).rules ∧
      ApiAhead (ensureWarpExit address data ob true).rules ∧
      ∀ p, p warpPrivateDirectRule = true → p warpDnsDirectRule = false →
        (ApiDecides p (ensureWarpExit address data ob true).rules ↔
          NoEscape p (retargeted (installWarp address data ob true)) ∧
            (firstApi data.rules p).isSome = true) := by
  have hpresent := warpOutbounds_installWarp h data true
  have hrules : (ensureWarpExit address data ob true).rules = defaultExitRules
      (applyWarpSafeRouting address (installWarp address data ob true)).rules ob.named.tag := by
    simp only [ensureWarpExit, if_true, Payload.rules, Option.getD_some]
  obtain ⟨hsame, hleads⟩ := applyWarpSafeRouting_installWarp h hapi true
  have hescapes := missingEscapes_applyWarpSafeRouting address hpresent
  have hiff := fun p => no_escape_sorted_iff (p := p) address hpresent
  rw [hrules]
  generalize (applyWarpSafeRouting address (installWarp address data ob true)).rules = sorted at *
  refine ⟨hsame.trans (sameApi_defaultExitRules hescapes),
    apiAhead_defaultExitRules hleads hescapes, fun p hprivate hdns => ?_⟩
  rw [apiDecides_defaultExitRules hleads hescapes, hiff p hprivate hdns, hsame]

theorem ensureWarpExit_standby (h : InstallsWarp address ob)
    (hapi : data.rules.any isApiInboundRule = true) :
    SameApi data.rules (ensureWarpExit address data ob false).rules ∧
      Leads isApiInboundRule (ensureWarpExit address data ob false).rules :=
  applyWarpSafeRouting_installWarp h hapi false

end Shahkar.Xray.Routing
