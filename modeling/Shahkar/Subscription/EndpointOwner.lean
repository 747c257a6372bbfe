import Shahkar.Lib.Least
import Shahkar.Subscription.PanelBalance

/-!
# Shahkar.Subscription.EndpointOwner

Which panel endpoint governs an inbound (`endpoint_resolver.py`). Migrated tags are named after the
slug of their panel, and the owner is found again by a scan for the first endpoint whose slug, with a
hyphen, begins the tag; both slugs and tags have hyphens.
-/

namespace Shahkar.Subscription

open Shahkar.Lib Shahkar.Lib.Text Shahkar.Migration

def sanitized (raw : String) : String := strippedOf '-' (tagSafeSub '-' (stripped raw))

def panelPrefixCandidates (ep : Endpoint) : List String :=
  ([ep.slug, ep.legacyPanelId].filter (· ≠ "")).map fun raw => orElse (sanitized raw) raw

def listSubscriptionEndpoints (eps : List Endpoint) (enabledOnly : Bool) : List Endpoint :=
  (eps.filter fun ep => ep.enabled || !enabledOnly).insertionSort fun a b => a.id ≤ b.id

def getSubscriptionEndpointByInboundTag (eps : List Endpoint) (tag : String) : Option Endpoint :=
  if tag = "" then none else eps.find? fun ep => ep.inboundTag = tag

def governs (ep : Endpoint) (tag : String) : Bool :=
  (panelPrefixCandidates ep).any fun c => tag = c || startsWith (c ++ "-") tag

def resolveEndpointForInboundTag (eps : List Endpoint) (inboundTag : String) : Option Endpoint :=
  let tag := stripped inboundTag
  if tag = "" then none
  else (getSubscriptionEndpointByInboundTag eps tag).or
    ((listSubscriptionEndpoints eps true).find? fun ep =>
      ep.inboundTag = "" && ep.slug != "default" && governs ep tag)

/-!
### Names of inbounds
-/

variable {ep e : Endpoint} {eps : List Endpoint} {raw t : String}

theorem isSpace_of_tagSafe {c : Char} (h : tagSafe c = true) : isSpace c = false := by
  have hrange : 45 ≤ c.toNat ∧ c.toNat ≤ 122 := by
    simp only [tagSafe, Char.isAlphanum, Bool.or_eq_true, Char.isDigit_iff_toNat, beq_iff_eq] at h
    rcases h with ((h | h) | rfl) | rfl
    · have := toNat_of_isAlpha h
      omega
    · exact ⟨le_trans (by decide) h.1, le_trans h.2 (by decide)⟩
    · decide
    · decide
  simp only [isSpace, decide_eq_false_iff_not, List.mem_cons, List.not_mem_nil, or_false]
  omega

theorem tagSafe_of_mem_sanitized {c : Char} (h : c ∈ (sanitized raw).toList) :
    tagSafe c = true := by
  rw [sanitized, strippedOf, String.toList_ofList] at h
  have hmem := strip_sublist.subset h
  rw [tagSafeSub, String.toList_ofList] at hmem
  exact keep_of_mem_replaceRunsFrom (by decide) hmem

theorem length_sanitized_le : (sanitized raw).length ≤ raw.length := by
  simp only [sanitized, strippedOf, tagSafeSub, stripped, ← String.length_toList,
    String.toList_ofList]
  exact strip_sublist.length_le.trans ((length_replaceRunsFrom_le false).trans
    strip_sublist.length_le)

def tagBase (t : String) : String := orElse (sanitized (orElse t "inbound")) "inbound"

theorem slugifyTag_eq (hne : sanitized raw ≠ "") (hslug : (sanitized raw).length ≤ 31)
    (ht : t.length ≤ 32) : slugifyTag raw t = sanitized raw ++ "-" ++ tagBase t := by
  have hbase : (tagBase t).length ≤ 32 := by
    have hinbound : "inbound".length ≤ 32 := by decide
    have hlen : (orElse t "inbound").length ≤ 32 := by
      rw [orElse]
      split <;> assumption
    rw [tagBase, orElse]
    split
    exacts [hinbound, length_sanitized_le.trans hlen]
  have hfront : orElse (sanitized raw) "panel" = sanitized raw := if_neg hne
  rw [slugifyTag, ← sanitized, ← sanitized, hfront, ← tagBase, takeChars, List.take_of_length_le,
    String.ofList_toList]
  rw [String.length_toList, String.length_append, String.length_append]
  have : "-".length = 1 := rfl
  omega

theorem stripped_name :
    stripped (sanitized raw ++ "-" ++ tagBase t) = sanitized raw ++ "-" ++ tagBase t := by
  refine stripped_eq_self fun c hc => ?_
  simp only [String.toList_append, List.mem_append] at hc
  rcases hc with (hc | hc) | hc
  · exact isSpace_of_tagSafe (tagSafe_of_mem_sanitized hc)
  · obtain rfl : c = '-' := by simpa using hc
    decide
  · rw [tagBase, orElse] at hc
    split at hc
    · exact isSpace_of_tagSafe (List.all_eq_true.mp (by decide) c hc)
    · exact isSpace_of_tagSafe (tagSafe_of_mem_sanitized hc)

structure PanelRow (ep : Endpoint) : Prop where
  legacy : ep.legacyPanelId = ep.slug
  ne_empty : sanitized ep.slug ≠ ""
  length_le : (sanitized ep.slug).length ≤ 31

theorem governs_iff (h : PanelRow ep) {tag : String} :
    governs ep tag = true ↔
      tag = sanitized ep.slug ∨ startsWith (sanitized ep.slug ++ "-") tag = true := by
  have hslug : ep.slug ≠ "" := by
    intro hnil
    exact h.ne_empty (by rw [hnil]; decide)
  simp [governs, panelPrefixCandidates, h.legacy, hslug, orElse, h.ne_empty]

def isPanel (ep : Endpoint) : Bool := ep.enabled && ep.inboundTag == "" && ep.slug != "default"

/-- The tag goes on from the endpoint's slug at a hyphen, or ends there. -/
def taggedBy (ep : Endpoint) (tag : String) : Bool := startsWith (sanitized ep.slug ++ "-") (tag ++ "-")

theorem governs_iff_taggedBy (h : PanelRow ep) {tag : String} :
    governs ep tag = true ↔ taggedBy ep tag = true := by
  rw [governs_iff h, taggedBy, startsWith_iff, startsWith_iff]
  constructor
  · rintro (rfl | ⟨rest, rfl⟩)
    · exact ⟨"", by simp⟩
    · exact ⟨rest ++ "-", String.append_assoc ..⟩
  · rintro ⟨rest, hrest⟩
    have hlist := congrArg String.toList hrest
    simp only [String.toList_append] at hlist
    rcases List.eq_nil_or_concat rest.toList with hnil | ⟨front, c, hfront⟩
    · rw [hnil, List.append_nil] at hlist
      exact .inl (String.toList_inj.mp (List.append_cancel_right hlist))
    · refine .inr ⟨String.ofList front, String.toList_inj.mp ?_⟩
      rw [hfront, List.concat_eq_append, ← List.append_assoc] at hlist
      simpa using (List.append_inj' hlist rfl).1

/-- **Migrated inbounds keep their panel** exactly if their tag does not also go on from the slug of
a panel with a smaller id. -/
theorem panel_of_migrated_tag_iff (eps : List Endpoint)
    (hrows : ∀ ep ∈ eps, isPanel ep = true → PanelRow ep) (hids : (eps.map Endpoint.id).Nodup)
    (e : Endpoint) (he : e ∈ eps) (hpanel : isPanel e = true) (t : String) (ht : t.length ≤ 32)
    (hnone : ∀ ep ∈ eps, ep.inboundTag ≠ slugifyTag e.slug t) :
    resolveEndpointForInboundTag eps (slugifyTag e.slug t) = some e ↔
      ∀ ep ∈ eps, isPanel ep = true → ep.id < e.id →
        taggedBy ep (sanitized e.slug ++ "-" ++ tagBase t) = false := by
  obtain ⟨hlegacy, hne, hlength⟩ := hrows e he hpanel
  have hname := slugifyTag_eq hne hlength ht
  have hover : getSubscriptionEndpointByInboundTag eps (slugifyTag e.slug t) = none := by
    rw [getSubscriptionEndpointByInboundTag, ite_eq_left_iff]
    intro _
    exact List.find?_eq_none.mpr fun ep hep => by simp [hnone ep hep]
  have hnonempty : slugifyTag e.slug t ≠ "" := by
    rw [hname]
    simp
  have hown : governs e (slugifyTag e.slug t) = true := by
    rw [governs_iff ⟨hlegacy, hne, hlength⟩, hname]
    exact Or.inr (startsWith_iff.mpr ⟨_, rfl⟩)
  -- the conditions of the scan come down to a panel whose slug begins the tag
  have hseen : ∀ ep ∈ eps, (ep.enabled = true ∧ (ep.inboundTag = "" && ep.slug != "default" &&
      governs ep (slugifyTag e.slug t)) = true) ↔
        isPanel ep = true ∧ taggedBy ep (slugifyTag e.slug t) = true := by
    intro ep hep
    have hsplit : (ep.enabled = true ∧ (ep.inboundTag = "" && ep.slug != "default" &&
        governs ep (slugifyTag e.slug t)) = true) ↔
          isPanel ep = true ∧ governs ep (slugifyTag e.slug t) = true := by
      simp [isPanel, and_assoc]
    exact hsplit.trans (and_congr_right fun hp => governs_iff_taggedBy (hrows ep hep hp))
  rw [resolveEndpointForInboundTag, hname, stripped_name, ← hname, if_neg hnonempty, hover,
    Option.none_or, listSubscriptionEndpoints,
    find?_insertionSort_eq_some_iff Endpoint.id (fun _ _ => Iff.rfl)
      fun a ha b hb => List.inj_on_of_nodup_map hids (List.mem_of_mem_filter ha)
        (List.mem_of_mem_filter hb)]
  simp only [List.mem_filter, Bool.not_true, Bool.or_false]
  constructor
  · rintro ⟨-, -, hfirst⟩ ep hep hp hlt
    refine Bool.eq_false_iff.mpr fun htagged => ?_
    obtain ⟨henabled, hsees⟩ := (hseen ep hep).mpr ⟨hp, htagged⟩
    exact absurd (hfirst ep ⟨hep, henabled⟩ hsees) (not_le.mpr hlt)
  · intro hfirst
    obtain ⟨henabled, hsees⟩ := (hseen e he).mpr
      ⟨hpanel, (governs_iff_taggedBy ⟨hlegacy, hne, hlength⟩).mp hown⟩
    refine ⟨⟨he, henabled⟩, hsees, fun ep ⟨hep, henabled'⟩ hsees' => not_lt.mp fun hlt => ?_⟩
    obtain ⟨hp, htagged⟩ := (hseen ep hep).mp ⟨henabled', hsees'⟩
    exact absurd htagged (by simp [hfirst ep hep hp hlt])

def panelsOf (slugs : List String) : List Endpoint :=
  slugs.zipIdx.map fun e => { id := e.2 + 1, slug := e.1, legacyPanelId := e.1 }

/-- `fr` after two slugs that extend one another, and the longer of two slugs listed first. -/
theorem panels_of_tags :
    resolveEndpointForInboundTag (panelsOf ["de", "de-1", "fr"]) (slugifyTag "fr" "de-443") =
        some { id := 3, slug := "fr", legacyPanelId := "fr" } ∧
      resolveEndpointForInboundTag (panelsOf ["de-1", "de"]) (slugifyTag "de" "inbound-443") =
        some { id := 2, slug := "de", legacyPanelId := "de" } := by
  constructor
  · refine (panel_of_migrated_tag_iff (panelsOf ["de", "de-1", "fr"]) ?_ (by decide)
      { id := 3, slug := "fr", legacyPanelId := "fr" } (by decide) (by decide) "de-443" (by decide)
      (by decide +kernel)).mpr (by decide +kernel)
    intro ep hep _
    simp only [panelsOf, List.zipIdx_cons, List.zipIdx_nil, List.map_cons, List.map_nil,
      List.mem_cons, List.not_mem_nil, or_false] at hep
    rcases hep with rfl | rfl | rfl <;> exact ⟨rfl, by decide, by decide⟩
  · refine (panel_of_migrated_tag_iff (panelsOf ["de-1", "de"]) ?_ (by decide)
      { id := 2, slug := "de", legacyPanelId := "de" } (by decide) (by decide) "inbound-443"
      (by decide) (by decide +kernel)).mpr (by decide +kernel)
    intro ep hep _
    simp only [panelsOf, List.zipIdx_cons, List.zipIdx_nil, List.map_cons, List.map_nil,
      List.mem_cons, List.not_mem_nil, or_false] at hep
    rcases hep with rfl | rfl <;> exact ⟨rfl, by decide, by decide⟩

theorem first_panel_of_tag :
    resolveEndpointForInboundTag (panelsOf ["de", "de-1"]) (slugifyTag "de-1" "inbound-443") =
      some { id := 1, slug := "de", legacyPanelId := "de" } := by
  decide +kernel

end Shahkar.Subscription
