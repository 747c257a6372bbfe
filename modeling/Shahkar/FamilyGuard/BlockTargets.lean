import Shahkar.FamilyGuard.Schedule
import Shahkar.FamilyGuard.ServerRouting
import Mathlib.Data.List.Dedup

/-!
# Shahkar.FamilyGuard.BlockTargets

The names that Family Guard blocks: `collect_block_targets`, the client's rules (`_xray_rules`) and
the core's (`build_family_guard_rules`). The core spells out 24 domains at most next to geosites, so
it blocks what the client blocks exactly if there are no geosites or at most 24 domains.
-/

namespace Shahkar.FamilyGuard

open Shahkar.Lib Shahkar.Lib.Text Shahkar.Xray.Routing

structure ServiceMeta where
  domains : List String := []
  geosites : List String := []
  geoips : List String := []

structure BlockControls extends Controls where
  services : List String := []
  customDomains : List String := []
  blockAdult : Bool := false
  blockAds : Bool := false

/-- Append names that are neither empty nor there yet. -/
def addNames (out names : List String) : List String :=
  names.foldl (fun out d => if d = "" ∨ d ∈ out then out else out ++ [d]) out

section Targets

variable (catalog : String → Option ServiceMeta) (services : List String)

def domainsForServices : List String :=
  addNames [] (((services.filterMap catalog).flatMap (·.domains)).map cleanDomain)

def geositesForServices : List String :=
  addNames [] (listEntries "geosite:" ((services.filterMap catalog).flatMap (·.geosites)))

def geoipsForServices : List String :=
  addNames [] (listEntries "geoip:" ((services.filterMap catalog).flatMap (·.geoips)))

end Targets

def collectBlockTargets (catalog : String → Option ServiceMeta) (clock : Clock)
    (c : BlockControls) : BlockTargets :=
  if !c.enabled || isPauseActive clock c.toControls then ⟨[], [], []⟩
  else
    { domains := addNames (domainsForServices catalog c.services) (c.customDomains.map cleanDomain)
      geosites := addNames (geositesForServices catalog c.services)
        ((if c.blockAdult then ["geosite:category-porn"] else []) ++
          if c.blockAds then ["geosite:category-ads-all"] else [])
      geoips := geoipsForServices catalog c.services }

def xrayRules (domains geosites : List String) : List Rule :=
  (chunks 80 (domains.flatMap (fun d => ["domain:" ++ d, "full:" ++ d]) ++ geosites)).map fun part =>
    { domain := part, outboundTag := "block" }

section Names

variable {catalog : String → Option ServiceMeta} {clock : Clock} {c : BlockControls} {e : String}

theorem mem_addNames {out names : List String} :
    e ∈ addNames out names ↔ e ∈ out ∨ e ∈ names ∧ e ≠ "" := by
  unfold addNames
  induction names generalizing out with
  | nil => simp
  | cons d rest ih =>
    rw [List.foldl_cons, ih]
    split
    · next hskip =>
        rcases hskip with rfl | hmem
        · grind
        · grind
    · grind

theorem mem_listEntries {kind : String} {names : List String} : e ∈ listEntries kind names ↔
    ∃ g ∈ names, stripped g ≠ "" ∧
      e = if startsWith kind (stripped g) then stripped g else kind ++ stripped g := by
  simp only [listEntries, List.mem_map, List.mem_filter]
  constructor
  · rintro ⟨_, ⟨⟨g, hg, rfl⟩, hne⟩, rfl⟩
    exact ⟨g, hg, by simpa using hne, rfl⟩
  · rintro ⟨g, hg, hne, heq⟩
    exact ⟨_, ⟨⟨g, hg, rfl⟩, by simpa using hne⟩, heq.symm⟩

def IsGeosite (g : String) : Prop := stripped g = g ∧ g ≠ "" ∧ startsWith "geosite:" g

theorem isGeosite_of_mem_listEntries {names : List String} (h : e ∈ listEntries "geosite:" names) :
    IsGeosite e := by
  obtain ⟨g, -, hne, heq⟩ := mem_listEntries.mp h
  rw [heq]
  split
  · next hstarts => exact ⟨stripped_stripped g, hne, hstarts⟩
  · refine ⟨stripped_append (by decide) hne, ?_, ?_⟩
    · intro hempty
      have := congrArg String.length hempty
      rw [String.length_append] at this
      exact absurd this (by simp)
    · simp [startsWith]

theorem isGeosite_of_mem_collect (h : e ∈ (collectBlockTargets catalog clock c).geosites) :
    IsGeosite e := by
  unfold collectBlockTargets at h
  split at h
  · cases h
  · simp only [mem_addNames, List.mem_append, List.mem_ite_nil_right, List.mem_singleton,
      geositesForServices] at h
    rcases h with (hnil | ⟨hservice, -⟩) | ⟨⟨-, rfl⟩ | ⟨-, rfl⟩, -⟩
    · cases hnil
    · exact isGeosite_of_mem_listEntries hservice
    · unfold IsGeosite
      decide
    · unfold IsGeosite
      decide

theorem nodup_addNames {out names : List String} (h : out.Nodup) : (addNames out names).Nodup := by
  unfold addNames
  induction names generalizing out with
  | nil => exact h
  | cons d rest ih =>
    rw [List.foldl_cons]
    refine ih ?_
    split
    · exact h
    · next hnew =>
        rw [← List.concat_eq_append]
        exact h.concat fun hmem => hnew (.inr hmem)

/-- The domains that the services and the custom list name. -/
def namedDomains (catalog : String → Option ServiceMeta) (c : BlockControls) : List String :=
  (c.services.filterMap catalog).flatMap (·.domains) ++ c.customDomains

/-- A flag is set, or a service has a geosite. -/
def namesGeosite (catalog : String → Option ServiceMeta) (c : BlockControls) : Bool :=
  c.blockAdult || c.blockAds ||
    ((c.services.filterMap catalog).flatMap (·.geosites)).any fun g => stripped g ≠ ""

/-- The guard is on, and cleaning leaves the named domains as they are, as it does those that
`_parse_domain` returns. -/
structure Blocking (catalog : String → Option ServiceMeta) (clock : Clock) (c : BlockControls) :
    Prop where
  enabled : c.enabled = true
  unpaused : isPauseActive clock c.toControls = false
  clean : ∀ d ∈ namedDomains catalog c, cleanDomain d = d ∧ d ≠ ""

theorem collectBlockTargets_eq (h : Blocking catalog clock c) :
    collectBlockTargets catalog clock c =
      { domains := addNames (domainsForServices catalog c.services) (c.customDomains.map cleanDomain)
        geosites := addNames (geositesForServices catalog c.services)
          ((if c.blockAdult then ["geosite:category-porn"] else []) ++
            if c.blockAds then ["geosite:category-ads-all"] else [])
        geoips := geoipsForServices catalog c.services } := by
  rw [collectBlockTargets, if_neg (by simp [h.enabled, h.unpaused])]

theorem map_cleanDomain {names : List String} (h : ∀ d ∈ names, cleanDomain d = d ∧ d ≠ "") :
    names.map cleanDomain = names :=
  (List.map_congr_left fun d hd => (h d hd).1).trans (List.map_id _)

theorem mem_domains_iff (h : Blocking catalog clock c) :
    e ∈ (collectBlockTargets catalog clock c).domains ↔ e ∈ namedDomains catalog c := by
  obtain ⟨hservices, hcustom⟩ := List.forall_mem_append.mp h.clean
  have hne : e ∈ namedDomains catalog c → e ≠ "" := fun he => (h.clean e he).2
  rw [collectBlockTargets_eq h]
  simp only [mem_addNames, domainsForServices, map_cleanDomain hservices, map_cleanDomain hcustom,
    List.not_mem_nil, false_or]
  rw [namedDomains, List.mem_append] at hne ⊢
  exact ⟨Or.imp And.left And.left, fun he => he.imp (fun hs => ⟨hs, hne he⟩) fun hs => ⟨hs, hne he⟩⟩

theorem nodup_domains : (collectBlockTargets catalog clock c).domains.Nodup := by
  unfold collectBlockTargets
  split
  · exact List.nodup_nil
  · exact nodup_addNames (nodup_addNames List.nodup_nil)

theorem length_domains (h : Blocking catalog clock c) :
    (collectBlockTargets catalog clock c).domains.length = (namedDomains catalog c).dedup.length :=
  ((List.perm_ext_iff_of_nodup nodup_domains (List.nodup_dedup _)).mpr fun _ =>
    (mem_domains_iff h).trans List.mem_dedup.symm).length_eq

theorem geosites_eq_nil_iff (h : Blocking catalog clock c) :
    (collectBlockTargets catalog clock c).geosites = [] ↔ namesGeosite catalog c = false := by
  rw [List.eq_nil_iff_forall_not_mem, collectBlockTargets_eq h]
  simp only [mem_addNames, geositesForServices, namesGeosite, Bool.or_eq_false_iff,
    List.any_eq_false, List.not_mem_nil, false_or]
  constructor
  · intro hnone
    refine ⟨⟨?_, ?_⟩, fun g hg hne => ?_⟩
    · rw [Bool.eq_false_iff]
      exact fun hflag => hnone "geosite:category-porn" (.inr ⟨by simp [hflag], by decide⟩)
    · rw [Bool.eq_false_iff]
      exact fun hflag => hnone "geosite:category-ads-all" (.inr ⟨by simp [hflag], by decide⟩)
    · obtain ⟨e, hentry⟩ : ∃ e, e ∈ listEntries "geosite:" _ :=
        ⟨_, mem_listEntries.mpr ⟨g, hg, of_decide_eq_true hne, rfl⟩⟩
      exact hnone e (.inl ⟨hentry, (isGeosite_of_mem_listEntries hentry).2.1⟩)
  · rintro ⟨⟨hadult, hads⟩, hnone⟩ e (⟨hentry, -⟩ | ⟨hmem, -⟩)
    · obtain ⟨g, hg, hne, -⟩ := mem_listEntries.mp hentry
      exact hnone g hg (decide_eq_true hne)
    · simp [hadult, hads] at hmem

/-- The domains that the core spells out. -/
def spelledOut (t : BlockTargets) : List String :=
  if t.geosites.isEmpty then t.domains else t.domains.take 24

theorem mem_nameEntries_iff {t : BlockTargets} (hgeosites : ∀ g ∈ t.geosites, IsGeosite g)
    (hclean : ∀ d ∈ t.domains, cleanDomain d = d ∧ d ≠ "") :
    e ∈ nameEntries t ↔
      e ∈ (spelledOut t).flatMap (fun d => ["domain:" ++ d, "full:" ++ d]) ++ t.geosites := by
  have hspelled : ∀ d ∈ spelledOut t, cleanDomain d = d ∧ d ≠ "" := by
    intro d hd
    refine hclean d ?_
    unfold spelledOut at hd
    split at hd
    exacts [hd, List.mem_of_mem_take hd]
  have hdomains : domainEntries (spelledOut t) =
      (spelledOut t).flatMap fun d => ["domain:" ++ d, "full:" ++ d] := by
    rw [domainEntries, map_cleanDomain hspelled,
      List.filter_eq_self.mpr fun d hd => by simpa using (hspelled d hd).2]
  have hlist : e ∈ listEntries "geosite:" t.geosites ↔ e ∈ t.geosites := by
    rw [mem_listEntries]
    constructor
    · rintro ⟨g, hg, -, heq⟩
      obtain ⟨hstripped, -, hstarts⟩ := hgeosites g hg
      rwa [heq, hstripped, if_pos hstarts]
    · intro he
      obtain ⟨hstripped, hne, hstarts⟩ := hgeosites e he
      exact ⟨e, he, by rwa [hstripped], by rw [hstripped, if_pos hstarts]⟩
  rw [nameEntries, ← spelledOut, hdomains, List.mem_append, List.mem_append, hlist, or_comm]

theorem not_geosite_domain {d : String} : ¬ IsGeosite ("domain:" ++ d) := by
  rintro ⟨-, -, hstarts⟩
  rw [startsWith, String.toList_append] at hstarts
  exact absurd hstarts (by simp)

/-- A domain's entry is there just if the core spells the domain out. -/
theorem domain_mem_nameEntries_iff {t : BlockTargets} {d : String}
    (hgeosites : ∀ g ∈ t.geosites, IsGeosite g)
    (hclean : ∀ d ∈ t.domains, cleanDomain d = d ∧ d ≠ "") :
    "domain:" ++ d ∈ nameEntries t ↔ d ∈ spelledOut t := by
  rw [mem_nameEntries_iff hgeosites hclean, List.mem_append, List.mem_flatMap]
  constructor
  · rintro (⟨d', hd', hmem⟩ | hmem)
    · simp only [List.mem_cons, List.not_mem_nil, or_false] at hmem
      rcases hmem with heq | heq
      · have hsame : d = d' := by
          simpa [← String.toList_inj] using heq
        exact hsame ▸ hd'
      · rw [← String.toList_inj, String.toList_append, String.toList_append] at heq
        exact absurd heq (by simp)
    · exact absurd (hgeosites _ hmem) not_geosite_domain
  · exact fun hd => .inl ⟨d, hd, List.mem_cons_self⟩

theorem mem_guardRules_iff {email : String} {t : BlockTargets} :
    (∃ r ∈ guardRules email t, e ∈ r.domain) ↔ e ∈ nameEntries t := by
  simp only [guardRules, List.mem_append, List.mem_map, List.mem_ite_nil_left, List.mem_singleton]
  constructor
  · rintro ⟨r, ⟨part, hpart, rfl⟩ | ⟨-, rfl⟩, he⟩
    · exact (mem_chunks_iff (by decide)).mp ⟨part, hpart, he⟩
    · cases he
  · intro he
    obtain ⟨part, hpart, hmem⟩ := (mem_chunks_iff (k := ruleChunk) (by decide)).mpr he
    exact ⟨_, .inl ⟨part, hpart, rfl⟩, hmem⟩

theorem mem_xrayRules_iff {domains geosites : List String} :
    (∃ r ∈ xrayRules domains geosites, e ∈ r.domain) ↔
      e ∈ domains.flatMap (fun d => ["domain:" ++ d, "full:" ++ d]) ++ geosites := by
  simp only [xrayRules, List.mem_map]
  constructor
  · rintro ⟨_, ⟨part, hpart, rfl⟩, he⟩
    exact (mem_chunks_iff (by decide)).mp ⟨part, hpart, he⟩
  · intro he
    obtain ⟨part, hpart, hmem⟩ := (mem_chunks_iff (k := 80) (by decide)).mpr he
    exact ⟨_, ⟨part, hpart, rfl⟩, hmem⟩

end Names

/-- **The core and the client block the same names** exactly if there are no geosites or at most 24
domains. -/
theorem core_blocks_client_names_iff (catalog : String → Option ServiceMeta) (clock : Clock)
    (c : BlockControls) (id : Nat) (username : String) (h : Blocking catalog clock c) :
    let t := collectBlockTargets catalog clock c
    let rules := buildFamilyGuardRules [⟨id, username, some t⟩]
    ((∀ d ∈ t.domains, ∃ r ∈ rules, "domain:" ++ d ∈ r.domain) ∧
      (∀ g ∈ t.geosites, ∃ r ∈ rules, g ∈ r.domain) ∧
      (∀ r ∈ rules, r.user = [xrayUserEmail id username] ∧ r.outboundTag = "BLOCK") ∧
      ∀ entry, (∃ r ∈ rules, entry ∈ r.domain) ↔
        ∃ r ∈ xrayRules t.domains t.geosites, entry ∈ r.domain) ↔
      (namesGeosite catalog c = true → (namedDomains catalog c).dedup.length ≤ 24) := by
  intro t rules
  have hrules : rules = guardRules (xrayUserEmail id username) t := List.flatMap_singleton ..
  have hgeosites : ∀ g ∈ t.geosites, IsGeosite g := fun g => isGeosite_of_mem_collect
  have hclean : ∀ d ∈ t.domains, cleanDomain d = d ∧ d ≠ "" :=
    fun d hd => h.clean d ((mem_domains_iff h).mp hd)
  rw [← length_domains h]
  constructor
  · rintro ⟨hdomains, -⟩ hnames
    by_contra hlong
    have hgeo : ¬ t.geosites.isEmpty := by
      rw [List.isEmpty_iff]
      exact fun hnil => Bool.false_ne_true (((geosites_eq_nil_iff h).mp hnil).symm.trans hnames)
    have h24 : 24 < t.domains.length := Nat.lt_of_not_le hlong
    have hblocked := hdomains _ (List.getElem_mem h24)
    rw [hrules, mem_guardRules_iff, domain_mem_nameEntries_iff hgeosites hclean, spelledOut,
      if_neg hgeo, List.mem_take_iff_getElem] at hblocked
    obtain ⟨i, hi, heq⟩ := hblocked
    have := (List.Nodup.getElem_inj_iff nodup_domains).mp heq
    omega
  · intro hshort
    have hspelled : spelledOut t = t.domains := by
      unfold spelledOut
      split
      · rfl
      · next hne =>
          refine List.take_of_length_le (hshort ?_)
          rw [← Bool.not_eq_false, ← geosites_eq_nil_iff h, ← List.isEmpty_iff]
          exact hne
    have hentry : ∀ e, (∃ r ∈ rules, e ∈ r.domain) ↔
        ∃ r ∈ xrayRules t.domains t.geosites, e ∈ r.domain := by
      intro e
      rw [hrules, mem_guardRules_iff, mem_xrayRules_iff, mem_nameEntries_iff hgeosites hclean, hspelled]
    refine ⟨fun d hd => (hentry _).mpr (mem_xrayRules_iff.mpr ?_),
      fun g hg => (hentry _).mpr (mem_xrayRules_iff.mpr ?_), ?_, hentry⟩
    · exact List.mem_append_left _ (List.mem_flatMap.mpr ⟨d, hd, List.mem_cons_self⟩)
    · exact List.mem_append_right _ hg
    · intro r hr
      rw [hrules] at hr
      obtain ⟨domain, ip, rfl⟩ := eq_of_mem_guardRules hr
      exact ⟨rfl, rfl⟩

def siteControls (sites : Nat) : BlockControls :=
  { enabled := true, blockAdult := true
    customDomains := (List.range sites).map fun n => "site" ++ toString n ++ ".com" }

def siteTargets (sites : Nat) : BlockTargets :=
  collectBlockTargets (fun _ => none) ⟨0, fun _ => ⟨1, 0, 0, ""⟩⟩ (siteControls sites)

theorem two_sites_blocked :
    "site1.com" ∈ (siteTargets 2).domains ∧
      ∀ d ∈ (siteTargets 2).domains,
        ∃ r ∈ buildFamilyGuardRules [⟨7, "sara", some (siteTargets 2)⟩], "domain:" ++ d ∈ r.domain :=
  ⟨by decide +kernel, ((core_blocks_client_names_iff (fun _ => none) ⟨0, fun _ => ⟨1, 0, 0, ""⟩⟩
    (siteControls 2) 7 "sara" ⟨rfl, by decide, by decide +kernel⟩).mpr (by decide +kernel)).1⟩

theorem site_25_open :
    "site24.com" ∈ (siteTargets 25).domains ∧
      (∃ r ∈ xrayRules (siteTargets 25).domains (siteTargets 25).geosites,
        "domain:site24.com" ∈ r.domain) ∧
      ∀ r ∈ buildFamilyGuardRules [⟨7, "sara", some (siteTargets 25)⟩],
        "domain:site24.com" ∉ r.domain ∧ "full:site24.com" ∉ r.domain := by
  decide +kernel

end Shahkar.FamilyGuard
