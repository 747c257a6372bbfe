import Shahkar.Migration.Collected

/-!
# Who can use the inbounds of a panel after its import

An account can use every inbound of a protocol it has, minus those that its proxy excludes. The new
inbounds are added to the exclusions of the accounts that the import does not recognise.
-/

namespace Shahkar.Migration

open Shahkar.Lib Shahkar.Lib.Text Shahkar.Xray

variable {env : Environment} {core : List CoreInbound} {slug name tag : String}
  {inbounds : List PanelInbound} {type : ProxyType} {u : Account} {tags : List String}

def productOf (env : Environment) (core : List CoreInbound) (tag : String) : Option ProxyType :=
  (inboundByTag env core tag).bind fun row => row.product env

def HasAccess (env : Environment) (core : List CoreInbound) (u : Account) (tag : String) : Prop :=
  ∃ type row, productOf env core tag = some type ∧ u.get? type = some row ∧ tag ∉ row.excluded

def panelTags (slug : String) (inbounds : List PanelInbound) : List String :=
  inbounds.map fun inbound => slugifyTag slug inbound.sourceTag

def Recognised (slug name : String) : Prop :=
  ownPrefix slug ≠ "" ∧ startsWith (ownPrefix slug) name = true

instance : Decidable (Recognised slug name) := inferInstanceAs (Decidable (_ ∧ _))

def Rewritten (env : Environment) (core : List CoreInbound) (slug : String)
    (inbounds : List PanelInbound) (name : String) (u : Account) : Prop :=
  (∃ m ∈ namesakes env.sha1 slug inbounds name, m.1.clientProtocol.isSome = true) ∧
    (updateAccount env core u (collected env slug inbounds name)).isSome = true

def OnInbound (env : Environment) (core : List CoreInbound) (slug : String)
    (inbounds : List PanelInbound) (name tag : String) : Prop :=
  ∃ type, productOf env core tag = some type ∧
    ∃ m ∈ namesakes env.sha1 slug inbounds name,
      m.1.clientProtocol = some type ∧ attachedTag slug m.1 = tag

/-!
### The pass over the other panels' users
-/

theorem get?_fenceAccount (u : Account) :
    (fenceAccount env core slug tags name u).get? type =
      (u.get? type).map fun row =>
        if Recognised slug name then row else fenceRow env core tags type row := by
  rw [fenceAccount]
  by_cases h : Recognised slug name
  · rw [if_pos (show ownPrefix slug ≠ "" ∧ _ from h)]
    simp [h]
  · rw [if_neg (show ¬ (ownPrefix slug ≠ "" ∧ _) from h), Dict.get?_filterMapWithKey]
    cases u.get? type <;> simp [h]

theorem settings_fenceAccount (u : Account) :
    ((fenceAccount env core slug tags name u).get? type).map ProxyRow.settings =
      (u.get? type).map ProxyRow.settings := by
  rw [get?_fenceAccount, Option.map_map]
  refine Option.map_congr fun row _ => ?_
  split <;> rfl

theorem hasAccess_fenceAccount_iff :
    HasAccess env core (fenceAccount env core slug tags name u) tag ↔
      HasAccess env core u tag ∧ (Recognised slug name ∨ tag ∉ tags) := by
  have hrow : ∀ type row, productOf env core tag = some type →
      (tag ∉ (if Recognised slug name then row else fenceRow env core tags type row).excluded ↔
        tag ∉ row.excluded ∧ (Recognised slug name ∨ tag ∉ tags)) := by
    intro type row htype
    by_cases h : Recognised slug name
    · simp [h]
    · have htype' : ((inboundByTag env core tag).bind fun inbound => inbound.product env) =
          some type := htype
      simp only [h, if_false, fenceRow, List.mem_append, List.mem_filter, htype', true_and,
        decide_eq_true_eq, false_or]
      tauto
  constructor
  · intro ⟨type, row', htype, hget, hnot⟩
    rw [get?_fenceAccount, Option.map_eq_some_iff] at hget
    obtain ⟨row, hget, rfl⟩ := hget
    obtain ⟨hrowNot, hrest⟩ := (hrow type row htype).mp hnot
    exact ⟨⟨type, row, htype, hget, hrowNot⟩, hrest⟩
  · intro ⟨⟨type, row, htype, hget, hnot⟩, hrest⟩
    refine ⟨type, _, htype, ?_, (hrow type row htype).mpr ⟨hnot, hrest⟩⟩
    rw [get?_fenceAccount, hget, Option.map_some]

theorem mem_productTags (h : productOf env core tag = some type) :
    tag ∈ productTags env core type := by
  obtain ⟨row, hrow, hproduct⟩ := Option.bind_eq_some_iff.mp h
  have htag := List.find?_some hrow
  rw [decide_eq_true_eq] at htag
  rw [productTags, ← htag.1]
  exact List.mem_map_of_mem (List.mem_filter.mpr
    ⟨List.mem_of_find?_eq_some hrow, decide_eq_true hproduct⟩)

theorem notMem_excludedTags_iff (h : productOf env core tag = some type) :
    tag ∉ excludedTags env core type tags ↔ tag ∈ tags := by
  rw [excludedTags, List.mem_filter, decide_eq_true_eq]
  have hproduct := mem_productTags h
  tauto

theorem hasAccess_written_iff {g : Group} {rows : ProxyType → Settings → Option ProxyRow}
    (hrows : ∀ type raw, g.proxies.get? type = some raw → ∃ row, rows type raw = some row ∧
      row.excluded = excludedTags env core type (g.tags type)) :
    HasAccess env core (g.proxies.filterMapWithKey rows) tag ↔
      ∃ type, productOf env core tag = some type ∧ (g.proxies.get? type).isSome = true ∧
        tag ∈ g.tags type := by
  constructor
  · intro ⟨type, row, htype, hget, hnot⟩
    rw [Dict.get?_filterMapWithKey, Option.bind_eq_some_iff] at hget
    obtain ⟨raw, hraw, hrow⟩ := hget
    obtain ⟨row', hrow', hexcluded⟩ := hrows type raw hraw
    obtain rfl : row = row' := Option.some.inj (hrow.symm.trans hrow')
    rw [hexcluded, notMem_excludedTags_iff htype] at hnot
    exact ⟨type, htype, by rw [hraw]; rfl, hnot⟩
  · intro ⟨type, htype, hsome, hmem⟩
    obtain ⟨raw, hraw⟩ := Option.isSome_iff_exists.mp hsome
    obtain ⟨row, hrow, hexcluded⟩ := hrows type raw hraw
    refine ⟨type, row, htype, ?_, ?_⟩
    · rw [Dict.get?_filterMapWithKey, hraw, Option.bind_some, hrow]
    · rw [hexcluded, notMem_excludedTags_iff htype]
      exact hmem

theorem exists_collected_tags_iff :
    (∃ type, productOf env core tag = some type ∧
        ((collected env slug inbounds name).proxies.get? type).isSome = true ∧
        tag ∈ (collected env slug inbounds name).tags type) ↔
      OnInbound env core slug inbounds name tag := by
  refine exists_congr fun type => and_congr_right fun _ => ?_
  rw [collected, mem_tags]
  constructor
  · exact And.right
  · intro hon
    obtain ⟨m, hm, hprotocol, htag⟩ := hon
    refine ⟨?_, m, hm, hprotocol, htag⟩
    have hon : m ∈ (namesakes env.sha1 slug inbounds name).filter
        fun m => m.1.clientProtocol = some type :=
      List.mem_filter.mpr ⟨hm, decide_eq_true hprotocol⟩
    rw [get?_proxies, Option.isSome_map, List.isSome_head?]
    exact List.ne_nil_of_mem hon

theorem createRow_excluded {g : Group} {raw : Settings} {row : ProxyRow}
    (h : createRow env core g type raw = some row) :
    row.excluded = excludedTags env core type (g.tags type) := by
  obtain ⟨settings, _, hrow⟩ := Option.bind_eq_some_iff.mp h
  dsimp only at hrow
  generalize (if type = .shadowsocks then _ else settings) = final at hrow
  split at hrow
  · cases hrow
    rfl
  · cases hrow

theorem updateRow_excluded {g : Group} {patch : Settings} {row : ProxyRow}
    (h : updateRow env core u g type patch = some row) :
    row.excluded = excludedTags env core type (g.tags type) := by
  obtain ⟨aligned, _, hrow⟩ := Option.bind_eq_some_iff.mp h
  split at hrow
  · obtain ⟨settings, _, rfl⟩ := Option.map_eq_some_iff.mp hrow
    rfl
  · cases hrow

theorem updateRow_fenceAccount (g : Group) :
    updateRow env core (fenceAccount env core slug tags name u) g = updateRow env core u g := by
  funext type patch
  rw [updateRow, updateRow, settings_fenceAccount]

section After

variable {steps : List (List Nat × PanelInbound)} {panel after : Panel}

def accountAfter (env : Environment) (core : List CoreInbound) (slug : String)
    (inbounds : List PanelInbound) (name : String) (u : Account) : Account :=
  let fenced := fenceAccount env core slug (newTags slug inbounds) name u
  if namesakes env.sha1 slug inbounds name = [] then fenced
  else (updateAccount env core fenced (collected env slug inbounds name)).getD fenced

theorem applyPanelMigration_eq_some_iff :
    applyPanelMigration env slug steps panel = some after ↔
      ∃ merged, mergeAll slug steps panel.core = some merged ∧
        after = { core := coreAfter env panel merged
                  users := (groupClients env.sha1 slug (steps.map Prod.snd)).entries.foldl
                    (importGroup env (coreAfter env panel merged))
                    (panel.users.filterMapWithKey fun username u =>
                      some (fenceAccount env (coreAfter env panel merged) slug
                        (newTags slug (steps.map Prod.snd)) username u)) } := by
  rw [applyPanelMigration, Option.map_eq_some_iff]
  exact exists_congr fun merged => and_congr_right fun _ => eq_comm

theorem get?_users_after (h : applyPanelMigration env slug steps panel = some after)
    (hu : panel.users.get? name = some u) :
    after.users.get? name =
      some (accountAfter env after.core slug (steps.map Prod.snd) name u) := by
  obtain ⟨merged, _, rfl⟩ := applyPanelMigration_eq_some_iff.mp h
  rw [accountAfter]
  generalize coreAfter env panel merged = core
  generalize steps.map Prod.snd = inbounds
  have hfenced : (panel.users.filterMapWithKey fun username u =>
      some (fenceAccount env core slug (newTags slug inbounds) username u)).get? name =
        some (fenceAccount env core slug (newTags slug inbounds) name u) := by
    rw [Dict.get?_filterMapWithKey, hu, Option.bind_some]
  split
  · next hnone =>
      rw [get?_foldl_importGroup_of_notMem, hfenced]
      intro hmem
      obtain ⟨⟨n, g⟩, hg, rfl⟩ := List.mem_map.mp hmem
      exact (mem_entries_groupClients.mp hg).1 hnone
  · next hsome =>
      exact get?_foldl_importGroup_of_mem (groupClients env.sha1 slug inbounds).nodup
        (mem_entries_groupClients.mpr ⟨hsome, rfl⟩) hfenced

theorem collected_proxies_ne_nil_iff :
    (collected env slug inbounds name).proxies.entries ≠ [] ↔
      ∃ m ∈ namesakes env.sha1 slug inbounds name, m.1.clientProtocol.isSome = true := by
  constructor
  · intro hne
    obtain ⟨⟨type, raw⟩, hentry⟩ := List.exists_mem_of_ne_nil _ hne
    rw [← Dict.get?_eq_some_iff, get?_collected_proxies, Option.map_eq_some_iff] at hentry
    obtain ⟨first, hfirst, _⟩ := hentry
    obtain ⟨hmem, hprotocol⟩ := mem_namesakesOn.mp (List.mem_of_mem_head? hfirst)
    exact ⟨first, hmem, by rw [hprotocol]; rfl⟩
  · intro ⟨m, hm, hsome⟩ hnil
    obtain ⟨type, hprotocol⟩ := Option.isSome_iff_exists.mp hsome
    have hon : m ∈ namesakesOn env.sha1 slug inbounds name type :=
      mem_namesakesOn.mpr ⟨hm, hprotocol⟩
    obtain ⟨first, hfirst⟩ := Option.isSome_iff_exists.mp
      (List.isSome_head?.mpr (List.ne_nil_of_mem hon))
    have hget : (collected env slug inbounds name).proxies.get? type =
        some (first.2.settings type) := by
      rw [get?_collected_proxies, hfirst, Option.map_some]
    rw [Dict.get?_eq_some_iff, hnil] at hget
    cases hget

theorem rewritten_iff :
    Rewritten env core slug inbounds name u ↔
      (collected env slug inbounds name).proxies.entries ≠ [] ∧
        ((collected env slug inbounds name).proxies.mapOption
          (updateRow env core u (collected env slug inbounds name))).isSome = true := by
  rw [Rewritten, ← collected_proxies_ne_nil_iff]
  refine and_congr_right fun hne => ?_
  rw [updateAccount, if_neg hne]

theorem accountAfter_of_rewritten (h : Rewritten env core slug inbounds name u) :
    (∀ type raw, (collected env slug inbounds name).proxies.get? type = some raw →
      (updateRow env core u (collected env slug inbounds name) type raw).isSome = true) ∧
    accountAfter env core slug inbounds name u =
      (collected env slug inbounds name).proxies.filterMapWithKey
        (updateRow env core u (collected env slug inbounds name)) := by
  obtain ⟨hne, hsome⟩ := rewritten_iff.mp h
  obtain ⟨account, haccount⟩ := Option.isSome_iff_exists.mp hsome
  obtain ⟨m, hm, _⟩ := h.1
  rw [accountAfter, if_neg (List.ne_nil_of_mem hm), updateAccount, if_neg hne,
    updateRow_fenceAccount, haccount, Option.getD_some]
  exact Dict.mapOption_eq_some_iff.mp haccount

theorem accountAfter_of_not_rewritten (h : ¬ Rewritten env core slug inbounds name u) :
    accountAfter env core slug inbounds name u =
      fenceAccount env core slug (newTags slug inbounds) name u := by
  rw [rewritten_iff, not_and] at h
  rw [accountAfter, updateAccount, updateRow_fenceAccount]
  by_cases hne : (collected env slug inbounds name).proxies.entries = []
  · rw [if_pos hne, Option.getD_some, ite_self]
  · rw [if_neg hne, Option.not_isSome_iff_eq_none.mp (h hne), Option.getD_none, ite_self]

theorem hasAccess_accountAfter_iff :
    HasAccess env core (accountAfter env core slug inbounds name u) tag ↔
      (Rewritten env core slug inbounds name u ∧ OnInbound env core slug inbounds name tag) ∨
      (¬ Rewritten env core slug inbounds name u ∧ HasAccess env core u tag ∧
        (Recognised slug name ∨ tag ∉ newTags slug inbounds)) := by
  by_cases hrewritten : Rewritten env core slug inbounds name u
  · obtain ⟨hrows, hafter⟩ := accountAfter_of_rewritten hrewritten
    rw [hafter, hasAccess_written_iff, exists_collected_tags_iff]
    · simp [hrewritten]
    · intro type raw hraw
      obtain ⟨row, hrow⟩ := Option.isSome_iff_exists.mp (hrows type raw hraw)
      exact ⟨row, hrow, updateRow_excluded hrow⟩
  · rw [accountAfter_of_not_rewritten hrewritten, hasAccess_fenceAccount_iff]
    simp [hrewritten]

theorem hasAccess_created (h : applyPanelMigration env slug steps panel = some after)
    (hnew : panel.users.get? name = none) (hu : after.users.get? name = some u) :
    HasAccess env after.core u tag ↔
      OnInbound env after.core slug (steps.map Prod.snd) name tag := by
  obtain ⟨merged, _, rfl⟩ := applyPanelMigration_eq_some_iff.mp h
  obtain ⟨g, hg, hcreate⟩ := createAccount_of_get?_foldl_importGroup
    (groupClients env.sha1 slug (steps.map Prod.snd)).nodup
    (by rw [Dict.get?_filterMapWithKey, hnew]; rfl) hu
  rw [(mem_entries_groupClients.mp hg).2] at hcreate
  obtain ⟨_, _, _, hrows, rfl⟩ := createAccount_eq_some_iff.mp hcreate
  rw [hasAccess_written_iff, exists_collected_tags_iff]
  intro type raw hraw
  obtain ⟨row, hrow⟩ := Option.isSome_iff_exists.mp (hrows type raw hraw)
  exact ⟨row, hrow, createRow_excluded hrow⟩

end After

/-- No account of another panel can use an inbound of this one, its own accounts (`own`) keep what
they could use of it, and the created ones can use their clients' inbounds. -/
structure Isolated (env : Environment) (slug : String) (inbounds : List PanelInbound)
    (own : String → Prop) (panel after : Panel) : Prop where
  foreign : ∀ name u, panel.users.get? name = some u → ¬ own name →
    ∃ u', after.users.get? name = some u' ∧
      ∀ tag ∈ panelTags slug inbounds, ¬ HasAccess env after.core u' tag
  kept : ∀ name u, panel.users.get? name = some u → own name →
    ∃ u', after.users.get? name = some u' ∧ ∀ tag ∈ panelTags slug inbounds,
      HasAccess env after.core u tag → HasAccess env after.core u' tag
  created : ∀ name u', panel.users.get? name = none → after.users.get? name = some u' →
    ∀ tag, OnInbound env after.core slug inbounds name tag → HasAccess env after.core u' tag

/-- The accounts that the import does not rewrite are recognised if and only if they are the
panel's, and the others are rewritten with inbounds of their own panel. -/
structure Separated (env : Environment) (core : List CoreInbound) (slug : String)
    (inbounds : List PanelInbound) (own : String → Prop) (panel : Panel) : Prop where
  foreign : ∀ name u, panel.users.get? name = some u → ¬ own name →
    ∀ tag ∈ panelTags slug inbounds,
      (Rewritten env core slug inbounds name u → ¬ OnInbound env core slug inbounds name tag) ∧
      (¬ Rewritten env core slug inbounds name u → HasAccess env core u tag →
        ¬ Recognised slug name ∧ tag ∈ newTags slug inbounds)
  kept : ∀ name u, panel.users.get? name = some u → own name →
    ∀ tag ∈ panelTags slug inbounds, HasAccess env core u tag →
      (Rewritten env core slug inbounds name u → OnInbound env core slug inbounds name tag) ∧
      (¬ Rewritten env core slug inbounds name u →
        Recognised slug name ∨ tag ∉ newTags slug inbounds)

/-- The import isolates panels exactly when the merges succeed and accounts are separated. -/
theorem isolated_iff (env : Environment) (slug : String) (steps : List (List Nat × PanelInbound))
    (own : String → Prop) (panel : Panel) :
    (∃ after, applyPanelMigration env slug steps panel = some after ∧
        Isolated env slug (steps.map Prod.snd) own panel after) ↔
      ∃ merged, mergeAll slug steps panel.core = some merged ∧
        Separated env (coreAfter env panel merged) slug (steps.map Prod.snd) own panel := by
  constructor
  · intro ⟨after, hafter, hisolated⟩
    obtain ⟨merged, hmerged, heq⟩ := applyPanelMigration_eq_some_iff.mp hafter
    have hcore : coreAfter env panel merged = after.core := by rw [heq]
    refine ⟨merged, hmerged, ?_⟩
    rw [hcore]
    refine ⟨?_, ?_⟩
    · intro name u hu hforeign tag htag
      obtain ⟨u', hu', hnone⟩ := hisolated.foreign name u hu hforeign
      obtain rfl := Option.some.inj ((get?_users_after hafter hu).symm.trans hu')
      have hnot := hnone tag htag
      rw [hasAccess_accountAfter_iff] at hnot
      tauto
    · intro name u hu hown tag htag haccess
      obtain ⟨u', hu', hkept⟩ := hisolated.kept name u hu hown
      obtain rfl := Option.some.inj ((get?_users_after hafter hu).symm.trans hu')
      have hstill := hkept tag htag haccess
      rw [hasAccess_accountAfter_iff] at hstill
      tauto
  · intro ⟨merged, hmerged, hseparated⟩
    obtain ⟨after, hafter, hcore⟩ : ∃ after, applyPanelMigration env slug steps panel = some after ∧
        after.core = coreAfter env panel merged :=
      ⟨_, applyPanelMigration_eq_some_iff.mpr ⟨merged, hmerged, rfl⟩, rfl⟩
    rw [← hcore] at hseparated
    refine ⟨after, hafter, ?_, ?_, ?_⟩
    · intro name u hu hforeign
      refine ⟨_, get?_users_after hafter hu, fun tag htag => ?_⟩
      have hclear := hseparated.foreign name u hu hforeign tag htag
      rw [hasAccess_accountAfter_iff]
      tauto
    · intro name u hu hown
      refine ⟨_, get?_users_after hafter hu, fun tag htag haccess => ?_⟩
      have hclear := hseparated.kept name u hu hown tag htag haccess
      rw [hasAccess_accountAfter_iff]
      tauto
    · intro name u' hnew hu' tag hon
      exact (hasAccess_created hafter hnew hu').mpr hon

instance : Decidable (HasAccess env core u tag) :=
  decidable_of_iff
    (((productOf env core tag).bind fun type => u.get? type).any fun row => tag ∉ row.excluded) (by
      simp only [Option.any_eq_true, Option.bind_eq_some_iff, decide_eq_true_eq, HasAccess]
      constructor
      · intro ⟨row, ⟨type, htype, hrow⟩, hnot⟩
        exact ⟨type, row, htype, hrow, hnot⟩
      · intro ⟨type, row, htype, hrow, hnot⟩
        exact ⟨row, ⟨type, htype, hrow⟩, hnot⟩)

def subscriber : Client :=
  { email := "bob@mail", id := "b831381d-6324-4d53-ad4f-8cda48b30811", subId := "bob" }

def afterFirst : Panel :=
  (applyPanelMigration plainEnvironment "p1" [([], inboundWith "a" 8443 [subscriber])]
    ⟨[], Dict.empty⟩).get (by decide +kernel)

/-- A panel with a client of its own. -/
def secondPanel : PanelInbound :=
  inboundWith "b" 9443 [{ subscriber with email := "eve@mail", subId := "eve" }]

theorem plain_panels_separated :
    ∃ merged, mergeAll "p2" [([], secondPanel)] afterFirst.core = some merged ∧
      Separated plainEnvironment (coreAfter plainEnvironment afterFirst merged) "p2"
        [secondPanel] (fun _ => False) afterFirst := by
  have hafter : applyPanelMigration plainEnvironment "p2" [([], secondPanel)] afterFirst =
      some _ := (Option.some_get (by decide +kernel)).symm
  refine (isolated_iff plainEnvironment "p2" [([], secondPanel)] (fun _ => False)
    afterFirst).mp ⟨_, hafter, ?_, ?_, ?_⟩
  · intro name u hu _
    have hkey : name ∈ afterFirst.users.keys := mem_keys_iff.mpr ⟨u, hu⟩
    have hkeys : afterFirst.users.keys = ["p1_bob"] := by decide +kernel
    rw [hkeys, List.mem_singleton] at hkey
    subst hkey
    refine ⟨_, (Option.some_get (by decide +kernel)).symm, ?_⟩
    decide +kernel
  · intro name u _ hown
    cases hown
  · intro name u' hnew hu' tag hon
    exact (hasAccess_created hafter hnew hu').mpr hon

/-- The account of `p1_x` can use the inbound of `p1`. -/
theorem panels_not_isolated :
    (∃ first second u,
      applyPanelMigration plainEnvironment "p1_x" [([], inboundWith "a" 8443 [subscriber])]
        ⟨[], Dict.empty⟩ = some first ∧
      applyPanelMigration plainEnvironment "p1" [([], inboundWith "b" 9443 [])] first =
        some second ∧
      subscriber.username plainDigest "p1_x" = "p1_x_bob" ∧
      second.users.get? "p1_x_bob" = some u ∧ "p1-b" ∈ panelTags "p1" [inboundWith "b" 9443 []] ∧
      HasAccess plainEnvironment second.core u "p1-b") ∧
    ∃ first second u u',
      applyPanelMigration plainEnvironment "p 1" [([], inboundWith "a" 8443 [subscriber])]
        ⟨[], Dict.empty⟩ = some first ∧
      applyPanelMigration plainEnvironment "p 1" [([], inboundWith "a" 8443 [])] first =
        some second ∧
      subscriber.username plainDigest "p 1" = "p_1_bob" ∧
      first.users.get? "p_1_bob" = some u ∧ second.users.get? "p_1_bob" = some u' ∧
      HasAccess plainEnvironment second.core u "p-1-a" ∧
      ¬ HasAccess plainEnvironment second.core u' "p-1-a" := by
  refine ⟨⟨_, _, _, (Option.some_get (by decide +kernel)).symm,
    (Option.some_get (by decide +kernel)).symm, by decide +kernel,
    (Option.some_get (by decide +kernel)).symm, by decide +kernel, by decide +kernel⟩,
    ⟨_, _, _, _, (Option.some_get (by decide +kernel)).symm,
    (Option.some_get (by decide +kernel)).symm, by decide +kernel,
    (Option.some_get (by decide +kernel)).symm, (Option.some_get (by decide +kernel)).symm,
    by decide +kernel, by decide +kernel⟩⟩

end Shahkar.Migration
