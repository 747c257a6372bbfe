import Shahkar.Migration.Import

/-!
# What the import has collected and written for a username

For each protocol the first client of the username gives the settings, and all of them give their
inbound's tag; the account is written from this, or refused.
-/

namespace Shahkar.Migration

open Shahkar.Lib Shahkar.Lib.Text Shahkar.Xray

variable {env : Environment} {core : List CoreInbound} {slug name : String}
  {inbounds : List PanelInbound} {type : ProxyType} {m : Member}

/-!
### Groups
-/

def namesakes (sha1 : Digest) (slug : String) (inbounds : List PanelInbound) (name : String) :
    List Member :=
  (members inbounds).filter fun m => groupKey sha1 slug m = some name

def namesakesOn (sha1 : Digest) (slug : String) (inbounds : List PanelInbound) (name : String)
    (type : ProxyType) : List Member :=
  (namesakes sha1 slug inbounds name).filter fun m => m.1.clientProtocol = some type

variable {ms : List Member} {sha1 : Digest} {tag : String}

theorem mem_namesakesOn :
    m ∈ namesakesOn sha1 slug inbounds name type ↔
      m ∈ namesakes sha1 slug inbounds name ∧ m.1.clientProtocol = some type := by
  rw [namesakesOn, List.mem_filter, decide_eq_true_eq]

theorem get?_groupClients (sha1 : Digest) : (groupClients sha1 slug inbounds).get? name =
      if namesakes sha1 slug inbounds name = [] then none
      else some ((namesakes sha1 slug inbounds name).foldl (Group.add slug) Group.empty) :=
  Dict.get?_groupBy _ _ _ _ _

theorem foldl_add (ms : List Member) (g : Group) :
    ms.foldl (Group.add slug) g =
      { proxies := ms.foldl (Dict.defaultStep (fun m => m.1.clientProtocol)
          fun m => m.2.settings (m.1.clientProtocol.getD .vless)) g.proxies
        inbounds := ms.foldl (Dict.groupStep (fun m => m.1.clientProtocol) []
          fun tags m => addTag tags (attachedTag slug m.1)) g.inbounds
        email := ms.foldl (fun email m => orElse email (stripped m.2.email)) g.email } := by
  induction ms generalizing g with
  | nil => rfl
  | cons m rest ih => rw [List.foldl_cons, ih]; rfl

theorem get?_proxies (ms : List Member) :
    (ms.foldl (Group.add slug) Group.empty).proxies.get? type =
      (ms.filter fun m => m.1.clientProtocol = some type).head?.map fun m => m.2.settings type := by
  rw [foldl_add]
  rw [Dict.get?_foldl_defaultStep, Group.empty, Dict.get?_empty, Option.none_or]
  refine Option.map_congr fun m hm => ?_
  have hprotocol := (List.mem_filter.mp (List.mem_of_mem_head? hm)).2
  rw [decide_eq_true_eq] at hprotocol
  rw [hprotocol, Option.getD_some]

theorem mem_foldl_addTag {tags : List String} :
    tag ∈ ms.foldl (fun tags m => addTag tags (attachedTag slug m.1)) tags ↔
      tag ∈ tags ∨ ∃ m ∈ ms, attachedTag slug m.1 = tag := by
  induction ms generalizing tags with
  | nil => simp
  | cons m rest ih =>
    rw [List.foldl_cons, ih]
    have hadd : tag ∈ addTag tags (attachedTag slug m.1) ↔
        tag ∈ tags ∨ attachedTag slug m.1 = tag := by
      rw [addTag]
      split
      · next hmem =>
          constructor
          · exact .inl
          · intro h
            cases h with
            | inl h => exact h
            | inr h => exact h ▸ hmem
      · rw [List.mem_append, List.mem_singleton, eq_comm]
    rw [hadd]
    simp [or_assoc]

def Group.tags (g : Group) (type : ProxyType) : List String := (g.inbounds.get? type).getD []

theorem tags_eq (ms : List Member) : (ms.foldl (Group.add slug) Group.empty).tags type =
      (ms.filter fun m => m.1.clientProtocol = some type).foldl
        (fun tags m => addTag tags (attachedTag slug m.1)) [] := by
  rw [Group.tags, foldl_add]
  rw [Dict.get?_foldl_groupStep, Group.empty, Dict.get?_empty]
  split
  · next hnil => simp [hnil]
  · rfl

theorem mem_tags :
    tag ∈ (ms.foldl (Group.add slug) Group.empty).tags type ↔
      ∃ m ∈ ms, m.1.clientProtocol = some type ∧ attachedTag slug m.1 = tag := by
  rw [tags_eq, mem_foldl_addTag]
  simp [and_assoc]

def collected (env : Environment) (slug : String) (inbounds : List PanelInbound) (name : String) :
    Group :=
  (namesakes env.sha1 slug inbounds name).foldl (Group.add slug) Group.empty

theorem mem_entries_groupClients {g : Group} :
    (name, g) ∈ (groupClients env.sha1 slug inbounds).entries ↔
      namesakes env.sha1 slug inbounds name ≠ [] ∧ g = collected env slug inbounds name := by
  rw [← Dict.get?_eq_some_iff, get?_groupClients]
  split
  · next h => simp [h]
  · next h => simp [h, collected, eq_comm]

theorem get?_collected_proxies : (collected env slug inbounds name).proxies.get? type =
      (namesakesOn env.sha1 slug inbounds name type).head?.map fun m => m.2.settings type :=
  get?_proxies _

theorem createAccount_eq_some_iff {g : Group} {u : Account} :
    createAccount env core name g = some u ↔
      Portal.usernameFormatOk name = true ∧ (legacyNote g).length ≤ 500 ∧
        (∃ type raw, g.proxies.get? type = some raw) ∧
        (∀ type raw, g.proxies.get? type = some raw → (createRow env core g type raw).isSome) ∧
        u = g.proxies.filterMapWithKey (createRow env core g) := by
  have hentries : g.proxies.entries ≠ [] ↔ ∃ type raw, g.proxies.get? type = some raw := by
    rw [ne_eq, List.eq_nil_iff_forall_not_mem]
    simp only [not_forall, not_not, Prod.exists, Dict.get?_eq_some_iff]
  rw [createAccount, ← hentries]
  split
  · next h =>
      rw [Dict.mapOption_eq_some_iff, and_iff_right h.1, and_iff_right h.2.1,
        and_iff_right h.2.2]
  · next h =>
      constructor
      · intro heq
        cases heq
      · intro hall
        exact absurd ⟨hall.1, hall.2.1, hall.2.2.1⟩ h

section Loop

variable {users : Dict String Account} {entries : List (String × Group)} {g : Group} {u : Account}

theorem get?_importGroup_of_ne (entry : String × Group) (h : name ≠ entry.1) :
    (importGroup env core users entry).get? name = users.get? name := by
  rw [importGroup]
  cases importOutcome env core users entry with
  | none => rfl
  | some account => exact (Dict.get?_set _ _ _ _).trans (if_neg h)

theorem get?_foldl_importGroup_of_notMem (h : name ∉ entries.map Prod.fst) :
    (entries.foldl (importGroup env core) users).get? name = users.get? name := by
  induction entries generalizing users with
  | nil => rfl
  | cons entry rest ih =>
    rw [List.map_cons, List.mem_cons, not_or] at h
    rw [List.foldl_cons, ih h.2, get?_importGroup_of_ne entry h.1]

theorem get?_importGroup_self (hu : users.get? name = some u) :
    (importGroup env core users (name, g)).get? name =
      some ((updateAccount env core u g).getD u) := by
  have houtcome : importOutcome env core users (name, g) = updateAccount env core u g := by
    rw [importOutcome, hu]
  rw [importGroup, houtcome]
  cases updateAccount env core u g with
  | none => exact hu
  | some account => exact (Dict.get?_set _ _ _ _).trans (if_pos rfl)

theorem get?_foldl_importGroup_of_mem (hnodup : (entries.map Prod.fst).Nodup)
    (hmem : (name, g) ∈ entries) (hu : users.get? name = some u) :
    (entries.foldl (importGroup env core) users).get? name =
      some ((updateAccount env core u g).getD u) := by
  induction entries generalizing users with
  | nil => cases hmem
  | cons entry rest ih =>
    rw [List.map_cons, List.nodup_cons] at hnodup
    rw [List.foldl_cons]
    cases hmem with
    | head =>
      rw [get?_foldl_importGroup_of_notMem hnodup.1, get?_importGroup_self hu]
    | tail _ hmem =>
      have hne : name ≠ entry.1 := by
        intro heq
        exact hnodup.1 (heq ▸ List.mem_map_of_mem hmem)
      exact ih hnodup.2 hmem (by rw [get?_importGroup_of_ne entry hne, hu])

theorem importGroup_of_new (hnew : users.get? name = none) :
    importGroup env core users (name, g) =
      if users.keys.any fun n => foldCase n == foldCase name then users
      else match createAccount env core name g with
        | some account => users.set name account
        | none => users := by
  have houtcome : importOutcome env core users (name, g) =
      if users.keys.any fun n => foldCase n == foldCase name then none
      else createAccount env core name g := by
    rw [importOutcome, hnew]
  rw [importGroup, houtcome]
  change (match (if users.keys.any fun n => foldCase n == foldCase name then none
      else createAccount env core name g) with
    | some account => users.set name account
    | none => users) = _
  by_cases htaken : (users.keys.any fun n => foldCase n == foldCase name) = true
  · rw [if_pos htaken, if_pos htaken]
  · rw [if_neg htaken, if_neg htaken]

theorem mem_keys_iff {users : Dict String Account} {a : String} :
    a ∈ users.keys ↔ ∃ account, users.get? a = some account := by
  simp only [Dict.keys, List.mem_map, Prod.exists, exists_and_right, exists_eq_right,
    Dict.get?_eq_some_iff]

theorem createAccount_of_get?_foldl_importGroup (hnodup : (entries.map Prod.fst).Nodup)
    (hnew : users.get? name = none)
    (h : (entries.foldl (importGroup env core) users).get? name = some u) :
    ∃ g, (name, g) ∈ entries ∧ createAccount env core name g = some u := by
  induction entries generalizing users with
  | nil =>
    rw [List.foldl_nil, hnew] at h
    cases h
  | cons entry rest ih =>
    rw [List.map_cons, List.nodup_cons] at hnodup
    rw [List.foldl_cons] at h
    by_cases hname : name = entry.1
    · subst hname
      rw [get?_foldl_importGroup_of_notMem hnodup.1,
        show entry = (entry.1, entry.2) from rfl, importGroup_of_new hnew] at h
      refine ⟨entry.2, List.mem_cons_self, ?_⟩
      split at h
      · rw [hnew] at h
        cases h
      · split at h
        · next created hcreated => rwa [Dict.get?_set, if_pos rfl, ← hcreated] at h
        · rw [hnew] at h
          cases h
    · obtain ⟨g, hg, hcreate⟩ := ih hnodup.2
        (by rw [get?_importGroup_of_ne entry hname, hnew]) h
      exact ⟨g, List.mem_cons_of_mem _ hg, hcreate⟩

end Loop

end Shahkar.Migration
