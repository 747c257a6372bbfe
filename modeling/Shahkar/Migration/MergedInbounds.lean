import Shahkar.Migration.MergeInbound

/-!
# What is left after all inbounds of a panel are merged

The merges leave a configuration that can be bound, with one new row for each inbound under the tag
that users and hosts get, exactly when every merge finds what `Fits` says.
-/

namespace Shahkar.Migration

open Shahkar.Lib Shahkar.Lib.Text

variable {slug newTag listen : String} {live : List Nat} {inbound : PanelInbound}
  {config result : List CoreInbound} {steps : List (List Nat × PanelInbound)}

/-!
### Configurations that can be bound
-/

def wildcard (listen : String) : Prop := listenKey listen ∈ ["0.0.0.0", "::"]

/-- Two inbounds have the same port and the same address, or one of them has every address. -/
def Conflict (a b : CoreInbound) : Prop :=
  ∃ port, a.port = some port ∧ b.port = some port ∧
    (listenKey a.listen = listenKey b.listen ∨ wildcard a.listen ∨ wildcard b.listen)

/-- The inbounds have distinct tags and can all be bound. -/
structure Bindable (config : List CoreInbound) : Prop where
  tags : (config.map CoreInbound.tag).Nodup
  listeners : config.Pairwise fun a b => ¬ Conflict a b

theorem Bindable.sublist {config' : List CoreInbound} (h : Bindable config)
    (hsub : config'.Sublist config) : Bindable config' :=
  ⟨h.tags.sublist (hsub.map _), h.listeners.sublist hsub⟩

theorem bindable_append_singleton_iff {row : CoreInbound} (h : Bindable config) :
    Bindable (config ++ [row]) ↔
      (∀ other ∈ config, other.tag ≠ row.tag) ∧ ∀ other ∈ config, ¬ Conflict other row := by
  constructor
  · intro hall
    have htags := hall.tags
    rw [List.map_append, List.nodup_append] at htags
    have hlisteners := (List.pairwise_append.mp hall.listeners).2.2
    refine ⟨fun other hother => ?_, fun other hother => ?_⟩
    · exact htags.2.2 _ (List.mem_map_of_mem hother) _ (by simp)
    · exact hlisteners other hother row List.mem_cons_self
  · intro ⟨htags, hlisteners⟩
    constructor
    · rw [List.map_append, List.nodup_append]
      refine ⟨h.tags, by simp, ?_⟩
      intro tag htag tag' htag'
      obtain ⟨other, hother, rfl⟩ := List.mem_map.mp htag
      rw [List.map_singleton, List.mem_singleton] at htag'
      rw [htag']
      exact htags other hother
    · rw [List.pairwise_append]
      refine ⟨h.listeners, List.pairwise_singleton _ _, ?_⟩
      intro other hother row' hrow'
      rw [List.mem_singleton.mp hrow']
      exact hlisteners other hother

structure IsCopy (slug : String) (inbound : PanelInbound) (row : CoreInbound) : Prop where
  tag : row.tag = attachedTag slug inbound
  protocol : row.protocol = inbound.protocol
  listen : row.listen = inbound.movedListen
  method : row.method = inbound.method

/-- One new row for each inbound of the source behind the old ones, and all can be bound. -/
def Migrated (slug : String) (steps : List (List Nat × PanelInbound))
    (config result : List CoreInbound) : Prop :=
  Bindable result ∧ ∃ copies, result = config ++ copies ∧
    List.Forall₂ (fun step row => IsCopy slug step.2 row) steps copies

def InUse (config : List CoreInbound) (live : List Nat) (listen : String) (port : Nat) : Prop :=
  (∃ row ∈ config, row.port = some port ∧ listenKey row.listen = listenKey listen) ∨
    port ∈ live ∧ listenKey listen ∈ ["0.0.0.0", "127.0.0.1", "::"]

instance (port : Nat) : Decidable (InUse config live listen port) :=
  inferInstanceAs (Decidable (_ ∨ _))

def LeftFor (config : List CoreInbound) (live : List Nat) (listen : String) (port free : Nat) :
    Prop :=
  if 0 < port ∧ InUse config live listen port then
    ((candidatePorts listen (port + 1)).find? fun p => ¬ InUse config live listen p) = some free
  else free = port

structure Fits (slug : String) (config : List CoreInbound) (live : List Nat)
    (inbound : PanelInbound) : Prop where
  newTag : ∀ row ∈ config, row.tag ≠ slugifyTag slug inbound.sourceTag
  sameTag : attachedTag slug inbound = slugifyTag slug inbound.sourceTag
  room : ∀ port, inbound.movedPort = some port → ∃ free,
    LeftFor config live inbound.movedListen port free ∧
      ∀ row ∈ config, row.port = some free →
        listenKey row.listen ≠ listenKey inbound.movedListen ∧
          ¬ wildcard row.listen ∧ ¬ wildcard inbound.movedListen

/-- Every merge of the loop finds that its inbound fits. -/
def AllFit (slug : String) : List (List Nat × PanelInbound) → List CoreInbound → Prop
  | [], _ => True
  | (live, inbound) :: rest, config =>
    Fits slug config live inbound ∧
      ∀ merged, mergeInboundToXray slug live inbound config = some merged →
        AllFit slug rest merged.config

theorem mem_occupiedListenPorts_iff (hnew : ∀ row ∈ config, row.tag ≠ newTag) {port : Nat} :
    (listenKey listen, port) ∈ occupiedListenPorts config live newTag ↔
      InUse config live listen port := by
  have hall : (config.filter fun row => row.tag ≠ newTag) = config :=
    List.filter_eq_self.mpr fun row hrow => decide_eq_true (hnew row hrow)
  have hnone : excludedPorts config newTag = [] := by
    rw [excludedPorts, List.filter_eq_nil_iff.mpr fun row hrow => by simpa using hnew row hrow]
    rfl
  rw [occupiedListenPorts, hall, hnone, InUse, List.mem_append, List.mem_filterMap]
  refine or_congr ?_ ?_
  · refine exists_congr fun row => and_congr_right fun _ => ?_
    rw [Option.map_eq_some_iff]
    simp [Prod.ext_iff, and_comm, eq_comm]
  · simp only [List.mem_flatMap, List.mem_filter, List.mem_cons, Prod.mk.injEq, List.not_mem_nil,
      or_false, not_false_eq_true, decide_true, and_true]
    constructor
    · intro ⟨port', hlive, hport⟩
      obtain ⟨haddress, rfl⟩ | ⟨haddress, rfl⟩ | ⟨haddress, rfl⟩ := hport
      · exact ⟨hlive, .inl haddress⟩
      · exact ⟨hlive, .inr (.inl haddress)⟩
      · exact ⟨hlive, .inr (.inr haddress)⟩
    · intro ⟨hlive, haddress⟩
      exact ⟨port, hlive, by simpa using haddress⟩

theorem remappedPort_eq_some_iff (hnew : ∀ row ∈ config, row.tag ≠ newTag) {port free : Nat} :
    remappedPort listen port (occupiedListenPorts config live newTag) = some free ↔
      LeftFor config live listen port free := by
  have hoccupied : ∀ p, (listenKey listen, p) ∈ occupiedListenPorts config live newTag ↔
      InUse config live listen p := fun p => mem_occupiedListenPorts_iff hnew
  simp only [remappedPort, findFreeListenPort, LeftFor, hoccupied]
  split
  · rfl
  · rw [Option.some.injEq, eq_comm]

variable {merged : Merged} {rest : List (List Nat × PanelInbound)}

theorem mergeInboundToXray_eq_some_iff :
    mergeInboundToXray slug live inbound config = some merged ↔
      ∃ port, entryPort inbound (occupiedListenPorts config live
          (slugifyTag slug inbound.sourceTag)) = some port ∧
        merged = { newTag := slugifyTag slug inbound.sourceTag
                   warnings := portWarnings inbound (slugifyTag slug inbound.sourceTag) port
                   config := upsert CoreInbound.tag (inbound.copy slug port) config } := by
  rw [mergeInboundToXray, Option.map_eq_some_iff]
  exact exists_congr fun port => and_congr_right fun _ => eq_comm

theorem length_config_le (h : mergeInboundToXray slug live inbound config = some merged) :
    merged.config.length ≤ config.length + 1 := by
  obtain ⟨port, _, rfl⟩ := mergeInboundToXray_eq_some_iff.mp h
  exact length_upsert_le

theorem exists_entryPort_iff (hnew : ∀ row ∈ config, row.tag ≠ slugifyTag slug inbound.sourceTag) :
    (∃ port, entryPort inbound (occupiedListenPorts config live
        (slugifyTag slug inbound.sourceTag)) = some port ∧
      ∀ row ∈ config, ¬ Conflict row (inbound.copy slug port)) ↔
    ∀ port, inbound.movedPort = some port → ∃ free,
      LeftFor config live inbound.movedListen port free ∧
        ∀ row ∈ config, row.port = some free →
          listenKey row.listen ≠ listenKey inbound.movedListen ∧
            ¬ wildcard row.listen ∧ ¬ wildcard inbound.movedListen := by
  cases hport : inbound.movedPort with
  | none =>
    have hentry : entryPort inbound (occupiedListenPorts config live
        (slugifyTag slug inbound.sourceTag)) = some none := by rw [entryPort, hport]
    simp only [hentry, reduceCtorEq, false_implies, implies_true, iff_true]
    refine ⟨none, rfl, fun row _ ⟨p, _, hp, _⟩ => ?_⟩
    cases hp
  | some asked =>
    have hentry : ∀ port, entryPort inbound (occupiedListenPorts config live
        (slugifyTag slug inbound.sourceTag)) = some port ↔
          ∃ free, LeftFor config live inbound.movedListen asked free ∧ some free = port := by
      intro port
      rw [entryPort, hport]
      simp only [Option.map_eq_some_iff, remappedPort_eq_some_iff hnew]
    have hconflict : ∀ (row : CoreInbound) (free : Nat),
        ¬ Conflict row (inbound.copy slug (some free)) ↔
          (row.port = some free → listenKey row.listen ≠ listenKey inbound.movedListen ∧
            ¬ wildcard row.listen ∧ ¬ wildcard inbound.movedListen) := by
      intro row free
      simp [Conflict, PanelInbound.copy]
    simp only [hentry, Option.some.injEq, forall_eq']
    constructor
    · intro ⟨port, ⟨free, hleft, hfree⟩, hrows⟩
      subst hfree
      exact ⟨free, hleft, fun row hrow => (hconflict row free).mp (hrows row hrow)⟩
    · intro ⟨free, hleft, hrows⟩
      exact ⟨some free, ⟨free, hleft, rfl⟩,
        fun row hrow => (hconflict row free).mpr (hrows row hrow)⟩

theorem isCopy_copy_iff {port : Option Nat} :
    IsCopy slug inbound (inbound.copy slug port) ↔
      attachedTag slug inbound = slugifyTag slug inbound.sourceTag :=
  ⟨fun h => h.tag.symm, fun h => ⟨h.symm, rfl, rfl, rfl⟩⟩

theorem fits_iff (h : Bindable config) :
    Fits slug config live inbound ↔
      ∃ merged, mergeInboundToXray slug live inbound config = some merged ∧
        ∃ row, merged.config = config ++ [row] ∧ Bindable merged.config ∧
          IsCopy slug inbound row := by
  constructor
  · intro hfits
    obtain ⟨port, hport, hrows⟩ := (exists_entryPort_iff hfits.newTag).mpr hfits.room
    have happend : upsert CoreInbound.tag (inbound.copy slug port) config =
        config ++ [inbound.copy slug port] := upsert_of_new hfits.newTag
    refine ⟨_, mergeInboundToXray_eq_some_iff.mpr ⟨port, hport, rfl⟩, inbound.copy slug port,
      happend, ?_, isCopy_copy_iff.mpr hfits.sameTag⟩
    rw [happend]
    exact (bindable_append_singleton_iff h).mpr ⟨hfits.newTag, hrows⟩
  · intro ⟨merged, hmerged, row, hrow, hbindable, hcopy⟩
    obtain ⟨port, hport, rfl⟩ := mergeInboundToXray_eq_some_iff.mp hmerged
    dsimp only at hrow hbindable
    have hnew : ∀ other ∈ config, other.tag ≠ (inbound.copy slug port).tag := by
      rw [← length_upsert_eq_succ_iff, hrow, List.length_append, List.length_singleton]
    rw [upsert_of_new hnew] at hrow hbindable
    obtain rfl : inbound.copy slug port = row := by simpa using hrow
    have hrows := ((bindable_append_singleton_iff h).mp hbindable).2
    exact ⟨hnew, isCopy_copy_iff.mp hcopy, (exists_entryPort_iff hnew).mp ⟨port, hport, hrows⟩⟩

theorem mergeAll_cons :
    mergeAll slug ((live, inbound) :: rest) config = some result ↔
      ∃ merged, mergeInboundToXray slug live inbound config = some merged ∧
        mergeAll slug rest merged.config = some result := by
  rw [mergeAll, Option.bind_eq_some_iff]

theorem length_mergeAll_le (h : mergeAll slug steps config = some result) :
    result.length ≤ config.length + steps.length := by
  induction steps generalizing config with
  | nil =>
    obtain rfl : config = result := by simpa [mergeAll] using h
    exact Nat.le_refl _
  | cons step rest ih =>
    obtain ⟨merged, hmerged, hrest⟩ := mergeAll_cons.mp h
    have hone := length_config_le hmerged
    have hmany := ih hrest
    rw [List.length_cons]
    omega

theorem config_eq_append_of_length (h : mergeInboundToXray slug live inbound config = some merged)
    (hlen : config.length + 1 ≤ merged.config.length) :
    ∃ row, merged.config = config ++ [row] := by
  obtain ⟨port, _, rfl⟩ := mergeInboundToXray_eq_some_iff.mp h
  have hnew := length_upsert_eq_succ_iff.mp (Nat.le_antisymm length_upsert_le hlen)
  exact ⟨_, upsert_of_new hnew⟩

theorem isPrefix_mergeAll (h : mergeAll slug steps config = some result)
    (hlen : result.length = config.length + steps.length) : config <+: result := by
  induction steps generalizing config with
  | nil =>
    obtain rfl : config = result := by simpa [mergeAll] using h
    exact List.prefix_rfl
  | cons step rest ih =>
    obtain ⟨merged, hmerged, hrest⟩ := mergeAll_cons.mp h
    have hmany := length_mergeAll_le hrest
    rw [List.length_cons] at hlen
    obtain ⟨row, hrow⟩ := config_eq_append_of_length hmerged (by omega)
    have hlenRow : merged.config.length = config.length + 1 := by simp [hrow]
    have hprefix := ih hrest (by omega)
    rw [hrow] at hprefix
    exact (List.prefix_append config [row]).trans hprefix

theorem migrated_cons_iff (hmerged : mergeInboundToXray slug live inbound config = some merged)
    (hrest : mergeAll slug rest merged.config = some result) :
    Migrated slug ((live, inbound) :: rest) config result ↔
      (∃ row, merged.config = config ++ [row] ∧ IsCopy slug inbound row) ∧
        Migrated slug rest merged.config result := by
  constructor
  · intro ⟨hbindable, copies, hresult, hcopies⟩
    cases hcopies with
    | @cons _ copy _ copies hcopy hcopies =>
      have hlen : result.length = config.length + (rest.length + 1) := by
        rw [hresult, List.length_append, List.length_cons, ← hcopies.length_eq]
      have hmany := length_mergeAll_le hrest
      obtain ⟨row, hrow⟩ := config_eq_append_of_length hmerged (by omega)
      have hlenRow : merged.config.length = config.length + 1 := by simp [hrow]
      obtain ⟨later, hlater⟩ := isPrefix_mergeAll hrest (by omega)
      -- Both readings of the result agree behind the old rows.
      have hsplit : row = copy ∧ later = copies := by
        rw [← hlater, hrow, List.append_assoc, List.singleton_append] at hresult
        exact List.cons.inj (List.append_cancel_left hresult)
      obtain ⟨rfl, rfl⟩ := hsplit
      exact ⟨⟨row, hrow, hcopy⟩, hbindable, later, hlater.symm, hcopies⟩
  · intro ⟨⟨row, hrow, hcopy⟩, hbindable, copies, hresult, hcopies⟩
    refine ⟨hbindable, row :: copies, ?_, .cons hcopy hcopies⟩
    rw [hresult, hrow, List.append_assoc, List.singleton_append]

/-- All inbounds are migrated and bind exactly when each fits at its turn. -/
theorem all_migrated_iff (h : Bindable config) (slug : String)
    (steps : List (List Nat × PanelInbound)) :
    (∃ result, mergeAll slug steps config = some result ∧ Migrated slug steps config result) ↔
      AllFit slug steps config := by
  induction steps generalizing config with
  | nil =>
    simp only [AllFit, iff_true]
    exact ⟨config, rfl, h, [], (List.append_nil _).symm, .nil⟩
  | cons step rest ih =>
    obtain ⟨live, inbound⟩ := step
    rw [AllFit, fits_iff h]
    constructor
    · intro ⟨result, hresult, hmigrated⟩
      obtain ⟨merged, hmerged, hrest⟩ := mergeAll_cons.mp hresult
      obtain ⟨⟨row, hrow, hcopy⟩, hlater⟩ := (migrated_cons_iff hmerged hrest).mp hmigrated
      obtain ⟨copies, hcopies, _⟩ := hlater.2
      have hbindable : Bindable merged.config :=
        hlater.1.sublist (hcopies ▸ List.sublist_append_left _ _)
      refine ⟨⟨merged, hmerged, row, hrow, hbindable, hcopy⟩, ?_⟩
      intro merged' hmerged'
      obtain rfl : merged = merged' := Option.some.inj (hmerged.symm.trans hmerged')
      exact (ih hbindable).mp ⟨result, hrest, hlater⟩
    · intro ⟨⟨merged, hmerged, row, hrow, hbindable, hcopy⟩, hfit⟩
      obtain ⟨result, hrest, hlater⟩ := (ih hbindable).mpr (hfit merged hmerged)
      exact ⟨result, mergeAll_cons.mpr ⟨merged, hmerged, hrest⟩,
        (migrated_cons_iff hmerged hrest).mpr ⟨⟨row, hrow, hcopy⟩, hlater⟩⟩

def vlessInbound (tag listen : String) (port : Nat) : PanelInbound :=
  { tag := tag, protocol := "vless", listen := listen, port := some port }

def apiInbound : CoreInbound :=
  { tag := "API_INBOUND", protocol := "dokodemo-door", listen := "127.0.0.1", port := some 8080 }

theorem two_inbounds_fit :
    Bindable [apiInbound] ∧
      AllFit "p1" [([], vlessInbound "a" "" 8443), ([], vlessInbound "b" "" 8443)]
        [apiInbound] := by
  have h : Bindable [apiInbound] := ⟨by simp, by simp⟩
  have hports : ∀ {a b : CoreInbound}, a.port ≠ b.port → ¬ Conflict a b :=
    fun hne ⟨_, ha, hb, _⟩ => hne (ha.trans hb.symm)
  refine ⟨h, (all_migrated_iff h "p1" _).mp ⟨[apiInbound,
    { tag := "p1-a", protocol := "vless", listen := "0.0.0.0", port := some 8443 },
    { tag := "p1-b", protocol := "vless", listen := "0.0.0.0", port := some 8444 }],
    by decide +kernel, ⟨by decide, ?_⟩, _, rfl, ?_⟩⟩
  · refine .cons ?_ (.cons ?_ (.cons ?_ .nil))
    · rintro row (_ | ⟨_, _ | ⟨_, ⟨⟩⟩⟩) <;> exact hports (by decide)
    · rintro row (_ | ⟨_, ⟨⟩⟩)
      exact hports (by decide)
    · rintro row ⟨⟩
  · exact .cons ⟨by decide +kernel, rfl, rfl, rfl⟩
      (.cons ⟨by decide +kernel, rfl, rfl, rfl⟩ .nil)

/-- Inbounds that are overwritten, share a port, or lose their tag. -/
theorem merged_inbounds_lost :
    mergeAll "p1" [([], vlessInbound "a b" "" 8443), ([], vlessInbound "a-b" "" 9443)] [] =
        some [{ tag := "p1-a-b", protocol := "vless", listen := "0.0.0.0", port := some 9443 }] ∧
      (∃ a b, mergeAll "p1" [([], vlessInbound "a" "" 8443),
          ([], vlessInbound "b" "127.0.0.1" 8443)] [] = some [a, b] ∧ Conflict a b) ∧
      mergeAll "p1" [([], { id := "5", protocol := "vless", port := some 8443 })] [] =
        some [{ tag := "p1-inbound-5", protocol := "vless", listen := "0.0.0.0",
                port := some 8443 }] ∧
      attachedTag "p1" { id := "5", protocol := "vless", port := some 8443 } = "p1-inbound" := by
  refine ⟨by decide +kernel, ⟨⟨"p1-a", "vless", "0.0.0.0", some 8443, ""⟩,
    ⟨"p1-b", "vless", "127.0.0.1", some 8443, ""⟩, by decide +kernel, 8443, rfl, rfl,
    .inr (.inl ?_)⟩, by decide +kernel, by decide +kernel⟩
  rw [wildcard]
  decide +kernel

end Shahkar.Migration
