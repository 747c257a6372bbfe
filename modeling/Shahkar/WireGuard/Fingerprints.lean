import Shahkar.WireGuard.Finalmask

/-!
# A cached fingerprint is that of the peers pushed last

So it is in orderly runs. A hot plan pushes some slots and then stamps all of them, and a pushed
slot without peers keeps its old fingerprint. `Truthful` is what every orderly step keeps.
-/

namespace Shahkar.WireGuard

open Shahkar.Lib

namespace Fleet

/-!
### The condition
-/

def idle (s : Fleet) (node : Nat) : Bool :=
  s.calls.all (fun call => call.node ≠ node) && s.commits.all fun call => call.node ≠ node

def tracked (s : Fleet) (call : HotReplace) : Bool :=
  call.slots.all fun slot =>
    ((shardFingerprints call.peers).get? slot).isSome || (s.cache.fingerprint call.node slot).isNone

def covered (s : Fleet) (call : HotReplace) : Bool :=
  (shardFingerprints call.peers).entries.all fun e =>
    e.1 ∈ call.slots || s.cache.fingerprint call.node e.1 = some e.2

def allows (s : Fleet) (call : HotReplace) : Bool :=
  s.idle call.node && s.tracked call && (!call.commits || s.covered call)

def nextCall (s : Fleet) (i : Nat) (supported : Bool) : Option HotReplace :=
  match s.reload with
  | some (.applying dirty peers plans _) => plans[i]?.bind (callOf dirty peers supported)
  | _ => none

/-- One call at a time pushes to a node; no slot in the cache is pushed without peers; a call that
commits leaves out only slots whose fingerprints are in the cache; one that fails leaves the node as
it was; a core boots with the peers the cache speaks of; and the panel does not die between a push
and its note, unless the file is lost too. -/
def orderly (s : Fleet) : FleetStep → Bool
  | .apply i supported => (s.nextCall i supported).all s.allows
  | .replace node slots peers commits => s.allows { node, slots, peers, commits }
  | .failed _ gone landed => gone = [] && landed = []
  | .boot node peers => (s.cache.shardsOf node).entries.all fun e =>
    (shardFingerprints peers).get? e.1 = some e.2
  | .restartPanel lost landed => lost || landed.isNone
  | _ => true

/-!
### The invariant
-/

def TrueOf (cache : FpCache) (pushed : Shards) : Prop :=
  ∀ node slot f, cache.fingerprint node slot = some f →
    ∃ peers, pushed node slot = some peers ∧ activePeersFingerprint peers = f

def Noted (cache : FpCache) (node : Nat) (peers : List ShardPeer) : Prop :=
  ∀ slot f, (shardFingerprints peers).get? slot = some f → cache.fingerprint node slot = some f

structure Sound (cache : FpCache) (call : HotReplace) : Prop where
  tracked : ∀ slot ∈ call.slots, (shardFingerprints call.peers).get? slot = none →
    cache.fingerprint call.node slot = none
  covered : call.commits → ∀ slot f, (shardFingerprints call.peers).get? slot = some f →
    slot ∈ call.slots ∨ cache.fingerprint call.node slot = some f

def busy (s : Fleet) : List Nat := (s.calls ++ s.commits).map HotReplace.node

structure Truthful (s : Fleet) : Prop where
  cache : TrueOf s.cache s.pushed
  live : s.live = s.pushed
  file : ∀ c ∈ s.file, c.lastShardFps = s.cache.lastShardFps
  busy : s.busy.Nodup
  calls : ∀ call ∈ s.calls, Sound s.cache call
  commits : ∀ call ∈ s.commits, Noted s.cache call.node call.peers

variable {s s' : Fleet} {cache cache' : FpCache} {pushed live : Shards} {call : HotReplace} {node : Nat}
  {peers : List ShardPeer} {slots dirty : List Nat}

theorem Sound.of_eq (h : Sound cache call)
    (heq : ∀ slot, cache'.fingerprint call.node slot = cache.fingerprint call.node slot) :
    Sound cache' call where
  tracked slot hslot hnone := (heq slot).trans (h.tracked slot hslot hnone)
  covered hcommits slot f hf := (h.covered hcommits slot f hf).imp_right (heq slot).trans

theorem Noted.of_eq (h : Noted cache node peers)
    (heq : ∀ slot, cache'.fingerprint node slot = cache.fingerprint node slot) :
    Noted cache' node peers :=
  fun slot f hf => (heq slot).trans (h slot f hf)

theorem TrueOf.of_eq (h : TrueOf cache pushed) (heq : cache'.lastShardFps = cache.lastShardFps) :
    TrueOf cache' pushed :=
  fun node slot f hf => h node slot f ((FpCache.fingerprint_congr heq node slot).symm.trans hf)

theorem Truthful.of_eq (h : s.Truthful) (hcache : s'.cache.lastShardFps = s.cache.lastShardFps)
    (hpushed : s'.pushed = s.pushed) (hlive : s'.live = s.live)
    (hfile : ∀ c ∈ s'.file, c.lastShardFps = s.cache.lastShardFps)
    (hcalls : s'.calls = s.calls) (hcommits : s'.commits = s.commits) : s'.Truthful where
  cache := hpushed ▸ h.cache.of_eq hcache
  live := by rw [hlive, hpushed, h.live]
  file c hc := (hfile c hc).trans hcache.symm
  busy := by
    rw [Fleet.busy, hcalls, hcommits]
    exact h.busy
  calls call hcall := (h.calls call (hcalls ▸ hcall)).of_eq fun slot =>
    FpCache.fingerprint_congr hcache call.node slot
  commits call hcall := (h.commits call (hcommits ▸ hcall)).of_eq fun slot =>
    FpCache.fingerprint_congr hcache call.node slot

theorem truthful_init (structures : Dict Nat String) : (init structures).Truthful where
  cache _ _ _ hf := nomatch hf
  live := rfl
  file _ hc := nomatch hc
  busy := List.nodup_nil
  calls _ hcall := nomatch hcall
  commits _ he := nomatch he

theorem Truthful.save_congr (h : s.Truthful) (hcache : cache.lastShardFps = s.cache.lastShardFps) :
    (s.save cache).Truthful := by
  refine h.of_eq hcache rfl rfl ?_ rfl rfl
  intro c hc
  cases hc
  exact hcache

theorem Truthful.mark (h : s.Truthful) (slots : List Nat) : (s.mark slots).Truthful := by
  rw [Fleet.mark]
  split
  · exact h
  · exact h.save_congr rfl

theorem Truthful.withReload (h : s.Truthful) (reload : Option Reload) :
    ({ s with reload } : Fleet).Truthful :=
  h.of_eq rfl rfl rfl h.file rfl rfl

theorem Truthful.fail (h : s.Truthful) : s.fail.Truthful := by
  rw [Fleet.fail]
  split
  · exact h.withReload _
  · exact h

theorem live_fail (s : Fleet) : s.fail.live = s.live := by
  rw [Fleet.fail]
  split <;> rfl

theorem Truthful.takeSlots (h : s.Truthful) : s.takeSlots.Truthful := by
  refine Truthful.withReload ?_ _
  split
  · exact h
  · exact h.save_congr rfl

theorem Truthful.planPass (h : s.Truthful) (dirty : List Nat) (peers : List ShardPeer)
    (unreachable : List Nat) : (s.planPass dirty peers unreachable).Truthful := by
  rw [Fleet.planPass]
  split
  · exact h.withReload _
  · dsimp only
    split
    · exact h.withReload _
    · split
      · exact h.withReload _
      · exact (h.mark dirty).withReload _

theorem not_mem_busy_of_idle (h : s.idle node) : node ∉ s.busy := by
  obtain ⟨hcalls, hcommits⟩ := Bool.and_eq_true_iff.mp h
  rw [busy, List.mem_map]
  rintro ⟨call, hcall, rfl⟩
  obtain hcall | hcall := List.mem_append.mp hcall
  · exact of_decide_eq_true (List.all_eq_true.mp hcalls call hcall) rfl
  · exact of_decide_eq_true (List.all_eq_true.mp hcommits call hcall) rfl

theorem sound_of_allows (h : s.allows call) : Sound s.cache call := by
  obtain ⟨hrest, hcovered⟩ := Bool.and_eq_true_iff.mp h
  obtain ⟨_, htracked⟩ := Bool.and_eq_true_iff.mp hrest
  constructor
  · intro slot hslot hnone
    have hor := List.all_eq_true.mp htracked slot hslot
    rw [hnone, Option.isSome_none, Bool.false_or] at hor
    exact Option.isNone_iff_eq_none.mp hor
  · intro hcommits slot f hf
    rw [hcommits, Bool.not_true, Bool.false_or] at hcovered
    have hor := List.all_eq_true.mp hcovered (slot, f) (Dict.get?_eq_some_iff.mp hf)
    exact (Bool.or_eq_true_iff.mp hor).imp of_decide_eq_true of_decide_eq_true

theorem Truthful.addCall (h : s.Truthful) (hallows : s.allows call) :
    ({ s with calls := s.calls ++ [call] } : Fleet).Truthful where
  cache := h.cache
  live := h.live
  file := h.file
  busy := by
    have hidle := not_mem_busy_of_idle
      (Bool.and_eq_true_iff.mp (Bool.and_eq_true_iff.mp hallows).1).1
    have hperm : (({ s with calls := s.calls ++ [call] } : Fleet).busy).Perm
        (call.node :: s.busy) := by
      rw [Fleet.busy, List.append_assoc]
      exact List.perm_middle.map HotReplace.node
    exact hperm.nodup_iff.mpr (List.nodup_cons.mpr ⟨hidle, h.busy⟩)
  calls c hc := by
    rcases List.mem_append.mp hc with hc | hc
    · exact h.calls c hc
    · rw [List.mem_singleton.mp hc]
      exact sound_of_allows (s := s) hallows
  commits := h.commits

theorem Truthful.takeCall (h : s.Truthful) {i : Nat} (hi : s.calls[i]? = some call) :
    ({ s with calls := s.calls.eraseIdx i } : Fleet).Truthful ∧
      call.node ∉ ({ s with calls := s.calls.eraseIdx i } : Fleet).busy := by
  obtain ⟨hlt, hget⟩ := List.getElem?_eq_some_iff.mp hi
  have hperm : s.busy.Perm
      (call.node :: ({ s with calls := s.calls.eraseIdx i } : Fleet).busy) := by
    rw [Fleet.busy, Fleet.busy, ← List.map_cons, ← hget]
    exact ((List.getElem_cons_eraseIdx_perm hlt).symm.append_right _).map HotReplace.node
  obtain ⟨hnot, hnodup⟩ := List.nodup_cons.mp (hperm.nodup_iff.mp h.busy)
  exact ⟨⟨h.cache, h.live, h.file, hnodup,
    fun c hc => h.calls c (List.mem_of_mem_eraseIdx hc), h.commits⟩, hnot⟩

theorem Truthful.takeCommit (h : s.Truthful) {i : Nat} (hi : s.commits[i]? = some call) :
    ({ s with commits := s.commits.eraseIdx i } : Fleet).Truthful ∧
      call.node ∉ ({ s with commits := s.commits.eraseIdx i } : Fleet).busy := by
  obtain ⟨hlt, hget⟩ := List.getElem?_eq_some_iff.mp hi
  have hperm : s.busy.Perm
      (call.node :: ({ s with commits := s.commits.eraseIdx i } : Fleet).busy) := by
    have hcommits := (List.getElem_cons_eraseIdx_perm hlt).symm
    rw [hget] at hcommits
    exact ((hcommits.append_left s.calls).trans List.perm_middle).map HotReplace.node
  obtain ⟨hnot, hnodup⟩ := List.nodup_cons.mp (hperm.nodup_iff.mp h.busy)
  exact ⟨⟨h.cache, h.live, h.file, hnodup, h.calls,
    fun c hc => h.commits c (List.mem_of_mem_eraseIdx hc)⟩, hnot⟩

theorem ne_of_busy {c : HotReplace} (hnot : node ∉ s.busy) (hc : c ∈ s.calls ++ s.commits) :
    c.node ≠ node :=
  fun heq => hnot (List.mem_map.mpr ⟨c, hc, heq⟩)

theorem Truthful.save_node (h : s.Truthful) (hnot : node ∉ s.busy)
    (htrue : TrueOf cache pushed) (hlive : live = pushed)
    (hframe : ∀ node' slot, node' ≠ node →
      cache.fingerprint node' slot = s.cache.fingerprint node' slot) :
    ({ s with cache, file := some cache, pushed, live } : Fleet).Truthful where
  cache := htrue
  live := hlive
  file c hc := by
    cases hc
    rfl
  busy := h.busy
  calls c hc := (h.calls c hc).of_eq fun slot =>
    hframe _ slot (ne_of_busy hnot (List.mem_append_left _ hc))
  commits c hc := (h.commits c hc).of_eq fun slot =>
    hframe _ slot (ne_of_busy hnot (List.mem_append_right _ hc))

theorem TrueOf.stamp (h : TrueOf cache pushed) (hcall : Sound cache call) :
    TrueOf (cache.stamp call.node call.slots call.peers) (call.land pushed) := by
  intro node slot f hf
  rw [FpCache.fingerprint_stamp] at hf
  by_cases hpushed : node = call.node ∧ slot ∈ call.slots
  · rw [if_pos hpushed] at hf
    cases hpeers : (shardFingerprints call.peers).get? slot with
    | none =>
      rw [hpeers, Option.none_or, hcall.tracked slot hpushed.2 hpeers] at hf
      cases hf
    | some g =>
      rw [hpeers, Option.some_or] at hf
      cases hf
      exact ⟨_, if_pos hpushed, (get?_shardFingerprints hpeers).2⟩
  · rw [if_neg hpushed] at hf
    obtain ⟨peers, hpeers, hfp⟩ := h node slot f hf
    exact ⟨peers, (if_neg hpushed).trans hpeers, hfp⟩

theorem Sound.noted_stamp (h : Sound cache call) (hcommits : call.commits) :
    Noted (cache.stamp call.node call.slots call.peers) call.node call.peers := by
  intro slot f hf
  rw [FpCache.fingerprint_stamp]
  by_cases hslot : slot ∈ call.slots
  · rw [if_pos ⟨rfl, hslot⟩, hf, Option.some_or]
  · rw [if_neg fun hand => hslot hand.2]
    exact (h.covered hcommits slot f hf).resolve_left hslot

theorem Truthful.replaceOk (h : s.Truthful) (hnot : call.node ∉ s.busy) (hcall : Sound s.cache call) :
    (s.replaceOk call).Truthful := by
  have hsaved : ((s.landCall call).save
      (s.cache.stamp call.node call.slots call.peers)).Truthful := by
    refine h.save_node hnot (h.cache.stamp hcall) (congrArg call.land h.live) fun node slot hne => ?_
    rw [FpCache.fingerprint_stamp, if_neg fun hand => hne hand.1]
  rw [Fleet.replaceOk]
  split
  · rename_i hcommits
    refine ⟨hsaved.cache, hsaved.live, hsaved.file, ?_, hsaved.calls, ?_⟩
    · have hperm : ((s.calls ++ (s.commits ++ [call])).map HotReplace.node).Perm
          (call.node :: s.busy) := by
        rw [← List.append_assoc]
        exact (List.perm_append_singleton _ _).map HotReplace.node
      exact hperm.nodup_iff.mpr (List.nodup_cons.mpr ⟨hnot, h.busy⟩)
    · intro c hc
      rcases List.mem_append.mp hc with hc | hc
      · exact hsaved.commits c hc
      · rw [List.mem_singleton.mp hc]
        exact hcall.noted_stamp hcommits
  · exact hsaved

theorem Truthful.commitCall (h : s.Truthful) (hnot : call.node ∉ s.busy)
    (hnoted : Noted s.cache call.node call.peers) : (s.commitCall call).Truthful := by
  rw [Fleet.commitCall]
  split
  · split
    · exact h.fail
    · exact h
  · rename_i fp _
    have htrue : TrueOf (s.cache.commitFingerprints call.node fp call.peers) s.pushed := by
      intro node' slot f hf
      rw [FpCache.fingerprint_commitFingerprints] at hf
      split at hf
      · rename_i heq
        subst heq
        exact h.cache _ slot f (hnoted slot f hf)
      · exact h.cache node' slot f hf
    refine h.save_node hnot htrue h.live fun node' slot hne => ?_
    rw [FpCache.fingerprint_commitFingerprints, if_neg hne]

theorem Truthful.replaceFailed (h : s.Truthful) (call : HotReplace) :
    (s.replaceFailed call [] []).Truthful := by
  have hlive : (fun node slot =>
      if node = call.node ∧ slot ∈ call.slots ∧ slot ∈ ([] : List Nat) then none
      else if node = call.node ∧ slot ∈ call.slots ∧ slot ∈ ([] : List Nat) then
        some (slotPeers call.peers slot)
      else s.live node slot) = s.live := by
    funext node slot
    simp
  rw [Fleet.replaceFailed, hlive]
  split
  · exact h.fail.of_eq rfl rfl (live_fail s).symm h.fail.file rfl rfl
  · exact h

theorem Truthful.applyPlan (h : s.Truthful) {supported : Bool} {p : NodePlan}
    (hallows : (callOf dirty peers supported p).all s.allows) :
    (s.applyPlan dirty peers supported p).Truthful := by
  have hcalls : ({ s with calls := s.calls ++ (callOf dirty peers supported p).toList } :
      Fleet).Truthful := by
    cases hcall : callOf dirty peers supported p with
    | none =>
      refine h.of_eq rfl rfl rfl h.file ?_ rfl
      exact List.append_nil _
    | some call =>
      rw [hcall] at hallows
      exact h.addCall hallows
  rw [Fleet.applyPlan]
  split
  · split
    · exact h.fail
    · exact hcalls.save_congr rfl
  · split
    · exact hcalls
    · exact h.fail

theorem Truthful.boot (h : s.Truthful)
    (hcache : ∀ slot f, s.cache.fingerprint node slot = some f →
      (shardFingerprints peers).get? slot = some f) :
    ({ s with
        pushed := s.pushed.boot node peers
        live := s.live.boot node peers } : Fleet).Truthful where
  cache node' slot f hf := by
    by_cases hnode : node' = node
    · subst hnode
      obtain ⟨hpeers, hfp⟩ := get?_shardFingerprints (hcache slot f hf)
      exact ⟨_, (if_pos rfl).trans hpeers, hfp⟩
    · obtain ⟨ps, hps, hfp⟩ := h.cache node' slot f hf
      exact ⟨ps, (if_neg hnode).trans hps, hfp⟩
  live := by rw [h.live]
  file := h.file
  busy := h.busy
  calls := h.calls
  commits := h.commits

theorem truthful_restarted_lost (s : Fleet) (hlive : s.live = s.pushed) :
    (s.restarted true).Truthful where
  cache _ _ _ hf := nomatch hf
  live := hlive
  file _ hc := nomatch hc
  busy := List.nodup_nil
  calls _ hcall := nomatch hcall
  commits _ he := nomatch he

theorem Truthful.restarted (h : s.Truthful) : (s.restarted false).Truthful where
  cache := by
    cases hfile : s.file with
    | none =>
      intro node slot f hf
      rw [Fleet.restarted, if_neg Bool.false_ne_true, hfile] at hf
      cases hf
    | some c =>
      refine h.cache.of_eq ?_
      rw [Fleet.restarted, if_neg Bool.false_ne_true, hfile]
      exact h.file c hfile
  live := h.live
  file c hc := by
    rw [Fleet.restarted, if_neg Bool.false_ne_true] at hc ⊢
    rw [hc]
    rfl
  busy := List.nodup_nil
  calls _ hcall := nomatch hcall
  commits _ he := nomatch he

theorem truthful_step {a : FleetStep} (h : s.Truthful) (hok : s.orderly a) (hs : s.step a = some s') :
    s'.Truthful := by
  cases a with
  | mark slots =>
    cases hs
    exact h.mark slots
  | reload =>
    rw [step] at hs
    split at hs
    · cases hs
    · cases hs
      exact h.takeSlots
  | plan peers unreachable =>
    rw [step] at hs
    split at hs
    · cases hs
      exact h.planPass _ _ _
    · cases hs
  | apply i supported =>
    rw [step] at hs
    rw [orderly, nextCall] at hok
    split at hs
    · rename_i dirty peers plans failed hreload
      obtain ⟨p, hp, rfl⟩ := Option.map_eq_some_iff.mp hs
      rw [hreload] at hok
      dsimp only at hok
      rw [hp, Option.bind_some] at hok
      exact (h.withReload _).applyPlan hok
    · cases hs
  | replace node slots peers commits =>
    rw [step] at hs
    split at hs
    · cases hs
    · cases hs
      exact h.addCall hok
  | replaced i =>
    obtain ⟨call, hcall, rfl⟩ := Option.map_eq_some_iff.mp hs
    obtain ⟨hrest, hnot⟩ := h.takeCall hcall
    -- no other call is under way on the node, so its fingerprints are stamped as they landed
    exact hrest.replaceOk hnot (h.calls call (List.mem_of_getElem? hcall))
  | failed i gone landed =>
    obtain ⟨call, hcall, rfl⟩ := Option.map_eq_some_iff.mp hs
    obtain ⟨hgone, hlanded⟩ := Bool.and_eq_true_iff.mp hok
    rw [of_decide_eq_true hgone, of_decide_eq_true hlanded]
    exact (h.takeCall hcall).1.replaceFailed call
  | commit i =>
    obtain ⟨call, hcall, rfl⟩ := Option.map_eq_some_iff.mp hs
    obtain ⟨hrest, hnot⟩ := h.takeCommit hcall
    exact hrest.commitCall hnot (h.commits call (List.mem_of_getElem? hcall))
  | finish =>
    rw [step] at hs
    split at hs
    · split at hs
      · cases hs
        refine Truthful.withReload ?_ _
        split
        · exact h.mark _
        · exact h
      · cases hs
    · cases hs
  | boot node peers =>
    cases hs
    refine h.boot fun slot f hf => ?_
    exact of_decide_eq_true (List.all_eq_true.mp hok (slot, f) (Dict.get?_eq_some_iff.mp hf))
  | reconfigure structures =>
    cases hs
    exact h.of_eq rfl rfl rfl h.file rfl rfl
  | restartPanel lost landed =>
    cases landed with
    | none =>
      cases hs
      cases lost with
      | true => exact truthful_restarted_lost s h.live
      | false => exact h.restarted
    | some i =>
      obtain ⟨call, _, rfl⟩ := Option.map_eq_some_iff.mp hs
      rw [orderly, Option.isNone_some, Bool.or_false] at hok
      rw [hok]
      exact truthful_restarted_lost _ (congrArg call.land h.live)

theorem truthful_of_run {structures : Dict Nat String}
    (h : Run step (fun s a => s.orderly a) (init structures) s) : s.Truthful :=
  h.invariant Truthful (truthful_init structures) truthful_step

/-- **Fingerprints tell the truth** in every orderly run. -/
theorem cached_fingerprints_true (structures : Dict Nat String) (s : Fleet)
    (h : Run step (fun s a => s.orderly a) (init structures) s) :
    (∀ node slot peers, s.cache.fingerprint node slot = some (activePeersFingerprint peers) →
      ∃ last, s.pushed node slot = some last ∧
        activePeersFingerprint last = activePeersFingerprint peers) ∧
    ∀ node fp peers dirty, (planNodeReload s.cache node fp peers dirty).mode = .noop →
      ∀ slot, (slot = 0 ∨ ∃ p ∈ peers, p.finalmaskSlot = slot) →
        ∃ now, s.live node slot = some now ∧ activePeersFingerprint now =
          activePeersFingerprint (peers.filter fun p => p.finalmaskSlot = slot) := by
  have htrue := truthful_of_run h
  refine ⟨fun node slot peers hfp => htrue.cache node slot _ hfp, ?_⟩
  intro node fp peers dirty hnoop slot hslot
  have hfp : (shardFingerprints peers).get? slot =
      some (activePeersFingerprint (peers.filter fun p => p.finalmaskSlot = slot)) := by
    rw [shardFingerprints, Dict.get?_mapVal, get?_groupPeersBySlot, if_pos hslot, Option.map_some]
  rw [htrue.live]
  exact htrue.cache node slot _ (fingerprint_of_noop hnoop hfp)

def firstShardPeer : ShardPeer := { userId := 1, publicKey := "K1", address := "10.20.0.2" }

def secondShardPeer : ShardPeer :=
  { userId := 2, publicKey := "K2", address := "10.20.0.3", finalmaskSlot := 1 }

def after (ok : Fleet → FleetStep → Prop) [∀ s a, Decidable (ok s a)] (steps : List FleetStep) :
    Option Fleet :=
  execGuarded step ok (init (Dict.empty.set 1 "keys")) steps

def seedThenHot : List FleetStep :=
  let peers := [firstShardPeer, secondShardPeer]
  [.reload, .plan peers [], .apply 0 true, .finish,
    .reload, .plan peers [], .apply 0 true, .replaced 0, .commit 0, .finish]

def settledWith (s : Fleet) (peers : List ShardPeer) : Bool :=
  (planNodeReload s.cache 1 "keys" peers []).mode = .noop

theorem both_slots_served :
    ∃ s, after (fun s a => s.orderly a) seedThenHot = some s ∧
      s.settledWith [firstShardPeer, secondShardPeer] ∧
      ∃ now, s.live 1 1 = some now ∧
        activePeersFingerprint now = activePeersFingerprint [secondShardPeer] := by
  have hrun : (after (fun s a => s.orderly a) seedThenHot).any
      (fun s => s.settledWith [firstShardPeer, secondShardPeer]) = true := by
    decide +kernel
  obtain ⟨s, hs, hsettled⟩ := (Option.any_eq_true _ _).mp hrun
  have htrue := cached_fingerprints_true _ s (Run.of_execGuarded _ hs)
  obtain ⟨now, hnow, hfp⟩ := htrue.2 1 "keys" _ [] (of_decide_eq_true hsettled) 1
    (.inr ⟨secondShardPeer, by decide, rfl⟩)
  exact ⟨s, hs, hsettled, now, hnow, hfp⟩

/-- A fingerprint is committed without a push, or kept for a slot without users. -/
theorem unpushed_slot_committed :
    (after (fun _ _ => True)
      [.mark [0], .reload, .plan [firstShardPeer, secondShardPeer] [], .apply 0 true, .replaced 0,
        .commit 0, .finish]).any (fun s =>
      s.cache.fingerprint 1 1 = some (activePeersFingerprint [secondShardPeer]) ∧
        s.pushed 1 1 = none ∧ s.live 1 1 = none ∧
        s.settledWith [firstShardPeer, secondShardPeer]) = true ∧
    (after (fun _ _ => True)
      (seedThenHot ++ [.replace 1 [1] [firstShardPeer] false, .replaced 0])).any (fun s =>
      s.cache.fingerprint 1 1 = some (activePeersFingerprint [secondShardPeer]) ∧
        s.pushed 1 1 = some [] ∧ s.live 1 1 = some [] ∧
        s.settledWith [firstShardPeer, secondShardPeer]) = true ∧
    activePeersFingerprint [secondShardPeer] ≠ activePeersFingerprint [] := by
  decide +kernel

end Fleet

end Shahkar.WireGuard
