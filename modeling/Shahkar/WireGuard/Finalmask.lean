import Mathlib.Data.List.Dedup
import Mathlib.Data.List.Sort
import Shahkar.Lib.Transition
import Shahkar.WireGuard.Peers

/-!
Finalmask peers are baked into Xray inbounds, one for each slot, and a reload pushes the slots whose
peers changed (`app/wireguard/finalmask_reload.py` and `group_peers_by_slot` of
`finalmask_shard.py`).
-/

namespace Shahkar.WireGuard

open Shahkar.Lib

/-!
### Fingerprints
-/

structure ShardPeer extends WGUserPeer where
  finalmaskSlot : Nat := 0
  deriving Repr, DecidableEq

abbrev Fingerprint := List String

namespace ShardPeer

def tunnelAddress (p : ShardPeer) : String :=
  if p.address = "" then p.awgAddress else p.address

def baked (p : ShardPeer) : Bool :=
  p.active && p.publicKey ≠ "" && p.tunnelAddress ≠ ""

def part (p : ShardPeer) : String :=
  toString p.userId ++ ":" ++ p.publicKey ++ ":" ++ p.tunnelAddress ++ ":" ++
    p.presharedKey.getD "" ++ ":" ++ toString p.finalmaskSlot

end ShardPeer

def activePeersFingerprint (peers : List ShardPeer) : Fingerprint :=
  ((peers.filter ShardPeer.baked).map ShardPeer.part).insertionSort (· ≤ ·)

def groupPeersBySlot (peers : List ShardPeer) : Dict Nat (List ShardPeer) :=
  peers.foldl
    (fun shards p =>
      shards.set p.finalmaskSlot ((shards.get? p.finalmaskSlot).getD [] ++ [p]))
    (Dict.empty.set 0 [])

def slotPeers (peers : List ShardPeer) (slot : Nat) : List ShardPeer :=
  ((groupPeersBySlot peers).get? slot).getD []

def shardFingerprints (peers : List ShardPeer) : Dict Nat Fingerprint :=
  (groupPeersBySlot peers).mapVal activePeersFingerprint

theorem get?_groupPeersBySlot (peers : List ShardPeer) (slot : Nat) :
    (groupPeersBySlot peers).get? slot =
      if slot = 0 ∨ ∃ p ∈ peers, p.finalmaskSlot = slot then
        some (peers.filter fun p => p.finalmaskSlot = slot)
      else none := by
  -- over the shards that are there already, each peer goes to the end of its own
  have hfold : ∀ (l : List ShardPeer) (shards : Dict Nat (List ShardPeer)),
      (l.foldl (fun shards p => shards.set p.finalmaskSlot
          ((shards.get? p.finalmaskSlot).getD [] ++ [p])) shards).get? slot =
        if (shards.get? slot).isSome ∨ ∃ p ∈ l, p.finalmaskSlot = slot then
          some ((shards.get? slot).getD [] ++ l.filter fun p => p.finalmaskSlot = slot)
        else none := by
    intro l
    induction l with
    | nil =>
      intro shards
      cases hslot : shards.get? slot with
      | none => simp [hslot]
      | some ps => simp [hslot]
    | cons p rest ih =>
      intro shards
      rw [List.foldl_cons, ih, Dict.get?_set]
      by_cases hp : p.finalmaskSlot = slot
      · subst hp
        simp
      · rw [if_neg (Ne.symm hp)]
        simp [hp]
  rw [groupPeersBySlot, hfold, Dict.get?_set]
  by_cases hslot : slot = 0
  · subst hslot
    simp
  · simp [hslot]

theorem get?_shardFingerprints {peers : List ShardPeer} {slot : Nat} {f : Fingerprint}
    (h : (shardFingerprints peers).get? slot = some f) :
    (groupPeersBySlot peers).get? slot = some (slotPeers peers slot) ∧
      activePeersFingerprint (slotPeers peers slot) = f := by
  rw [shardFingerprints, Dict.get?_mapVal] at h
  obtain ⟨ps, hps, rfl⟩ := Option.map_eq_some_iff.mp h
  rw [slotPeers, hps]
  exact ⟨rfl, rfl⟩

structure FpCache where
  lastStructureFp : Dict Nat String := .empty
  lastShardFps : Dict Nat (Dict Nat Fingerprint) := .empty
  dirtySlots : List Nat := []

namespace FpCache

def shardsOf (c : FpCache) (node : Nat) : Dict Nat Fingerprint :=
  (c.lastShardFps.get? node).getD .empty

def fingerprint (c : FpCache) (node slot : Nat) : Option Fingerprint := (c.shardsOf node).get? slot

def markDirty (c : FpCache) (slots : List Nat) : FpCache :=
  { c with
    dirtySlots := slots.foldl (fun dirty slot => dirty.filter (· ≠ slot) ++ [slot]) c.dirtySlots }

def takeDirty (c : FpCache) (limit : Nat) : List Nat × FpCache :=
  (c.dirtySlots.drop (c.dirtySlots.length - limit),
    { c with dirtySlots := c.dirtySlots.take (c.dirtySlots.length - limit) })

def stamp (c : FpCache) (node : Nat) (slots : List Nat) (peers : List ShardPeer) : FpCache :=
  { c with
    lastShardFps := c.lastShardFps.set node
      (slots.foldl
        (fun shards slot => match (shardFingerprints peers).get? slot with
          | some f => shards.set slot f
          | none => shards)
        (c.shardsOf node)) }

def commitStructureOnly (c : FpCache) (node : Nat) (fp : String) : FpCache :=
  { c with lastStructureFp := c.lastStructureFp.set node fp }

def commitFingerprints (c : FpCache) (node : Nat) (fp : String) (peers : List ShardPeer) : FpCache :=
  { c with
    lastStructureFp := c.lastStructureFp.set node fp
    lastShardFps := c.lastShardFps.set node (shardFingerprints peers) }

theorem fingerprint_stamp (c : FpCache) (node : Nat) (slots : List Nat) (peers : List ShardPeer)
    (node' slot : Nat) :
    (c.stamp node slots peers).fingerprint node' slot =
      if node' = node ∧ slot ∈ slots then
        ((shardFingerprints peers).get? slot).or (c.fingerprint node slot)
      else c.fingerprint node' slot := by
  have hfold : ∀ (l : List Nat) (shards : Dict Nat Fingerprint),
      (l.foldl (fun shards slot => match (shardFingerprints peers).get? slot with
          | some f => shards.set slot f
          | none => shards) shards).get? slot =
        if slot ∈ l then ((shardFingerprints peers).get? slot).or (shards.get? slot)
        else shards.get? slot := by
    intro l
    induction l with
    | nil =>
      intro shards
      simp
    | cons k rest ih =>
      intro shards
      rw [List.foldl_cons, ih]
      cases hk : (shardFingerprints peers).get? k with
      | none =>
        by_cases hslot : slot = k
        · subst hslot
          simp [hk]
        · simp [hslot]
      | some f =>
        by_cases hslot : slot = k
        · subst hslot
          simp [hk, Dict.get?_set]
        · simp [hslot, Dict.get?_set]
  by_cases hnode : node' = node
  · subst hnode
    simp only [fingerprint, stamp, shardsOf, Dict.get?_set, if_true, Option.getD_some, true_and, hfold]
  · simp [fingerprint, stamp, shardsOf, Dict.get?_set, hnode]

theorem fingerprint_commitFingerprints (c : FpCache) (node : Nat) (fp : String)
    (peers : List ShardPeer) (node' slot : Nat) :
    (c.commitFingerprints node fp peers).fingerprint node' slot =
      if node' = node then (shardFingerprints peers).get? slot else c.fingerprint node' slot := by
  simp only [fingerprint, commitFingerprints, shardsOf, Dict.get?_set]
  split <;> rfl

theorem fingerprint_congr {c c' : FpCache} (h : c.lastShardFps = c'.lastShardFps) (node slot : Nat) :
    c.fingerprint node slot = c'.fingerprint node slot := by
  rw [fingerprint, fingerprint, shardsOf, shardsOf, h]

end FpCache

inductive Mode
  | noop
  | hot
  | restart
  | seed
  deriving Repr, DecidableEq

def hotReplaceSlotBudget : Nat := 2
def coldCacheSlotFloor : Nat := 40
def extremeHotSwapThreshold : Nat := 400

structure NodePlan where
  node : Nat
  mode : Mode
  changed : List Nat
  deriving Repr, DecidableEq

def planNodeReload (c : FpCache) (node : Nat) (fp : String) (peers : List ShardPeer)
    (dirty : List Nat) : NodePlan :=
  match c.lastStructureFp.get? node with
  | none => if dirty = [] then ⟨node, .seed, []⟩ else ⟨node, .hot, dirty⟩
  | some prev =>
    let shardFps := shardFingerprints peers
    let prevShards := c.shardsOf node
    let changed := ((shardFps.keys ++ prevShards.keys).filter fun slot =>
      shardFps.get? slot ≠ prevShards.get? slot) ++ dirty
    if prev ≠ fp then ⟨node, .restart, if changed = [] then [0] else changed.dedup⟩
    else if changed = [] then ⟨node, .noop, []⟩
    else ⟨node, .hot, changed.dedup⟩

def NodePlan.cold (p : NodePlan) : Bool :=
  p.mode = .hot && coldCacheSlotFloor ≤ p.changed.length

def escalate (plans : List NodePlan) : List NodePlan :=
  if extremeHotSwapThreshold ≤
      (plans.filter fun p => p.mode = .hot).foldl (fun total p => total + p.changed.length) 0 then
    plans.map fun p => if p.cold ∨ p.mode = .seed then p else { p with mode := .restart }
  else plans

theorem fingerprint_of_noop {c : FpCache} {node : Nat} {fp : String} {peers : List ShardPeer}
    {dirty : List Nat} (h : (planNodeReload c node fp peers dirty).mode = .noop) {slot : Nat}
    {f : Fingerprint} (hslot : (shardFingerprints peers).get? slot = some f) :
    c.fingerprint node slot = some f := by
  rw [planNodeReload] at h
  cases hprev : c.lastStructureFp.get? node with
  | none =>
    rw [hprev] at h
    by_cases hdirty : dirty = [] <;> simp [hdirty] at h
  | some prev =>
    rw [hprev] at h
    dsimp only at h
    by_cases hstructure : prev ≠ fp
    · rw [if_pos hstructure] at h
      cases h
    · rw [if_neg hstructure] at h
      by_cases hchanged : ((shardFingerprints peers).keys ++ (c.shardsOf node).keys).filter
          (fun slot => (shardFingerprints peers).get? slot ≠ (c.shardsOf node).get? slot) ++ dirty = []
      · have hnone := (List.append_eq_nil_iff.mp hchanged).1
        have hmem : slot ∈ (shardFingerprints peers).keys ++ (c.shardsOf node).keys :=
          List.mem_append_left _ (List.mem_map_of_mem (f := Prod.fst)
            (Dict.get?_eq_some_iff.mp hslot))
        have heq := List.filter_eq_nil_iff.mp hnone slot hmem
        rw [decide_eq_true_eq, not_not, hslot] at heq
        exact heq.symm
      · rw [if_neg hchanged] at h
        cases h

structure HotReplace where
  node : Nat
  slots : List Nat
  peers : List ShardPeer
  commits : Bool := false
  inPass : Bool := false

inductive Reload
  | taken (dirty : List Nat)
  | applying (dirty : List Nat) (peers : List ShardPeer) (plans : List NodePlan) (failed : Bool)

abbrev Shards := Nat → Nat → Option (List ShardPeer)

def HotReplace.land (call : HotReplace) (shards : Shards) : Shards := fun node slot =>
  if node = call.node ∧ slot ∈ call.slots then some (slotPeers call.peers slot) else shards node slot

def Shards.boot (shards : Shards) (node : Nat) (peers : List ShardPeer) : Shards := fun node' slot =>
  if node' = node then (groupPeersBySlot peers).get? slot else shards node' slot

/-- The nodes' structures, the cache and its file, the pass and the calls under way, what was pushed
with success, and what the nodes have. -/
structure Fleet where
  structures : Dict Nat String
  cache : FpCache := {}
  file : Option FpCache := none
  reload : Option Reload := none
  calls : List HotReplace := []
  commits : List HotReplace := []
  pushed : Shards := fun _ _ => none
  live : Shards := fun _ _ => none

inductive FleetStep
  | mark (slots : List Nat)
  | reload
  | plan (peers : List ShardPeer) (unreachable : List Nat)
  | apply (i : Nat) (supported : Bool)
  | replace (node : Nat) (slots : List Nat) (peers : List ShardPeer) (commits : Bool)
  | replaced (i : Nat)
  | failed (i : Nat) (gone landed : List Nat)
  | commit (i : Nat)
  | finish
  | boot (node : Nat) (peers : List ShardPeer)
  | reconfigure (structures : Dict Nat String)
  | restartPanel (lost : Bool) (landed : Option Nat)

namespace Fleet

def init (structures : Dict Nat String) : Fleet := { structures }

def save (s : Fleet) (cache : FpCache) : Fleet := { s with cache, file := some cache }

def mark (s : Fleet) (slots : List Nat) : Fleet :=
  if slots = [] then s else s.save (s.cache.markDirty slots)

def fail (s : Fleet) : Fleet :=
  match s.reload with
  | some (.applying dirty peers plans _) => { s with reload := some (.applying dirty peers plans true) }
  | _ => s

def takeSlots (s : Fleet) : Fleet :=
  let (dirty, cache) := s.cache.takeDirty hotReplaceSlotBudget
  { (if dirty = [] then s else s.save cache) with reload := some (.taken dirty) }

def planPass (s : Fleet) (dirty : List Nat) (peers : List ShardPeer) (unreachable : List Nat) :
    Fleet :=
  if s.structures.entries = [] then { s with reload := none }
  else
    let reachable := s.structures.entries.filter fun e => e.1 ∉ unreachable
    let plans := (reachable.map fun e => planNodeReload s.cache e.1 e.2 peers dirty).filter
      fun p => p.mode ≠ .noop
    if plans ≠ [] then { s with reload := some (.applying dirty peers (escalate plans) false) }
    else if dirty ≠ [] ∧ reachable ≠ [] then
      -- the cache matches, but the dirty slots are pushed all the same
      { s with
        reload := some (.applying dirty peers
          (escalate (reachable.map fun e => ⟨e.1, .hot, dirty⟩)) false) }
    else { s.mark dirty with reload := none }

def callOf (dirty : List Nat) (peers : List ShardPeer) (supported : Bool) (p : NodePlan) :
    Option HotReplace :=
  if p.mode = .seed ∨ p.cold then
    if dirty = [] then none else some { node := p.node, slots := dirty, peers, inPass := true }
  else if p.mode = .hot ∧ supported then
    some { node := p.node, slots := p.changed, peers, commits := true, inPass := true }
  else none

def applyPlan (s : Fleet) (dirty : List Nat) (peers : List ShardPeer) (supported : Bool)
    (p : NodePlan) : Fleet :=
  if p.mode = .seed ∨ p.cold then
    match s.structures.get? p.node with
    | none => s.fail
    | some fp =>
      let s := s.save (s.cache.commitStructureOnly p.node fp)
      { s with calls := s.calls ++ (callOf dirty peers supported p).toList }
  else if p.mode = .hot ∧ supported then
    { s with calls := s.calls ++ (callOf dirty peers supported p).toList }
  else s.fail

def landCall (s : Fleet) (call : HotReplace) : Fleet :=
  { s with pushed := call.land s.pushed, live := call.land s.live }

def replaceOk (s : Fleet) (call : HotReplace) : Fleet :=
  let s := (s.landCall call).save (s.cache.stamp call.node call.slots call.peers)
  if call.commits then { s with commits := s.commits ++ [call] } else s

def replaceFailed (s : Fleet) (call : HotReplace) (gone landed : List Nat) : Fleet :=
  let live : Shards := fun node slot =>
    if node = call.node ∧ slot ∈ call.slots ∧ slot ∈ gone then none
    else if node = call.node ∧ slot ∈ call.slots ∧ slot ∈ landed then
      some (slotPeers call.peers slot)
    else s.live node slot
  if call.inPass then { s.fail with live } else { s with live }

def commitCall (s : Fleet) (call : HotReplace) : Fleet :=
  match s.structures.get? call.node with
  | none => if call.inPass then s.fail else s
  | some fp => s.save (s.cache.commitFingerprints call.node fp call.peers)

def loadCache (file : Option FpCache) : FpCache :=
  match file with
  | none => {}
  | some c => { c with dirtySlots := [] }

def restarted (s : Fleet) (lost : Bool) : Fleet :=
  let file := if lost then none else s.file
  { s with cache := loadCache file, file, reload := none, calls := [], commits := [] }

def step (s : Fleet) : FleetStep → Option Fleet
  | .mark slots => some (s.mark slots)
  | .reload => if s.reload.isSome then none else some s.takeSlots
  | .plan peers unreachable =>
    match s.reload with
    | some (.taken dirty) => some (s.planPass dirty peers unreachable)
    | _ => none
  | .apply i supported =>
    match s.reload with
    | some (.applying dirty peers plans failed) =>
      plans[i]?.map fun p =>
        ({ s with reload := some (.applying dirty peers (plans.eraseIdx i) failed) } :
          Fleet).applyPlan dirty peers supported p
    | _ => none
  -- a call of the sync engine or of another job; the engine commits after its last slot
  | .replace node slots peers commits =>
    if slots = [] then none
    else some { s with calls := s.calls ++ [{ node, slots, peers, commits }] }
  | .replaced i => s.calls[i]?.map fun call =>
    ({ s with calls := s.calls.eraseIdx i } : Fleet).replaceOk call
  | .failed i gone landed => s.calls[i]?.map fun call =>
    ({ s with calls := s.calls.eraseIdx i } : Fleet).replaceFailed call gone landed
  | .commit i => s.commits[i]?.map fun call =>
    ({ s with commits := s.commits.eraseIdx i } : Fleet).commitCall call
  | .finish =>
    match s.reload with
    | some (.applying dirty _ [] failed) =>
      if (s.commits ++ s.calls).all (fun call => !call.inPass) then
        some { (if failed then s.mark dirty else s) with reload := none }
      else none
    | _ => none
  | .boot node peers => some { s with
      pushed := s.pushed.boot node peers, live := s.live.boot node peers }
  | .reconfigure structures => some { s with structures }
  | .restartPanel lost none => some (s.restarted lost)
  | .restartPanel lost (some i) => s.calls[i]?.map fun call => (s.landCall call).restarted lost

end Fleet

end Shahkar.WireGuard
