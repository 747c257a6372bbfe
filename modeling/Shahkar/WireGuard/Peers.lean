import Shahkar.Lib.Dict

/-!
The users' WireGuard peers, the batches they are pushed in (`_peer_to_batch_row` of
`app/wireguard/sync_engine.py`), and the node's interfaces (`apply_batch`, `apply` and `sync_status`
of `node/wireguard.py`).
-/

namespace Shahkar.WireGuard

open Shahkar.Lib

/-!
### Peers
-/

inductive Stack
  | plain
  | awg
  deriving Repr, DecidableEq

structure WGUserPeer where
  userId : Nat
  publicKey : String
  address : String := ""
  presharedKey : Option String := none
  active : Bool := true
  awgAddress : String := ""
  deriving Repr, DecidableEq

namespace WGUserPeer

def stackAddress (p : WGUserPeer) : Stack → String
  | .plain => p.address
  | .awg => p.awgAddress

def allowed (p : WGUserPeer) (stack : Stack) : String :=
  String.ofList ((p.stackAddress stack).toList.takeWhile (· ≠ '/')) ++ "/32"

def serves (p : WGUserPeer) (stack : Stack) : Bool := p.active && p.stackAddress stack ≠ ""

end WGUserPeer

/-- At most one peer of a user, with a key. Keys are random, and an address is allocated to one user
only. -/
structure PeerTable where
  peers : List WGUserPeer
  sorted : peers.Pairwise fun p q => p.userId < q.userId
  positive : ∀ p ∈ peers, 0 < p.userId
  keyed : ∀ p ∈ peers, p.publicKey ≠ ""
  keys_inj : ∀ p ∈ peers, ∀ q ∈ peers, p.publicKey = q.publicKey → p = q
  addresses_inj : ∀ stack, ∀ p ∈ peers, ∀ q ∈ peers, p.serves stack → q.serves stack →
    p.allowed stack = q.allowed stack → p = q

structure BatchRow where
  publicKey : String
  allowedIps : String
  presharedKey : Option String
  active : Bool
  deriving Repr, DecidableEq

def peerToBatchRow (stack : Stack) (p : WGUserPeer) : Option BatchRow :=
  if p.publicKey = "" then none
  else if p.active ∧ p.stackAddress stack = "" then none
  else some
    { publicKey := p.publicKey
      allowedIps := if p.stackAddress stack = "" then "" else p.allowed stack
      presharedKey := p.presharedKey
      active := p.serves stack }

def batchRows (stack : Stack) (batch : List WGUserPeer) : List BatchRow :=
  (batch.filterMap (peerToBatchRow stack)).filter BatchRow.active

def batchRemoves (stack : Stack) (batch : List WGUserPeer) : List String :=
  ((batch.filterMap (peerToBatchRow stack)).filter fun row => !row.active).map BatchRow.publicKey

/-!
### Interfaces
-/

structure NodePeer where
  allowedIps : Option String
  presharedKey : Option String
  deriving Repr, DecidableEq

abbrev Interface := Dict String NodePeer

namespace Interface

def addPeer (i : Interface) (row : BatchRow) : Interface :=
  (i.mapVal fun p =>
      if p.allowedIps = some row.allowedIps then { p with allowedIps := none } else p).set
    row.publicKey
    { allowedIps := some row.allowedIps
      presharedKey := row.presharedKey.or ((i.get? row.publicKey).bind (·.presharedKey)) }

def applyRow (i : Interface) (row : BatchRow) : Interface :=
  if row.publicKey = "" then i
  else if ¬ row.active then i.erase row.publicKey
  else if row.allowedIps = "" then i
  else i.addPeer row

def applyRows (i : Interface) (rows : List BatchRow) (removes : List String) : Interface :=
  rows.foldl applyRow ((removes.filter (· ≠ "")).foldl Dict.erase i)

def allowedOf (i : Interface) (key : String) : Option (Option String) :=
  (i.get? key).map NodePeer.allowedIps

end Interface

structure SyncState where
  generation : Nat
  cursor : Nat
  deriving Repr, DecidableEq

structure Agent where
  interfaces : Dict String Interface
  syncState : Dict String SyncState

namespace Agent

def applyBatch (agent : Agent) (interface : String) (state : SyncState) (rows : List BatchRow)
    (removes : List String) : Option Agent :=
  (agent.interfaces.get? interface).map fun i =>
    { interfaces := agent.interfaces.set interface (i.applyRows rows removes)
      syncState := agent.syncState.set interface state }

def applyEmptySpecs (agent : Agent) (names : List String) : Agent :=
  { agent with interfaces := names.foldl (fun d name => d.set name .empty) agent.interfaces }

def restart (interfaces : Dict String Interface) : Agent := ⟨interfaces, .empty⟩

def peersOf (agent : Agent) (name : String) : Interface :=
  (agent.interfaces.get? name).getD .empty

end Agent

namespace Interface

variable {i : Interface}

theorem allowedOf_addPeer (i : Interface) (row : BatchRow) (key : String) :
    (i.addPeer row).allowedOf key =
      if key = row.publicKey then some (some row.allowedIps)
      else (i.allowedOf key).map fun a => if a = some row.allowedIps then none else a := by
  unfold allowedOf addPeer
  rw [Dict.get?_set, Dict.get?_mapVal]
  split
  · rfl
  · rw [Option.map_map, Option.map_map]
    congr 1
    funext p
    show (if p.allowedIps = some row.allowedIps then { p with allowedIps := none }
        else p).allowedIps = if p.allowedIps = some row.allowedIps then none else p.allowedIps
    split <;> rfl

theorem allowedOf_foldl_erase (keys : List String) (i : Interface) (key : String) :
    allowedOf (keys.foldl Dict.erase i) key = if key ∈ keys then none else i.allowedOf key := by
  unfold allowedOf
  rw [Dict.get?_foldl_erase]
  split <;> rfl

def Adds (rows : List BatchRow) : Prop :=
  ∀ row ∈ rows, row.publicKey ≠ "" ∧ row.active ∧ row.allowedIps ≠ ""

theorem applyRow_of_adds {row : BatchRow} (h : row.publicKey ≠ "" ∧ row.active ∧ row.allowedIps ≠ "") :
    i.applyRow row = i.addPeer row := by
  unfold applyRow
  rw [if_neg h.1, if_neg (not_not_intro h.2.1), if_neg h.2.2]

variable {rows : List BatchRow} {key a : String}

theorem allowedOf_foldl_eq_none (h : Adds rows) {key : String}
    (hkey : ∀ row ∈ rows, row.publicKey ≠ key) (hnone : i.allowedOf key = none) :
    (rows.foldl applyRow i).allowedOf key = none := by
  induction rows generalizing i with
  | nil => exact hnone
  | cons row rest ih =>
    rw [List.foldl_cons]
    refine ih (fun r hr => h r (List.mem_cons_of_mem _ hr))
      (fun r hr => hkey r (List.mem_cons_of_mem _ hr)) ?_
    rw [applyRow_of_adds (h row List.mem_cons_self), allowedOf_addPeer,
      if_neg (hkey row List.mem_cons_self).symm, hnone]
    rfl

theorem allowedOf_foldl_eq_some (h : Adds rows)
    (hrows : ∀ row ∈ rows, row.publicKey ≠ key ∧ row.allowedIps ≠ a)
    (hsome : i.allowedOf key = some (some a)) :
    (rows.foldl applyRow i).allowedOf key = some (some a) := by
  induction rows generalizing i with
  | nil => exact hsome
  | cons row rest ih =>
    rw [List.foldl_cons]
    refine ih (fun r hr => h r (List.mem_cons_of_mem _ hr))
      (fun r hr => hrows r (List.mem_cons_of_mem _ hr)) ?_
    obtain ⟨hkey, ha⟩ := hrows row List.mem_cons_self
    rw [applyRow_of_adds (h row List.mem_cons_self), allowedOf_addPeer, if_neg hkey.symm, hsome]
    simp [ha.symm]

theorem allowedOf_foldl_of_mem (h : Adds rows) (hmem : ∃ row ∈ rows, row.publicKey = key)
    (hinj : ∀ row ∈ rows, row.publicKey = key ↔ row.allowedIps = a) :
    (rows.foldl applyRow i).allowedOf key = some (some a) := by
  induction rows generalizing i with
  | nil =>
    obtain ⟨row, hrow, -⟩ := hmem
    cases hrow
  | cons r rest ih =>
    have hrest : Adds rest := fun row hrow => h row (List.mem_cons_of_mem _ hrow)
    have hinj' : ∀ row ∈ rest, row.publicKey = key ↔ row.allowedIps = a :=
      fun row hrow => hinj row (List.mem_cons_of_mem _ hrow)
    rw [List.foldl_cons]
    by_cases hlater : ∃ row ∈ rest, row.publicKey = key
    · exact ih hrest hlater hinj'
    · have hnot : ∀ row ∈ rest, row.publicKey ≠ key := fun row hrow hkey => hlater ⟨row, hrow, hkey⟩
      have hhead : r.publicKey = key := by
        obtain ⟨row, hrow, hkey⟩ := hmem
        rcases List.mem_cons.mp hrow with rfl | hrow
        · exact hkey
        · exact absurd hkey (hnot row hrow)
      refine allowedOf_foldl_eq_some hrest
        (fun row hrow => ⟨hnot row hrow, fun ha => hnot row hrow ((hinj' row hrow).mpr ha)⟩) ?_
      rw [applyRow_of_adds (h r List.mem_cons_self), allowedOf_addPeer, if_pos hhead.symm,
        (hinj r List.mem_cons_self).mp hhead]

end Interface

def pushed (stack : Stack) (batch : List WGUserPeer) (i : Interface) : Interface :=
  i.applyRows (batchRows stack batch) (batchRemoves stack batch)

def Right (stack : Stack) (i : Interface) (p : WGUserPeer) : Prop :=
  i.allowedOf p.publicKey = if p.serves stack then some (some (p.allowed stack)) else none

def WGUserPeer.pushable (p : WGUserPeer) (stack : Stack) : Bool :=
  !p.active || p.stackAddress stack ≠ ""

section Batch

variable {t : PeerTable} {stack : Stack} {batch : List WGUserPeer} {i : Interface} {p : WGUserPeer}

theorem peerToBatchRow_eq_some (hp : p ∈ t.peers) {row : BatchRow}
    (h : peerToBatchRow stack p = some row) :
    row.publicKey = p.publicKey ∧ row.active = p.serves stack ∧
      (p.serves stack → row.allowedIps = p.allowed stack) := by
  unfold peerToBatchRow at h
  rw [if_neg (t.keyed p hp)] at h
  split at h
  · cases h
  · cases h
    refine ⟨rfl, rfl, ?_⟩
    intro hserves
    exact if_neg (by simpa using (Bool.and_eq_true_iff.mp hserves).2)

theorem exists_batchRow (hp : p ∈ t.peers) (hpushable : p.pushable stack) :
    ∃ row, peerToBatchRow stack p = some row := by
  unfold peerToBatchRow
  rw [if_neg (t.keyed p hp), if_neg]
  · exact ⟨_, rfl⟩
  · intro ⟨hactive, haddress⟩
    unfold WGUserPeer.pushable at hpushable
    simp [hactive, haddress] at hpushable

theorem mem_batchRows {row : BatchRow} (hbatch : ∀ p ∈ batch, p ∈ t.peers)
    (h : row ∈ batchRows stack batch) :
    ∃ p ∈ batch, p.serves stack ∧ row.publicKey = p.publicKey ∧
      row.allowedIps = p.allowed stack := by
  obtain ⟨hmem, hactive⟩ := List.mem_filter.mp h
  obtain ⟨p, hp, hrow⟩ := List.mem_filterMap.mp hmem
  obtain ⟨hkey, hserves, hallowed⟩ := peerToBatchRow_eq_some (hbatch p hp) hrow
  rw [hactive] at hserves
  exact ⟨p, hp, hserves.symm, hkey, hallowed hserves.symm⟩

theorem mem_batchRemoves {key : String} (hbatch : ∀ p ∈ batch, p ∈ t.peers)
    (h : key ∈ batchRemoves stack batch) :
    ∃ p ∈ batch, p.serves stack = false ∧ key = p.publicKey := by
  obtain ⟨row, hrow, rfl⟩ := List.mem_map.mp h
  obtain ⟨hmem, hinactive⟩ := List.mem_filter.mp hrow
  obtain ⟨p, hp, hrow⟩ := List.mem_filterMap.mp hmem
  obtain ⟨hkey, hserves, -⟩ := peerToBatchRow_eq_some (hbatch p hp) hrow
  refine ⟨p, hp, ?_, hkey⟩
  rw [← hserves]
  simpa using hinactive

theorem adds_batchRows (hbatch : ∀ p ∈ batch, p ∈ t.peers) :
    Interface.Adds (batchRows stack batch) := by
  intro row hrow
  obtain ⟨p, hp, -, hkey, hallowed⟩ := mem_batchRows hbatch hrow
  refine ⟨?_, (List.mem_filter.mp hrow).2, ?_⟩
  · rw [hkey]
    exact t.keyed p (hbatch p hp)
  · rw [hallowed]
    intro hempty
    have hlength := congrArg String.length hempty
    rw [WGUserPeer.allowed, String.length_append] at hlength
    exact absurd hlength (by simp)

theorem allowedOf_pushed_eq_none (hbatch : ∀ p ∈ batch, p ∈ t.peers) {key : String}
    (hkey : ∀ p ∈ batch, p.serves stack → p.publicKey ≠ key)
    (hnone : key ≠ "" ∧ key ∈ batchRemoves stack batch ∨ i.allowedOf key = none) :
    (pushed stack batch i).allowedOf key = none := by
  refine Interface.allowedOf_foldl_eq_none (adds_batchRows hbatch) ?_ ?_
  · intro row hrow
    obtain ⟨p, hp, hserves, hrowkey, -⟩ := mem_batchRows hbatch hrow
    rw [hrowkey]
    exact hkey p hp hserves
  · rw [Interface.allowedOf_foldl_erase]
    rcases hnone with ⟨hempty, hremoved⟩ | hnone
    · exact if_pos (List.mem_filter.mpr ⟨hremoved, decide_eq_true hempty⟩)
    · rw [hnone]
      exact ite_self _

theorem mem_batchRemoves_of_not_serves (hp : p ∈ batch) (hpeer : p ∈ t.peers)
    (hpushable : p.pushable stack) (hserves : p.serves stack = false) :
    p.publicKey ∈ batchRemoves stack batch := by
  obtain ⟨row, hrow⟩ := exists_batchRow hpeer hpushable
  obtain ⟨hkey, hactive, -⟩ := peerToBatchRow_eq_some hpeer hrow
  refine List.mem_map.mpr ⟨row, List.mem_filter.mpr ⟨List.mem_filterMap.mpr ⟨p, hp, hrow⟩, ?_⟩, hkey⟩
  rw [hactive, hserves]
  rfl

theorem exists_batchRows_of_serves (hp : p ∈ batch) (hpeer : p ∈ t.peers)
    (hserves : p.serves stack) : ∃ row ∈ batchRows stack batch, row.publicKey = p.publicKey := by
  have haddress := (Bool.and_eq_true_iff.mp hserves).2
  obtain ⟨row, hrow⟩ := exists_batchRow hpeer (Bool.or_eq_true_iff.mpr (.inr haddress))
  obtain ⟨hkey, hactive, -⟩ := peerToBatchRow_eq_some hpeer hrow
  refine ⟨row, List.mem_filter.mpr ⟨List.mem_filterMap.mpr ⟨p, hp, hrow⟩, ?_⟩, hkey⟩
  rw [hactive]
  exact hserves

theorem right_pushed (hbatch : ∀ p ∈ batch, p ∈ t.peers) (hpeer : p ∈ t.peers)
    (h : p ∈ batch ∧ p.pushable stack ∨ Right stack i p) :
    Right stack (pushed stack batch i) p := by
  unfold Right at h ⊢
  cases hserves : p.serves stack with
  | false =>
    rw [hserves] at h
    refine allowedOf_pushed_eq_none hbatch ?_ ?_
    · intro q hq hqserves hkey
      rw [t.keys_inj q (hbatch q hq) p hpeer hkey, hserves] at hqserves
      cases hqserves
    · rcases h with ⟨hmem, hpushable⟩ | hnone
      · exact .inl ⟨t.keyed p hpeer, mem_batchRemoves_of_not_serves hmem hpeer hpushable hserves⟩
      · exact .inr hnone
  | true =>
    rw [hserves] at h
    rw [if_pos rfl]
    by_cases hmem : p ∈ batch
    · refine Interface.allowedOf_foldl_of_mem (adds_batchRows hbatch)
        (exists_batchRows_of_serves hmem hpeer hserves) ?_
      intro row hrow
      obtain ⟨q, hq, hqserves, hkey, hallowed⟩ := mem_batchRows hbatch hrow
      rw [hkey, hallowed]
      constructor
      · intro heq
        rw [t.keys_inj q (hbatch q hq) p hpeer heq]
      · intro heq
        rw [t.addresses_inj stack q (hbatch q hq) p hpeer hqserves hserves heq]
    · refine Interface.allowedOf_foldl_eq_some (adds_batchRows hbatch) ?_ ?_
      · intro row hrow
        obtain ⟨q, hq, hqserves, hkey, hallowed⟩ := mem_batchRows hbatch hrow
        rw [hkey, hallowed]
        constructor
        · intro heq
          exact hmem (t.keys_inj q (hbatch q hq) p hpeer heq ▸ hq)
        · intro heq
          exact hmem (t.addresses_inj stack q (hbatch q hq) p hpeer hqserves hserves heq ▸ hq)
      · rw [Interface.allowedOf_foldl_erase, if_neg]
        · exact h.resolve_left fun h => hmem h.1
        · intro hremoved
          obtain ⟨q, hq, hqserves, hkey⟩ := mem_batchRemoves hbatch (List.mem_of_mem_filter hremoved)
          rw [t.keys_inj q (hbatch q hq) p hpeer hkey.symm, hserves] at hqserves
          cases hqserves

end Batch

end Shahkar.WireGuard
