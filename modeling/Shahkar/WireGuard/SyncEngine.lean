import Shahkar.Lib.CursorBatch
import Shahkar.Lib.Transition
import Shahkar.WireGuard.Peers

/-!
The resumable sync of a kernel WireGuard node (`app/wireguard/sync_engine.py`). A transaction is one
step, and so are the calls to the agent for one batch; a worker may start whenever none is running.
-/

namespace Shahkar.WireGuard

open Shahkar.Lib

/-!
### The rows
-/

inductive SyncStatus
  | pending
  | running
  | paused
  | converged
  | error
  | ok
  deriving Repr, DecidableEq

structure NodeSyncCursor where
  generation : Nat := 0
  cursorUserId : Nat := 0
  lastOutboxId : Nat := 0
  status : SyncStatus := .converged
  deriving Repr, DecidableEq

inductive OutboxOp
  | upsert
  | remove
  | disable
  | reconcileHint
  deriving Repr, DecidableEq

structure OutboxRow where
  id : Nat
  op : OutboxOp
  publicKey : String := ""
  payloadKey : String := ""
  allowedIps : String := ""
  presharedKey : Option String := none
  active : Bool := true
  deriving Repr, DecidableEq

def OutboxRow.key (r : OutboxRow) : String := if r.publicKey = "" then r.payloadKey else r.publicKey

def drainRows (rows : List OutboxRow) : List BatchRow :=
  (rows.filter fun r => r.op = .upsert ∧ r.key ≠ "").map fun r =>
    ⟨r.key, r.allowedIps, r.presharedKey, r.active⟩

def drainRemoves (rows : List OutboxRow) : List String :=
  (rows.filter fun r => (r.op = .remove ∨ r.op = .disable) ∧ r.key ≠ "").map OutboxRow.key

def batchSize : Nat := 500

def outboxRetention : Nat := 50000

def pendingOutbox (outbox : List OutboxRow) (lastId : Nat) : Bool :=
  outbox.any fun r => lastId < r.id

def withHint (outbox : List OutboxRow) : List OutboxRow :=
  let rows := outbox ++ [{ id := outbox.getLast?.elim 1 fun r => r.id + 1, op := .reconcileHint }]
  rows.drop (rows.length - (outboxRetention + 1))

def NodeSyncCursor.rewinds (c : NodeSyncCursor) : Bool :=
  c.status = .converged || c.status = .error || c.generation = 0

def scheduled (generation : Nat) : Option NodeSyncCursor → NodeSyncCursor
  | none => { generation, status := .pending }
  | some c =>
    { c with
      generation
      cursorUserId := if c.rewinds then 0 else c.cursorUserId
      status := if c.status = .running then .running else .pending }

def nodeConnected (generation : Nat) : Option NodeSyncCursor → Nat × NodeSyncCursor
  | none => (generation, {})
  | some c =>
    if c.status ∈ [.paused, .error, .converged, .pending] then
      if c.generation = 0 then
        let generation := if generation = 0 then 1 else generation
        (generation, { c with status := .pending, generation, cursorUserId := 0 })
      else (generation, { c with status := .pending })
    else (generation, c)

structure WgNode where
  ifaces : List (String × Stack)
  names_nodup : (ifaces.map Prod.fst).Nodup
  nonempty : ifaces ≠ []

inductive ScheduleCall
  | due
  | cached (generation : Nat)
  deriving Repr, DecidableEq

structure Pass where
  generation : Nat
  cursor : Nat
  lastOutbox : Nat
  deriving Repr, DecidableEq

inductive Phase
  | client
  | status
  | outbox
  | peers
  deriving Repr, DecidableEq

inductive Worker
  | started
  | preparing (phase : Phase) (pass : Pass)
  | streaming (pass : Pass) (peers : PeerTable)
  | sent (pass : Pass) (next : Nat) (peers : PeerTable)

/-- The panel and the agent of one node. -/
structure Engine where
  node : WgNode
  table : PeerTable
  cache : Option PeerTable
  generation : Nat
  outbox : List OutboxRow
  cursor : Option NodeSyncCursor
  calls : List ScheduleCall
  worker : Option Worker
  agent : Agent

inductive SyncStep
  | change (table : PeerTable)
  | getPeers (expired : Bool)
  | refresh (i : Nat)
  | schedule (i : Nat)
  | nodeConnected
  | start
  | begin
  | connect (client : Bool)
  | bootstrap (status specs : Bool)
  | drain (raises : Option Nat)
  | takePeers (expired : Bool)
  | push (raises : Option Nat)
  | store
  | finish

structure BatchCall where
  interface : String
  rows : List BatchRow
  removes : List String

def Agent.applyCalls (agent : Agent) (state : SyncState) : List BatchCall → Agent × Bool
  | [] => (agent, true)
  | call :: rest =>
    match agent.applyBatch call.interface state call.rows call.removes with
    | none => (agent, false)
    | some agent' => agent'.applyCalls state rest

def Agent.tryCalls (agent : Agent) (state : SyncState) (calls : List BatchCall) :
    Option Nat → Agent × Bool
  | none => agent.applyCalls state calls
  | some n => ((agent.applyCalls state (calls.take n)).1, false)

def WgNode.pushCalls (node : WgNode) (batch : List WGUserPeer) : List BatchCall :=
  node.ifaces.map fun e => ⟨e.1, batchRows e.2 batch, batchRemoves e.2 batch⟩

def WgNode.drainCalls (node : WgNode) (rows : List OutboxRow) : List BatchCall :=
  node.ifaces.map fun e => ⟨e.1, drainRows rows, drainRemoves rows⟩

namespace Agent

variable {agent agent' : Agent} {state : SyncState}

def fresh (agent : Agent) : Bool := agent.syncState.entries.isEmpty

variable {ok : Bool} {batch : List WGUserPeer} {interface : String} {rows : List BatchRow}
  {removes : List String} {calls : List BatchCall} {name : String} {e : String × Stack}
  {node : WgNode} {raises : Option Nat}

theorem peersOf_applyBatch (h : agent.applyBatch interface state rows removes = some agent')
    (name : String) :
    agent'.peersOf name =
      if name = interface then (agent.peersOf name).applyRows rows removes
      else agent.peersOf name := by
  obtain ⟨i, hi, rfl⟩ := Option.map_eq_some_iff.mp h
  unfold peersOf
  rw [Dict.get?_set]
  split
  · next hname =>
      rw [hname, hi]
      rfl
  · rfl

theorem fresh_applyBatch
    (h : agent.applyBatch interface state rows removes = some agent') : agent'.fresh = false := by
  obtain ⟨i, -, rfl⟩ := Option.map_eq_some_iff.mp h
  have hget : (agent.syncState.set interface state).get? interface = some state :=
    (Dict.get?_set ..).trans (if_pos rfl)
  exact List.isEmpty_eq_false_iff_exists_mem.mpr ⟨_, Dict.get?_eq_some_iff.mp hget⟩

theorem peersOf_applyCalls_of_not_mem (h : agent.applyCalls state calls = (agent', ok))
    (hname : ∀ call ∈ calls, call.interface ≠ name) :
    agent'.peersOf name = agent.peersOf name := by
  induction calls generalizing agent with
  | nil =>
    cases h
    rfl
  | cons call rest ih =>
    rw [applyCalls] at h
    split at h
    · cases h
      rfl
    · next agent₁ hagent₁ =>
        rw [ih h fun call' hcall' => hname call' (List.mem_cons_of_mem _ hcall'),
          peersOf_applyBatch hagent₁, if_neg (hname call List.mem_cons_self).symm]

theorem fresh_of_fresh_applyCalls (h : agent.applyCalls state calls = (agent', ok))
    (hfresh : agent'.fresh) :
    agent.fresh ∧ (ok → calls = []) := by
  induction calls generalizing agent with
  | nil =>
    cases h
    exact ⟨hfresh, fun _ => rfl⟩
  | cons call rest ih =>
    rw [applyCalls] at h
    split at h
    · cases h
      exact ⟨hfresh, fun hok => absurd hok Bool.false_ne_true⟩
    · next agent₁ hagent₁ =>
        have hnot := fresh_applyBatch hagent₁
        rw [(ih h).1] at hnot
        cases hnot

theorem peersOf_applyCalls {ifaces : List (String × Stack)} (h : agent.applyCalls state
      (ifaces.map fun e => ⟨e.1, batchRows e.2 batch, batchRemoves e.2 batch⟩) = (agent', ok))
    (hnodup : (ifaces.map Prod.fst).Nodup) (he : e ∈ ifaces) :
    agent'.peersOf e.1 = pushed e.2 batch (agent.peersOf e.1) ∨
      ok = false ∧ agent'.peersOf e.1 = agent.peersOf e.1 := by
  induction ifaces generalizing agent with
  | nil => cases he
  | cons e₀ rest ih =>
    obtain ⟨hnot, hrest⟩ := List.nodup_cons.mp hnodup
    rw [List.map_cons, applyCalls] at h
    split at h
    · cases h
      exact .inr ⟨rfl, rfl⟩
    · next agent₁ hagent₁ =>
        have hfirst := peersOf_applyBatch hagent₁ e.1
        rcases List.mem_cons.mp he with rfl | he
        · rw [if_pos rfl] at hfirst
          refine .inl (.trans (peersOf_applyCalls_of_not_mem h ?_) hfirst)
          intro call hcall
          obtain ⟨e', he', rfl⟩ := List.mem_map.mp hcall
          exact fun hname => hnot (hname ▸ List.mem_map_of_mem he')
        · have hne : e.1 ≠ e₀.1 := fun hname => hnot (hname ▸ List.mem_map_of_mem he)
          rw [if_neg hne] at hfirst
          rw [← hfirst]
          exact ih h hrest he

theorem peersOf_tryCalls (h : agent.tryCalls state (node.pushCalls batch) raises = (agent', ok))
    (he : e ∈ node.ifaces) :
    agent'.peersOf e.1 = pushed e.2 batch (agent.peersOf e.1) ∨
      ok = false ∧ agent'.peersOf e.1 = agent.peersOf e.1 := by
  cases raises with
  | none => exact peersOf_applyCalls h node.names_nodup he
  | some n =>
    obtain ⟨rfl, rfl⟩ := Prod.mk.inj h
    unfold WgNode.pushCalls
    rw [← List.map_take]
    by_cases hin : e ∈ node.ifaces.take n
    · have hnodup : ((node.ifaces.take n).map Prod.fst).Nodup :=
        node.names_nodup.sublist ((List.take_sublist n _).map _)
      exact (peersOf_applyCalls rfl hnodup hin).imp_right fun hsame => ⟨rfl, hsame.2⟩
    · refine .inr ⟨rfl, peersOf_applyCalls_of_not_mem rfl ?_⟩
      intro call hcall
      obtain ⟨e', he', rfl⟩ := List.mem_map.mp hcall
      intro hname
      have heq : e' = e := List.inj_on_of_nodup_map node.names_nodup
        (List.mem_of_mem_take he') he hname
      exact hin (heq ▸ he')

theorem fresh_of_fresh_tryCalls
    (h : agent.tryCalls state (node.pushCalls batch) raises = (agent', ok))
    (hfresh : agent'.fresh) : agent.fresh ∧ ok = false := by
  cases raises with
  | none =>
    obtain ⟨hold, hok⟩ := fresh_of_fresh_applyCalls h hfresh
    refine ⟨hold, Bool.eq_false_iff.mpr fun htrue => node.nonempty ?_⟩
    exact List.map_eq_nil_iff.mp (hok htrue)
  | some n =>
    obtain ⟨rfl, rfl⟩ := Prod.mk.inj h
    exact ⟨(fresh_of_fresh_applyCalls rfl hfresh).1, rfl⟩

theorem peersOf_applyEmptySpecs {names : List String} (h : name ∈ names) :
    (agent.applyEmptySpecs names).peersOf name = .empty := by
  have hget : ∀ d : Dict String Interface, name ∈ names ∨ d.get? name = some .empty →
      (names.foldl (fun d name => d.set name .empty) d).get? name = some .empty := by
    clear h
    induction names with
    | nil => exact fun d hd => hd.resolve_left List.not_mem_nil
    | cons first rest ih =>
      intro d hd
      refine ih _ ?_
      by_cases hfirst : name = first
      · exact .inr ((Dict.get?_set ..).trans (if_pos hfirst))
      · refine hd.imp (fun hmem => (List.mem_cons.mp hmem).resolve_left hfirst) fun hd => ?_
        exact (Dict.get?_set ..).trans ((if_neg hfirst).trans hd)
  unfold peersOf applyEmptySpecs
  rw [hget _ (.inl h)]
  rfl

end Agent

namespace Engine

def init (node : WgNode) (table : PeerTable) (interfaces : Dict String Interface) : Engine where
  node := node
  table := table
  cache := none
  generation := 0
  outbox := []
  cursor := none
  calls := []
  worker := none
  agent := .restart interfaces

def cachedPeers (s : Engine) (expired : Bool) : PeerTable :=
  if expired then s.table else s.cache.getD s.table

def stop (s : Engine) (status : SyncStatus) (pass : Pass) : Engine :=
  { s with
    worker := none
    cursor := s.cursor.map fun c =>
      { c with status, cursorUserId := pass.cursor, lastOutboxId := pass.lastOutbox } }

def stopEarly (s : Engine) (status : SyncStatus) : Engine :=
  { s with worker := none, cursor := s.cursor.map fun c => { c with status } }

def beginPass (s : Engine) : Engine :=
  let c := s.cursor.getD { status := .pending }
  if c.status = .converged ∧ ¬ pendingOutbox s.outbox c.lastOutboxId then { s with worker := none }
  else
    { s with
      cursor := some { c with status := .running }
      worker := some (.preparing .client ⟨c.generation, c.cursorUserId, c.lastOutboxId⟩) }

def bootstrapped (s : Engine) (status specs : Bool) : Agent :=
  if (¬ status ∨ s.agent.fresh) ∧ specs then
    s.agent.applyEmptySpecs (s.node.ifaces.map Prod.fst)
  else s.agent

def drained (s : Engine) (pass : Pass) (raises : Option Nat) : Engine :=
  let rows := (s.outbox.filter fun r => pass.lastOutbox < r.id).take batchSize
  let last := rows.getLast?.elim pass.lastOutbox OutboxRow.id
  let next := some (Worker.preparing .peers { pass with lastOutbox := last })
  if drainRows rows = [] ∧ drainRemoves rows = [] then { s with worker := next }
  else
    match s.agent.tryCalls ⟨s.generation, last⟩ (s.node.drainCalls rows) raises with
    | (agent, false) => { s.stopEarly .paused with agent }
    | (agent, true) =>
      { s with
        agent
        worker := next
        cursor := s.cursor.map fun c => { c with lastOutboxId := last } }

def batch (pass : Pass) (peers : PeerTable) : List WGUserPeer :=
  batchAfter WGUserPeer.userId batchSize pass.cursor peers.peers

def pushBatch (s : Engine) (pass : Pass) (peers : PeerTable) (next : Nat) (raises : Option Nat) :
    Engine :=
  match s.agent.tryCalls ⟨pass.generation, next⟩ (s.node.pushCalls (batch pass peers)) raises with
  | (agent, false) => { s.stop .paused pass with agent }
  | (agent, true) => { s with agent, worker := some (.sent pass next peers) }

def storeCursor (s : Engine) (pass : Pass) (next : Nat) (peers : PeerTable) : Engine :=
  match s.cursor with
  | none => { s with worker := none }
  | some c =>
    { s with
      cursor := some
        { c with cursorUserId := next, lastOutboxId := pass.lastOutbox, status := .running }
      worker := some (.streaming { pass with cursor := next } peers) }

/-- One transaction, or the calls to the agent for one batch. -/
def step (s : Engine) : SyncStep → Option Engine
  | .change table => some { s with table, calls := s.calls ++ [.due] }
  | .getPeers expired => some { s with cache := some (s.cachedPeers expired) }
  | .refresh i =>
    match s.calls[i]? with
    | some .due => some
      { s with
        cache := some s.table
        generation := s.generation + 1
        calls := s.calls.set i (.cached (s.generation + 1)) }
    | _ => none
  | .schedule i =>
    match s.calls[i]? with
    | some (.cached generation) => some
      { s with
        outbox := withHint s.outbox
        cursor := some (scheduled generation s.cursor)
        calls := s.calls.eraseIdx i }
    | _ => none
  | .nodeConnected =>
    let connected := nodeConnected s.generation s.cursor
    some { s with generation := connected.1, cursor := some connected.2 }
  | .start => if s.worker.isNone then some { s with worker := some .started } else none
  | .begin =>
    match s.worker with
    | some .started => some s.beginPass
    | _ => none
  | .connect client =>
    match s.worker with
    | some (.preparing .client pass) =>
      if client then some { s with worker := some (.preparing .status pass) }
      else some (s.stopEarly .paused)
    | _ => none
  | .bootstrap status specs =>
    match s.worker with
    | some (.preparing .status pass) => some
      { s with agent := s.bootstrapped status specs, worker := some (.preparing .outbox pass) }
    | _ => none
  | .drain raises =>
    match s.worker with
    | some (.preparing .outbox pass) => some (s.drained pass raises)
    | _ => none
  | .takePeers expired =>
    match s.worker with
    | some (.preparing .peers pass) => some
      { s with
        cache := some (s.cachedPeers expired)
        worker := some (.streaming pass (s.cachedPeers expired)) }
    | _ => none
  | .push raises =>
    match s.worker with
    | some (.streaming pass peers) =>
      (batch pass peers).getLast?.map fun last => s.pushBatch pass peers last.userId raises
    | _ => none
  | .store =>
    match s.worker with
    | some (.sent pass next peers) => some (s.storeCursor pass next peers)
    | _ => none
  | .finish =>
    match s.worker with
    | some (.streaming pass peers) =>
      if batch pass peers = [] then some (s.stop .converged pass) else none
    | _ => none

theorem drain_hints {rows : List OutboxRow} (h : ∀ r ∈ rows, r.op = .reconcileHint) :
    drainRows rows = [] ∧ drainRemoves rows = [] := by
  unfold drainRows drainRemoves
  rw [List.map_eq_nil_iff, List.map_eq_nil_iff, List.filter_eq_nil_iff, List.filter_eq_nil_iff]
  constructor <;>
  · intro r hr
    simp [h r hr]

theorem drained_of_hints {s : Engine} (h : ∀ r ∈ s.outbox, r.op = .reconcileHint) (pass : Pass)
    (raises : Option Nat) :
    ∃ lastOutbox, s.drained pass raises =
      { s with worker := some (.preparing .peers { pass with lastOutbox }) } := by
  have hhints : ∀ r ∈ (s.outbox.filter fun r => pass.lastOutbox < r.id).take batchSize,
      r.op = .reconcileHint :=
    fun r hr => h r (List.mem_of_mem_filter (List.mem_of_mem_take hr))
  unfold drained
  rw [if_pos (drain_hints hhints)]
  exact ⟨_, rfl⟩

end Engine

namespace Interface

def onPeer (key : String) (p : Option NodePeer) (row : BatchRow) : Option NodePeer :=
  if row.publicKey = "" then p
  else if ¬ row.active then if key = row.publicKey then none else p
  else if row.allowedIps = "" then p
  else if key = row.publicKey then
    some ⟨some row.allowedIps, row.presharedKey.or (p.bind (·.presharedKey))⟩
  else p.map fun p => if p.allowedIps = some row.allowedIps then { p with allowedIps := none } else p

theorem get?_applyRow (i : Interface) (row : BatchRow) (key : String) :
    (i.applyRow row).get? key = onPeer key (i.get? key) row := by
  unfold applyRow onPeer
  split
  · rfl
  split
  · exact Dict.get?_erase ..
  split
  · rfl
  rw [addPeer, Dict.get?_set, Dict.get?_mapVal]
  split
  · next hkey => rw [hkey]
  · rfl

theorem get?_applyRows (i : Interface) (rows : List BatchRow) (removes : List String)
    (key : String) (hkeys : "" ∉ removes) :
    (i.applyRows rows removes).get? key =
      rows.foldl (onPeer key) (if key ∈ removes then none else i.get? key) := by
  have hfold : ∀ i : Interface, (rows.foldl applyRow i).get? key =
      rows.foldl (onPeer key) (i.get? key) := by
    induction rows with
    | nil => exact fun _ => rfl
    | cons row rest ih =>
      intro i
      rw [List.foldl_cons, ih, get?_applyRow, List.foldl_cons]
  have hall : removes.filter (· ≠ "") = removes :=
    List.filter_eq_self.mpr fun k hk => decide_eq_true fun h => hkeys (h ▸ hk)
  rw [applyRows, hall, hfold, Dict.get?_foldl_erase]

theorem onPeer_cases (key : String) (row : BatchRow) :
    (∀ p, onPeer key p row = p) ∨ (∀ p, onPeer key p row = none) ∨
    (∀ p, onPeer key p row =
      some ⟨some row.allowedIps, row.presharedKey.or (p.bind (·.presharedKey))⟩) ∨
    ∀ p, onPeer key p row =
      p.map fun p =>
        if p.allowedIps = some row.allowedIps then { p with allowedIps := none } else p := by
  unfold onPeer
  split_ifs <;> simp

theorem onPeer_same (key : String) (p : Option NodePeer) (row : BatchRow) :
    onPeer key (onPeer key p row) row = onPeer key p row := by
  obtain h | h | h | h := onPeer_cases key row <;> cases p <;> grind

theorem onPeer_last (key : String) (p : Option NodePeer) (row row' : BatchRow) :
    onPeer key (onPeer key (onPeer key p row) row') row = onPeer key (onPeer key p row') row := by
  obtain h | h | h | h := onPeer_cases key row <;>
    obtain h' | h' | h' | h' := onPeer_cases key row' <;>
    cases p <;> cases hpsk : row.presharedKey <;> cases hpsk' : row'.presharedKey <;> grind

end Interface

def drainBatch (rows : List OutboxRow) (i : Interface) : Interface :=
  i.applyRows (drainRows rows) (drainRemoves rows)

section Drain

variable {rows : List OutboxRow} {i : Interface}

theorem get?_drainBatch (rows : List OutboxRow) (i : Interface) (key : String) :
    (drainBatch rows i).get? key = (drainRows rows).foldl (Interface.onPeer key)
      (if key ∈ drainRemoves rows then none else i.get? key) :=
  i.get?_applyRows _ _ _ (by simp [drainRemoves])

/-- **A batch that was cut off anywhere can be sent again**: the peers are those of one delivery. -/
theorem interrupted_drain_resent (rows : List OutboxRow) (m n : Nat) (i : Interface)
    (key : String) :
    (drainBatch rows
      (i.applyRows ((drainRows rows).take n) ((drainRemoves rows).take m))).get? key =
        (drainBatch rows i).get? key := by
  rw [get?_drainBatch, get?_drainBatch, Interface.get?_applyRows _ _ _ _ fun h =>
    absurd (List.mem_of_mem_take h) (by simp [drainRemoves])]
  by_cases hkey : key ∈ drainRemoves rows
  · rw [if_pos hkey, if_pos hkey]
  · rw [if_neg hkey, if_neg hkey, if_neg fun h => hkey (List.mem_of_mem_take h)]
    exact foldl_foldl_take (Interface.onPeer_same key) (Interface.onPeer_last key) _ _ _

end Drain

def plainNode : WgNode where
  ifaces := [("wg0", .plain)]
  names_nodup := List.nodup_singleton _
  nonempty := List.cons_ne_nil _ _

def PeerTable.empty : PeerTable where
  peers := []
  sorted := List.Pairwise.nil
  positive _ hp := absurd hp List.not_mem_nil
  keyed _ hp := absurd hp List.not_mem_nil
  keys_inj _ hp := absurd hp List.not_mem_nil
  addresses_inj _ _ hp := absurd hp List.not_mem_nil

def PeerTable.single (p : WGUserPeer) (hid : 0 < p.userId) (hkey : p.publicKey ≠ "") : PeerTable where
  peers := [p]
  sorted := List.pairwise_singleton _ _
  positive _ hq := List.mem_singleton.mp hq ▸ hid
  keyed _ hq := List.mem_singleton.mp hq ▸ hkey
  keys_inj _ hq _ hr _ := (List.mem_singleton.mp hq).trans (List.mem_singleton.mp hr).symm
  addresses_inj _ _ hq _ hr _ _ _ := (List.mem_singleton.mp hq).trans (List.mem_singleton.mp hr).symm

def exampleTable (key : String) (active : Bool) (hkey : key ≠ "") : PeerTable :=
  .single { userId := 1, publicKey := key, address := "10.10.0.5/32", active } Nat.one_pos hkey

theorem exampleKey_ne_empty : "K1" ≠ "" := by decide

def onePass : List SyncStep :=
  [.start, .begin, .connect true, .bootstrap true true, .drain none, .takePeers false, .push none,
    .store, .finish]

end Shahkar.WireGuard
