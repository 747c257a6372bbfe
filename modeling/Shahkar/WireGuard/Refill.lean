import Shahkar.WireGuard.SyncEngine

/-!
# An agent that lost its state is refilled from the stored cursor

The worker first empties the interface because the agent has no sync state, and resumes the pass
where the cursor stands. What lies before the cursor is then gone: after a pass that had converged,
everything.
-/

namespace Shahkar.WireGuard

open Shahkar.Lib

namespace Engine

/-!
### The condition
-/

def resumesAt (s : Engine) : Option Nat :=
  match s.cursor with
  | none => if pendingOutbox s.outbox 0 then some 0 else none
  | some c =>
    if c.generation = 0 ∧ c.status ∈ [.paused, .error, .converged, .pending] then some 0
    else some c.cursorUserId

def holds (s : Engine) (e : String × Stack) (p : WGUserPeer) : Bool :=
  (s.agent.peersOf e.1).allowedOf p.publicKey = some (some (p.allowed e.2))

def regains (s : Engine) (expired : Bool) (e : String × Stack) (p : WGUserPeer) : Bool :=
  match s.resumesAt with
  | none => s.holds e p
  | some n => (s.cachedPeers expired).peers.any fun q =>
    q.serves e.2 ∧ q.publicKey = p.publicKey ∧ q.allowed e.2 = p.allowed e.2 ∧ n < q.userId

def refills (s : Engine) (expired : Bool) : Bool :=
  s.node.ifaces.all fun e => s.table.peers.all fun p => !p.serves e.2 || s.regains expired e p

def alone (expired : Bool) : SyncStep → Bool
  | .begin | .connect true | .bootstrap true true | .drain none | .push none | .store | .finish => true
  | .takePeers expired' => expired' = expired
  | _ => false

/-!
### The pass
-/

structure Filled (peers : PeerTable) (stack : Stack) (n m : Nat) (i : Interface) : Prop where
  right : ∀ q ∈ peers.peers, n < q.userId → q.userId ≤ m → Right stack i q
  only : ∀ key, i.allowedOf key ≠ none →
    ∃ q ∈ peers.peers, n < q.userId ∧ q.userId ≤ m ∧ q.serves stack ∧ q.publicKey = key

theorem filled_empty (peers : PeerTable) (stack : Stack) (n : Nat) :
    Filled peers stack n n .empty where
  right _ _ hlt hle := absurd hle (Nat.not_le_of_lt hlt)
  only _ hkey := absurd rfl hkey

variable {peers : PeerTable} {stack : Stack} {n : Nat} {i : Interface} {pass : Pass}
  {last : WGUserPeer}

theorem Filled.absent {m : Nat} (h : Filled peers stack n m i) {q : WGUserPeer}
    (hq : q ∈ peers.peers) (hlt : m < q.userId) : i.allowedOf q.publicKey = none := by
  by_contra hkey
  obtain ⟨q', hq', -, hle, -, hkey'⟩ := h.only _ hkey
  rw [peers.keys_inj q' hq' q hq hkey'] at hle
  exact absurd hle (Nat.not_le_of_lt hlt)

theorem filled_pushed (h : Filled peers stack n pass.cursor i) (hn : n ≤ pass.cursor)
    (hlast : (batch pass peers).getLast? = some last) :
    Filled peers stack n last.userId (pushed stack (batch pass peers) i) := by
  have hbatch : ∀ q ∈ batch pass peers, q ∈ peers.peers := fun q hq => (mem_of_mem_batchAfter hq).1
  have hcursor : pass.cursor ≤ last.userId :=
    Nat.le_of_lt (mem_of_mem_batchAfter (List.mem_of_getLast? hlast)).2
  refine ⟨?_, ?_⟩
  · intro q hq hlt hle
    refine right_pushed hbatch hq ?_
    by_cases hbefore : q.userId ≤ pass.cursor
    · exact .inr (h.right q hq hlt hbefore)
    · have hafter := Nat.lt_of_not_le hbefore
      cases hpushable : q.pushable stack with
      | true => exact .inl ⟨mem_batchAfter peers.sorted hlast hq hafter hle, rfl⟩
      | false =>
        refine .inr ?_
        unfold Right
        rw [h.absent hq hafter, if_neg]
        unfold WGUserPeer.serves
        rw [(Bool.or_eq_false_iff.mp hpushable).2, Bool.and_false]
        exact Bool.false_ne_true
  · intro key hkey
    by_contra hnone
    refine hkey (allowedOf_pushed_eq_none hbatch ?_ (.inr ?_))
    · intro q hq hserves hqkey
      refine hnone ⟨q, hbatch q hq, ?_, key_le_of_getLast? peers.sorted hlast hq, hserves, hqkey⟩
      exact Nat.lt_of_le_of_lt hn (mem_of_mem_batchAfter hq).2
    · by_contra hheld
      obtain ⟨q, hq, hlt, hle, hserves, hqkey⟩ := h.only key hheld
      exact hnone ⟨q, hq, hlt, Nat.le_trans hle hcursor, hserves, hqkey⟩

theorem Filled.allowedOf_iff {m : Nat} (h : Filled peers stack n m i)
    (hend : ∀ q ∈ peers.peers, q.userId ≤ m) (key a : String) :
    i.allowedOf key = some (some a) ↔
      ∃ q ∈ peers.peers, q.serves stack ∧ q.publicKey = key ∧ q.allowed stack = a ∧
        n < q.userId := by
  constructor
  · intro hkey
    obtain ⟨q, hq, hlt, hle, hserves, rfl⟩ := h.only key (by rw [hkey]; exact Option.some_ne_none _)
    have hright := h.right q hq hlt hle
    unfold Right at hright
    rw [hkey, if_pos hserves] at hright
    exact ⟨q, hq, hserves, rfl, (Option.some.inj (Option.some.inj hright)).symm, hlt⟩
  · intro ⟨q, hq, hserves, hkey, hallowed, hlt⟩
    have hright := h.right q hq hlt (hend q hq)
    unfold Right at hright
    rw [if_pos hserves, hkey, hallowed] at hright
    exact hright

theorem resumesAt_eq (s : Engine) :
    s.resumesAt =
      let c := (nodeConnected s.generation s.cursor).2
      if c.status = .converged ∧ ¬ pendingOutbox s.outbox c.lastOutboxId then none
      else some c.cursorUserId := by
  unfold resumesAt nodeConnected
  cases s.cursor with
  | none =>
    by_cases hpending : pendingOutbox s.outbox 0
    · rw [if_pos hpending, if_neg fun h => h.2 hpending]
    · rw [if_neg hpending, if_pos ⟨rfl, hpending⟩]
  | some c =>
    dsimp only
    by_cases hlisted : c.status ∈ [.paused, .error, .converged, .pending]
    · by_cases hgeneration : c.generation = 0
      · rw [if_pos ⟨hgeneration, hlisted⟩, if_pos hlisted, if_pos hgeneration]
        rw [if_neg fun h => SyncStatus.noConfusion h.1]
      · rw [if_neg fun h => hgeneration h.1, if_pos hlisted, if_neg hgeneration]
        rw [if_neg fun h => SyncStatus.noConfusion h.1]
    · rw [if_neg fun h => hlisted h.2, if_neg hlisted, if_neg]
      intro h
      refine hlisted ?_
      rw [show c.status = .converged from h.1]
      decide

def Progress (s : Engine) (expired : Bool) (t : Engine) : Option Worker → Prop
  | some .started => t.agent = s.agent ∧ t.cursor = some (nodeConnected s.generation s.cursor).2
  | some (.preparing .client pass) | some (.preparing .status pass) =>
    s.resumesAt = some pass.cursor ∧ t.agent.fresh
  | some (.preparing .outbox pass) | some (.preparing .peers pass) =>
    s.resumesAt = some pass.cursor ∧ ∀ e ∈ s.node.ifaces, t.agent.peersOf e.1 = .empty
  | some (.streaming pass peers) => peers = s.cachedPeers expired ∧
    ∃ n ≤ pass.cursor, s.resumesAt = some n ∧
      ∀ e ∈ s.node.ifaces, Filled peers e.2 n pass.cursor (t.agent.peersOf e.1)
  | some (.sent _ next peers) => peers = s.cachedPeers expired ∧
    ∃ n ≤ next, s.resumesAt = some n ∧
      ∀ e ∈ s.node.ifaces, Filled peers e.2 n next (t.agent.peersOf e.1)
  | none => (t.cursor.all fun c => c.status ≠ .converged) ∨
    ∀ e ∈ s.node.ifaces, ∀ p, t.holds e p = s.regains expired e p

structure Refilling (s : Engine) (expired : Bool) (t : Engine) : Prop where
  node : t.node = s.node
  table : t.table = s.table
  cache : t.cachedPeers expired = s.cachedPeers expired
  outbox : t.outbox = s.outbox
  progress : s.Progress expired t t.worker

variable {s t t' : Engine} {expired : Bool}

theorem progress_begin (h : Refilling s expired t) (hfresh : s.agent.fresh)
    (hworker : t.worker = some .started) : Refilling s expired t.beginPass := by
  have hprogress := h.progress
  rw [hworker] at hprogress
  obtain ⟨hagent, hcursor⟩ := hprogress
  have hresumes := s.resumesAt_eq
  unfold beginPass
  rw [hcursor, h.outbox]
  dsimp only [Option.getD_some] at hresumes ⊢
  split
  · next hnone =>
      rw [if_pos hnone] at hresumes
      refine ⟨h.node, h.table, h.cache, rfl, .inr fun e _ p => ?_⟩
      unfold regains holds
      rw [hresumes, hagent]
  · next hsome =>
      rw [if_neg hsome] at hresumes
      exact ⟨h.node, h.table, h.cache, rfl, hresumes, hagent ▸ hfresh⟩

theorem progress_bootstrap (h : Refilling s expired t)
    (hworker : t.worker = some (.preparing .status pass)) :
    Refilling s expired
      { t with agent := t.bootstrapped true true, worker := some (.preparing .outbox pass) } := by
  have hprogress := h.progress
  rw [hworker] at hprogress
  obtain ⟨hresumes, hfresh⟩ := hprogress
  refine ⟨h.node, h.table, h.cache, h.outbox, hresumes, ?_⟩
  intro e he
  have hagent : t.bootstrapped true true = t.agent.applyEmptySpecs (t.node.ifaces.map Prod.fst) := by
    unfold bootstrapped
    simp [hfresh]
  rw [hagent, h.node]
  exact Agent.peersOf_applyEmptySpecs (List.mem_map_of_mem he)

theorem progress_takePeers (h : Refilling s expired t)
    (hworker : t.worker = some (.preparing .peers pass)) :
    Refilling s expired
      { t with
        cache := some (t.cachedPeers expired)
        worker := some (.streaming pass (t.cachedPeers expired)) } := by
  have hprogress := h.progress
  rw [hworker] at hprogress
  obtain ⟨hresumes, hempty⟩ := hprogress
  refine ⟨h.node, h.table, ?_, h.outbox, h.cache, pass.cursor, Nat.le_refl _, hresumes, ?_⟩
  · rw [← h.cache]
    unfold cachedPeers
    cases expired <;> rfl
  · intro e he
    show Filled _ e.2 _ _ (t.agent.peersOf e.1)
    rw [hempty e he]
    exact filled_empty _ _ _

theorem progress_push (h : Refilling s expired t) {peers : PeerTable}
    (hworker : t.worker = some (.streaming pass peers))
    (hlast : (batch pass peers).getLast? = some last) :
    Refilling s expired (t.pushBatch pass peers last.userId none) := by
  have hprogress := h.progress
  rw [hworker] at hprogress
  obtain ⟨hpeers, n, hn, hresumes, hfilled⟩ := hprogress
  have hcursor : pass.cursor ≤ last.userId :=
    Nat.le_of_lt (mem_of_mem_batchAfter (List.mem_of_getLast? hlast)).2
  unfold pushBatch
  split
  · refine ⟨h.node, h.table, h.cache, h.outbox, .inl ?_⟩
    show Option.all _ (t.cursor.map _)
    cases t.cursor <;> rfl
  · next agent hcalls =>
      refine ⟨h.node, h.table, h.cache, h.outbox, hpeers, n, Nat.le_trans hn hcursor, hresumes, ?_⟩
      intro e he
      have hpushed : agent.peersOf e.1 = pushed e.2 (batch pass peers) (t.agent.peersOf e.1) := by
        rcases Agent.peersOf_tryCalls hcalls (h.node ▸ he) with hpushed | ⟨hok, -⟩
        · exact hpushed
        · cases hok
      rw [hpushed]
      exact filled_pushed (hfilled e he) hn hlast

theorem progress_finish (h : Refilling s expired t) {peers : PeerTable}
    (hworker : t.worker = some (.streaming pass peers)) (hbatch : batch pass peers = []) :
    Refilling s expired (t.stop .converged pass) := by
  have hprogress := h.progress
  rw [hworker] at hprogress
  obtain ⟨rfl, n, -, hresumes, hfilled⟩ := hprogress
  refine ⟨h.node, h.table, h.cache, h.outbox, .inr fun e he p => ?_⟩
  have hiff := (hfilled e he).allowedOf_iff ((batchAfter_eq_nil (by decide)).mp hbatch) p.publicKey
    (p.allowed e.2)
  unfold regains holds
  rw [hresumes, Bool.eq_iff_iff, decide_eq_true_iff, List.any_eq_true]
  simp only [decide_eq_true_eq]
  exact hiff

theorem progress_step {a : SyncStep} (hfresh : s.agent.fresh)
    (hhints : ∀ r ∈ s.outbox, r.op = .reconcileHint) (h : Refilling s expired t)
    (hok : alone expired a) (hstep : t.step a = some t') : Refilling s expired t' := by
  have hprogress := h.progress
  cases a with
  | change | getPeers | refresh | schedule | nodeConnected | start => cases hok
  | begin =>
    simp only [step] at hstep
    split at hstep
    · next hworker =>
        cases hstep
        exact progress_begin h hfresh hworker
    · cases hstep
  | connect client =>
    cases client with
    | false => cases hok
    | true =>
      simp only [step] at hstep
      split at hstep
      · next hworker =>
          cases hstep
          rw [hworker] at hprogress
          exact ⟨h.node, h.table, h.cache, h.outbox, hprogress⟩
      · cases hstep
  | bootstrap status specs =>
    simp only [step] at hstep
    split at hstep
    · next hworker =>
        cases hstep
        cases status with
        | false => cases hok
        | true =>
          cases specs with
          | false => cases hok
          | true => exact progress_bootstrap h hworker
    · cases hstep
  | drain raises =>
    simp only [step] at hstep
    split at hstep
    · next pass hworker =>
        obtain rfl := Option.some.inj hstep
        obtain ⟨lastOutbox, hdrained⟩ := drained_of_hints (h.outbox ▸ hhints) pass raises
        rw [hworker] at hprogress
        rw [hdrained]
        exact ⟨h.node, h.table, h.cache, h.outbox, hprogress⟩
    · cases hstep
  | takePeers expired' =>
    obtain rfl : expired' = expired := of_decide_eq_true hok
    simp only [step] at hstep
    split at hstep
    · next hworker =>
        cases hstep
        exact progress_takePeers h hworker
    · cases hstep
  | push raises =>
    cases raises with
    | some n => cases hok
    | none =>
      simp only [step] at hstep
      split at hstep
      · next pass peers hworker =>
          obtain ⟨last, hlast, rfl⟩ := Option.map_eq_some_iff.mp hstep
          exact progress_push h hworker hlast
      · cases hstep
  | store =>
    simp only [step] at hstep
    split at hstep
    · next pass next peers hworker =>
        cases hstep
        rw [hworker] at hprogress
        unfold storeCursor
        split
        · next hcursor =>
            refine ⟨h.node, h.table, h.cache, h.outbox, .inl ?_⟩
            rw [show ({ t with worker := none } : Engine).cursor = none from hcursor]
            rfl
        · exact ⟨h.node, h.table, h.cache, h.outbox, hprogress⟩
    · cases hstep
  | finish =>
    simp only [step] at hstep
    split at hstep
    · next pass peers hworker =>
        split at hstep
        · next hbatch =>
            cases hstep
            exact progress_finish h hworker hbatch
        · cases hstep
    · cases hstep

end Engine

/-- **A node is refilled** exactly if its users are after the cursor. -/
theorem node_refilled_iff (s s₁ s₂ s₃ : Engine) (expired : Bool) (hfresh : s.agent.fresh)
    (hhints : ∀ r ∈ s.outbox, r.op = .reconcileHint) (hconnected : s.step .nodeConnected = some s₁)
    (hstart : s₁.step .start = some s₂)
    (hrun : Run Engine.step (fun _ a => Engine.alone expired a) s₂ s₃) (hdone : s₃.worker = none)
    (hstatus : s₃.cursor.any fun c => c.status = .converged) :
    (∀ e ∈ s.node.ifaces, ∀ p ∈ s.table.peers, p.serves e.2 → s₃.holds e p) ↔ s.refills expired := by
  have h₂ : Engine.Refilling s expired s₂ := by
    cases hconnected
    simp only [Engine.step] at hstart
    split at hstart
    · cases hstart
      exact ⟨rfl, rfl, rfl, rfl, rfl, rfl⟩
    · cases hstart
  have h₃ : Engine.Refilling s expired s₃ :=
    hrun.invariant (Engine.Refilling s expired) h₂ (Engine.progress_step hfresh hhints)
  have hprogress := h₃.progress
  rw [hdone] at hprogress
  have hholds : ∀ e ∈ s.node.ifaces, ∀ p, s₃.holds e p = s.regains expired e p := by
    refine hprogress.resolve_left fun hall => ?_
    obtain ⟨c, hc, hconverged⟩ := (Option.any_eq_true _ _).mp hstatus
    rw [hc] at hall
    exact of_decide_eq_true hall (of_decide_eq_true hconverged)
  unfold Engine.refills
  simp only [List.all_eq_true, Bool.or_eq_true, Bool.not_eq_true']
  constructor
  · intro h e he p hp
    cases hserves : p.serves e.2 with
    | false => exact .inl rfl
    | true => exact .inr (hholds e he p ▸ h e he p hp hserves)
  · intro h e he p hp hserves
    rw [hholds e he p]
    refine (h e he p hp).resolve_left fun hnot => ?_
    rw [hserves] at hnot
    cases hnot

def Engine.restarted (cursor : Option NodeSyncCursor) (interfaces : Dict String Interface) : Engine :=
  { Engine.init plainNode (exampleTable "K1" true exampleKey_ne_empty) interfaces with
    generation := 1, cursor }

def keptInterfaces : Dict String Interface :=
  Dict.empty.set "wg0" (Dict.empty.set "K1" ⟨some "10.10.0.5/32", none⟩)

theorem paused_node_refilled :
    ∃ s₁ s₂ s₃,
      (Engine.restarted (some { generation := 1, status := .paused }) .empty).step .nodeConnected =
        some s₁ ∧
      s₁.step .start = some s₂ ∧
      execGuarded Engine.step (fun _ a => Engine.alone false a) s₂ onePass.tail = some s₃ ∧
      ∀ e ∈ plainNode.ifaces, ∀ p ∈ (exampleTable "K1" true (by decide)).peers, p.serves e.2 →
        s₃.holds e p := by
  have hrun : ((Engine.restarted (some { generation := 1, status := .paused }) .empty).step
      .nodeConnected).any (fun s₁ => (s₁.step .start).any fun s₂ =>
        (execGuarded Engine.step (fun _ a => Engine.alone false a) s₂ onePass.tail).any fun s₃ =>
          s₃.worker.isNone ∧ s₃.cursor.any fun c => c.status = .converged) = true := by
    decide +kernel
  obtain ⟨s₁, hs₁, hrun⟩ := (Option.any_eq_true _ _).mp hrun
  obtain ⟨s₂, hs₂, hrun⟩ := (Option.any_eq_true _ _).mp hrun
  obtain ⟨s₃, hs₃, hstate⟩ := (Option.any_eq_true _ _).mp hrun
  obtain ⟨hworker, hstatus⟩ := of_decide_eq_true hstate
  exact ⟨s₁, s₂, s₃, hs₁, hs₂, hs₃, (node_refilled_iff _ s₁ s₂ s₃ false rfl
    (fun _ hr => absurd hr List.not_mem_nil) hs₁ hs₂ (Run.of_execGuarded _ hs₃)
    (Option.isNone_iff_eq_none.mp hworker) hstatus).mpr (by decide +kernel)⟩

/-- The pass resumes after the user; a node without a row gets no peer. -/
theorem restarted_node_stays_empty :
    (execGuarded Engine.step (fun _ _ => True)
      (.restarted (some { generation := 1, cursorUserId := 1 }) keptInterfaces)
      [.nodeConnected, .start, .begin, .connect true, .bootstrap true true, .drain none,
        .takePeers false, .finish]).any (fun s =>
      s.worker.isNone ∧ (s.cursor.any fun c => c.status = .converged) ∧
        (s.table.peers.any fun p => p.serves .plain) ∧
        (s.agent.peersOf "wg0").allowedOf "K1" = none) = true ∧
    (execGuarded Engine.step (fun _ _ => True) (.restarted none .empty)
      [.nodeConnected, .start, .begin]).any (fun s =>
      s.worker.isNone ∧ (s.cursor.any fun c => c.status = .converged) ∧
        (s.table.peers.any fun p => p.serves .plain) ∧
        (s.agent.peersOf "wg0").allowedOf "K1" = none) = true := by
  decide +kernel

end Shahkar.WireGuard
