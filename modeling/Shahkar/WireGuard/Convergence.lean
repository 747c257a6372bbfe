import Shahkar.WireGuard.SyncEngine

/-!
# A converged node holds exactly the active peers

So it is in orderly runs. A pass only removes the keys of rows that exist, and passes over a change
behind its cursor. `Sound` says of each user that the interface is right or a pass still comes to
it.
-/

namespace Shahkar.WireGuard

open Shahkar.Lib

/-!
### The condition
-/

def Worker.position : Worker → Option Nat
  | .started => none
  | .preparing _ pass | .streaming pass _ => some pass.cursor
  | .sent _ next _ => some next

def Worker.streams : Worker → Bool
  | .started | .preparing _ _ => false
  | .streaming _ _ | .sent _ _ _ => true

def Worker.booted : Worker → Bool
  | .started | .preparing .client _ | .preparing .status _ => false
  | .preparing .outbox _ | .preparing .peers _ | .streaming _ _ | .sent _ _ _ => true

namespace Engine

def position (s : Engine) : Option Nat := s.worker.bind Worker.position

def reaches (s : Engine) (userId : Nat) : Bool :=
  !s.worker.any Worker.streams &&
    match s.position with
    | some n => n < userId
    | none => s.cursor.all fun c => c.rewinds || c.cursorUserId < userId

def settled (s : Engine) : Bool :=
  !s.agent.fresh || s.worker.any Worker.booted || s.cursor.any fun c => c.status = .converged

variable {pass : Pass} {s : Engine} {userId : Nat} {raises : Option Nat} {outbox : List OutboxRow}
  {e : String × Stack} {peers : PeerTable}

theorem settled_iff :
    s.settled ↔ s.agent.fresh = false ∨ (∃ w ∈ s.worker, w.booted) ∨
      ∃ c ∈ s.cursor, c.status = .converged := by
  unfold settled
  simp [or_assoc, Option.any_eq_true]

def keysKnown (s : Engine) (table : PeerTable) : Bool :=
  s.node.ifaces.all fun e => (s.agent.peersOf e.1).keys.all fun key =>
    table.peers.any fun p => p.publicKey = key ∧ p.pushable e.2

/-- A change is made when no worker has taken the peers and the pass has not come to its users yet,
and leaves no key of the interface without a row; while it is being scheduled, no worker begins or
takes the peers, and the node does not connect; and the agent answers when it is asked for its
state. -/
def orderly (s : Engine) : SyncStep → Bool
  | .change table => !s.worker.any Worker.streams &&
      (table.peers.all fun p => p ∈ s.table.peers ∨ s.reaches p.userId) &&
      (!s.settled || s.keysKnown table)
  | .begin | .takePeers _ => s.calls.isEmpty
  | .bootstrap status specs => status && specs
  | .nodeConnected => s.cursor.isSome && s.calls.isEmpty
  | _ => true

/-!
### The invariant
-/

def Owes (s : Engine) (userId : Nat) : Prop :=
  s.calls ≠ [] ∧ s.reaches userId ∨
    match s.position with
    | some n => n < userId
    | none => ∀ c ∈ s.cursor, c.status ≠ .converged ∧ c.cursorUserId < userId

theorem owes_of_position {n userId : Nat} (hposition : s.position = some n)
    (h : n < userId) : s.Owes userId := by
  refine .inr ?_
  rw [hposition]
  exact h

theorem owes_of_cursor (hposition : s.position = none)
    (h : ∀ c ∈ s.cursor, c.status ≠ .converged ∧ c.cursorUserId < userId) : s.Owes userId := by
  refine .inr ?_
  rw [hposition]
  exact h

theorem Owes.lt {n userId : Nat} (h : s.Owes userId)
    (hposition : s.position = some n) : n < userId := by
  unfold Owes reaches at h
  rw [hposition] at h
  rcases h with ⟨-, hreaches⟩ | hlt
  · exact of_decide_eq_true (Bool.and_eq_true_iff.mp hreaches).2
  · exact hlt

theorem Owes.rewinds_or (h : s.Owes userId) (hposition : s.position = none) :
    ∀ c ∈ s.cursor, c.rewinds ∨ c.cursorUserId < userId := by
  unfold Owes reaches at h
  rw [hposition] at h
  intro c hc
  rcases h with ⟨-, hreaches⟩ | hcursor
  · have hall : s.cursor.all (fun c => c.rewinds || c.cursorUserId < userId) :=
      (Bool.and_eq_true_iff.mp hreaches).2
    rw [show s.cursor = some c from hc] at hall
    exact (Bool.or_eq_true_iff.mp hall).imp_right of_decide_eq_true
  · exact .inr (hcursor c hc).2

theorem Owes.cursor_lt (h : s.Owes userId) (hcalls : s.calls = []) (hposition : s.position = none) :
    ∀ c ∈ s.cursor, c.status ≠ .converged ∧ c.cursorUserId < userId := by
  have hcursor := h.resolve_left fun hdue => hdue.1 hcalls
  rw [hposition] at hcursor
  exact hcursor

def Fits (s : Engine) : Worker → Prop
  | .started => True
  | .preparing _ pass => ∀ c ∈ s.cursor, c.cursorUserId ≤ pass.cursor
  | .streaming _ peers | .sent _ _ peers => peers = s.table ∧ s.calls = []

structure Sound (s : Engine) : Prop where
  cached : .due ∈ s.calls ∨ s.cache = none ∨ s.cache = some s.table
  hints : ∀ r ∈ s.outbox, r.op = .reconcileHint
  fits : ∀ w ∈ s.worker, s.Fits w
  atStart : s.agent.fresh → (∀ c ∈ s.cursor, c.cursorUserId = 0) ∧ ∀ n ∈ s.position, n = 0
  known : s.settled → ∀ e ∈ s.node.ifaces, ∀ key, (s.agent.peersOf e.1).allowedOf key ≠ none →
    ∃ p ∈ s.table.peers, p.publicKey = key ∧ p.pushable e.2
  owed : ∀ e ∈ s.node.ifaces, ∀ p ∈ s.table.peers,
    Right e.2 (s.agent.peersOf e.1) p ∨ s.Owes p.userId

variable {s s' : Engine}

theorem sound_init (node : WgNode) (table : PeerTable) (interfaces : Dict String Interface) :
    (init node table interfaces).Sound where
  cached := .inr (.inl rfl)
  hints _ hr := absurd hr List.not_mem_nil
  fits _ hw := absurd hw.symm (Option.some_ne_none _)
  atStart _ := ⟨fun _ hc => absurd hc.symm (Option.some_ne_none _),
    fun _ hn => absurd hn.symm (Option.some_ne_none _)⟩
  known h := absurd h Bool.false_ne_true
  owed _ _ _ _ := .inr (.inr fun _ hc => absurd hc.symm (Option.some_ne_none _))

theorem Sound.same (h : s.Sound) (hnode : s'.node = s.node) (htable : s'.table = s.table)
    (hagent : s'.agent = s.agent)
    (hcached : .due ∈ s'.calls ∨ s'.cache = none ∨ s'.cache = some s.table)
    (hhints : ∀ r ∈ s'.outbox, r.op = .reconcileHint) (hfits : ∀ w ∈ s'.worker, s'.Fits w)
    (hstart : s.agent.fresh → (∀ c ∈ s'.cursor, c.cursorUserId = 0) ∧ ∀ n ∈ s'.position, n = 0)
    (hsettled : s'.settled → s.settled)
    (howes : ∀ p ∈ s.table.peers, s.Owes p.userId → s'.Owes p.userId) : s'.Sound where
  cached := htable ▸ hcached
  hints := hhints
  fits := hfits
  atStart := hagent ▸ hstart
  known hs := by
    rw [hnode, htable, hagent]
    exact h.known (hsettled hs)
  owed := by
    rw [hnode, htable, hagent]
    exact fun e he p hp => (h.owed e he p hp).imp_right (howes p hp)

theorem allowedOf_eq_none_of_not_mem {i : Interface} {key : String} (h : i.allowedOf key ≠ none) :
    key ∈ i.keys := by
  unfold Interface.allowedOf at h
  obtain ⟨p, hp⟩ := Option.ne_none_iff_exists'.mp
    fun hnone : i.get? key = none => h (by rw [hnone]; rfl)
  exact List.mem_map_of_mem (f := Prod.fst) (Dict.get?_eq_some_iff.mp hp)

theorem sound_change (h : s.Sound) {table : PeerTable} (hok : s.orderly (.change table)) :
    ({ s with table, calls := s.calls ++ [.due] } : Engine).Sound := by
  obtain ⟨hok, hknown⟩ := Bool.and_eq_true_iff.mp hok
  obtain ⟨hworker, hreaches⟩ := Bool.and_eq_true_iff.mp hok
  have hcalls : s.calls ++ [.due] ≠ [] := List.append_ne_nil_of_right_ne_nil _ (List.cons_ne_nil _ _)
  refine ⟨.inl (by simp), h.hints, ?_, h.atStart, ?_, ?_⟩
  · intro w hw
    have hfits := h.fits w hw
    cases w with
    | started | preparing => exact hfits
    | streaming | sent =>
      rw [show s.worker = _ from hw] at hworker
      cases hworker
  · intro hs e he key hkey
    have hknown : s.keysKnown table := by
      rcases Bool.or_eq_true_iff.mp hknown with hnot | hknown
      · rw [show s.settled = true from hs] at hnot
        cases hnot
      · exact hknown
    have hkeys := List.all_eq_true.mp (List.all_eq_true.mp hknown e he) key
      (allowedOf_eq_none_of_not_mem hkey)
    obtain ⟨p, hp, hpkey⟩ := List.any_eq_true.mp hkeys
    exact ⟨p, hp, of_decide_eq_true hpkey⟩
  · intro e he p hp
    rcases of_decide_eq_true (List.all_eq_true.mp hreaches p hp) with hold | hreached
    · exact (h.owed e he p hold).imp_right (Or.imp_left fun hdue => ⟨hcalls, hdue.2⟩)
    · exact .inr (.inl ⟨hcalls, hreached⟩)

theorem sound_getPeers (h : s.Sound) (expired : Bool) :
    ({ s with cache := some (s.cachedPeers expired) } : Engine).Sound := by
  refine h.same rfl rfl rfl ?_ h.hints h.fits h.atStart id fun _ _ => id
  refine h.cached.imp_right fun hcache => .inr ?_
  show some (if expired then s.table else s.cache.getD s.table) = some s.table
  rcases hcache with hnone | hsome
  · rw [hnone]
    exact congrArg some (ite_self _)
  · rw [hsome]
    exact congrArg some (ite_self _)

theorem sound_refresh (h : s.Sound) {i : Nat} (hcall : s.calls[i]? = some .due) : ({ s with
        cache := some s.table
        generation := s.generation + 1
        calls := s.calls.set i (.cached (s.generation + 1)) } : Engine).Sound := by
  have hne : s.calls ≠ [] := fun hnil => by rw [hnil] at hcall; cases hcall
  have hset : s.calls.set i (.cached (s.generation + 1)) ≠ [] := by
    simpa using hne
  refine h.same rfl rfl rfl (.inr (.inr rfl)) h.hints ?_ h.atStart id ?_
  · intro w hw
    have hfits := h.fits w hw
    cases w with
    | started | preparing => exact hfits
    | streaming | sent => exact absurd hfits.2 hne
  · exact fun p _ => Or.imp_left fun hdue => ⟨hset, hdue.2⟩

theorem scheduled_status (generation : Nat) (cursor : Option NodeSyncCursor) :
    (scheduled generation cursor).status ≠ .converged := by
  cases cursor with
  | none => exact SyncStatus.noConfusion
  | some c =>
    show (if c.status = .running then SyncStatus.running else .pending) ≠ .converged
    split <;> exact SyncStatus.noConfusion

theorem scheduled_cursorUserId (generation : Nat) (cursor : Option NodeSyncCursor)
    (hpos : 0 < userId) (h : ∀ c ∈ cursor, c.rewinds ∨ c.cursorUserId < userId) :
    (scheduled generation cursor).cursorUserId < userId := by
  cases cursor with
  | none => exact hpos
  | some c =>
    show (if c.rewinds then 0 else c.cursorUserId) < userId
    split
    · exact hpos
    · next hnot => exact (h c rfl).resolve_left hnot

theorem op_of_mem_withHint (h : ∀ r ∈ outbox, r.op = .reconcileHint) {r : OutboxRow}
    (hr : r ∈ withHint outbox) : r.op = .reconcileHint := by
  rcases List.mem_append.mp (List.mem_of_mem_drop hr) with hold | hnew
  · exact h r hold
  · rw [List.mem_singleton.mp hnew]

theorem sound_schedule (h : s.Sound) {i generation : Nat}
    (hcall : s.calls[i]? = some (.cached generation))
    (houtbox : ∀ r ∈ outbox, r.op = .reconcileHint) :
    ({ s with
        outbox
        cursor := some (scheduled generation s.cursor)
        calls := s.calls.eraseIdx i } : Engine).Sound := by
  have hne : s.calls ≠ [] := fun hnil => by rw [hnil] at hcall; cases hcall
  refine h.same rfl rfl rfl ?_ houtbox ?_ ?_ ?_ ?_
  · refine h.cached.imp_left fun hdue => ?_
    obtain ⟨j, hj⟩ := List.getElem?_of_mem hdue
    refine List.mem_eraseIdx_iff_getElem?.mpr ⟨j, ?_, hj⟩
    rintro rfl
    rw [hcall] at hj
    cases hj
  · intro w hw
    have hfits := h.fits w hw
    cases w with
    | started => exact hfits
    | preparing phase pass =>
      intro c hc
      cases hc
      exact Nat.le_of_lt_succ (scheduled_cursorUserId generation s.cursor (Nat.succ_pos _)
        fun c hc => .inr (Nat.lt_succ_of_le (hfits c hc)))
    | streaming | sent => exact absurd hfits.2 hne
  · intro hfresh
    refine ⟨fun c hc => ?_, (h.atStart hfresh).2⟩
    cases hc
    refine Nat.lt_one_iff.mp (scheduled_cursorUserId generation s.cursor Nat.one_pos ?_)
    exact fun c hc => .inr (Nat.lt_one_iff.mpr ((h.atStart hfresh).1 c hc))
  · intro hs
    have hstatus := scheduled_status generation s.cursor
    rcases settled_iff.mp hs with hfresh | hbooted | ⟨c, hc, hconverged⟩
    · exact settled_iff.mpr (.inl hfresh)
    · exact settled_iff.mpr (.inr (.inl hbooted))
    · cases hc
      exact absurd hconverged hstatus
  · intro p hp howes
    cases hposition : s.position with
    | some n => exact owes_of_position hposition (howes.lt hposition)
    | none =>
      refine owes_of_cursor hposition fun c hc => ?_
      cases hc
      exact ⟨scheduled_status generation s.cursor, scheduled_cursorUserId generation s.cursor
        (s.table.positive p hp) (howes.rewinds_or hposition)⟩

theorem nodeConnected_some (generation : Nat) (c : NodeSyncCursor) :
    (nodeConnected generation (some c)).2.status ≠ .converged ∧
      (nodeConnected generation (some c)).2.cursorUserId ≤ c.cursorUserId := by
  unfold nodeConnected
  dsimp only
  split
  · split
    · exact ⟨SyncStatus.noConfusion, Nat.zero_le _⟩
    · exact ⟨SyncStatus.noConfusion, Nat.le_refl _⟩
  · next hnot =>
      refine ⟨fun hconverged => hnot ?_, Nat.le_refl _⟩
      rw [show c.status = .converged from hconverged]
      decide

theorem sound_nodeConnected (h : s.Sound) (hok : s.orderly .nodeConnected) {generation : Nat} :
    ({ s with
        generation
        cursor := some (nodeConnected s.generation s.cursor).2 } : Engine).Sound := by
  obtain ⟨hsome, hcalls⟩ := Bool.and_eq_true_iff.mp hok
  have hcalls := List.isEmpty_iff.mp hcalls
  obtain ⟨c, hc⟩ := Option.isSome_iff_exists.mp hsome
  obtain ⟨hstatus, hle⟩ := nodeConnected_some s.generation c
  rw [← hc] at hstatus hle
  refine h.same rfl rfl rfl h.cached h.hints ?_ ?_ ?_ ?_
  · intro w hw
    have hfits := h.fits w hw
    cases w with
    | preparing phase pass =>
      intro c' hc'
      cases hc'
      exact Nat.le_trans hle (hfits c hc)
    | started | streaming | sent => exact hfits
  · intro hfresh
    refine ⟨fun c' hc' => ?_, (h.atStart hfresh).2⟩
    cases hc'
    exact Nat.eq_zero_of_le_zero (Nat.le_trans hle (Nat.le_of_eq ((h.atStart hfresh).1 c hc)))
  · intro hs
    rcases settled_iff.mp hs with hfresh | hbooted | ⟨c, hc, hconverged⟩
    · exact settled_iff.mpr (.inl hfresh)
    · exact settled_iff.mpr (.inr (.inl hbooted))
    · cases hc
      exact absurd hconverged hstatus
  · intro p hp howes
    cases hposition : s.position with
    | some n => exact owes_of_position hposition (howes.lt hposition)
    | none =>
      refine owes_of_cursor hposition fun c' hc' => ?_
      cases hc'
      exact ⟨hstatus, Nat.lt_of_le_of_lt hle (howes.cursor_lt hcalls hposition c hc).2⟩

theorem sound_start (h : s.Sound) (hworker : s.worker = none) :
    ({ s with worker := some .started } : Engine).Sound := by
  have hposition : s.position = none := by
    unfold position
    rw [hworker]
    rfl
  refine h.same rfl rfl rfl h.cached h.hints ?_ ?_ ?_ ?_
  · intro w hw
    cases hw
    trivial
  · exact fun hfresh => ⟨(h.atStart hfresh).1, fun n hn => absurd hn.symm (Option.some_ne_none _)⟩
  · intro hs
    rcases settled_iff.mp hs with hfresh | ⟨w, hw, hbooted⟩ | hconverged
    · exact settled_iff.mpr (.inl hfresh)
    · cases hw
      cases hbooted
    · exact settled_iff.mpr (.inr (.inr hconverged))
  · intro p hp howes
    unfold Owes reaches at howes ⊢
    rw [hposition, hworker] at howes
    exact howes

theorem position_eq {w : Worker} (hworker : s.worker = some w) : s.position = w.position := by
  unfold position
  rw [hworker]
  rfl

theorem settled_of_booted {w : Worker} (hworker : s.worker = some w) (hbooted : w.booted) :
    s.settled := settled_iff.mpr (.inr (.inl ⟨w, hworker, hbooted⟩))

theorem sound_begin (h : s.Sound) (hworker : s.worker = some .started) (hok : s.orderly .begin) :
    s.beginPass.Sound := by
  have hcalls : s.calls = [] := List.isEmpty_iff.mp hok
  have hposition : s.position = none := position_eq hworker
  unfold beginPass
  dsimp only
  split
  · refine h.same rfl rfl rfl h.cached h.hints ?_ ?_ ?_ ?_
    · exact fun w hw => absurd hw.symm (Option.some_ne_none _)
    · exact fun hfresh => ⟨(h.atStart hfresh).1, fun n hn => absurd hn.symm (Option.some_ne_none _)⟩
    · intro hs
      rcases settled_iff.mp hs with hfresh | ⟨w, hw, -⟩ | hconverged
      · exact settled_iff.mpr (.inl hfresh)
      · cases hw
      · exact settled_iff.mpr (.inr (.inr hconverged))
    · exact fun p _ howes => owes_of_cursor rfl (howes.cursor_lt hcalls hposition)
  · refine h.same rfl rfl rfl h.cached h.hints ?_ ?_ ?_ ?_
    · intro w hw
      cases hw
      intro c hc
      cases hc
      exact Nat.le_refl _
    · intro hfresh
      have hzero : (s.cursor.getD { status := .pending }).cursorUserId = 0 := by
        cases hcursor : s.cursor with
        | none => rfl
        | some c => exact (h.atStart hfresh).1 c hcursor
      constructor
      · intro c hc
        cases hc
        exact hzero
      · intro n hn
        cases hn
        exact hzero
    · intro hs
      rcases settled_iff.mp hs with hfresh | ⟨w, hw, hbooted⟩ | ⟨c, hc, hconverged⟩
      · exact settled_iff.mpr (.inl hfresh)
      · cases hw
        cases hbooted
      · cases hc
        cases hconverged
    · intro p hp howes
      refine owes_of_position rfl ?_
      cases hcursor : s.cursor with
      | none => exact s.table.positive p hp
      | some c => exact (howes.cursor_lt hcalls hposition c hcursor).2

theorem Sound.goOn (h : s.Sound) {phase phase' : Phase} {pass pass' : Pass}
    (hworker : s.worker = some (.preparing phase pass)) (hcursor : pass'.cursor = pass.cursor)
    (hsettled : (Worker.preparing phase' pass').booted → s.settled) :
    ({ s with worker := some (.preparing phase' pass') } : Engine).Sound := by
  have hposition : s.position = some pass.cursor := position_eq hworker
  refine h.same rfl rfl rfl h.cached h.hints ?_ ?_ ?_ ?_
  · intro w hw
    cases hw
    show ∀ c ∈ s.cursor, c.cursorUserId ≤ pass'.cursor
    rw [hcursor]
    exact h.fits _ hworker
  · intro hfresh
    refine ⟨(h.atStart hfresh).1, fun n hn => ?_⟩
    cases hn
    exact hcursor.trans ((h.atStart hfresh).2 _ hposition)
  · intro hs
    rcases settled_iff.mp hs with hfresh | ⟨w, hw, hbooted⟩ | hconverged
    · exact settled_iff.mpr (.inl hfresh)
    · cases hw
      exact hsettled hbooted
    · exact settled_iff.mpr (.inr (.inr hconverged))
  · intro p _ howes
    exact owes_of_position rfl (hcursor ▸ howes.lt hposition)

theorem sound_stopEarly (h : s.Sound) {phase : Phase}
    (hworker : s.worker = some (.preparing phase pass)) : (s.stopEarly .paused).Sound := by
  have hposition : s.position = some pass.cursor := position_eq hworker
  refine h.same rfl rfl rfl h.cached h.hints ?_ ?_ ?_ ?_
  · exact fun w hw => absurd hw.symm (Option.some_ne_none _)
  · intro hfresh
    refine ⟨fun c' hc' => ?_, fun n hn => absurd hn.symm (Option.some_ne_none _)⟩
    obtain ⟨c, hc, rfl⟩ := Option.map_eq_some_iff.mp hc'
    exact (h.atStart hfresh).1 c hc
  · intro hs
    rcases settled_iff.mp hs with hfresh | ⟨w, hw, -⟩ | ⟨c', hc', hconverged⟩
    · exact settled_iff.mpr (.inl hfresh)
    · cases hw
    · obtain ⟨c, -, rfl⟩ := Option.map_eq_some_iff.mp hc'
      cases hconverged
  · intro p _ howes
    refine owes_of_cursor rfl fun c' hc' => ?_
    obtain ⟨c, hc, rfl⟩ := Option.map_eq_some_iff.mp hc'
    exact ⟨SyncStatus.noConfusion,
      Nat.lt_of_le_of_lt (h.fits _ hworker c hc) (howes.lt hposition)⟩

theorem sound_bootstrap (h : s.Sound) {status specs : Bool}
    (hworker : s.worker = some (.preparing .status pass))
    (hok : s.orderly (.bootstrap status specs)) :
    ({ s with
        agent := s.bootstrapped status specs
        worker := some (.preparing .outbox pass) } : Engine).Sound := by
  obtain ⟨rfl, rfl⟩ := Bool.and_eq_true_iff.mp hok
  have hposition : s.position = some pass.cursor := position_eq hworker
  cases hfresh : s.agent.fresh with
  | false =>
    have hagent : s.bootstrapped true true = s.agent := by
      unfold bootstrapped
      simp [hfresh]
    rw [hagent]
    exact h.goOn hworker rfl fun _ => settled_iff.mpr (.inl hfresh)
  | true =>
    have hagent : s.bootstrapped true true =
        s.agent.applyEmptySpecs (s.node.ifaces.map Prod.fst) := by
      unfold bootstrapped
      simp [hfresh]
    have hzero : pass.cursor = 0 := (h.atStart hfresh).2 _ hposition
    rw [hagent]
    refine ⟨h.cached, h.hints, ?_, ?_, ?_, ?_⟩
    · intro w hw
      cases hw
      exact h.fits _ hworker
    · intro _
      refine ⟨(h.atStart hfresh).1, fun n hn => ?_⟩
      cases hn
      exact hzero
    · intro _ e he key hkey
      refine absurd ?_ hkey
      rw [Agent.peersOf_applyEmptySpecs (List.mem_map_of_mem he)]
      rfl
    · intro e he p hp
      refine .inr (owes_of_position rfl ?_)
      rw [hzero]
      exact s.table.positive p hp

theorem sound_drain (h : s.Sound)
    (hworker : s.worker = some (.preparing .outbox pass)) : (s.drained pass raises).Sound := by
  obtain ⟨lastOutbox, hdrained⟩ := drained_of_hints h.hints pass raises
  rw [hdrained]
  exact h.goOn hworker rfl fun _ => settled_of_booted hworker rfl

theorem sound_takePeers (h : s.Sound) {expired : Bool}
    (hworker : s.worker = some (.preparing .peers pass)) (hok : s.orderly (.takePeers expired)) :
    ({ s with
        cache := some (s.cachedPeers expired)
        worker := some (.streaming pass (s.cachedPeers expired)) } : Engine).Sound := by
  have hcalls : s.calls = [] := List.isEmpty_iff.mp hok
  have hposition : s.position = some pass.cursor := position_eq hworker
  have hpeers : s.cachedPeers expired = s.table := by
    unfold cachedPeers
    rcases h.cached with hdue | hnone | hsome
    · rw [hcalls] at hdue
      cases hdue
    · rw [hnone]
      exact ite_self _
    · rw [hsome]
      exact ite_self _
  rw [hpeers]
  refine h.same rfl rfl rfl (.inr (.inr rfl)) h.hints ?_ ?_ ?_ ?_
  · intro w hw
    cases hw
    exact ⟨rfl, hcalls⟩
  · intro hfresh
    refine ⟨(h.atStart hfresh).1, fun n hn => ?_⟩
    cases hn
    exact (h.atStart hfresh).2 _ hposition
  · exact fun _ => settled_of_booted hworker rfl
  · exact fun p _ howes => owes_of_position rfl (howes.lt hposition)

theorem Sound.right_of_not_pushable (h : s.Sound) (hsettled : s.settled) (he : e ∈ s.node.ifaces)
    {p : WGUserPeer} (hp : p ∈ s.table.peers)
    (hnot : p.pushable e.2 = false) : Right e.2 (s.agent.peersOf e.1) p := by
  have hserves : p.serves e.2 = false := by
    exact Bool.and_eq_false_iff.mpr (.inr (Bool.or_eq_false_iff.mp hnot).2)
  unfold Right
  rw [hserves]
  by_contra hkey
  obtain ⟨q, hq, hqkey, hpushable⟩ := h.known hsettled e he _ hkey
  rw [s.table.keys_inj q hq p hp hqkey, hnot] at hpushable
  cases hpushable

theorem mem_of_mem_batch :
    ∀ p ∈ batch pass peers, p ∈ peers.peers :=
  fun _ hp => (mem_of_mem_batchAfter hp).1

theorem Sound.pushed (h : s.Sound) (hworker : s.worker = some (.streaming pass s.table))
    {state : SyncState} {agent : Agent} {ok : Bool}
    (hcalls : s.agent.tryCalls state (s.node.pushCalls (batch pass s.table)) raises = (agent, ok))
    (he : e ∈ s.node.ifaces) :
    (∀ key, (agent.peersOf e.1).allowedOf key ≠ none →
      ∃ p ∈ s.table.peers, p.publicKey = key ∧ p.pushable e.2) ∧
    ∀ p ∈ s.table.peers, Right e.2 (s.agent.peersOf e.1) p ∨ ok ∧ p ∈ batch pass s.table →
      Right e.2 (agent.peersOf e.1) p := by
  have hsettled : s.settled := settled_of_booted hworker rfl
  have hknown := h.known hsettled e he
  rcases Agent.peersOf_tryCalls hcalls he with hpushed | ⟨hok, hsame⟩
  · rw [hpushed]
    constructor
    · intro key hkey
      by_contra hnone
      refine hkey (allowedOf_pushed_eq_none mem_of_mem_batch ?_ (.inr ?_))
      · intro p hp hserves hpkey
        refine hnone ⟨p, mem_of_mem_batch p hp, hpkey, ?_⟩
        exact Bool.or_eq_true_iff.mpr (.inr (Bool.and_eq_true_iff.mp hserves).2)
      · by_contra hheld
        exact hnone (hknown key hheld)
    · intro p hp hcase
      refine right_pushed mem_of_mem_batch hp ?_
      rcases hcase with hright | ⟨-, hmem⟩
      · exact .inr hright
      · cases hpushable : p.pushable e.2 with
        | true => exact .inl ⟨hmem, rfl⟩
        | false => exact .inr (h.right_of_not_pushable hsettled he hp hpushable)
  · rw [hsame]
    refine ⟨hknown, fun p _ hcase => hcase.resolve_right fun hbatch => ?_⟩
    rw [hok] at hbatch
    cases hbatch.1

theorem sound_push (h : s.Sound) (hworker : s.worker = some (.streaming pass s.table))
    {last : WGUserPeer} (hlast : (batch pass s.table).getLast? = some last) :
    (s.pushBatch pass s.table last.userId raises).Sound := by
  have hcalls : s.calls = [] := (h.fits _ hworker).2
  have hposition : s.position = some pass.cursor := position_eq hworker
  unfold pushBatch
  split
  · next agent hresult =>
      refine ⟨h.cached, h.hints, ?_, ?_, ?_, ?_⟩
      · exact fun w hw => absurd hw.symm (Option.some_ne_none _)
      · intro hfresh
        refine ⟨fun c' hc' => ?_, fun n hn => absurd hn.symm (Option.some_ne_none _)⟩
        obtain ⟨c, -, rfl⟩ := Option.map_eq_some_iff.mp hc'
        exact (h.atStart (Agent.fresh_of_fresh_tryCalls hresult hfresh).1).2 _ hposition
      · exact fun _ e he => (h.pushed hworker hresult he).1
      · intro e he p hp
        rcases h.owed e he p hp with hright | howes
        · exact .inl ((h.pushed hworker hresult he).2 p hp (.inl hright))
        · refine .inr (owes_of_cursor rfl fun c' hc' => ?_)
          obtain ⟨c, -, rfl⟩ := Option.map_eq_some_iff.mp hc'
          exact ⟨SyncStatus.noConfusion, howes.lt hposition⟩
  · next agent hresult =>
      refine ⟨h.cached, h.hints, ?_, ?_, ?_, ?_⟩
      · intro w hw
        cases hw
        exact ⟨rfl, hcalls⟩
      · intro hfresh
        have hok := (Agent.fresh_of_fresh_tryCalls hresult hfresh).2
        cases hok
      · exact fun _ e he => (h.pushed hworker hresult he).1
      · intro e he p hp
        have hpushed := (h.pushed hworker hresult he).2 p hp
        rcases h.owed e he p hp with hright | howes
        · exact .inl (hpushed (.inl hright))
        · by_cases hle : p.userId ≤ last.userId
          · have hmem : p ∈ batch pass s.table :=
              mem_batchAfter s.table.sorted hlast hp (howes.lt hposition) hle
            exact .inl (hpushed (.inr ⟨rfl, hmem⟩))
          · exact .inr (owes_of_position rfl (Nat.lt_of_not_le hle))

theorem sound_store (h : s.Sound) {next : Nat} (hworker : s.worker = some (.sent pass next peers)) :
    (s.storeCursor pass next peers).Sound := by
  have hposition : s.position = some next := position_eq hworker
  unfold storeCursor
  split
  · next hcursor =>
      refine h.same rfl rfl rfl h.cached h.hints ?_ ?_ ?_ ?_
      · exact fun w hw => absurd hw.symm (Option.some_ne_none _)
      · exact fun hfresh => ⟨(h.atStart hfresh).1, fun n hn => absurd hn.symm (Option.some_ne_none _)⟩
      · exact fun _ => settled_of_booted hworker rfl
      · intro p _ _
        refine owes_of_cursor rfl fun c hc => ?_
        rw [show s.cursor = some c from hc] at hcursor
        cases hcursor
  · next c hcursor =>
      refine h.same rfl rfl rfl h.cached h.hints ?_ ?_ ?_ ?_
      · intro w hw
        cases hw
        exact h.fits _ hworker
      · intro hfresh
        have hnext : next = 0 := (h.atStart hfresh).2 _ hposition
        constructor
        · intro c' hc'
          cases hc'
          exact hnext
        · intro n hn
          cases hn
          exact hnext
      · exact fun _ => settled_of_booted hworker rfl
      · exact fun p _ howes => owes_of_position rfl (howes.lt hposition)

theorem sound_finish (h : s.Sound) (hworker : s.worker = some (.streaming pass s.table))
    (hbatch : batch pass s.table = []) :
    (s.stop .converged pass).Sound := by
  have hposition : s.position = some pass.cursor := position_eq hworker
  refine h.same rfl rfl rfl h.cached h.hints ?_ ?_ ?_ ?_
  · exact fun w hw => absurd hw.symm (Option.some_ne_none _)
  · intro hfresh
    refine ⟨fun c' hc' => ?_, fun n hn => absurd hn.symm (Option.some_ne_none _)⟩
    obtain ⟨c, -, rfl⟩ := Option.map_eq_some_iff.mp hc'
    exact (h.atStart hfresh).2 _ hposition
  · exact fun _ => settled_of_booted hworker rfl
  · intro p hp howes
    have hle := (batchAfter_eq_nil (by decide)).mp hbatch p hp
    exact absurd (howes.lt hposition) (Nat.not_lt_of_le hle)

theorem sound_step {a : SyncStep} (h : s.Sound) (hok : s.orderly a) (hstep : s.step a = some s') :
    s'.Sound := by
  cases a with
  | change table =>
    cases hstep
    exact sound_change h hok
  | getPeers expired =>
    cases hstep
    exact sound_getPeers h expired
  | refresh i =>
    simp only [step] at hstep
    split at hstep
    · next hcall =>
        cases hstep
        exact sound_refresh h hcall
    · cases hstep
  | schedule i =>
    simp only [step] at hstep
    split at hstep
    · next hcall =>
        obtain rfl := Option.some.inj hstep
        exact sound_schedule h hcall fun r => op_of_mem_withHint h.hints
    · cases hstep
  | nodeConnected =>
    cases hstep
    exact sound_nodeConnected h hok
  | start =>
    simp only [step] at hstep
    split at hstep
    · next hnone =>
        cases hstep
        exact sound_start h (Option.isNone_iff_eq_none.mp hnone)
    · cases hstep
  | begin =>
    simp only [step] at hstep
    split at hstep
    · next hworker =>
        cases hstep
        exact sound_begin h hworker hok
    · cases hstep
  | connect client =>
    simp only [step] at hstep
    split at hstep
    · next pass hworker =>
        split at hstep
        · cases hstep
          exact h.goOn hworker rfl fun hbooted => absurd hbooted Bool.false_ne_true
        · cases hstep
          exact sound_stopEarly h hworker
    · cases hstep
  | bootstrap status specs =>
    simp only [step] at hstep
    split at hstep
    · next pass hworker =>
        cases hstep
        exact sound_bootstrap h hworker hok
    · cases hstep
  | drain raises =>
    simp only [step] at hstep
    split at hstep
    · next pass hworker =>
        obtain rfl := Option.some.inj hstep
        exact sound_drain h hworker
    · cases hstep
  | takePeers expired =>
    simp only [step] at hstep
    split at hstep
    · next pass hworker =>
        cases hstep
        exact sound_takePeers h hworker hok
    · cases hstep
  | push raises =>
    simp only [step] at hstep
    split at hstep
    · next pass peers hworker =>
        obtain ⟨last, hlast, rfl⟩ := Option.map_eq_some_iff.mp hstep
        obtain ⟨rfl, -⟩ := h.fits _ hworker
        exact sound_push h hworker hlast
    · cases hstep
  | store =>
    simp only [step] at hstep
    split at hstep
    · next pass next peers hworker =>
        cases hstep
        exact sound_store h hworker
    · cases hstep
  | finish =>
    simp only [step] at hstep
    split at hstep
    · next pass peers hworker =>
        obtain ⟨rfl, -⟩ := h.fits _ hworker
        split at hstep
        · next hbatch =>
            cases hstep
            exact sound_finish h hworker hbatch
        · cases hstep
    · cases hstep

end Engine

/-- **A converged node holds exactly the active peers** in every orderly run. -/
theorem converged_node_holds_active_peers (node : WgNode) (table : PeerTable)
    (interfaces : Dict String Interface) (s : Engine)
    (hrun : Run Engine.step (fun s a => s.orderly a) (.init node table interfaces) s)
    (hstatus : s.cursor.any fun c => c.status = .converged) (hworker : s.worker = none)
    (hcalls : s.calls = []) (e : String × Stack) (he : e ∈ s.node.ifaces) (key : String)
    (allowed : Option String) :
    (s.agent.peersOf e.1).allowedOf key = some allowed ↔
      ∃ p ∈ s.table.peers, p.serves e.2 ∧ p.publicKey = key ∧ allowed = some (p.allowed e.2) := by
  have h : s.Sound :=
    hrun.invariant Engine.Sound (Engine.sound_init node table interfaces) Engine.sound_step
  obtain ⟨c, hc, hconverged⟩ := (Option.any_eq_true _ _).mp hstatus
  have hconverged := of_decide_eq_true hconverged
  have hposition : s.position = none := by
    unfold Engine.position
    rw [hworker]
    rfl
  have hright : ∀ p ∈ s.table.peers, Right e.2 (s.agent.peersOf e.1) p := by
    intro p hp
    refine (h.owed e he p hp).resolve_right fun howes => ?_
    exact (howes.cursor_lt hcalls hposition c hc).1 hconverged
  constructor
  · intro hkey
    have hheld : (s.agent.peersOf e.1).allowedOf key ≠ none := by
      rw [hkey]
      exact Option.some_ne_none _
    obtain ⟨p, hp, rfl, -⟩ := h.known (Engine.settled_iff.mpr (.inr (.inr ⟨c, hc, hconverged⟩)))
      e he key hheld
    have hp' := hright p hp
    unfold Right at hp'
    rw [hkey] at hp'
    cases hserves : p.serves e.2 with
    | false =>
      rw [hserves] at hp'
      cases hp'
    | true =>
      rw [hserves] at hp'
      exact ⟨p, hp, hserves, rfl, Option.some.inj hp'⟩
  · intro ⟨p, hp, hserves, hkey, hallowed⟩
    have hp' := hright p hp
    unfold Right at hp'
    rw [hserves, hkey] at hp'
    rw [hallowed]
    exact hp'

def Engine.after (ok : Engine → SyncStep → Prop) [∀ s a, Decidable (ok s a)]
    (steps : List SyncStep) : Option Engine :=
  execGuarded Engine.step ok
    (.init plainNode (exampleTable "K1" true exampleKey_ne_empty) .empty) steps

def Engine.quiet (s : Engine) : Bool :=
  (s.cursor.any fun c => c.status = .converged) && s.worker.isNone && s.calls.isEmpty

theorem deactivated_peer_removed :
    ∃ s, Engine.after (fun s a => s.orderly a)
        (onePass ++ [.change (exampleTable "K1" false (by decide)), .refresh 0, .schedule 0] ++
          onePass) = some s ∧ s.quiet ∧
      ∀ key allowed, (s.agent.peersOf "wg0").allowedOf key = some allowed ↔
        ∃ p ∈ s.table.peers, p.serves .plain ∧ p.publicKey = key ∧
          allowed = some (p.allowed .plain) := by
  have hrun : (Engine.after (fun s a => s.orderly a)
      (onePass ++ [.change (exampleTable "K1" false (by decide)), .refresh 0, .schedule 0] ++
        onePass)).any (fun s => s.quiet ∧ ("wg0", .plain) ∈ s.node.ifaces) = true := by
    decide +kernel
  obtain ⟨s, hs, hstate⟩ := (Option.any_eq_true _ _).mp hrun
  obtain ⟨hquiet, hiface⟩ := of_decide_eq_true hstate
  obtain ⟨hrest, hcalls⟩ := Bool.and_eq_true_iff.mp hquiet
  obtain ⟨hstatus, hworker⟩ := Bool.and_eq_true_iff.mp hrest
  exact ⟨s, hs, hquiet, converged_node_holds_active_peers _ _ _ s (Run.of_execGuarded _ hs) hstatus
    (Option.isNone_iff_eq_none.mp hworker) (List.isEmpty_iff.mp hcalls) ("wg0", .plain) hiface⟩

/-- Peers of deleted users stay, and one of a deactivated user is added. -/
theorem removed_peers_stay : (Engine.after (fun _ _ => True)
      (onePass ++ [.change .empty, .refresh 0, .schedule 0] ++
        [.start, .begin, .connect true, .bootstrap true true, .drain none, .takePeers false,
          .finish])).any
      (fun s => s.quiet ∧ s.table.peers = [] ∧
        (s.agent.peersOf "wg0").allowedOf "K1" = some (some "10.10.0.5/32")) = true ∧
    (Engine.after (fun _ _ => True)
      (onePass ++ [.change (exampleTable "K2" true (by decide)), .refresh 0, .schedule 0] ++
        onePass)).any
      (fun s => s.quiet ∧ (s.table.peers.all fun p => p.publicKey ≠ "K1") ∧
        (s.agent.peersOf "wg0").allowedOf "K1" = some none) = true ∧
    (Engine.after (fun _ _ => True)
      [.start, .begin, .connect true, .bootstrap true true, .drain none, .takePeers false,
        .change (exampleTable "K1" false (by decide)), .refresh 0, .schedule 0, .push none, .store,
        .finish]).any
      (fun s => s.quiet ∧ (s.table.peers.all fun p => ¬ p.active) ∧
        (s.agent.peersOf "wg0").allowedOf "K1" = some (some "10.10.0.5/32")) = true := by
  decide +kernel

end Shahkar.WireGuard
