import Shahkar.Lib.Transition
import Shahkar.Usage.Baselines

/-!
# Overlapping usage jobs

`record_user_usages` releases the collect lock *before* the bill, and `flush_node_user_stats` takes
no lock at all, so several jobs can have peeked at the same key before any of them has committed its
baseline.
-/

namespace Shahkar.Usage

open Shahkar.Lib

inductive JobKind
  | tick
  | flush
  deriving Repr, DecidableEq

inductive Job (G : Type)
  | collecting (kind : JobKind) (deltas pending : List (Key G × Int))
  | queued (deltas pending : List (Key G × Int))
  | billing (kind : JobKind) (deltas pending : List (Key G × Int))
  | recording (kind : JobKind) (pending : List (Key G × Int))
  | committing (kind : JobKind) (pending : List (Key G × Int))
  | done

namespace Job

variable {G : Type}

def pending : Job G → List (Key G × Int)
  | collecting _ _ ps | queued _ ps | billing _ _ ps | recording _ ps | committing _ ps => ps
  | done => []

def deltas : Job G → List (Key G × Int)
  | collecting _ ds _ | queued ds _ | billing _ ds _ => ds
  | recording _ _ | committing _ _ | done => []

def handedOut : Job G → Bool
  | recording _ _ | committing _ _ => true
  | _ => false

end Job

inductive Fate
  | kept
  | late
  | dropped
  deriving Repr, DecidableEq

/-- The state that usage jobs share. `handed`, `first` and `latest` are history: the deltas handed
out, the first baseline and the latest reading of each key. -/
structure Sched (G : Type) where
  tracker : CumulativeByteTracker G
  jobs : List (Job G)
  tickLock : Option Nat
  billLock : Option Nat
  handed : List (Key G × Int)
  first : Key G → Option Int
  latest : Key G → Option Int

inductive Act (G : Type)
  | start (kind : JobKind)
  | peek (i : Nat) (io : StoreIO G) (key : Key G) (total : Int) (fate : Fate)
  | release (i : Nat) (raised : Bool)
  | bill (i : Nat)
  | hand (i : Nat)
  | recorded (i : Nat)
  | commit (i : Nat) (io : StoreIO G)
  | fail (i : Nat)

namespace Sched

variable {G : Type} [DecidableEq G]

def init (t₀ : CumulativeByteTracker G) : Sched G where
  tracker := t₀
  jobs := []
  tickLock := none
  billLock := none
  handed := []
  first := t₀.last
  latest := fun key => (t₀.last key).or (t₀.store key)

def unlock (lock : Option Nat) (i : Nat) : Option Nat := if lock = some i then none else lock

def drop (s : Sched G) (i : Nat) : Sched G :=
  { s with
    jobs := s.jobs.set i .done
    tickLock := unlock s.tickLock i
    billLock := unlock s.billLock i }

def afterPeek (kind : JobKind) (deltas pending : List (Key G × Int)) (key : Key G) (total : Int)
    (delta : Option Int) : Fate → Job G
  | .kept => .collecting kind (deltas ++ (delta.map (key, ·)).toList) (pending ++ [(key, total)])
  | .late => .collecting kind deltas (pending ++ [(key, total)])
  | .dropped => .collecting kind deltas pending

def move (cap : Nat) (s : Sched G) : Act G → Option (Sched G)
  | .start .tick =>
    -- `_USAGE_TICK_LOCK.acquire(blocking=False)`
    if s.tickLock = none then
      some { s with
        jobs := s.jobs ++ [.collecting .tick [] []]
        tickLock := some s.jobs.length }
    else none
  | .start .flush => some { s with jobs := s.jobs ++ [.collecting .flush [] []] }
  | .peek i io key total fate =>
    let r := s.tracker.peekKey cap io key total
    let seen := { s with
      tracker := r.2
      first := Function.update s.first key ((s.first key).or (s.tracker.baseline io key))
      latest := Function.update s.latest key (some total) }
    match s.jobs[i]?, fate with
    | some (.collecting kind ds ps), fate =>
      some { seen with jobs := s.jobs.set i (afterPeek kind ds ps key total r.1 fate) }
    -- a worker that `map_rpc` gave up on still runs its peek
    | some _, .dropped => some seen
    | _, _ => none
  | .release i raised =>
    match s.jobs[i]? with
    | some (.collecting .tick ds ps) =>
      -- `collect_user_usage_params` keeps the pending baselines when a collector raises
      some { s with
        jobs := s.jobs.set i (.queued (if raised then [] else ds) ps)
        tickLock := unlock s.tickLock i }
    | some (.collecting .flush ds ps) =>
      if raised ∨ ds = [] then some (s.drop i)
      else some { s with jobs := s.jobs.set i (.billing .flush ds ps) }
    | _ => none
  | .bill i =>
    match s.jobs[i]? with
    | some (.queued ds ps) =>
      if s.billLock = none then
        some { s with
          jobs := s.jobs.set i (.billing .tick ds ps)
          billLock := some i }
      else none
    | _ => none
  | .hand i =>
    match s.jobs[i]? with
    | some (.billing kind ds ps) =>
      some { s with
        jobs := s.jobs.set i (.recording kind ps)
        handed := s.handed ++ ds }
    | _ => none
  | .recorded i =>
    match s.jobs[i]? with
    | some (.recording kind ps) => some { s with jobs := s.jobs.set i (.committing kind ps) }
    | _ => none
  | .commit i io =>
    match s.jobs[i]? with
    | some (.committing kind (e :: ps)) =>
      some { s with
        tracker := s.tracker.saveLast io e.1 e.2
        jobs := s.jobs.set i (.committing kind ps) }
    | some (.committing _ []) => some (s.drop i)
    | _ => none
  | .fail i =>
    match s.jobs[i]? with
    | some (.collecting _ _ _) | some (.billing _ _ _) | some (.recording _ _) => some (s.drop i)
    | _ => none

def noteFirst (s : Sched G) : Sched G :=
  { s with first := fun key => (s.first key).or (s.tracker.last key) }

/-- One job peeks at a key, bills or commits a baseline, or fails. -/
def step (cap : Nat) (s : Sched G) (a : Act G) : Option (Sched G) := (s.move cap a).map noteFirst

/-- The readings of a key never go down and grow by at most the cap. -/
def ReadingGrows (cap : Nat) (key : Key G) (s : Sched G) : Act G → Prop
  | .peek _ _ key' total _ => key' = key →
      ∀ m ∈ s.latest key, m ≤ total ∧ (cap = 0 ∨ total - m ≤ cap)
  | _ => True

/-- No peek at the key while a job has a baseline for it to commit, and no failure of such a job
after it has handed out its deltas. -/
def NoOverlap (key : Key G) (s : Sched G) : Act G → Prop
  | .peek _ _ key' _ _ => key' = key → ∀ j ∈ s.jobs, ∀ e ∈ j.pending, e.1 ≠ key
  | .fail i => ∀ j ∈ s.jobs[i]?, j.handedOut = true → ∀ e ∈ j.pending, e.1 ≠ key
  | _ => True

/-- What was handed out for the key is at most what its counter grew since its first baseline. -/
def BilledOnce (key : Key G) (s : Sched G) : Prop :=
  match s.first key, s.latest key with
  | some f, some m => posted key s.handed ≤ m - f
  | _, _ => posted key s.handed = 0

instance (cap : Nat) (key : Key G) (s : Sched G) : ∀ a, Decidable (ReadingGrows cap key s a)
  | .peek _ _ key' total _ => inferInstanceAs (Decidable (key' = key →
      ∀ m ∈ s.latest key, m ≤ total ∧ (cap = 0 ∨ total - m ≤ cap)))
  | .start _ | .release _ _ | .bill _ | .hand _ | .recorded _ | .commit _ _ | .fail _ =>
    inferInstanceAs (Decidable True)

instance (key : Key G) (s : Sched G) : ∀ a, Decidable (NoOverlap key s a)
  | .peek _ _ key' _ _ => inferInstanceAs (Decidable (key' = key →
      ∀ j ∈ s.jobs, ∀ e ∈ j.pending, e.1 ≠ key))
  | .fail i => inferInstanceAs (Decidable (∀ j ∈ s.jobs[i]?, j.handedOut = true →
      ∀ e ∈ j.pending, e.1 ≠ key))
  | .start _ | .release _ _ | .bill _ | .hand _ | .recorded _ | .commit _ _ =>
    inferInstanceAs (Decidable True)

structure KeyView where
  last : Option Int
  store : Option Int
  first : Option Int
  latest : Option Int
  paid : Int

def view (s : Sched G) (key : Key G) : KeyView where
  last := s.tracker.last key
  store := s.tracker.store key
  first := s.first key
  latest := s.latest key
  paid := posted key s.handed

def KeyView.Sound (w : KeyView) : Prop :=
  (w.last = none ∧ w.first = none ∧ w.paid = 0 ∧ ∀ v ∈ w.store, ∃ m ∈ w.latest, v ≤ m) ∨
  ∃ b f m, w.last = some b ∧ w.first = some f ∧ w.latest = some m ∧ b ≤ m

def KeyView.Backed (w : KeyView) : Prop := ∀ b ∈ w.last, ∀ f ∈ w.first, w.paid + f ≤ b

def Clean (key : Key G) (j : Job G) : Prop :=
  onKey key j.pending = [] ∧ onKey key j.deltas = []

structure Holds (w : KeyView) (key : Key G) (j : Job G) (v : Int) : Prop where
  pending : onKey key j.pending = [(key, v)]
  latest : ∃ m ∈ w.latest, v ≤ m
  nonneg : 0 ≤ posted key j.deltas
  first : ∀ f ∈ w.first, w.paid + posted key j.deltas + f ≤ v
  fresh : w.first = none → posted key j.deltas = 0
  backed : j.handedOut = false → w.Backed

def KeyInv (key : Key G) (s : Sched G) : Prop :=
  ∃ holder : Option Nat,
    (∀ i j, s.jobs[i]? = some j → holder ≠ some i → Clean key j) ∧
    (s.view key).Sound ∧
    (holder = none → (s.view key).Backed) ∧
    ∀ i ∈ holder, ∃ j v, s.jobs[i]? = some j ∧ Holds (s.view key) key j v

section Inv

variable {key : Key G} {s s' : Sched G} {i : Nat} {j j' : Job G}

variable {w : KeyView} {v : Int} {io : StoreIO G} {total : Int} {cap : Nat} {k : Key G}
  {fate : Fate} {kind : JobKind}

omit [DecidableEq G] in
theorem KeyView.Sound.first_or (h : w.Sound) : w.first.or w.last = w.first := by
  rcases h with ⟨hl, hf, -, -⟩ | ⟨b, f, m, -, hf, -, -⟩
  · rw [hl, hf]
    rfl
  · rw [hf]
    rfl

theorem view_noteFirst (s : Sched G) (key : Key G) : s.noteFirst.view key =
    { s.view key with first := (s.view key).first.or (s.view key).last } := rfl

theorem KeyInv.noteFirst (h : KeyInv key s) : KeyInv key s.noteFirst := by
  obtain ⟨holder, hothers, hsound, hbacked, hholder⟩ := h
  have hview : s.noteFirst.view key = s.view key := by
    rw [view_noteFirst, hsound.first_or]
  refine ⟨holder, hothers, ?_⟩
  rw [hview]
  exact ⟨hsound, hbacked, hholder⟩

theorem KeyInv.of_set (h : KeyInv key s) (hj : s.jobs[i]? = some j)
    (hjobs : s'.jobs = s.jobs.set i j') (hview : s'.view key = s.view key)
    (hclean : Clean key j → Clean key j')
    (hholds : ∀ v, Holds (s.view key) key j v →
      Holds (s.view key) key j' v ∨ (Clean key j' ∧ (s.view key).Backed)) :
    KeyInv key s' := by
  obtain ⟨holder, hothers, hsound, hbacked, hholder⟩ := h
  have hlt : i < s.jobs.length := (List.getElem?_eq_some_iff.mp hj).1
  have hself : s'.jobs[i]? = some j' := by rw [hjobs, List.getElem?_set_self hlt]
  have hrest : ∀ k, k ≠ i → s'.jobs[k]? = s.jobs[k]? := fun k hk => by
    rw [hjobs, List.getElem?_set_ne (Ne.symm hk)]
  -- whoever the holder is, the jobs other than `i` are what they were
  have hothers' : ∀ k x, s'.jobs[k]? = some x → holder ≠ some k → k ≠ i → Clean key x :=
    fun k x hx hne hk => hothers k x (hrest k hk ▸ hx) hne
  unfold KeyInv
  rw [hview]
  by_cases hi : holder = some i
  · obtain ⟨j₀, v, hj₀, hv⟩ := hholder i hi
    obtain rfl : j₀ = j := Option.some.inj (hj₀.symm.trans hj)
    rcases hholds v hv with hv' | ⟨hc, hb⟩
    · refine ⟨some i, fun k x hx hne => ?_, hsound, nofun, ?_⟩
      · exact hothers' k x hx (hi ▸ hne) fun hk => hne (hk ▸ rfl)
      · rintro k hk
        obtain rfl : i = k := Option.some.inj hk
        exact ⟨j', v, hself, hv'⟩
    · refine ⟨none, fun k x hx _ => ?_, hsound, fun _ => hb, nofun⟩
      by_cases hk : k = i
      · subst hk
        obtain rfl : j' = x := Option.some.inj (hself.symm.trans hx)
        exact hc
      · exact hothers' k x hx (fun hh => hk (Option.some.inj (hh.symm.trans hi))) hk
  · refine ⟨holder, fun k x hx hne => ?_, hsound, hbacked, fun k hk => ?_⟩
    · by_cases hki : k = i
      · subst hki
        obtain rfl : j' = x := Option.some.inj (hself.symm.trans hx)
        exact hclean (hothers k j hj hne)
      · exact hothers' k x hx hne hki
    · obtain ⟨x, v, hx, hv⟩ := hholder k hk
      have hki : k ≠ i := fun hki => hi (hki ▸ hk)
      exact ⟨x, v, (hrest k hki).trans hx, hv⟩

theorem KeyInv.of_append (h : KeyInv key s) (hjobs : s'.jobs = s.jobs ++ [j])
    (hview : s'.view key = s.view key) (hclean : Clean key j) : KeyInv key s' := by
  obtain ⟨holder, hothers, hsound, hbacked, hholder⟩ := h
  refine ⟨holder, fun k x hx hne => ?_, ?_⟩
  · rw [hjobs, List.getElem?_append] at hx
    split at hx
    · exact hothers k x hx hne
    · obtain rfl : x = j := List.mem_singleton.mp (List.mem_of_getElem? hx)
      exact hclean
  · rw [hview]
    refine ⟨hsound, hbacked, fun k hk => ?_⟩
    obtain ⟨x, v, hx, hv⟩ := hholder k hk
    have hlt : k < s.jobs.length := (List.getElem?_eq_some_iff.mp hx).1
    exact ⟨x, v, by rw [hjobs, List.getElem?_append_left hlt, hx], hv⟩

theorem clean_done (key : Key G) : Clean key (.done : Job G) := ⟨rfl, rfl⟩

theorem Holds.not_free (h : Holds w key j v) :
    ¬ ∀ e ∈ j.pending, e.1 ≠ key := by
  intro hfree
  have hnil := h.pending
  rw [onKey_eq_nil_iff.mpr hfree] at hnil
  cases hnil

theorem Holds.congr (h : Holds w key j v) (hpending : onKey key j'.pending = onKey key j.pending)
    (hdeltas : onKey key j'.deltas = onKey key j.deltas)
    (hout : j'.handedOut = false → j.handedOut = false) : Holds w key j' v where
  pending := hpending.trans h.pending
  latest := h.latest
  nonneg := posted_congr hdeltas ▸ h.nonneg
  first := posted_congr hdeltas ▸ h.first
  fresh := posted_congr hdeltas ▸ h.fresh
  backed := fun hj' => h.backed (hout hj')

theorem Holds.lose (h : Holds w key j v) (hpending : onKey key j'.pending = onKey key j.pending)
    (hdeltas : onKey key j'.deltas = []) (hout : j.handedOut = false) : Holds w key j' v where
  pending := hpending.trans h.pending
  latest := h.latest
  nonneg := (posted_eq_zero hdeltas).ge
  first := fun f hf => by
    have := h.first f hf
    have := h.nonneg
    rw [posted_eq_zero hdeltas]
    omega
  fresh := fun _ => posted_eq_zero hdeltas
  backed := fun _ => h.backed hout

theorem KeyInv.of_congr (h : KeyInv key s) (hj : s.jobs[i]? = some j)
    (hjobs : s'.jobs = s.jobs.set i j') (hview : s'.view key = s.view key)
    (hpending : onKey key j'.pending = onKey key j.pending)
    (hdeltas : onKey key j'.deltas = onKey key j.deltas)
    (hout : j'.handedOut = false → j.handedOut = false) : KeyInv key s' :=
  h.of_set hj hjobs hview (fun hc => ⟨hpending.trans hc.1, hdeltas.trans hc.2⟩)
    fun _ hv => .inl (hv.congr hpending hdeltas hout)

theorem KeyInv.drop (h : KeyInv key s) (hj : s.jobs[i]? = some j)
    (hsafe : j.handedOut = true → ∀ e ∈ j.pending, e.1 ≠ key) : KeyInv key (s.drop i) := by
  refine h.of_set hj rfl rfl (fun _ => clean_done key) fun v hv => .inr ⟨clean_done key, ?_⟩
  cases hout : j.handedOut with
  | false => exact hv.backed hout
  | true => exact absurd (hsafe hout) hv.not_free

def peekedView (cap : Nat) (s : Sched G) (io : StoreIO G) (key : Key G) (total : Int) :
    KeyView where
  last := (s.tracker.peekKey cap io key total).2.last key
  store := (s.tracker.peekKey cap io key total).2.store key
  first := ((s.first key).or (s.tracker.baseline io key)).or
    ((s.tracker.peekKey cap io key total).2.last key)
  latest := some total
  paid := posted key s.handed

structure Peeked (w : KeyView) (delta total : Int) : Prop where
  sound : w.Sound
  backed : w.Backed
  nonneg : 0 ≤ delta
  first : ∀ f ∈ w.first, w.paid + delta + f ≤ total
  fresh : w.first = none → delta = 0

theorem baseline_backed {total b : Int} (hsound : (s.view key).Sound)
    (hbacked : (s.view key).Backed) (hgrow : ∀ m ∈ s.latest key, m ≤ total)
    (hb : s.tracker.baseline io key = some b) :
    ∃ f, (s.first key).or (some b) = some f ∧ posted key s.handed + f ≤ b ∧ b ≤ total := by
  rcases hsound with ⟨hl, hf, hp, hst⟩ | ⟨b', f, m, hl, hf, hm, hle⟩
  · -- nothing was recorded: the baseline is adopted from Redis
    dsimp only [view] at hl hf hp hst
    rw [CumulativeByteTracker.baseline, hl, Option.none_or] at hb
    have hstore : b ∈ s.tracker.store key := by
      split at hb
      · exact hb
      · cases hb
    obtain ⟨m, hm, hle⟩ := hst b hstore
    exact ⟨b, by rw [hf]; rfl, by omega, hle.trans (hgrow m hm)⟩
  · have hpaid := hbacked b' hl f hf
    dsimp only [view] at hl hf hm hpaid
    rw [CumulativeByteTracker.baseline, hl, Option.some_or, Option.some_inj] at hb
    subst hb
    exact ⟨f, by rw [hf]; rfl, hpaid, hle.trans (hgrow m hm)⟩

theorem peeked_peekedView (cap : Nat) (io : StoreIO G) (hsound : (s.view key).Sound)
    (hbacked : (s.view key).Backed) (hgrow : ∀ m ∈ s.latest key, m ≤ total) :
    Peeked (s.peekedView cap io key total)
      ((s.tracker.peekKey cap io key total).1.getD 0) total := by
  cases hb : s.tracker.baseline io key with
  | none =>
    obtain ⟨hnone, hlast, hstore⟩ := CumulativeByteTracker.peekKey_of_none cap total hb
    have hl : s.tracker.last key = none := (Option.or_eq_none_iff.mp hb).1
    rcases hsound with ⟨-, hf, hp, hst⟩ | ⟨b, f, m, hl', -⟩
    · dsimp only [view] at hf hp hst
      have hfirst : (s.peekedView cap io key total).first = none := by
        rw [peekedView, hb, hlast, hf]
        rfl
      rw [hnone, Option.getD_none]
      refine ⟨.inl ⟨hlast, hfirst, hp, ?_⟩, ?_, Int.le_refl 0, ?_, fun _ => rfl⟩
      · intro v hv
        dsimp only [peekedView] at hv
        rw [hstore] at hv
        obtain ⟨m, hm, hle⟩ := hst v hv
        exact ⟨total, rfl, hle.trans (hgrow m hm)⟩
      · intro b hb
        cases hlast.symm.trans hb
      · intro f hf
        cases hfirst.symm.trans hf
    · cases hl.symm.trans hl'
  | some b =>
    obtain ⟨f, hf, hpaid, hle⟩ := baseline_backed hsound hbacked hgrow hb
    have hfirst : (s.peekedView cap io key total).first = some f := by
      rw [peekedView, hb, hf]
      rfl
    -- whatever the cap decides, the new baseline backs what was handed out
    have hspec : ∀ b', (s.peekedView cap io key total).last = some b' → b ≤ b' →
        b' ≤ total → ∀ delta, 0 ≤ delta → b + delta ≤ total →
        Peeked (s.peekedView cap io key total) delta total := by
      intro b' hlast hbb' hb' delta hnonneg hdelta
      refine ⟨.inr ⟨b', f, total, hlast, hfirst, rfl, hb'⟩, ?_, hnonneg, ?_, ?_⟩
      · intro b₁ hb₁ f₁ hf₁
        obtain rfl : b' = b₁ := Option.some.inj (hlast.symm.trans hb₁)
        obtain rfl : f = f₁ := Option.some.inj (hfirst.symm.trans hf₁)
        exact hpaid.trans hbb'
      · intro f₁ hf₁
        obtain rfl : f = f₁ := Option.some.inj (hfirst.symm.trans hf₁)
        dsimp only [peekedView]
        omega
      · intro hnone
        cases hfirst.symm.trans hnone
    by_cases hcap : cap = 0 ∨ total - b ≤ cap
    · obtain ⟨hdelta, hlast⟩ := CumulativeByteTracker.peekKey_plausible hb hle hcap
      rw [hdelta]
      exact hspec b hlast (Int.le_refl b) hle (total - b) (by omega) (by omega)
    · obtain ⟨hpos, hlt⟩ : cap ≠ 0 ∧ (cap : Int) < total - b := by omega
      obtain ⟨hnone, hlast⟩ := CumulativeByteTracker.peekKey_implausible hb hpos hlt
      rw [hnone, Option.getD_none]
      exact hspec total hlast hle (Int.le_refl total) 0 (Int.le_refl 0) (by omega)

theorem move_peek (h : s.move cap (.peek i io k total fate) = some s') :
    s'.tracker = (s.tracker.peekKey cap io k total).2 ∧
      s'.first = Function.update s.first k ((s.first k).or (s.tracker.baseline io k)) ∧
      s'.latest = Function.update s.latest k (some total) ∧
      s'.handed = s.handed ∧
      ((∃ kind ds ps, s.jobs[i]? = some (.collecting kind ds ps) ∧
        s'.jobs = s.jobs.set i (afterPeek kind ds ps k total
          (s.tracker.peekKey cap io k total).1 fate)) ∨
      (fate = .dropped ∧ s'.jobs = s.jobs)) := by
  dsimp only [move] at h
  split at h
  · rename_i hj
    obtain rfl := Option.some.inj h
    exact ⟨rfl, rfl, rfl, rfl, .inl ⟨_, _, _, hj, rfl⟩⟩
  · obtain rfl := Option.some.inj h
    exact ⟨rfl, rfl, rfl, rfl, .inr ⟨rfl, rfl⟩⟩
  · cases h

theorem KeyInv.quiet (h : KeyInv key s) (hfree : ∀ j ∈ s.jobs, ∀ e ∈ j.pending, e.1 ≠ key) :
    (∀ j ∈ s.jobs, Clean key j) ∧ (s.view key).Sound ∧ (s.view key).Backed := by
  obtain ⟨holder, hothers, hsound, hbacked, hholder⟩ := h
  cases hh : holder with
  | none =>
    refine ⟨fun j hj => ?_, hsound, hbacked hh⟩
    obtain ⟨i, hi⟩ := List.mem_iff_getElem?.mp hj
    exact hothers i j hi (by rw [hh]; nofun)
  | some i =>
    obtain ⟨j, v, hj, hv⟩ := hholder i hh
    exact absurd (hfree j (List.mem_of_getElem? hj)) hv.not_free

theorem KeyInv.of_quiet (hclean : ∀ j ∈ s.jobs, Clean key j)
    (hsound : (s.view key).Sound) (hbacked : (s.view key).Backed) : KeyInv key s :=
  ⟨none, fun _ j hj _ => hclean j (List.mem_of_getElem? hj), hsound, fun _ => hbacked, nofun⟩

theorem KeyInv.of_holds (hclean : ∀ (k : Nat) x, s.jobs[k]? = some x → k ≠ i → Clean key x)
    (hsound : (s.view key).Sound) (hj : s.jobs[i]? = some j)
    (hholds : Holds (s.view key) key j v) : KeyInv key s := by
  refine ⟨some i, fun k x hx hne => hclean k x hx fun hk => hne (hk ▸ rfl), hsound, nofun, ?_⟩
  rintro k hk
  obtain rfl : i = k := Option.some.inj hk
  exact ⟨j, v, hj, hholds⟩

theorem posted_delta (key : Key G) (delta : Option Int) :
    posted key (delta.map (key, ·)).toList = delta.getD 0 := by
  cases delta with
  | none => rfl
  | some d => simp [posted_cons]

theorem holds_of_peeked {ds ds' ps : List (Key G × Int)} {delta total : Int}
    (hclean : Clean key (.collecting kind ds ps)) (hpeek : Peeked w delta total)
    (hlatest : w.latest = some total) (hds : posted key ds' = delta ∨ posted key ds' = 0) :
    Holds w key (.collecting kind ds' (ps ++ [(key, total)])) total where
  pending := by
    change onKey key (ps ++ [(key, total)]) = _
    rw [onKey_append, show onKey key ps = [] from hclean.1, onKey_cons, if_pos rfl]
    rfl
  latest := ⟨total, hlatest, Int.le_refl total⟩
  nonneg := by
    have := hpeek.nonneg
    change 0 ≤ posted key ds'
    omega
  first := fun f hf => by
    have := hpeek.first f hf
    have := hpeek.nonneg
    change w.paid + posted key ds' + f ≤ total
    omega
  fresh := fun hnone => hds.elim (fun h => h.trans (hpeek.fresh hnone)) id
  backed := fun _ => hpeek.backed

theorem KeyInv.peek (h : KeyInv key s) (hfree : ∀ j ∈ s.jobs, ∀ e ∈ j.pending, e.1 ≠ key)
    (hgrow : ∀ m ∈ s.latest key, m ≤ total)
    (hmove : s.move cap (.peek i io key total fate) = some s') : KeyInv key s'.noteFirst := by
  obtain ⟨hclean, hsound, hbacked⟩ := h.quiet hfree
  have hpeek := peeked_peekedView cap io hsound hbacked hgrow
  obtain ⟨htracker, hfirst, hlatest, hhanded, hjobs⟩ := move_peek hmove
  have hview : s'.noteFirst.view key = s.peekedView cap io key total := by
    rw [view_noteFirst, view, htracker, hfirst, hlatest, hhanded, Function.update_self,
      Function.update_self]
    rfl
  have hsame : s'.noteFirst.jobs = s'.jobs := rfl
  rcases hjobs with ⟨kind, ds, ps, hj, hjobs⟩ | ⟨-, hjobs⟩
  · have hlt : i < s.jobs.length := (List.getElem?_eq_some_iff.mp hj).1
    have hcj := hclean _ (List.mem_of_getElem? hj)
    have hself : s'.noteFirst.jobs[i]? = some (afterPeek kind ds ps key total
        (s.tracker.peekKey cap io key total).1 fate) := by
      rw [hsame, hjobs, List.getElem?_set_self hlt]
    have hothers : ∀ (k : Nat) x, s'.noteFirst.jobs[k]? = some x → k ≠ i → Clean key x := by
      intro k x hx hk
      rw [hsame, hjobs, List.getElem?_set_ne (Ne.symm hk)] at hx
      exact hclean x (List.mem_of_getElem? hx)
    have hzero : posted key ds = 0 := posted_eq_zero hcj.2
    rw [← hview] at hpeek
    have hlatest' : (s'.noteFirst.view key).latest = some total := by rw [hview]; rfl
    cases fate with
    | kept =>
      refine .of_holds hothers hpeek.sound hself (holds_of_peeked hcj hpeek hlatest' (.inl ?_))
      rw [posted_append, hzero, zero_add, posted_delta]
    | late =>
      exact .of_holds hothers hpeek.sound hself
        (holds_of_peeked hcj hpeek hlatest' (.inr hzero))
    | dropped =>
      refine .of_quiet (fun x hx => ?_) hpeek.sound hpeek.backed
      rw [hsame, hjobs] at hx
      rcases List.mem_or_eq_of_mem_set hx with hx | rfl
      · exact hclean x hx
      · exact hcj
  · rw [← hview] at hpeek
    exact .of_quiet (fun x hx => hclean x (hjobs ▸ hx)) hpeek.sound hpeek.backed

theorem onKey_afterPeek (kind : JobKind) (ds ps : List (Key G × Int)) (total : Int)
    (delta : Option Int) (fate : Fate) (hne : key ≠ k) :
    onKey key (afterPeek kind ds ps k total delta fate).pending = onKey key ps ∧
      onKey key (afterPeek kind ds ps k total delta fate).deltas = onKey key ds := by
  have hps : onKey key (ps ++ [(k, total)]) = onKey key ps := by
    rw [onKey_append, onKey_cons, if_neg hne.symm, onKey_nil, List.append_nil]
  have hds : onKey key (ds ++ (delta.map (k, ·)).toList) = onKey key ds := by
    rw [onKey_append]
    cases delta with
    | none => exact List.append_nil _
    | some d =>
      change onKey key ds ++ onKey key [(k, d)] = onKey key ds
      rw [onKey_cons, if_neg hne.symm, onKey_nil, List.append_nil]
  cases fate with
  | kept => exact ⟨hps, hds⟩
  | late => exact ⟨hps, rfl⟩
  | dropped => exact ⟨rfl, rfl⟩

theorem KeyInv.peek_ne (h : KeyInv key s) (hne : key ≠ k)
    (hmove : s.move cap (.peek i io k total fate) = some s') : KeyInv key s' := by
  obtain ⟨htracker, hfirst, hlatest, hhanded, hjobs⟩ := move_peek hmove
  have hview : s'.view key = s.view key := by
    rw [view, htracker, hfirst, hlatest, hhanded, Function.update_of_ne hne,
      Function.update_of_ne hne, CumulativeByteTracker.peekKey_last_ne hne,
      CumulativeByteTracker.peekKey_store_ne hne]
    rfl
  rcases hjobs with ⟨kind, ds, ps, hj, hjobs⟩ | ⟨-, hjobs⟩
  · obtain ⟨hps, hds⟩ := onKey_afterPeek kind ds ps total
      (s.tracker.peekKey cap io k total).1 fate hne
    exact h.of_congr hj hjobs hview hps hds fun _ => rfl
  · obtain ⟨holder, hothers, hrest⟩ := h
    refine ⟨holder, fun k x hx => hothers k x (hjobs ▸ hx), ?_⟩
    rw [hview, hjobs]
    exact hrest

theorem KeyInv.hand {ds ps : List (Key G × Int)} (h : KeyInv key s)
    (hj : s.jobs[i]? = some (.billing kind ds ps))
    (hjobs : s'.jobs = s.jobs.set i (.recording kind ps))
    (hview : s'.view key = { s.view key with paid := (s.view key).paid + posted key ds }) :
    KeyInv key s' := by
  obtain ⟨holder, hothers, hsound, hbacked, hholder⟩ := h
  by_cases hi : holder = some i
  · obtain ⟨j₀, v, hj₀, hv⟩ := hholder i hi
    obtain rfl := Option.some.inj (hj₀.symm.trans hj)
    have hlt : i < s.jobs.length := (List.getElem?_eq_some_iff.mp hj).1
    refine .of_holds (i := i) (j := .recording kind ps) (v := v) (fun k x hx hk => ?_) ?_ ?_ ?_
    · rw [hjobs, List.getElem?_set_ne (Ne.symm hk)] at hx
      exact hothers k x hx fun hh => hk (Option.some.inj (hh.symm.trans hi))
    · rw [hview]
      rcases hsound with ⟨hl, hf, hp, hst⟩ | hsound
      · refine .inl ⟨hl, hf, ?_, hst⟩
        change (s.view key).paid + posted key ds = 0
        rw [hp, show posted key ds = 0 from hv.fresh hf, add_zero]
      · exact .inr hsound
    · rw [hjobs, List.getElem?_set_self hlt]
    · rw [hview]
      refine ⟨hv.pending, hv.latest, Int.le_refl 0, fun f hf => ?_, fun _ => rfl, nofun⟩
      have hle := hv.first f hf
      change (s.view key).paid + posted key ds + 0 + f ≤ v
      change (s.view key).paid + posted key ds + f ≤ v at hle
      omega
  · have hc := hothers i _ hj hi
    have hsame : s'.view key = s.view key := by
      rw [hview, posted_eq_zero (show onKey key ds = [] from hc.2), add_zero]
    refine KeyInv.of_set ⟨holder, hothers, hsound, hbacked, hholder⟩ hj hjobs hsame
      (fun hc => ⟨hc.1, rfl⟩) fun v hv => ?_
    exact absurd (onKey_eq_nil_iff.mp hc.1) hv.not_free

theorem KeyInv.commit (io : StoreIO G) {ps : List (Key G × Int)}
    (h : KeyInv key s) (hj : s.jobs[i]? = some (.committing kind ((key, v) :: ps)))
    (hjobs : s'.jobs = s.jobs.set i (.committing kind ps))
    (hview : s'.view key =
      { s.view key with
        last := some v
        store := (s.tracker.saveLast io key v).store key }) :
    KeyInv key s'.noteFirst := by
  obtain ⟨holder, hothers, hsound, hbacked, hholder⟩ := h
  have hi : holder = some i := by
    by_contra hne
    have hc := (hothers i _ hj hne).1
    rw [Job.pending, onKey_cons, if_pos rfl] at hc
    cases hc
  obtain ⟨j₀, v₀, hj₀, hv⟩ := hholder i hi
  obtain rfl := Option.some.inj (hj₀.symm.trans hj)
  have hpending := hv.pending
  rw [Job.pending, onKey_cons, if_pos rfl] at hpending
  obtain ⟨hv₀, hnil⟩ := List.cons.inj hpending
  obtain rfl : v = v₀ := congrArg Prod.snd hv₀
  obtain ⟨m, hm, hle⟩ := hv.latest
  -- a key without a first baseline gets this one, and nothing was billed before
  obtain ⟨f, hf, hpaid⟩ : ∃ f, (s.view key).first.or (some v) = some f ∧
      (s.view key).paid + f ≤ v := by
    rcases hsound with ⟨-, hf, hp, -⟩ | ⟨b, f, -, -, hf, -, -⟩
    · exact ⟨v, by rw [hf]; rfl, by omega⟩
    · have hle := hv.first f hf
      change (s.view key).paid + 0 + f ≤ v at hle
      exact ⟨f, by rw [hf]; rfl, by omega⟩
  have hview' : s'.noteFirst.view key =
      { s.view key with
        last := some v
        store := (s.tracker.saveLast io key v).store key
        first := some f } := by
    rw [view_noteFirst, hview, ← hf]
  refine .of_quiet (fun x hx => ?_) ?_ ?_
  · obtain ⟨k, hk⟩ := List.mem_iff_getElem?.mp hx
    change s'.jobs[k]? = some x at hk
    by_cases hki : k = i
    · subst hki
      rw [hjobs, List.getElem?_set_self (List.getElem?_eq_some_iff.mp hj).1] at hk
      obtain rfl := Option.some.inj hk
      exact ⟨hnil, rfl⟩
    · rw [hjobs, List.getElem?_set_ne (Ne.symm hki)] at hk
      exact hothers k x hk fun hh => hki (Option.some.inj (hh.symm.trans hi))
  · rw [hview']
    exact .inr ⟨v, f, m, rfl, rfl, hm, hle⟩
  · rw [hview']
    rintro b hb f' hf'
    obtain rfl : v = b := Option.some.inj hb
    obtain rfl : f = f' := Option.some.inj hf'
    exact hpaid

theorem KeyInv.step {a : Act G} (h : KeyInv key s) (hgrow : ReadingGrows cap key s a)
    (hover : NoOverlap key s a) (hstep : s.step cap a = some s') : KeyInv key s' := by
  obtain ⟨s₁, hmove, rfl⟩ := Option.map_eq_some_iff.mp hstep
  cases a with
  | start kind =>
    cases kind with
    | tick =>
      dsimp only [move] at hmove
      split at hmove
      · obtain rfl := Option.some.inj hmove
        exact .noteFirst (h.of_append rfl rfl ⟨rfl, rfl⟩)
      · cases hmove
    | flush =>
      obtain rfl := Option.some.inj hmove
      exact .noteFirst (h.of_append rfl rfl ⟨rfl, rfl⟩)
  | peek i io k total fate =>
    by_cases hk : k = key
    · subst hk
      exact h.peek (hover rfl) (fun m hm => (hgrow rfl m hm).1) hmove
    · exact (h.peek_ne (Ne.symm hk) hmove).noteFirst
  | release i raised =>
    dsimp only [move] at hmove
    split at hmove
    · rename_i ds ps hj
      obtain rfl := Option.some.inj hmove
      cases raised with
      | true =>
        exact .noteFirst (h.of_set hj rfl rfl (fun hc => ⟨hc.1, rfl⟩)
          fun v hv => .inl (hv.lose rfl rfl rfl))
      | false => exact .noteFirst (h.of_congr hj rfl rfl rfl rfl fun _ => rfl)
    · rename_i ds ps hj
      split at hmove
      · obtain rfl := Option.some.inj hmove
        exact .noteFirst (h.drop hj (by simp [Job.handedOut]))
      · obtain rfl := Option.some.inj hmove
        exact .noteFirst (h.of_congr hj rfl rfl rfl rfl fun _ => rfl)
    · cases hmove
  | bill i =>
    dsimp only [move] at hmove
    split at hmove
    · rename_i ds ps hj
      split at hmove
      · obtain rfl := Option.some.inj hmove
        exact .noteFirst (h.of_congr hj rfl rfl rfl rfl fun _ => rfl)
      · cases hmove
    · cases hmove
  | hand i =>
    dsimp only [move] at hmove
    split at hmove
    · rename_i kind ds ps hj
      obtain rfl := Option.some.inj hmove
      refine .noteFirst (h.hand hj rfl ?_)
      simp only [view, posted_append]
    · cases hmove
  | recorded i =>
    dsimp only [move] at hmove
    split at hmove
    · rename_i kind ps hj
      obtain rfl := Option.some.inj hmove
      exact .noteFirst (h.of_congr hj rfl rfl rfl rfl (by simp [Job.handedOut]))
    · cases hmove
  | commit i io =>
    dsimp only [move] at hmove
    split at hmove
    · rename_i kind e ps hj
      obtain ⟨k, v⟩ := e
      obtain rfl := Option.some.inj hmove
      by_cases hk : k = key
      · subst hk
        refine h.commit io hj rfl ?_
        simp only [view, CumulativeByteTracker.saveLast_last_self]
      · refine .noteFirst (h.of_congr hj rfl ?_ ?_ rfl (by simp [Job.handedOut]))
        · simp only [view, CumulativeByteTracker.saveLast_last_ne (Ne.symm hk),
            CumulativeByteTracker.saveLast_store_ne (Ne.symm hk)]
        · rw [Job.pending, Job.pending, onKey_cons, if_neg hk]
    · rename_i kind hj
      obtain rfl := Option.some.inj hmove
      exact .noteFirst (h.drop hj (by simp [Job.pending]))
    · cases hmove
  | fail i =>
    have hsafe := hover
    dsimp only [move] at hmove
    split at hmove
    · rename_i hj
      obtain rfl := Option.some.inj hmove
      exact .noteFirst (h.drop hj (hsafe _ hj))
    · rename_i hj
      obtain rfl := Option.some.inj hmove
      exact .noteFirst (h.drop hj (hsafe _ hj))
    · rename_i hj
      obtain rfl := Option.some.inj hmove
      exact .noteFirst (h.drop hj (hsafe _ hj))
    · cases hmove

theorem keyInv_init (t₀ : CumulativeByteTracker G) (key : Key G) : KeyInv key (init t₀) := by
  refine .of_quiet nofun ?_ ?_
  · cases hl : t₀.last key with
    | none =>
      refine .inl ⟨hl, hl, rfl, fun v hv => ⟨v, ?_, Int.le_refl v⟩⟩
      change (t₀.last key).or (t₀.store key) = some v
      rw [hl]
      exact hv
    | some b =>
      refine .inr ⟨b, b, b, hl, hl, ?_, Int.le_refl b⟩
      change (t₀.last key).or (t₀.store key) = some b
      rw [hl]
      rfl
  · intro b hb f hf
    obtain rfl : b = f := Option.some.inj (hb.symm.trans hf)
    exact (zero_add b).le

theorem KeyInv.billedOnce (h : KeyInv key s) : BilledOnce key s := by
  obtain ⟨holder, -, hsound, hbacked, hholder⟩ := h
  unfold BilledOnce
  rcases hsound with ⟨-, hf, hp, -⟩ | ⟨b, f, m, hl, hf, hm, hle⟩
  · rw [show s.first key = none from hf]
    exact hp
  · rw [show s.first key = some f from hf, show s.latest key = some m from hm]
    change (s.view key).paid ≤ m - f
    cases hh : holder with
    | none =>
      have hpaid := hbacked hh b hl f hf
      omega
    | some i =>
      obtain ⟨j, v, -, hv⟩ := hholder i hh
      obtain ⟨m', hm', hvm⟩ := hv.latest
      obtain rfl : m = m' := Option.some.inj (hm.symm.trans hm')
      have hpaid := hv.first f hf
      have hnonneg := hv.nonneg
      omega

end Inv

/-- **Every byte is billed at most once**, if no peek overlaps and no job fails in between. -/
theorem handed_le_growth (cap : Nat) (key : Key G) (t₀ : CumulativeByteTracker G) (s : Sched G)
    (hrun : Lib.Run (step cap) (fun s a => ReadingGrows cap key s a ∧ NoOverlap key s a)
      (init t₀) s) :
    BilledOnce key s := by
  have hinv : KeyInv key s :=
    Lib.Run.invariant (KeyInv key) (keyInv_init t₀ key)
      (fun h hok hs => h.step hok.1 hok.2 hs) hrun
  exact hinv.billedOnce

def redisDown : StoreIO Int := ⟨fun _ => false, fun _ => false⟩

def collect (i : Nat) (total : Int) : List (Act Int) :=
  [.start .tick, .peek i redisDown (1, "7") total .kept, .release i false]

def billAndCommit (i : Nat) : List (Act Int) :=
  [.bill i, .hand i, .recorded i, .commit i redisDown, .commit i redisDown]

/-- Two ticks collect 100 and 150 bytes before the first has billed; both are billed. -/
theorem overlapping_ticks_bill_twice :
    ∃ s, Lib.Run (step 104857600) (fun s a => ReadingGrows 104857600 ((1 : Int), "7") s a)
        (init ⟨fun _ => some 0, fun _ => none⟩) s ∧
      s.first (1, "7") = some 0 ∧ s.latest (1, "7") = some 150 ∧
      posted (1, "7") s.handed = 250 := by
  refine ⟨_, Lib.Run.of_execGuarded
    (collect 0 100 ++ collect 1 150 ++ billAndCommit 0 ++ billAndCommit 1) rfl, ?_⟩
  decide

theorem sequential_ticks_bill_once :
    ∃ s : Sched Int, posted (1, "7") s.handed = 150 ∧ BilledOnce (1, "7") s := by
  refine ⟨_, ?_, handed_le_growth 104857600 (1, "7") ⟨fun _ => some 0, fun _ => none⟩ _
    (Lib.Run.of_execGuarded
      (collect 0 100 ++ billAndCommit 0 ++ collect 1 150 ++ billAndCommit 1) rfl)⟩
  decide

end Sched

end Shahkar.Usage
