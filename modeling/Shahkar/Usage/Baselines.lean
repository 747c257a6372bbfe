import Mathlib.Algebra.Order.Ring.Int
import Shahkar.Lib.Dict

/-!
The deferred cumulative→delta baselines of `app/usage_baselines.py`. `peekDeltas` computes the
deltas against the recorded baselines, and `commitPending` advances the baselines once the deltas
are billed.
-/

namespace Shahkar.Usage

open Shahkar.Lib

abbrev Key (G : Type) := G × String

/-- Which Redis calls get through: a failed, missing or expired `get` answers `None`, a failed `set`
is logged and ignored. -/
structure StoreIO (G : Type) where
  get : Key G → Bool
  set : Key G → Bool

/-- `CumulativeByteTracker`: the in-memory baselines `_last`, and what Redis holds. -/
structure CumulativeByteTracker (G : Type) where
  last : Key G → Option Int
  store : Key G → Option Int

structure Counters where
  rx : Int
  tx : Int
  deriving Repr, DecidableEq

def Counters.total (c : Counters) : Int := c.rx + c.tx

abbrev Transfer := Dict String (Option Counters)

namespace CumulativeByteTracker

variable {G : Type} [DecidableEq G]

def loadLast (t : CumulativeByteTracker G) (io : StoreIO G) (key : Key G) :
    Option Int × CumulativeByteTracker G :=
  match t.last key with
  | some cached => (some cached, t)
  | none =>
    match if io.get key then t.store key else none with
    | none => (none, t)
    | some val => (some val, { t with last := Function.update t.last key (some val) })

def saveLast (t : CumulativeByteTracker G) (io : StoreIO G) (key : Key G) (total : Int) :
    CumulativeByteTracker G where
  last := Function.update t.last key (some total)
  store := if io.set key then Function.update t.store key (some total) else t.store

def peekKey (cap : Nat) (t : CumulativeByteTracker G) (io : StoreIO G) (key : Key G)
    (total : Int) : Option Int × CumulativeByteTracker G :=
  match t.loadLast io key with
  | (none, t) => (none, t)
  | (some last, t) =>
    -- Counter reset: the current reading is the interval delta.
    let delta := if total < last then total else total - last
    if delta ≤ 0 then (none, t)
    else if cap ≠ 0 ∧ (cap : Int) < delta then
      -- Implausible jump: resync the baseline immediately and bill nothing.
      (none, t.saveLast io key total)
    else (some delta, t)

structure Peek (G : Type) where
  out : List (String × Int)
  newLast : List (Key G × Int)
  tracker : CumulativeByteTracker G

def peekOne (cap : Nat) (io : StoreIO G) (group : G) (p : Peek G)
    (entry : String × Option Counters) : Peek G :=
  match entry.2 with
  | none => p
  | some counters =>
    let key := (group, entry.1)
    let r := p.tracker.peekKey cap io key counters.total
    { out := match r.1 with
        | none => p.out
        | some delta => p.out ++ [(entry.1, delta)]
      -- The pending baseline is recorded even when nothing is billed.
      newLast := p.newLast ++ [(key, counters.total)]
      tracker := r.2 }

def peekDeltas (cap : Nat) (t : CumulativeByteTracker G) (io : StoreIO G) (group : G)
    (transfer : Transfer) : Peek G :=
  transfer.entries.foldl (peekOne cap io group) { out := [], newLast := [], tracker := t }

def commitPending (t : CumulativeByteTracker G) (io : StoreIO G)
    (newLast : List (Key G × Int)) : CumulativeByteTracker G :=
  newLast.foldl (fun t e => t.saveLast io e.1 e.2) t

def baseline (t : CumulativeByteTracker G) (io : StoreIO G) (key : Key G) : Option Int :=
  (t.last key).or (if io.get key then t.store key else none)

variable {cap : Nat} {t : CumulativeByteTracker G} {io : StoreIO G} {key : Key G} {total : Int}
  {group : G} {transfer : Transfer} {name : String} {c : Counters}

@[simp] theorem saveLast_last_self (t : CumulativeByteTracker G) (io : StoreIO G)
    (key : Key G) (total : Int) : (t.saveLast io key total).last key = some total := by
  simp [saveLast]

variable {key' : Key G} {b : Int} {newLast : List (Key G × Int)}

@[simp] theorem saveLast_last_ne (h : key' ≠ key) :
    (t.saveLast io key total).last key' = t.last key' := by
  simp [saveLast, h]

@[simp] theorem saveLast_store_ne (h : key' ≠ key) :
    (t.saveLast io key total).store key' = t.store key' := by
  unfold saveLast
  split <;> simp [h]

theorem loadLast_fst (t : CumulativeByteTracker G) (io : StoreIO G) (key : Key G) :
    (t.loadLast io key).1 = t.baseline io key := by
  unfold loadLast baseline
  cases hlast : t.last key with
  | some cached => rfl
  | none =>
    cases hstore : (if io.get key then t.store key else none) with
    | none => rfl
    | some val => rfl

theorem loadLast_last_self (t : CumulativeByteTracker G) (io : StoreIO G) (key : Key G) :
    (t.loadLast io key).2.last key = t.baseline io key := by
  unfold loadLast baseline
  cases hlast : t.last key with
  | some cached => exact hlast
  | none =>
    cases hstore : (if io.get key then t.store key else none) with
    | none => exact hlast
    | some val => simp

theorem loadLast_last_ne (h : key' ≠ key) : (t.loadLast io key).2.last key' = t.last key' := by
  unfold loadLast
  cases t.last key with
  | some cached => rfl
  | none =>
    cases (if io.get key then t.store key else none) with
    | none => rfl
    | some val => simp [h]

@[simp] theorem loadLast_store (t : CumulativeByteTracker G) (io : StoreIO G) (key : Key G) :
    (t.loadLast io key).2.store = t.store := by
  unfold loadLast
  cases t.last key with
  | some cached => rfl
  | none =>
    cases (if io.get key then t.store key else none) with
    | none => rfl
    | some val => rfl

theorem peekKey_keeps {α : Type*} (f : CumulativeByteTracker G → α)
    (hload : f (t.loadLast io key).2 = f t)
    (hsave : ∀ (t' : CumulativeByteTracker G) v, f (t'.saveLast io key v) = f t') :
    f (t.peekKey cap io key total).2 = f t := by
  unfold peekKey
  generalize t.loadLast io key = r at hload ⊢
  rcases r with ⟨_ | last, t'⟩
  · exact hload
  · dsimp only at hload ⊢
    generalize (if total < last then total else total - last) = delta
    split_ifs
    · exact hload
    · exact (hsave _ _).trans hload
    · exact hload

theorem peekKey_last_ne (h : key' ≠ key) : (t.peekKey cap io key total).2.last key' = t.last key' :=
  peekKey_keeps (·.last key') (loadLast_last_ne h) fun _ _ => saveLast_last_ne h

theorem peekKey_store_ne (h : key' ≠ key) :
    (t.peekKey cap io key total).2.store key' = t.store key' :=
  peekKey_keeps (·.store key') (congrFun (loadLast_store t io key) key')
    fun _ _ => saveLast_store_ne h

theorem peekKey_of_none (cap : Nat) (total : Int) (h : t.baseline io key = none) :
    (t.peekKey cap io key total).1 = none ∧
      (t.peekKey cap io key total).2.last key = none ∧
      (t.peekKey cap io key total).2.store = t.store := by
  have hfst := loadLast_fst t io key
  have hlast := loadLast_last_self t io key
  have hstore := loadLast_store t io key
  unfold peekKey
  generalize t.loadLast io key = r at hfst hlast hstore ⊢
  rcases r with ⟨_ | last, t'⟩
  · exact ⟨rfl, hlast.trans h, hstore⟩
  · rw [h] at hfst
    cases hfst

theorem peekKey_of_le (hb : t.baseline io key = some b) (hle : b ≤ total) :
    t.peekKey cap io key total =
      if total - b ≤ 0 then (none, (t.loadLast io key).2)
      else if cap ≠ 0 ∧ (cap : Int) < total - b then
        (none, (t.loadLast io key).2.saveLast io key total)
      else (some (total - b), (t.loadLast io key).2) := by
  have hfst := loadLast_fst t io key
  unfold peekKey
  generalize t.loadLast io key = r at hfst ⊢
  rcases r with ⟨_ | last, t'⟩
  · rw [hb] at hfst
    cases hfst
  · obtain rfl : last = b := Option.some.inj (hfst.trans hb)
    have hnot : ¬ total < last := Int.not_lt.mpr hle
    simp only [if_neg hnot]

theorem peekKey_plausible (hb : t.baseline io key = some b) (hle : b ≤ total)
    (hcap : cap = 0 ∨ total - b ≤ cap) :
    ((t.peekKey cap io key total).1).getD 0 = total - b ∧
      (t.peekKey cap io key total).2.last key = some b := by
  have hlast := (loadLast_last_self t io key).trans hb
  rw [peekKey_of_le hb hle]
  by_cases hzero : total - b ≤ 0
  · rw [if_pos hzero]
    exact ⟨by rw [Option.getD_none]; omega, hlast⟩
  · rw [if_neg hzero, if_neg (by omega)]
    exact ⟨rfl, hlast⟩

theorem peekKey_implausible (hb : t.baseline io key = some b) (hcap : cap ≠ 0)
    (hlt : (cap : Int) < total - b) :
    (t.peekKey cap io key total).1 = none ∧
      (t.peekKey cap io key total).2.last key = some total := by
  rw [peekKey_of_le hb (by omega), if_neg (by omega), if_pos ⟨hcap, hlt⟩]
  exact ⟨rfl, saveLast_last_self _ _ _ _⟩

theorem peekKey_congr (cap : Nat) {t t' : CumulativeByteTracker G} (io : StoreIO G) (total : Int)
    (hlast : t.last key = t'.last key) (hstore : t.store key = t'.store key) :
    (t.peekKey cap io key total).1 = (t'.peekKey cap io key total).1 ∧
      (t.peekKey cap io key total).2.last key = (t'.peekKey cap io key total).2.last key ∧
      (t.peekKey cap io key total).2.store key = (t'.peekKey cap io key total).2.store key := by
  have hbase : t.baseline io key = t'.baseline io key := by
    unfold baseline
    rw [hlast, hstore]
  have h₁ := loadLast_fst t io key
  have h₂ := loadLast_fst t' io key
  have h₃ := loadLast_last_self t io key
  have h₄ := loadLast_last_self t' io key
  have h₅ := congrFun (loadLast_store t io key) key
  have h₆ := congrFun (loadLast_store t' io key) key
  unfold peekKey
  generalize t.loadLast io key = r at h₁ h₃ h₅ ⊢
  generalize t'.loadLast io key = r' at h₂ h₄ h₆ ⊢
  rcases r with ⟨b, u⟩
  rcases r' with ⟨b', u'⟩
  obtain rfl : b = b' := h₁.trans (hbase.trans h₂.symm)
  have hu : u.last key = u'.last key := h₃.trans (hbase.trans h₄.symm)
  have hus : u.store key = u'.store key := h₅.trans (hstore.trans h₆.symm)
  cases b with
  | none => exact ⟨rfl, hu, hus⟩
  | some last =>
    dsimp only
    generalize (if total < last then total else total - last) = delta
    split_ifs
    · exact ⟨rfl, hu, hus⟩
    · refine ⟨rfl, by simp, ?_⟩
      unfold saveLast
      split <;> simp [hus]
    · exact ⟨rfl, hu, hus⟩

theorem peekDeltas_newLast (cap : Nat) (t : CumulativeByteTracker G) (io : StoreIO G)
    (group : G) (transfer : Transfer) :
    (t.peekDeltas cap io group transfer).newLast =
      transfer.entries.filterMap fun e => e.2.map fun c => ((group, e.1), c.total) := by
  have hfold : ∀ (es : List (String × Option Counters)) (p : Peek G),
      (es.foldl (peekOne cap io group) p).newLast =
        p.newLast ++ es.filterMap fun e => e.2.map fun c => ((group, e.1), c.total) := by
    intro es
    induction es with
    | nil => intro p; simp
    | cons e rest ih =>
      intro p
      rw [List.foldl_cons, ih]
      rcases e with ⟨name, _ | c⟩
      · simp [peekOne]
      · simp [peekOne]
  simpa [peekDeltas] using hfold transfer.entries { out := [], newLast := [], tracker := t }

theorem nodup_newLast (cap : Nat) (t : CumulativeByteTracker G) (io : StoreIO G) (group : G)
    (transfer : Transfer) : ((t.peekDeltas cap io group transfer).newLast.map Prod.fst).Nodup := by
  rw [peekDeltas_newLast, List.map_filterMap]
  have hnodup := transfer.nodup
  generalize transfer.entries = es at hnodup ⊢
  induction es with
  | nil => exact List.nodup_nil
  | cons e rest ih =>
    rw [List.map_cons, List.nodup_cons] at hnodup
    rcases e with ⟨n, _ | c⟩
    · simpa using ih hnodup.2
    · rw [List.filterMap_cons_some (b := (group, n)) (by simp), List.nodup_cons]
      refine ⟨fun hmem => hnodup.1 ?_, ih hnodup.2⟩
      obtain ⟨e', he', heq⟩ := List.mem_filterMap.mp hmem
      rcases e' with ⟨n', _ | c'⟩
      · simp at heq
      · exact List.mem_map.mpr ⟨_, he', by simpa using heq⟩

theorem foldl_peekOne_of_not_mem (cap : Nat) (io : StoreIO G) (group : G) :
    ∀ {es : List (String × Option Counters)} {p : Peek G}, (∀ c, (name, some c) ∉ es) →
      (es.foldl (peekOne cap io group) p).tracker.last (group, name)
          = p.tracker.last (group, name) ∧
        (es.foldl (peekOne cap io group) p).tracker.store (group, name)
          = p.tracker.store (group, name) ∧
        posted name (es.foldl (peekOne cap io group) p).out = posted name p.out := by
  intro es
  induction es with
  | nil => intro p _; exact ⟨rfl, rfl, rfl⟩
  | cons e rest ih =>
    intro p h
    obtain ⟨hl, hs, ho⟩ := ih (p := peekOne cap io group p e)
      (fun c hc => h c (List.mem_cons_of_mem _ hc))
    rw [List.foldl_cons]
    rcases e with ⟨name', _ | c⟩
    · exact ⟨hl, hs, ho⟩
    · have hname : name' ≠ name := fun heq => h c (by simp [heq])
      have hkey : ((group, name) : Key G) ≠ (group, name') := fun heq =>
        hname (congrArg Prod.snd heq).symm
      refine ⟨hl.trans (peekKey_last_ne hkey), hs.trans (peekKey_store_ne hkey), ho.trans ?_⟩
      dsimp only [peekOne]
      split
      · rfl
      · rw [posted_append, posted_cons, if_neg hname, posted_nil, add_zero, add_zero]

theorem foldl_peekOne_of_mem (cap : Nat) (io : StoreIO G) (group : G) :
    ∀ {es : List (String × Option Counters)} {p : Peek G}, (es.map Prod.fst).Nodup →
      (name, some c) ∈ es →
      (es.foldl (peekOne cap io group) p).tracker.last (group, name)
          = (p.tracker.peekKey cap io (group, name) c.total).2.last (group, name) ∧
        (es.foldl (peekOne cap io group) p).tracker.store (group, name)
          = (p.tracker.peekKey cap io (group, name) c.total).2.store (group, name) ∧
        posted name (es.foldl (peekOne cap io group) p).out
          = posted name p.out +
            ((p.tracker.peekKey cap io (group, name) c.total).1).getD 0 := by
  intro es
  induction es with
  | nil => intro p _ h; cases h
  | cons e rest ih =>
    intro p hnodup hmem
    rw [List.map_cons, List.nodup_cons] at hnodup
    rw [List.foldl_cons]
    rcases List.mem_cons.mp hmem with rfl | hrest
    · -- the head reads `name`, so the rest does not
      have hnot : ∀ c', (name, some c') ∉ rest := fun c' hc' =>
        hnodup.1 (List.mem_map.mpr ⟨_, hc', rfl⟩)
      obtain ⟨hl, hs, ho⟩ := foldl_peekOne_of_not_mem cap io group
        (p := peekOne cap io group p (name, some c)) hnot
      refine ⟨hl, hs, ho.trans ?_⟩
      dsimp only [peekOne]
      split
      · rename_i hr
        rw [hr, Option.getD_none, add_zero]
      · rename_i delta hr
        rw [hr, posted_append, posted_cons, if_pos rfl, posted_nil, add_zero,
          Option.getD_some]
    · -- the head reads another name, and `peekKey` is local to its key
      have hname : e.1 ≠ name := fun heq =>
        hnodup.1 (List.mem_map.mpr ⟨_, hrest, heq.symm⟩)
      obtain ⟨hl, hs, ho⟩ := ih (p := peekOne cap io group p e) hnodup.2 hrest
      have hnot : ∀ c', (name, some c') ∉ [e] := fun c' hc' =>
        hname (by rw [List.mem_singleton] at hc'; rw [← hc'])
      obtain ⟨hl', hs', ho'⟩ := foldl_peekOne_of_not_mem cap io group (p := p) hnot
      rw [List.foldl_cons, List.foldl_nil] at hl' hs' ho'
      obtain ⟨h₁, h₂, h₃⟩ := peekKey_congr cap io c.total hl' hs'
      exact ⟨hl.trans h₂, hs.trans h₃, by rw [ho, ho', h₁]⟩

theorem commitPending_of_not_mem (io : StoreIO G) (h : ∀ e ∈ newLast, e.1 ≠ key) :
    (t.commitPending io newLast).last key = t.last key ∧
      (t.commitPending io newLast).store key = t.store key := by
  induction newLast generalizing t with
  | nil => exact ⟨rfl, rfl⟩
  | cons e rest ih =>
    have hne : key ≠ e.1 := fun heq => h e List.mem_cons_self heq.symm
    obtain ⟨hl, hs⟩ := ih (t := t.saveLast io e.1 e.2)
      (fun e' he' => h e' (List.mem_cons_of_mem _ he'))
    exact ⟨hl.trans (saveLast_last_ne hne), hs.trans (saveLast_store_ne hne)⟩

theorem commitPending_of_mem (hnodup : (newLast.map Prod.fst).Nodup) (h : (key, total) ∈ newLast) :
    (t.commitPending io newLast).last key = some total ∧
      (t.commitPending io newLast).store key =
        if io.set key then some total else t.store key := by
  induction newLast generalizing t with
  | nil => cases h
  | cons e rest ih =>
    rw [List.map_cons, List.nodup_cons] at hnodup
    rcases List.mem_cons.mp h with rfl | hrest
    · have hnot : ∀ e' ∈ rest, e'.1 ≠ key := fun e' he' heq =>
        hnodup.1 (List.mem_map.mpr ⟨e', he', heq⟩)
      obtain ⟨hlast, hstore⟩ :=
        commitPending_of_not_mem io (t := t.saveLast io key total) hnot
      refine ⟨hlast.trans (saveLast_last_self _ _ _ _), hstore.trans ?_⟩
      unfold saveLast
      split <;> simp
    · have hne : key ≠ e.1 := fun heq =>
        hnodup.1 (List.mem_map.mpr ⟨_, hrest, heq⟩)
      obtain ⟨hlast, hstore⟩ := ih (t := t.saveLast io e.1 e.2) hnodup.2 hrest
      rw [saveLast_store_ne hne] at hstore
      exact ⟨hlast, hstore⟩

theorem commitPending_peekDeltas (cap : Nat) (t u : CumulativeByteTracker G) (io : StoreIO G)
    (group : G) (h : (name, some c) ∈ transfer.entries) :
    (u.commitPending io (t.peekDeltas cap io group transfer).newLast).last (group, name) =
        some c.total ∧
      (u.commitPending io (t.peekDeltas cap io group transfer).newLast).store (group, name) =
        if io.set (group, name) then some c.total else u.store (group, name) := by
  refine commitPending_of_mem (nodup_newLast cap t io group transfer) ?_
  rw [peekDeltas_newLast]
  exact List.mem_filterMap.mpr ⟨_, h, rfl⟩

end CumulativeByteTracker

end Shahkar.Usage
