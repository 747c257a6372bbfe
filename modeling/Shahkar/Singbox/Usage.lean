import Shahkar.Usage.Baselines

/-!
# The usage of an engine that is restarted (`app/singbox/usage.py`)

Only a smaller counter is billed against zero, so one that has overtaken the old baseline before it
is read is billed short by that baseline.
-/

namespace Shahkar.Singbox

open Shahkar.Lib Shahkar.Usage

structure Reading where
  transfer : Transfer
  answer : Option String

def Reading.total (r : Reading) (name : String) : Option Int :=
  (r.transfer.get? name).join.map Counters.total

/-- `SingBoxUsageTracker`: the baselines and the incarnations. -/
structure UsageTracker where
  last : Int × String → Option Int
  epochs : Int → Option String

structure Pending where
  node : Int
  epoch : Option String
  freshEngine : Bool
  newLast : String → Option Int
  transferNames : String → Bool

structure Peek where
  out : String → Option Int
  discarded : String → Bool
  pending : Pending
  tracker : UsageTracker

def interval (fresh : Bool) : Option Int → Int → Int
  | none, total => if fresh then total else 0
  | some last, total => if total < last then total else total - last

namespace UsageTracker

def loadEpoch (t : UsageTracker) (node : Int) (answer : Option String) :
    Option String × UsageTracker :=
  match t.epochs node with
  | some epoch => (some epoch, t)
  | none => (answer, { t with epochs := Function.update t.epochs node answer })

def peekDeltas (cap : Nat) (t : UsageTracker) (node : Int) (epoch : String) (r : Reading) : Peek :=
  let known := (t.loadEpoch node r.answer).1
  let t := (t.loadEpoch node r.answer).2
  let fresh : Bool := epoch ≠ "" ∧ known ≠ some epoch
  let delta := fun name => ((r.total name).map (interval fresh (t.last (node, name)))).getD 0
  let discarded := fun name => decide (cap ≠ 0 ∧ (cap : Int) < delta name)
  { out := fun name => if delta name ≤ 0 ∨ discarded name then none else some (delta name)
    discarded := discarded
    pending :=
      { node := node
        epoch := if epoch = "" then none else some epoch
        freshEngine := fresh
        newLast := r.total
        transferNames := fun name => (r.transfer.get? name).isSome }
    -- a jump above the cap moves the baseline at once
    tracker := { t with
      last := fun key =>
        if key.1 = node ∧ discarded key.2 then r.total key.2 else t.last key } }

def commitPending (t : UsageTracker) (p : Pending) : UsageTracker where
  epochs := match p.epoch with
    | some epoch => Function.update t.epochs p.node (some epoch)
    | none => t.epochs
  last := fun key =>
    if key.1 ≠ p.node then t.last key
    else match p.newLast key.2 with
      | some total => some total
      | none => if p.freshEngine ∧ ¬ p.transferNames key.2 then none else t.last key

def readAll (cap : Nat) (node : Int) : UsageTracker → List (String × Reading) →
    List Peek × UsageTracker
  | t, [] => ([], t)
  | t, (epoch, r) :: rest =>
    let p := t.peekDeltas cap node epoch r
    let after := readAll cap node (p.tracker.commitPending p.pending) rest
    (p :: after.1, after.2)

end UsageTracker

def values (rs : List Reading) (name : String) : List Int := rs.filterMap (·.total name)

/-- One run of the engine, as it is read: the counters start at zero and never decrease. -/
structure Incarnation where
  epoch : String
  first : Reading
  later : List Reading
  epoch_ne : epoch ≠ ""
  readable : ∀ r ∈ first :: later, ∀ name, r.transfer.get? name ≠ some none
  counters : ∀ name, (0 :: values (first :: later) name).Pairwise (· ≤ ·)

namespace Incarnation

variable (i : Incarnation) (name : String)

def readings : List (String × Reading) := (i.first :: i.later).map (i.epoch, ·)

def firstReading : Int := (values (i.first :: i.later) name).head?.getD 0

def lastReading : Int := (values (i.first :: i.later) name).getLast?.getD 0

def Counted (base : Option Int) : Prop :=
  match i.first.total name with
  | some total => ∀ last ∈ base, total < last ∨ last = 0
  | none => i.firstReading name = 0

end Incarnation

def AllCounted (name : String) : Option Int → List Incarnation → Prop
  | _, [] => True
  | base, i :: rest =>
    i.Counted name base ∧ AllCounted name (values (i.first :: i.later) name).getLast? rest

def billed (name : String) (peeks : List Peek) : Int := (peeks.map fun p => (p.out name).getD 0).sum

theorem billed_cons (name : String) (p : Peek) (ps : List Peek) :
    billed name (p :: ps) = (p.out name).getD 0 + billed name ps := by simp [billed]

theorem billed_append (name : String) (l₁ l₂ : List Peek) :
    billed name (l₁ ++ l₂) = billed name l₁ + billed name l₂ := by simp [billed]

section Run

variable {cap : Nat} {node : Int} {t : UsageTracker} {epoch name : String} {base : Option Int}

theorem readAll_append (l₁ l₂ : List (String × Reading)) :
    t.readAll cap node (l₁ ++ l₂) =
      ((t.readAll cap node l₁).1 ++ ((t.readAll cap node l₁).2.readAll cap node l₂).1,
        ((t.readAll cap node l₁).2.readAll cap node l₂).2) := by
  induction l₁ generalizing t with
  | nil => rfl
  | cons e rest ih => simp [UsageTracker.readAll, ih]

theorem interval_nonneg {fresh : Bool} {total : Int} (h : 0 ≤ total) :
    0 ≤ interval fresh base total := by
  unfold interval
  split
  · split_ifs <;> omega
  · split_ifs <;> omega

theorem loadEpoch_known {answer : Option String} (h : (t.loadEpoch node answer).1 = some epoch) :
    ∃ t', t.loadEpoch node answer = (some epoch, t') ∧ t'.loadEpoch node answer = (some epoch, t') ∧
      t'.epochs node = some epoch ∧ t'.last = t.last := by
  unfold UsageTracker.loadEpoch at h ⊢
  cases hknown : t.epochs node with
  | some known =>
    rw [hknown] at h
    obtain rfl : known = epoch := Option.some.inj h
    exact ⟨t, rfl, by rw [hknown], hknown, rfl⟩
  | none =>
    rw [hknown] at h
    obtain rfl : answer = some epoch := h
    exact ⟨_, rfl, by simp, by simp, rfl⟩

theorem read_spec {r : Reading} (hepoch : epoch ≠ "") (hread : r.transfer.get? name ≠ some none)
    (hnonneg : ∀ total ∈ r.total name, 0 ≤ total)
    (hcap : (t.peekDeltas cap node epoch r).discarded name = false) :
    let fresh : Bool := (t.loadEpoch node r.answer).1 ≠ some epoch
    let p := t.peekDeltas cap node epoch r
    let after := p.tracker.commitPending p.pending
    (p.out name).getD 0 = ((r.total name).map (interval fresh (t.last (node, name)))).getD 0 ∧
      after.epochs node = some epoch ∧
      after.last (node, name) =
        (r.total name).or (if fresh then none else t.last (node, name)) := by
  intro fresh p after
  have hlast : (t.loadEpoch node r.answer).2.last = t.last := by
    unfold UsageTracker.loadEpoch
    split <;> rfl
  have hfresh : p.pending.freshEngine = fresh := by
    simp [p, fresh, UsageTracker.peekDeltas, hepoch]
  have hkept : p.tracker.last (node, name) = t.last (node, name) := by
    rw [← hlast]
    exact if_neg fun h => Bool.false_ne_true (hcap.symm.trans h.2)
  refine ⟨?_, ?_, ?_⟩
  · generalize hd : ((r.total name).map (interval fresh (t.last (node, name)))).getD 0 = d
    have hout : p.out name = if d ≤ 0 ∨ p.discarded name then none else some d := by
      rw [← hd, ← hfresh, ← hlast]
      rfl
    have hdelta : 0 ≤ d := by
      rw [← hd]
      cases htotal : r.total name with
      | none => exact le_rfl
      | some total => exact interval_nonneg (hnonneg total htotal)
    rw [hout, hcap]
    by_cases hzero : d ≤ 0
    · rw [if_pos (.inl hzero)]
      exact hdelta.antisymm hzero
    · rw [if_neg (by simp [hzero])]
      rfl
  · simp [after, p, UsageTracker.commitPending, UsageTracker.peekDeltas, hepoch]
  · have hafter : after.last (node, name) = match r.total name with
        | some total => some total
        | none => if fresh ∧ ¬ (r.transfer.get? name).isSome then none else t.last (node, name) := by
      rw [← hkept, ← hfresh]
      exact if_neg (not_not.mpr rfl)
    rw [hafter]
    cases htotal : r.total name with
    | some total => rfl
    | none =>
      have habsent : r.transfer.get? name = none := by
        cases hentry : r.transfer.get? name with
        | none => rfl
        | some c => cases c with
          | none => exact absurd hentry hread
          | some c => simp [Reading.total, hentry] at htotal
      simp [habsent]

theorem billed_known {rs : List Reading} (hepoch : epoch ≠ "") (hknown : t.epochs node = some epoch)
    (hbase : t.last (node, name) = base)
    (hread : ∀ r ∈ rs, r.transfer.get? name ≠ some none)
    (hsorted : (base.toList ++ values rs name).Pairwise (· ≤ ·))
    (hnonneg : ∀ v ∈ values rs name, 0 ≤ v)
    (hcap : ∀ p ∈ (t.readAll cap node (rs.map (epoch, ·))).1, p.discarded name = false) :
    let l := base.toList ++ values rs name
    let after := t.readAll cap node (rs.map (epoch, ·))
    billed name after.1 = l.getLast?.getD 0 - l.head?.getD 0 ∧
      after.2.epochs node = some epoch ∧ after.2.last (node, name) = l.getLast? := by
  induction rs generalizing t base with
  | nil =>
    subst hbase
    cases hl : t.last (node, name) <;> simp [UsageTracker.readAll, values, billed, hknown, hl]
  | cons r rest ih =>
    have hload : (t.loadEpoch node r.answer).1 = some epoch := by
      simp [UsageTracker.loadEpoch, hknown]
    obtain ⟨hout, hepochs, hlast⟩ := read_spec hepoch (hread r List.mem_cons_self)
      (fun total htotal => hnonneg total (List.mem_filterMap.mpr ⟨r, List.mem_cons_self, htotal⟩))
      (hcap _ List.mem_cons_self)
    simp only [hload, ne_eq, not_true_eq_false, decide_false, hbase] at hout hlast
    have hread' : ∀ r ∈ rest, r.transfer.get? name ≠ some none := fun r hr =>
      hread r (List.mem_cons_of_mem _ hr)
    have hcap' := fun p hp => hcap p (List.mem_cons_of_mem _ hp)
    simp only [List.map_cons, UsageTracker.readAll, billed_cons, hout]
    cases htotal : r.total name with
    | none =>
      have hvalues : values (r :: rest) name = values rest name := List.filterMap_cons_none htotal
      rw [htotal] at hlast
      rw [hvalues] at hsorted hnonneg ⊢
      obtain ⟨hsum, hrest⟩ := ih hepochs hlast hread' hsorted hnonneg hcap'
      exact ⟨by rw [hsum]; simp, hrest⟩
    | some total =>
      have hvalues : values (r :: rest) name = total :: values rest name :=
        List.filterMap_cons_some htotal
      rw [htotal] at hlast
      rw [hvalues] at hsorted hnonneg ⊢
      obtain ⟨hsum, hepochs', hlast'⟩ := ih hepochs hlast hread'
        (hsorted.sublist (List.sublist_append_right ..))
        (fun v hv => hnonneg v (List.mem_cons_of_mem _ hv)) hcap'
      rw [hsum, hepochs', hlast']
      cases base with
      | none => simp [interval]
      | some last =>
        have hle : ¬ total < last := not_lt.mpr (List.rel_of_pairwise_cons hsorted (by simp))
        simp [interval, hle]

theorem billed_fresh (i : Incarnation)
    (hfresh : (t.loadEpoch node i.first.answer).1 ≠ some i.epoch)
    (hbase : t.last (node, name) = base) (hnonneg : ∀ last ∈ base, 0 ≤ last)
    (hcap : ∀ p ∈ (t.readAll cap node i.readings).1, p.discarded name = false) :
    let after := t.readAll cap node i.readings
    (∃ loss, 0 ≤ loss ∧ billed name after.1 = i.lastReading name - loss ∧
      (loss = 0 ↔ i.Counted name base)) ∧ after.2.epochs node = some i.epoch ∧
      after.2.last (node, name) = (values (i.first :: i.later) name).getLast? := by
  have hcounters := List.pairwise_cons.mp (i.counters name)
  obtain ⟨hout, hepochs, hlast⟩ := read_spec i.epoch_ne (i.readable i.first List.mem_cons_self name)
    (fun total h => hcounters.1 total (List.mem_filterMap.mpr ⟨_, List.mem_cons_self, h⟩))
    (hcap _ List.mem_cons_self)
  simp only [hfresh, ne_eq, not_false_eq_true, decide_true, hbase, if_true, Option.or_none]
    at hout hlast
  have hlater := fun hsorted hvalues => billed_known i.epoch_ne hepochs hlast
    (fun r hr => i.readable r (List.mem_cons_of_mem _ hr) name) hsorted hvalues
    (fun p hp => hcap p (List.mem_cons_of_mem _ hp))
  simp only [Incarnation.readings, List.map_cons, UsageTracker.readAll, billed_cons, hout]
  unfold Incarnation.Counted Incarnation.lastReading Incarnation.firstReading
  cases htotal : i.first.total name with
  | none =>
    have hvalues : values (i.first :: i.later) name = values i.later name :=
      List.filterMap_cons_none htotal
    rw [htotal] at hlater
    rw [hvalues] at hcounters ⊢
    obtain ⟨hsum, hrest⟩ := hlater hcounters.2 hcounters.1
    refine ⟨⟨_, ?_, by rw [hsum]; simp, Iff.rfl⟩, hrest⟩
    cases hhead : (values i.later name).head? with
    | none => exact le_rfl
    | some v => exact hcounters.1 v (List.mem_of_head? hhead)
  | some total =>
    have hvalues : values (i.first :: i.later) name = total :: values i.later name :=
      List.filterMap_cons_some htotal
    rw [htotal] at hlater
    rw [hvalues] at hcounters ⊢
    obtain ⟨hsum, hrest⟩ := hlater hcounters.2 fun v hv => hcounters.1 v (List.mem_cons_of_mem _ hv)
    refine ⟨⟨total - interval true base total, ?_, by rw [hsum]; simp; omega, ?_⟩, hrest⟩
    · cases base with
      | none => simp [interval]
      | some last =>
        have := hnonneg last rfl
        simp only [interval]
        split_ifs <;> omega
    · cases base with
      | none => simp [interval]
      | some last =>
        simp only [interval, Option.mem_some_iff, forall_eq']
        split_ifs <;> omega

theorem fresh_of_known {i : Incarnation} {rest : List Incarnation}
    (hknown : t.epochs node = some i.epoch) (hnew : ((i :: rest).map (·.epoch)).Nodup) :
    ∀ j ∈ rest.head?, (t.loadEpoch node j.first.answer).1 ≠ some j.epoch := by
  intro j hj h
  rw [UsageTracker.loadEpoch, hknown] at h
  exact (List.nodup_cons.mp hnew).1
    (List.mem_map.mpr ⟨j, List.mem_of_head? hj, (Option.some.inj h).symm⟩)

theorem billed_restarts (incs : List Incarnation)
    (hfresh : ∀ i ∈ incs.head?, (t.loadEpoch node i.first.answer).1 ≠ some i.epoch)
    (hnew : (incs.map (·.epoch)).Nodup) (hbase : t.last (node, name) = base)
    (hnonneg : ∀ last ∈ base, 0 ≤ last)
    (hcap : ∀ p ∈ (t.readAll cap node (incs.flatMap (·.readings))).1, p.discarded name = false) :
    ∃ loss, 0 ≤ loss ∧ billed name (t.readAll cap node (incs.flatMap (·.readings))).1 =
      (incs.map (·.lastReading name)).sum - loss ∧ (loss = 0 ↔ AllCounted name base incs) := by
  induction incs generalizing t base with
  | nil => exact ⟨0, le_rfl, by simp [UsageTracker.readAll, billed], by simp [AllCounted]⟩
  | cons i rest ih =>
    rw [List.flatMap_cons, readAll_append] at hcap ⊢
    obtain ⟨⟨loss, hloss, hsum, hcounted⟩, hepochs, hlast⟩ := billed_fresh i (hfresh i rfl) hbase
      hnonneg fun p hp => hcap p (List.mem_append_left _ hp)
    obtain ⟨losses, hlosses, hsums, hall⟩ := ih (fresh_of_known hepochs hnew)
      (List.nodup_cons.mp hnew).2 hlast
      (fun v hv => (List.pairwise_cons.mp (i.counters name)).1 v (List.mem_of_getLast? hv))
      fun p hp => hcap p (List.mem_append_right _ hp)
    refine ⟨loss + losses, add_nonneg hloss hlosses, ?_, ?_⟩
    · rw [billed_append, hsum, hsums, List.map_cons, List.sum_cons]
      omega
    · rw [AllCounted, ← hcounted, ← hall]
      omega

/-- **Restarts are billed completely** exactly if no new counter overtakes an old one unread. -/
theorem restarts_billed_iff (cap : Nat) (node : Int) (t : UsageTracker)
    (hstart : ∀ name, t.last (node, name) = none) (i : Incarnation) (rest : List Incarnation)
    (hnew : ((i :: rest).map (·.epoch)).Nodup)
    (hcap : ∀ p ∈ (t.readAll cap node ((i :: rest).flatMap (·.readings))).1,
      ∀ name, p.discarded name = false) (name : String) :
    billed name (t.readAll cap node ((i :: rest).flatMap (·.readings))).1 =
        ((i :: rest).map (·.lastReading name)).sum -
          (if (t.loadEpoch node i.first.answer).1 = some i.epoch then i.firstReading name else 0) ↔
      if (t.loadEpoch node i.first.answer).1 = some i.epoch then
        AllCounted name (values (i.first :: i.later) name).getLast? rest
      else AllCounted name none (i :: rest) := by
  have hcap' := fun p hp => hcap p hp name
  by_cases hknown : (t.loadEpoch node i.first.answer).1 = some i.epoch
  · rw [if_pos hknown, if_pos hknown]
    obtain ⟨t', hload, hload', hepoch, hlast⟩ := loadEpoch_known hknown
    have hread : t.readAll cap node ((i :: rest).flatMap (·.readings)) =
        t'.readAll cap node ((i :: rest).flatMap (·.readings)) := by
      simp [Incarnation.readings, UsageTracker.readAll, UsageTracker.peekDeltas, hload, hload']
    rw [hread, List.flatMap_cons, readAll_append] at hcap' ⊢
    have hcounters := List.pairwise_cons.mp (i.counters name)
    obtain ⟨hsum, hepochs, hafter⟩ : billed name (t'.readAll cap node i.readings).1 =
        i.lastReading name - i.firstReading name ∧
        (t'.readAll cap node i.readings).2.epochs node = some i.epoch ∧
        (t'.readAll cap node i.readings).2.last (node, name) =
          (values (i.first :: i.later) name).getLast? :=
      billed_known i.epoch_ne hepoch (show _ = none from hlast ▸ hstart name)
        (fun r hr => i.readable r hr name) hcounters.2 hcounters.1
        fun p hp => hcap' p (List.mem_append_left _ hp)
    obtain ⟨loss, -, hsums, hall⟩ := billed_restarts rest (fresh_of_known hepochs hnew)
      (List.nodup_cons.mp hnew).2 hafter (fun v hv => hcounters.1 v (List.mem_of_getLast? hv))
      fun p hp => hcap' p (List.mem_append_right _ hp)
    rw [billed_append, ← hall, hsum, hsums, List.map_cons, List.sum_cons]
    omega
  · rw [if_neg hknown, if_neg hknown]
    obtain ⟨loss, -, hsum, hall⟩ := billed_restarts (i :: rest)
      (fun j hj => Option.some.inj hj ▸ hknown) hnew (hstart name) (by simp) hcap'
    rw [hsum, ← hall]
    omega

end Run

def reading (total : Int) : Reading := ⟨Dict.empty.set "alice" (some ⟨total, 0⟩), none⟩

theorem total_reading (total : Int) (name : String) :
    (reading total).total name = if name = "alice" then some total else none := by
  by_cases h : name = "alice" <;> simp [reading, Reading.total, Dict.get?_set, h, Counters.total]

def counting (epoch : String) (hepoch : epoch ≠ "") (first : Int) (hfirst : 0 ≤ first) :
    Incarnation where
  epoch := epoch
  first := reading first
  later := []
  epoch_ne := hepoch
  readable := by
    intro r hr name
    obtain rfl := List.mem_singleton.mp hr
    by_cases h : name = "alice" <;> simp [reading, Dict.get?_set, h]
  counters := by
    intro name
    by_cases h : name = "alice" <;> simp [values, total_reading, h, hfirst]

def restarted (total : Int) (htotal : 0 ≤ total) : List Incarnation :=
  [counting "a" (by decide) 100 (by decide), counting "b" (by decide) total htotal]

/-- **A restart is billed short** by the old counter: 150 bytes of 250. -/
theorem overtaken_counter_billed_short :
    (∀ i ∈ restarted 150 (by decide),
      ((UsageTracker.mk (fun _ => none) fun _ => none).loadEpoch 3 i.first.answer).1 ≠
        some i.epoch) ∧
    billed "alice" ((UsageTracker.mk (fun _ => none) fun _ => none).readAll 0 3
      ((restarted 150 (by decide)).flatMap (·.readings))).1 = 150 ∧
    ((restarted 150 (by decide)).map (·.lastReading "alice")).sum = 250 := by
  decide +kernel

theorem smaller_counter_billed :
    billed "alice" ((UsageTracker.mk (fun _ => none) fun _ => none).readAll 0 3
      ((restarted 40 (by decide)).flatMap (·.readings))).1 = 140 :=
  (restarts_billed_iff 0 3 ⟨fun _ => none, fun _ => none⟩ (fun _ => rfl)
    (counting "a" (by decide) 100 (by decide)) [counting "b" (by decide) 40 (by decide)]
    (by decide)
    (by simp [counting, Incarnation.readings, UsageTracker.readAll, UsageTracker.peekDeltas])
    "alice").mpr (by simp [AllCounted, Incarnation.Counted, counting, total_reading, values,
      UsageTracker.loadEpoch, show ∀ total, (reading total).answer = none from fun _ => rfl])

end Shahkar.Singbox
