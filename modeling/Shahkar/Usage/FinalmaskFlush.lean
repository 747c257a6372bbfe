import Shahkar.Usage.Baselines
import Shahkar.Utils.SubscriptionTokens

/-!
# Banking the Finalmask counters of a node (`app/wireguard/finalmask_usage.py`)

The baselines are forgotten before the bill is written, so a bill that fails is lost; and so are
deltas above the cap and those of names that are no user's.
-/

namespace Shahkar.Usage

open Shahkar.Lib Shahkar.Utils

def CumulativeByteTracker.forgetGroup {G : Type} [DecidableEq G] (t : CumulativeByteTracker G)
    (delete : Key G → Bool) (group : G) : CumulativeByteTracker G where
  last := fun key => if key.1 = group then none else t.last key
  store := fun key =>
    if key.1 = group ∧ (t.last key).isSome ∧ delete key then none else t.store key

def emailToUid (email : String) : Option Int := parseInt (email.toList.takeWhile (· ≠ '.'))

def attributed (emailDeltas : List (String × Int)) : List (String × Int) :=
  emailDeltas.filter fun e => (emailToUid e.1).isSome ∧ 0 < e.2

def buildFinalmaskUsageParams (emailDeltas : List (String × Int)) : Dict Int Int :=
  (attributed emailDeltas).foldl (fun agg e => agg.bump ((emailToUid e.1).getD 0) e.2) Dict.empty

inductive FlushFailure
  | building
  | recording

/-- What a flush finds: the tracker and which Redis calls get through, what is read from the node,
and the exception there may be. -/
structure Flush where
  cap : Nat
  tracker : CumulativeByteTracker Int
  io : StoreIO Int
  delete : Key Int → Bool
  node : Int
  transfer : Transfer
  failure : Option FlushFailure

structure Flushed where
  tracker : CumulativeByteTracker Int
  handed : List (String × Int)
  bill : Dict Int Int

def flushFinalmaskNodeStats (f : Flush) : Flushed :=
  if f.transfer.entries.isEmpty then ⟨f.tracker.forgetGroup f.delete f.node, [], Dict.empty⟩
  else
    let p := f.tracker.peekDeltas f.cap f.io f.node f.transfer
    let t := (p.tracker.commitPending f.io p.newLast).forgetGroup f.delete f.node
    if f.failure.isSome then ⟨t, [], Dict.empty⟩
    else ⟨t, attributed p.out, buildFinalmaskUsageParams p.out⟩

def growth (base : Option Int) (reading : Option Counters) : Int :=
  match base, reading with
  | some b, some c => max 0 (if c.total < b then c.total else c.total - b)
  | _, _ => 0

namespace Flush

open CumulativeByteTracker

variable (f : Flush) (name : String)

def due : Int := growth (f.tracker.baseline f.io (f.node, name)) (f.transfer.get? name).join

def Plausible : Prop := f.cap = 0 ∨ f.due name ≤ f.cap

def returned (io' : StoreIO Int) : List (String × Int) :=
  ((flushFinalmaskNodeStats f).tracker.peekDeltas f.cap io' f.node f.transfer).out

/-- Redis refuses both the new baseline and its deletion, and answers with an old one from which the
same is due. -/
structure KeptByRedis (io' : StoreIO Int) : Prop where
  set : f.io.set (f.node, name) = false
  delete : f.delete (f.node, name) = false
  get : io'.get (f.node, name) = true
  due : growth (f.tracker.store (f.node, name)) (f.transfer.get? name).join = f.due name

variable {f name} {t : CumulativeByteTracker Int} {io : StoreIO Int} {cap : Nat} {node : Int}
  {transfer : Transfer} {c : Counters}

theorem join_get?_eq_some_iff :
    (transfer.get? name).join = some c ↔ (name, some c) ∈ transfer.entries := by
  rw [Option.join_eq_some_iff, Dict.get?_eq_some_iff]

@[simp] theorem growth_none (reading : Option Counters) : growth none reading = 0 := rfl

@[simp] theorem growth_unread (base : Option Int) : growth base none = 0 := by
  cases base <;> rfl

theorem getD_peekKey (key : Key Int) (c : Counters) :
    ((t.peekKey cap io key c.total).1).getD 0 =
      if cap = 0 ∨ growth (t.baseline io key) (some c) ≤ cap then
        growth (t.baseline io key) (some c)
      else 0 := by
  rw [← loadLast_fst]
  unfold peekKey
  rcases t.loadLast io key with ⟨_ | b, t'⟩
  · simp [growth]
  · dsimp only [growth]
    split_ifs <;> simp only [Option.getD_none, Option.getD_some] <;> omega

theorem posted_out {d : Int}
    (hd : growth (t.baseline io (node, name)) (transfer.get? name).join = d) :
    posted name (t.peekDeltas cap io node transfer).out = if cap = 0 ∨ d ≤ cap then d else 0 := by
  subst hd
  unfold peekDeltas
  cases hread : (transfer.get? name).join with
  | none =>
    have hnot : ∀ c, (name, some c) ∉ transfer.entries := fun c hc => by
      simp [join_get?_eq_some_iff.mpr hc] at hread
    rw [(foldl_peekOne_of_not_mem cap io node hnot).2.2]
    simp
  | some c =>
    rw [(foldl_peekOne_of_mem cap io node transfer.nodup
      (join_get?_eq_some_iff.mp hread)).2.2, posted_nil, zero_add, getD_peekKey]

theorem peekKey_pos {key : Key Int} {total delta : Int}
    (h : (t.peekKey cap io key total).1 = some delta) : 0 < delta := by
  unfold peekKey at h
  generalize t.loadLast io key = r at h
  rcases r with ⟨_ | b, t'⟩
  · cases h
  · dsimp only at h
    split_ifs at h <;> cases h <;> omega

theorem out_pos : ∀ e ∈ (t.peekDeltas cap io node transfer).out, 0 < e.2 := by
  refine List.foldlRecOn (motive := fun p : Peek Int => ∀ e ∈ p.out, 0 < e.2) _ _ (by simp) ?_
  rintro p ih ⟨name, _ | c⟩ -
  · exact ih
  · dsimp only [peekOne]
    split
    · exact ih
    · rename_i delta hdelta
      intro e he
      rcases List.mem_append.mp he with he | he
      · exact ih e he
      · rw [List.mem_singleton.mp he]
        exact peekKey_pos hdelta

theorem posted_attributed {l : List (String × Int)} (hpos : ∀ e ∈ l, 0 < e.2) :
    posted name (attributed l) = if (emailToUid name).isSome then posted name l else 0 := by
  have hattributed : attributed l = l.filter fun e => (emailToUid e.1).isSome :=
    List.filter_congr fun e he => by simp [hpos e he]
  have honKey : onKey name (attributed l) =
      (onKey name l).filter fun e => (emailToUid name).isSome := by
    rw [hattributed]
    unfold onKey
    rw [List.filter_comm]
    exact List.filter_congr fun e he => by simp_all
  rw [posted, honKey]
  split_ifs with h <;> simp [h, posted]

theorem exists_reading (hdue : 0 < f.due name) : ∃ c, (name, some c) ∈ f.transfer.entries := by
  cases hread : (f.transfer.get? name).join with
  | none => simp [due, hread] at hdue
  | some c => exact ⟨c, join_get?_eq_some_iff.mp hread⟩

theorem flush_of_mem (h : (name, some c) ∈ f.transfer.entries) :
    flushFinalmaskNodeStats f =
      let p := f.tracker.peekDeltas f.cap f.io f.node f.transfer
      let t := (p.tracker.commitPending f.io p.newLast).forgetGroup f.delete f.node
      if f.failure.isSome then ⟨t, [], Dict.empty⟩
      else ⟨t, attributed p.out, buildFinalmaskUsageParams p.out⟩ := by
  unfold flushFinalmaskNodeStats
  rw [if_neg]
  rw [List.isEmpty_iff]
  exact List.ne_nil_of_mem h

theorem handed_iff (hdue : 0 < f.due name) :
    posted name (flushFinalmaskNodeStats f).handed = f.due name ↔
      f.failure = none ∧ f.Plausible name ∧ (emailToUid name).isSome := by
  obtain ⟨c, hread⟩ := exists_reading hdue
  rw [flush_of_mem hread]
  cases hfailure : f.failure with
  | some failure => simpa using hdue.ne
  | none =>
    dsimp only [Option.isSome_none]
    rw [if_neg Bool.false_ne_true, posted_attributed out_pos, posted_out (d := f.due name) rfl,
      Plausible]
    split_ifs with huid hcap
    · simp [huid, hcap]
    · simp [hcap, hdue.ne]
    · simp [huid, hdue.ne]

theorem baseline_flush (io' : StoreIO Int) (h : (name, some c) ∈ f.transfer.entries) :
    (flushFinalmaskNodeStats f).tracker.baseline io' (f.node, name) =
      if io'.get (f.node, name) = true ∧ f.delete (f.node, name) = false then
        if f.io.set (f.node, name) then some c.total else f.tracker.store (f.node, name)
      else none := by
  let p := f.tracker.peekDeltas f.cap f.io f.node f.transfer
  have htracker : (flushFinalmaskNodeStats f).tracker =
      (p.tracker.commitPending f.io p.newLast).forgetGroup f.delete f.node := by
    rw [flush_of_mem h]
    cases f.failure <;> rfl
  obtain ⟨hlast, hstore⟩ := commitPending_peekDeltas f.cap f.tracker p.tracker f.io f.node h
  have hpeek : f.io.set (f.node, name) = false →
      p.tracker.store (f.node, name) = f.tracker.store (f.node, name) := by
    intro hset
    refine (foldl_peekOne_of_mem f.cap f.io f.node f.transfer.nodup h).2.1.trans ?_
    exact peekKey_keeps (·.store (f.node, name)) (by simp) fun t' v => by simp [saveLast, hset]
  rw [htracker]
  unfold baseline forgetGroup
  dsimp only
  rw [hlast, hstore]
  cases hset : f.io.set (f.node, name) <;> cases f.delete (f.node, name) <;>
    simp [hset, hpeek]

theorem returned_iff {io' : StoreIO Int} (hdue : 0 < f.due name) :
    posted name (f.returned io') = f.due name ↔ f.Plausible name ∧ f.KeptByRedis name io' := by
  obtain ⟨c, hread⟩ := exists_reading hdue
  rw [returned, posted_out rfl, baseline_flush io' hread, Plausible]
  generalize hd : f.due name = d at hdue ⊢
  constructor
  · intro h
    by_cases hkept : io'.get (f.node, name) = true ∧ f.delete (f.node, name) = false
    · rw [if_pos hkept] at h
      cases hset : f.io.set (f.node, name) with
      | true =>
        rw [hset, join_get?_eq_some_iff.mpr hread] at h
        simp [growth, hdue.ne] at h
      | false =>
        rw [hset, if_neg Bool.false_ne_true] at h
        split_ifs at h with hcap
        · exact ⟨h ▸ hcap, hset, hkept.2, hkept.1, h.trans hd.symm⟩
        · exact absurd h hdue.ne
    · rw [if_neg hkept] at h
      simp [hdue.ne] at h
  · rintro ⟨hcap, hset, hdelete, hget, hsame⟩
    simp only [hget, hdelete, and_self, if_true, hset, Bool.false_eq_true, if_false, hsame, hd]
    exact if_pos hcap

end Flush

/-- **A flush loses no byte** exactly if it bills all that is due, or Redis has the baselines. -/
theorem flush_loses_nothing_iff (f : Flush) (io' : StoreIO Int) :
    ((∀ name, 0 < f.due name → posted name (flushFinalmaskNodeStats f).handed = f.due name) ∨
      ∀ name, 0 < f.due name → posted name (f.returned io') = f.due name) ↔
      (∀ name, 0 < f.due name → f.failure = none ∧ f.Plausible name ∧ (emailToUid name).isSome) ∨
        ∀ name, 0 < f.due name → f.Plausible name ∧ f.KeptByRedis name io' :=
  or_congr (forall₂_congr fun _ => Flush.handed_iff) (forall₂_congr fun _ => Flush.returned_iff)

def redis : StoreIO Int := ⟨fun _ => true, fun _ => true⟩

def failing : Flush where
  cap := 0
  tracker := ⟨fun _ => some 100, fun _ => some 100⟩
  io := redis
  delete _ := true
  node := 1
  transfer := Dict.empty.set "7.alice" (some ⟨100, 50⟩)
  failure := some .recording

theorem failed_bill_loses_bytes :
    ¬ ((∀ name, 0 < failing.due name →
        posted name (flushFinalmaskNodeStats failing).handed = failing.due name) ∨
      ∀ name, 0 < failing.due name → posted name (failing.returned redis) = failing.due name) := by
  have hdue : 0 < failing.due "7.alice" := by decide
  rintro (hhanded | hreturned)
  · exact absurd (hhanded _ hdue) (by decide)
  · exact absurd (hreturned _ hdue) (by decide)

end Shahkar.Usage
