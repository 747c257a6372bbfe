import Shahkar.Usage.Baselines

/-!
# Sequential usage ticks

Each tick peeks a payload and then either bills the deltas and commits the pending baselines, or
does neither. A failed bill should only *delay* traffic.
-/

namespace Shahkar.Usage

open Shahkar.Lib

variable {G : Type} [DecidableEq G]

/-- One tick: how Redis answers, the payload read, and whether the bill went through. -/
structure Tick (G : Type) where
  io : StoreIO G
  transfer : Transfer
  billed : Bool

def Tick.reading (t : Tick G) (name : String) : Option Int :=
  ((t.transfer.get? name).join).map Counters.total

structure Metered (G : Type) where
  tracker : CumulativeByteTracker G
  billed : List (Key G × Int)
  first : Key G → Option Int

namespace Metered

def init (t₀ : CumulativeByteTracker G) : Metered G where
  tracker := t₀
  billed := []
  first := t₀.last

def tick (cap : Nat) (group : G) (s : Metered G) (t : Tick G) : Metered G :=
  let p := s.tracker.peekDeltas cap t.io group t.transfer
  let tracker := if t.billed then p.tracker.commitPending t.io p.newLast else p.tracker
  { tracker := tracker
    billed := if t.billed then s.billed ++ p.out.map fun e => ((group, e.1), e.2) else s.billed
    first := fun key =>
      -- a baseline adopted from Redis counts from the moment a reading is diffed against it
      let adopted := if key.1 = group ∧ (t.reading key.2).isSome
        then s.tracker.baseline t.io key else none
      (s.first key).or (adopted.or (tracker.last key)) }

def run (cap : Nat) (group : G) (s : Metered G) (ts : List (Tick G)) : Metered G :=
  ts.foldl (tick cap group) s

/-!
### What a tick does to one key
-/

section Key

variable {cap : Nat} {group : G} {name : String} {s : Metered G} {t : Tick G} {r : Int}

omit [DecidableEq G] in
theorem mem_transfer_of_reading (hread : t.reading name = some r) :
    ∃ c : Counters, c.total = r ∧ (name, some c) ∈ t.transfer.entries := by
  obtain ⟨c, hc, rfl⟩ := Option.map_eq_some_iff.mp hread
  rw [Option.join_eq_some_iff] at hc
  exact ⟨c, rfl, Dict.get?_eq_some_iff.mp hc⟩

theorem posted_group (name : String) (out : List (String × Int)) :
    posted ((group, name) : Key G) (out.map fun e => ((group, e.1), e.2)) = posted name out := by
  induction out with
  | nil => rfl
  | cons e rest ih =>
    rw [List.map_cons, posted_cons, posted_cons, ih]
    simp

theorem tick_read (cap : Nat) (group : G) (s : Metered G) (hread : t.reading name = some r) :
    (s.tick cap group t).tracker.last (group, name) =
        (if t.billed then some r
          else (s.tracker.peekKey cap t.io (group, name) r).2.last (group, name)) ∧
      (t.billed = false → (s.tick cap group t).tracker.store (group, name) =
          (s.tracker.peekKey cap t.io (group, name) r).2.store (group, name)) ∧
      posted (group, name) (s.tick cap group t).billed =
        posted (group, name) s.billed +
          (if t.billed then ((s.tracker.peekKey cap t.io (group, name) r).1).getD 0 else 0) ∧
      (s.tick cap group t).first (group, name) =
        (s.first (group, name)).or ((s.tracker.baseline t.io (group, name)).or
          ((s.tick cap group t).tracker.last (group, name))) := by
  obtain ⟨c, rfl, hmem⟩ := mem_transfer_of_reading hread
  obtain ⟨hlast, hstore, hout⟩ := CumulativeByteTracker.foldl_peekOne_of_mem cap t.io group
    (p := ⟨[], [], s.tracker⟩) t.transfer.nodup hmem
  refine ⟨?_, ?_, ?_, ?_⟩
  · dsimp only [tick]
    split
    · exact (CumulativeByteTracker.commitPending_peekDeltas _ _ _ _ _ hmem).1
    · exact hlast
  · intro hbilled
    dsimp only [tick]
    rw [hbilled]
    exact hstore
  · dsimp only [tick]
    split
    · rw [posted_append, posted_group]
      rw [posted_nil, zero_add] at hout
      exact congrArg _ hout
    · rw [add_zero]
  · simp [tick, hread]

theorem tick_of_none (cap : Nat) (hread : t.reading name = some r)
    (hb : s.tracker.baseline t.io (group, name) = none) :
    posted (group, name) (s.tick cap group t).billed = posted (group, name) s.billed ∧
      (s.tick cap group t).tracker.last (group, name) = (if t.billed then some r else none) ∧
      (t.billed = false → (s.tick cap group t).tracker.store (group, name)
        = s.tracker.store (group, name)) := by
  obtain ⟨hlast, hstore, hposted, -⟩ := tick_read cap group s hread
  obtain ⟨hnone, hlast', hstore'⟩ := CumulativeByteTracker.peekKey_of_none cap r hb
  refine ⟨?_, by rw [hlast, hlast'], fun hbilled => by rw [hstore hbilled, hstore']⟩
  rw [hposted, hnone, Option.getD_none, ite_self, add_zero]

theorem tick_of_le (cap : Nat) {b : Int} (hread : t.reading name = some r)
    (hb : s.tracker.baseline t.io (group, name) = some b) (hle : b ≤ r) :
    ∃ b', (s.tick cap group t).tracker.last (group, name) = some b' ∧ b' ≤ r ∧
      posted (group, name) (s.tick cap group t).billed - posted (group, name) s.billed
        ≤ b' - b := by
  obtain ⟨hlast, -, hposted, -⟩ := tick_read cap group s hread
  by_cases hcap : cap = 0 ∨ r - b ≤ cap
  · obtain ⟨hpeek, hlast'⟩ := CumulativeByteTracker.peekKey_plausible hb hle hcap
    rw [hpeek] at hposted
    rw [hlast'] at hlast
    cases hbilled : t.billed with
    | true =>
      rw [hbilled, if_pos rfl] at hlast hposted
      exact ⟨r, hlast, Int.le_refl r, by omega⟩
    | false =>
      rw [hbilled, if_neg (by simp)] at hlast hposted
      exact ⟨b, hlast, hle, by omega⟩
  · obtain ⟨hpos, hlt⟩ : cap ≠ 0 ∧ (cap : Int) < r - b := by omega
    obtain ⟨hpeek, hlast'⟩ := CumulativeByteTracker.peekKey_implausible hb hpos hlt
    rw [hlast', ite_self] at hlast
    rw [hpeek, Option.getD_none, ite_self] at hposted
    exact ⟨r, hlast, Int.le_refl r, by omega⟩

end Key

def Settled (s : Metered G) (key : Key G) : Option Int → Prop
  | none => s.tracker.last key = none ∧ s.first key = none ∧ posted key s.billed = 0
  | some b => s.tracker.last key = some b ∧
      ∃ f, s.first key = some f ∧ posted key s.billed + f = b

def Short (s : Metered G) (key : Key G) (hi : Int) : Prop :=
  ∃ b f, s.tracker.last key = some b ∧ s.first key = some f ∧
    posted key s.billed + f < b ∧ b ≤ hi

def adopt (base st : Option Int) (t : Tick G) (key : Key G) : Option Int :=
  base.or (if t.io.get key then st else none)

def billedUpTo (st : Option Int) (key : Key G) (base : Option Int) (t : Tick G) : Option Int :=
  match t.reading key.2 with
  | none => base
  | some r => if t.billed then some r else adopt base st t key

/-- At every tick of the run, the growth since the last reading that was billed (or since the
baseline it started from) is within the cap. -/
def WithinCap (cap : Nat) (st : Option Int) (key : Key G) : Option Int → List (Tick G) → Prop
  | _, [] => True
  | base, t :: ts =>
    (∀ r ∈ t.reading key.2, ∀ b ∈ adopt base st t key, cap = 0 ∨ r - b ≤ cap) ∧
      WithinCap cap st key (billedUpTo st key base t) ts

instance decidableWithinCap (cap : Nat) (st : Option Int) (key : Key G) :
    ∀ base ts, Decidable (WithinCap cap st key base ts)
  | _, [] => inferInstanceAs (Decidable True)
  | base, t :: ts =>
    have := decidableWithinCap cap st key (billedUpTo st key base t) ts
    inferInstanceAs (Decidable ((∀ r ∈ t.reading key.2, ∀ b ∈ adopt base st t key,
      cap = 0 ∨ r - b ≤ cap) ∧ WithinCap cap st key (billedUpTo st key base t) ts))

section Step

variable {cap : Nat} {group : G} {name : String} {s : Metered G} {t : Tick G} {r : Int}
  {base st : Option Int}

theorem Settled.last_eq {key : Key G} (h : s.Settled key base) : s.tracker.last key = base := by
  cases base with
  | none => exact h.1
  | some b => exact h.1

theorem Settled.baseline_eq (h : s.Settled (group, name) base)
    (hst : base = none → s.tracker.store (group, name) = st) :
    s.tracker.baseline t.io (group, name) = adopt base st t (group, name) := by
  unfold CumulativeByteTracker.baseline adopt
  rw [h.last_eq]
  cases base with
  | none => rw [hst rfl]
  | some b => rfl

theorem Settled.first_or {b : Int} (h : s.Settled (group, name) base)
    (hb : adopt base st t (group, name) = some b) (o : Option Int) :
    ∃ f, (s.first (group, name)).or ((some b).or o) = some f ∧
      posted (group, name) s.billed + f = b := by
  cases base with
  | none =>
    obtain ⟨-, hfirst, hposted⟩ := h
    exact ⟨b, by rw [hfirst]; rfl, by rw [hposted, zero_add]⟩
  | some b' =>
    obtain ⟨-, f, hfirst, hposted⟩ := h
    obtain rfl : b' = b := by simpa [adopt] using hb
    exact ⟨f, by rw [hfirst]; rfl, hposted⟩

theorem Settled.tick_read (h : s.Settled (group, name) base)
    (hst : base = none → s.tracker.store (group, name) = st)
    (hread : t.reading name = some r)
    (hle : ∀ b, adopt base st t (group, name) = some b → b ≤ r)
    (hcap : ∀ b, adopt base st t (group, name) = some b → cap = 0 ∨ r - b ≤ cap) :
    (s.tick cap group t).Settled (group, name)
        (if t.billed then some r else adopt base st t (group, name)) ∧
      ((if t.billed then some r else adopt base st t (group, name)) = none →
        (s.tick cap group t).tracker.store (group, name) = st) := by
  obtain ⟨hlast, hstore, hposted, hfirst⟩ := Metered.tick_read cap group s hread
  have hbase := h.baseline_eq (t := t) hst
  rw [hbase] at hfirst
  cases hb : adopt base st t (group, name) with
  | none =>
    -- No baseline at all: nothing can be billed, a commit records the reading.
    obtain ⟨hposted, hlast, hstore⟩ := tick_of_none cap hread (hbase.trans hb)
    rw [hb] at hfirst
    obtain rfl : base = none := by
      cases base with
      | none => rfl
      | some b => simp [adopt] at hb
    obtain ⟨-, hf₀, hp₀⟩ := h
    rw [hp₀] at hposted
    rw [hf₀, hlast] at hfirst
    cases hbilled : t.billed with
    | true =>
      rw [hbilled] at hlast hfirst
      exact ⟨⟨hlast, r, hfirst, by rw [hposted, zero_add]⟩, fun hcontra => by cases hcontra⟩
    | false =>
      rw [hbilled] at hlast hfirst
      exact ⟨⟨hlast, hfirst, hposted⟩, fun _ => (hstore hbilled).trans (hst rfl)⟩
  | some b =>
    rw [hb] at hfirst
    obtain ⟨f, hf, hsum⟩ := h.first_or hb ((s.tick cap group t).tracker.last (group, name))
    rw [hf] at hfirst
    obtain ⟨hpeek, hlast'⟩ := CumulativeByteTracker.peekKey_plausible (hbase.trans hb)
      (hle b hb) (hcap b hb)
    rw [hpeek] at hposted
    rw [hlast'] at hlast
    cases hbilled : t.billed with
    | true =>
      rw [hbilled] at hlast hposted
      refine ⟨⟨hlast, f, hfirst, ?_⟩, fun hcontra => by cases hcontra⟩
      rw [hposted, if_pos rfl]
      omega
    | false =>
      rw [hbilled] at hlast hposted
      refine ⟨⟨hlast, f, hfirst, ?_⟩, fun hcontra => by cases hcontra⟩
      rw [hposted, if_neg (by simp), add_zero]
      exact hsum

theorem short_of_exceeds {b : Int} (h : s.Settled (group, name) base)
    (hst : base = none → s.tracker.store (group, name) = st)
    (hread : t.reading name = some r) (hb : adopt base st t (group, name) = some b)
    (hcap : cap ≠ 0) (hlt : (cap : Int) < r - b) :
    (s.tick cap group t).Short (group, name) r := by
  obtain ⟨hlast, -, hposted, hfirst⟩ := tick_read cap group s hread
  have hbase := (h.baseline_eq (t := t) hst).trans hb
  obtain ⟨hpeek, hlast'⟩ := CumulativeByteTracker.peekKey_implausible hbase hcap hlt
  obtain ⟨f, hf, hsum⟩ := h.first_or hb ((s.tick cap group t).tracker.last (group, name))
  refine ⟨r, f, ?_, by rw [hfirst, hbase, hf], ?_, Int.le_refl r⟩
  · rw [hlast, hlast', ite_self]
  · rw [hposted, hpeek, Option.getD_none, ite_self]
    omega

theorem short_tick {hi : Int} (h : s.Short (group, name) hi) (hread : t.reading name = some r)
    (hle : hi ≤ r) : (s.tick cap group t).Short (group, name) r := by
  obtain ⟨b, f, hb, hf, hshort, hhi⟩ := h
  have hbase : s.tracker.baseline t.io (group, name) = some b := by
    unfold CumulativeByteTracker.baseline
    rw [hb]
    rfl
  obtain ⟨b', hb', hle', hpaid⟩ := tick_of_le cap hread hbase (Int.le_trans hhi hle)
  obtain ⟨-, -, -, hfirst⟩ := tick_read cap group s hread
  rw [hf] at hfirst
  exact ⟨b', f, hb', hfirst, by omega, hle'⟩

theorem tick_unread (cap : Nat) (group : G) (s : Metered G) (hread : t.reading name = none) :
    (s.tick cap group t).tracker.last (group, name) = s.tracker.last (group, name) ∧
      (s.tick cap group t).tracker.store (group, name) = s.tracker.store (group, name) ∧
      posted (group, name) (s.tick cap group t).billed = posted (group, name) s.billed ∧
      (s.tick cap group t).first (group, name) =
        (s.first (group, name)).or (s.tracker.last (group, name)) := by
  have hnot : ∀ c, (name, some c) ∉ t.transfer.entries := by
    intro c hc
    rw [Tick.reading, Dict.get?_eq_some_iff.mpr hc] at hread
    cases hread
  obtain ⟨hlast, hstore, hout⟩ := CumulativeByteTracker.foldl_peekOne_of_not_mem cap t.io group
    (p := ⟨[], [], s.tracker⟩) hnot
  have hpending : ∀ e ∈ (s.tracker.peekDeltas cap t.io group t.transfer).newLast,
      e.1 ≠ (group, name) := by
    intro e he heq
    rw [CumulativeByteTracker.peekDeltas_newLast] at he
    obtain ⟨⟨n, c⟩, hmem, hc⟩ := List.mem_filterMap.mp he
    obtain ⟨c', rfl, rfl⟩ := Option.map_eq_some_iff.mp hc
    obtain rfl : n = name := congrArg Prod.snd heq
    exact hnot c' hmem
  obtain ⟨hcommit, hcommit'⟩ := CumulativeByteTracker.commitPending_of_not_mem t.io
    (t := (s.tracker.peekDeltas cap t.io group t.transfer).tracker) hpending
  have hl : (s.tick cap group t).tracker.last (group, name) = s.tracker.last (group, name) := by
    dsimp only [tick]
    split
    · exact hcommit.trans hlast
    · exact hlast
  refine ⟨hl, ?_, ?_, ?_⟩
  · dsimp only [tick]
    split
    · exact hcommit'.trans hstore
    · exact hstore
  · dsimp only [tick]
    split
    · rw [posted_append, posted_group]
      exact (congrArg _ hout).trans (add_zero _)
    · rfl
  · rw [← hl]
    simp [tick, hread]

theorem Settled.tick_unread (h : s.Settled (group, name) base) (hread : t.reading name = none) :
    (s.tick cap group t).Settled (group, name) base := by
  obtain ⟨hlast, -, hposted, hfirst⟩ := Metered.tick_unread cap group s hread
  cases base with
  | none =>
    obtain ⟨hl, hf, hp⟩ := h
    exact ⟨hlast.trans hl, by rw [hfirst, hf, hl]; rfl, hposted.trans hp⟩
  | some b =>
    obtain ⟨hl, f, hf, hp⟩ := h
    exact ⟨hlast.trans hl, f, by rw [hfirst, hf]; rfl, by rw [hposted, hp]⟩

theorem Short.tick_unread {hi : Int} (h : s.Short (group, name) hi)
    (hread : t.reading name = none) : (s.tick cap group t).Short (group, name) hi := by
  obtain ⟨hlast, -, hposted, hfirst⟩ := Metered.tick_unread cap group s hread
  obtain ⟨b, f, hb, hf, hshort, hhi⟩ := h
  exact ⟨b, f, hlast.trans hb, by rw [hfirst, hf]; rfl, by rw [hposted]; exact hshort, hhi⟩

end Step

def readings (name : String) (ts : List (Tick G)) : List Int := ts.filterMap (·.reading name)

section Run

variable {cap : Nat} {group : G} {name : String}

omit [DecidableEq G] in
theorem readings_cons (name : String) (t : Tick G) (ts : List (Tick G)) :
    readings name (t :: ts) = (t.reading name).toList ++ readings name ts := by
  unfold readings
  rw [List.filterMap_cons]
  cases t.reading name with
  | none => rfl
  | some r => rfl

variable {ts : List (Tick G)} {s : Metered G} {base st : Option Int}

theorem short_run {hi : Int} (h : s.Short (group, name) hi)
    (hle : (hi :: readings name ts).Pairwise (· ≤ ·)) :
    ∃ hi', (s.run cap group ts).Short (group, name) hi' := by
  induction ts generalizing s hi with
  | nil => exact ⟨hi, h⟩
  | cons t ts ih =>
    rw [readings_cons] at hle
    rw [run, List.foldl_cons]
    cases hread : t.reading name with
    | none =>
      rw [hread] at hle
      exact ih (h.tick_unread hread) hle
    | some r =>
      rw [hread, List.pairwise_cons] at hle
      exact ih (short_tick h hread (hle.1 r List.mem_cons_self)) hle.2

omit [DecidableEq G] in
theorem pairwise_billedUpTo (key : Key G) {t : Tick G}
    (hle : ((base.or st).toList ++ readings key.2 (t :: ts)).Pairwise (· ≤ ·)) :
    (((billedUpTo st key base t).or st).toList ++ readings key.2 ts).Pairwise (· ≤ ·) := by
  rw [readings_cons] at hle
  unfold billedUpTo
  cases hread : t.reading key.2 with
  | none =>
    rw [hread] at hle
    exact hle
  | some r =>
    rw [hread] at hle
    cases t.billed with
    | true => exact (List.pairwise_append.mp hle).2.1
    | false =>
      have hor : (adopt base st t key).or st = base.or st := by
        unfold adopt
        cases base with
        | none => split <;> cases st <;> rfl
        | some b => rfl
      refine hle.sublist ?_
      change (((adopt base st t key).or st).toList ++ readings key.2 ts).Sublist _
      rw [hor]
      exact List.Sublist.append_left (List.sublist_cons_self r _) _

theorem settled_or_short (cap : Nat) (h : s.Settled (group, name) base)
    (hst : base = none → s.tracker.store (group, name) = st)
    (hle : ((base.or st).toList ++ readings name ts).Pairwise (· ≤ ·)) :
    (WithinCap cap st (group, name) base ts →
      (s.run cap group ts).Settled (group, name) (ts.foldl (billedUpTo st (group, name)) base)) ∧
    (¬ WithinCap cap st (group, name) base ts →
      ∃ hi, (s.run cap group ts).Short (group, name) hi) := by
  induction ts generalizing s base with
  | nil => exact ⟨fun _ => h, fun hnot => absurd trivial hnot⟩
  | cons t ts ih =>
    have hrest := pairwise_billedUpTo (group, name) hle
    -- the baseline the tick finds is at most what it reads
    have hbound : ∀ r, t.reading name = some r →
        ∀ b, adopt base st t (group, name) = some b → b ≤ r := by
      intro r hread b hb
      rw [readings_cons, hread, List.pairwise_append] at hle
      refine hle.2.2 b ?_ r List.mem_cons_self
      unfold adopt at hb
      cases base with
      | none =>
        rw [Option.none_or, ite_eq_iff] at hb
        obtain ⟨-, rfl⟩ | ⟨-, hnone⟩ := hb
        · simp
        · cases hnone
      | some b' => simpa using hb.symm
    by_cases hcap : ∀ r ∈ t.reading name, ∀ b ∈ adopt base st t (group, name),
        cap = 0 ∨ r - b ≤ cap
    · have hnext : (s.tick cap group t).Settled (group, name)
            (billedUpTo st (group, name) base t) ∧
          (billedUpTo st (group, name) base t = none →
            (s.tick cap group t).tracker.store (group, name) = st) := by
        unfold billedUpTo
        cases hread : t.reading name with
        | none =>
          obtain ⟨-, hstore, -, -⟩ := tick_unread cap group s hread
          exact ⟨h.tick_unread hread, fun hnone => hstore.trans (hst hnone)⟩
        | some r => exact h.tick_read hst hread (hbound r hread) (hcap r hread)
      obtain ⟨hin, hout⟩ := ih hnext.1 hnext.2 hrest
      exact ⟨fun hw => hin hw.2, fun hnot => hout fun hw => hnot ⟨hcap, hw⟩⟩
    · refine ⟨fun hw => absurd hw.1 hcap, fun _ => ?_⟩
      simp only [not_forall] at hcap
      obtain ⟨r, hread, b, hb, hexceeds⟩ := hcap
      obtain ⟨hpos, hlt⟩ : cap ≠ 0 ∧ (cap : Int) < r - b := by omega
      rw [readings_cons, hread] at hle
      have hshort := short_of_exceeds h hst hread hb hpos hlt
      rw [run, List.foldl_cons]
      exact short_run hshort (List.pairwise_append.mp hle).2.1

end Run

/-- A counter grows from one peek to the next: never down, and by at most the cap. -/
def Grows (cap : Nat) (a b : Int) : Prop := a ≤ b ∧ (cap = 0 ∨ b - a ≤ cap)

instance (cap : Nat) : DecidableRel (Grows cap) := fun a b =>
  inferInstanceAs (Decidable (a ≤ b ∧ (cap = 0 ∨ b - a ≤ cap)))

/-- **What a failed bill costs**: nothing exactly if no outage exceeds one cap. -/
theorem billed_in_full_iff_withinCap (cap : Nat) (group : G) (name : String)
    (t₀ : CumulativeByteTracker G) (ts : List (Tick G)) (t : Tick G) (r : Int)
    (hgrows : (((t₀.last (group, name)).or (t₀.store (group, name))).toList ++
      readings name (ts ++ [t])).IsChain (Grows cap))
    (hread : t.reading name = some r) (hbilled : t.billed = true) :
    (∃ f, ((init t₀).run cap group (ts ++ [t])).first (group, name) = some f ∧
        posted (group, name) ((init t₀).run cap group (ts ++ [t])).billed = r - f) ↔
      WithinCap cap (t₀.store (group, name)) (group, name) (t₀.last (group, name))
        (ts ++ [t]) := by
  have hinit : (init t₀).Settled (group, name) (t₀.last (group, name)) := by
    cases hlast : t₀.last (group, name) with
    | none => exact ⟨hlast, hlast, rfl⟩
    | some b => exact ⟨hlast, b, hlast, by simp [init]⟩
  have hpair := List.isChain_iff_pairwise.mp (hgrows.imp fun a b h => h.1)
  have hstore : t₀.last (group, name) = none →
      (init t₀).tracker.store (group, name) = t₀.store (group, name) := fun _ => rfl
  obtain ⟨hin, hout⟩ := settled_or_short cap hinit hstore hpair
  -- the last tick billed, so its reading is what the key's baseline is now
  have hlast : ((init t₀).run cap group (ts ++ [t])).tracker.last (group, name) = some r := by
    rw [run, List.foldl_append, List.foldl_cons, List.foldl_nil,
      (tick_read cap group _ hread).1, if_pos hbilled]
  constructor
  · rintro ⟨f, hf, hp⟩
    by_contra hnot
    obtain ⟨hi, b, f', hb, hf', hshort, -⟩ := hout hnot
    rw [hlast, Option.some_inj] at hb
    rw [hf, Option.some_inj] at hf'
    omega
  · intro hw
    have hsettled := hin hw
    have hupTo : (ts ++ [t]).foldl (billedUpTo (t₀.store (group, name)) (group, name))
        (t₀.last (group, name)) = some r := by
      rw [List.foldl_append, List.foldl_cons, List.foldl_nil, billedUpTo, hread]
      exact if_pos hbilled
    rw [hupTo] at hsettled
    obtain ⟨-, f, hf, hsum⟩ := hsettled
    exact ⟨f, hf, by omega⟩

def aliceTick (total : Int) (billed : Bool) : Tick Int where
  io := ⟨fun _ => false, fun _ => false⟩
  transfer := ⟨[("7.alice", some ⟨total, 0⟩)], by simp⟩
  billed := billed

/-- A tick fails at 100 MiB, and the next one, at 200 MiB, bills nothing. -/
theorem outage_loses_traffic :
    ∃ ts : List (Tick Int), ∃ t : Tick Int,
      (readings "7.alice" (ts ++ [t])).IsChain (Grows 104857600) ∧
      t.reading "7.alice" = some 209715200 ∧ t.billed = true ∧
      ((init ⟨fun _ => none, fun _ => none⟩).run 104857600 1 (ts ++ [t])).first (1, "7.alice")
        = some 0 ∧
      posted (1, "7.alice")
        ((init ⟨fun _ => none, fun _ => none⟩).run 104857600 1 (ts ++ [t])).billed = 0 := by
  refine ⟨[aliceTick 0 true, aliceTick 104857600 false], aliceTick 209715200 true, ?_⟩
  decide

theorem outage_within_cap_billed :
    ∃ f, ((init ⟨fun _ => none, fun _ => none⟩).run 104857600 (1 : Int)
          ([aliceTick 0 true, aliceTick 52428800 false] ++ [aliceTick 104857600 true])).first
            (1, "7.alice") = some f ∧
      posted (1, "7.alice") ((init ⟨fun _ => none, fun _ => none⟩).run 104857600 (1 : Int)
        ([aliceTick 0 true, aliceTick 52428800 false] ++ [aliceTick 104857600 true])).billed
          = 104857600 - f :=
  (billed_in_full_iff_withinCap 104857600 1 "7.alice" ⟨fun _ => none, fun _ => none⟩
    [aliceTick 0 true, aliceTick 52428800 false] (aliceTick 104857600 true) 104857600
    (by decide) rfl rfl).mpr (by decide)

end Metered

end Shahkar.Usage
