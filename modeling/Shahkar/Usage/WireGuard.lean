import Mathlib.Algebra.Order.BigOperators.Group.List
import Shahkar.Lib.Transition
import Shahkar.Usage.Ticks

/-!
The WireGuard collector of `app/wireguard/usage.py` adds the counters of a key on several interfaces
up *before* the tracker sees them, and skips an interface whose read fails.
-/

namespace Shahkar.Usage

open Shahkar.Lib

inductive Source
  | plain (iface : String)
  | autoscale (iface : String)
  deriving Repr, DecidableEq

inductive Outcome
  | ok
  | empty
  | raised
  deriving Repr, DecidableEq

structure Plan where
  interfaces : List String
  autoscale : Option (List String)

def Plan.sources (plan : Plan) : List Source :=
  (plan.autoscale.getD []).map .autoscale ++ plan.interfaces.map .plain

structure WgTick where
  io : StoreIO Int
  client : Bool
  autoscaleClient : Bool
  holds : Source → Transfer
  outcome : Source → Outcome
  billed : Bool

def WgTick.transfer (t : WgTick) (src : Source) : Option Transfer :=
  match t.outcome src with
  | .ok => some (t.holds src)
  | .empty => some Dict.empty
  | .raised => none

def mergePeer (combined : Dict String Counters) (e : String × Option Counters) :
    Option (Dict String Counters) :=
  e.2.map fun counters =>
    let prev := (combined.get? e.1).getD ⟨0, 0⟩
    combined.set e.1 ⟨prev.rx + counters.rx, prev.tx + counters.tx⟩

def mergePart (combined : Dict String Counters) (part : Transfer) :
    Option (Dict String Counters) :=
  part.entries.foldlM mergePeer combined

def collectAutoscaleTransfer (t : WgTick) (names : List String) :
    Option (Dict String Counters) :=
  if t.autoscaleClient then
    names.foldlM (fun merged name => (t.transfer (.autoscale name)).bind (mergePart merged))
      Dict.empty
  else some Dict.empty

def collectInterfaces (t : WgTick) (ifaces : List String) (combined : Dict String Counters) :
    Option (Dict String Counters) :=
  ifaces.foldlM (fun combined iface =>
    match t.transfer (.plain iface) with
    | none => some combined
    | some part => mergePart combined part) combined

def autoscalePart (plan : Plan) (t : WgTick) : Dict String Counters :=
  match plan.autoscale with
  | none => Dict.empty
  | some names => (collectAutoscaleTransfer t names).getD Dict.empty

def collectOne (plan : Plan) (t : WgTick) : Option (Dict String Counters) :=
  if t.client = false ∧ plan.autoscale = none then none
  else
    let combined :=
      if t.client then collectInterfaces t plan.interfaces (autoscalePart plan t)
      else some (autoscalePart plan t)
    combined.filter fun combined => combined.entries ≠ []

def collected (plan : Plan) (t : WgTick) : Transfer :=
  ((collectOne plan t).getD Dict.empty).mapVal some

def counter (pk : String) (part : Transfer) : Int :=
  (((part.get? pk).join).map Counters.total).getD 0

def tally (pk : String) (combined : Dict String Counters) : Int :=
  ((combined.get? pk).map Counters.total).getD 0

@[simp] theorem tally_empty (pk : String) : tally pk Dict.empty = 0 := rfl

def seen (t : WgTick) (pk : String) (src : Source) : Int :=
  (t.transfer src).elim 0 (counter pk)

variable {pk : String} {t : WgTick} {combined combined' : Dict String Counters}

theorem seen_le {src : Source} (h : 0 ≤ counter pk (t.holds src)) :
    seen t pk src ≤ counter pk (t.holds src) := by
  unfold seen WgTick.transfer
  cases t.outcome src with
  | ok => exact Int.le_refl _
  | empty => exact h
  | raised => exact h

theorem tally_mergePart {part : Transfer} (h : mergePart combined part = some combined') :
    tally pk combined' = tally pk combined + counter pk part := by
  have hlist : ∀ {es : List (String × Option Counters)} {combined : Dict String Counters},
      (es.map Prod.fst).Nodup →
      es.foldlM mergePeer combined = some combined' →
      tally pk combined' =
        tally pk combined + ((((es.lookup pk).join).map Counters.total).getD 0) := by
    intro es
    induction es with
    | nil =>
      intro combined _ h
      obtain rfl : combined = combined' := Option.some.inj h
      simp
    | cons e rest ih =>
      intro combined hnodup h
      rw [List.map_cons, List.nodup_cons] at hnodup
      rw [List.foldlM_cons] at h
      obtain ⟨next, hnext, hrest⟩ := Option.bind_eq_some_iff.mp h
      obtain ⟨c, hc, rfl⟩ := Option.map_eq_some_iff.mp hnext
      rw [ih hnodup.2 hrest, tally, Dict.get?_set, List.lookup_cons]
      by_cases hpk : pk = e.1
      · -- the key is read here and, keys being distinct, nowhere further on
        have hlook : rest.lookup pk = none := by
          rw [List.lookup_eq_none_iff]
          intro e' he'
          rw [bne_iff_ne]
          exact fun heq => hnodup.1 (hpk ▸ heq ▸ List.mem_map_of_mem he')
        rw [if_pos hpk, hlook, ← hpk, beq_self_eq_true, hc, tally]
        cases combined.get? pk with
        | none => simp [Counters.total]
        | some prev => simp [Counters.total]; omega
      · rw [if_neg hpk, beq_eq_false_iff_ne.mpr hpk]
        rfl
  exact hlist part.nodup h

theorem tally_collectInterfaces {ifaces : List String}
    (h : collectInterfaces t ifaces combined = some combined') :
    tally pk combined' =
      tally pk combined + ((ifaces.map Source.plain).map (seen t pk)).sum := by
  unfold collectInterfaces at h
  induction ifaces generalizing combined with
  | nil =>
    obtain rfl : combined = combined' := Option.some.inj h
    simp
  | cons iface rest ih =>
    rw [List.foldlM_cons] at h
    obtain ⟨next, hnext, hrest⟩ := Option.bind_eq_some_iff.mp h
    rw [ih hrest, List.map_cons, List.map_cons, List.sum_cons, seen]
    cases hread : t.transfer (.plain iface) with
    | none =>
      rw [hread] at hnext
      obtain rfl : combined = next := Option.some.inj hnext
      simp
    | some part =>
      rw [hread] at hnext
      rw [tally_mergePart hnext, Option.elim_some, add_assoc]

theorem tally_collectAutoscaleTransfer {names : List String} {merged : Dict String Counters}
    (h : collectAutoscaleTransfer t names = some merged) :
    tally pk merged =
      if t.autoscaleClient then ((names.map Source.autoscale).map (seen t pk)).sum else 0 := by
  have hlist : ∀ {names : List String} {m : Dict String Counters},
      names.foldlM (fun merged name => (t.transfer (.autoscale name)).bind (mergePart merged)) m
        = some merged →
      tally pk merged = tally pk m + ((names.map Source.autoscale).map (seen t pk)).sum := by
    intro names
    induction names with
    | nil =>
      intro m h
      obtain rfl : m = merged := Option.some.inj h
      simp
    | cons name rest ih =>
      intro m h
      rw [List.foldlM_cons] at h
      obtain ⟨next, hnext, hrest⟩ := Option.bind_eq_some_iff.mp h
      obtain ⟨part, hread, hmerge⟩ := Option.bind_eq_some_iff.mp hnext
      rw [ih hrest, tally_mergePart hmerge, List.map_cons, List.map_cons, List.sum_cons, seen,
        hread, Option.elim_some, add_assoc]
  unfold collectAutoscaleTransfer at h
  by_cases hclient : t.autoscaleClient = true
  · rw [if_pos hclient] at h ⊢
    rw [hlist h, tally_empty, zero_add]
  · rw [if_neg hclient] at h ⊢
    rw [← Option.some.inj h, tally_empty]

def held (pk : String) (holds : Source → Transfer) (srcs : List Source) : Int :=
  (srcs.map fun src => counter pk (holds src)).sum

section Bound

variable {plan : Plan} {t : WgTick} {pk : String} {srcs : List Source}

theorem held_nonneg (h : ∀ src ∈ srcs, 0 ≤ counter pk (t.holds src)) :
    0 ≤ held pk t.holds srcs := by
  refine List.sum_nonneg fun n hn => ?_
  obtain ⟨src, hsrc, rfl⟩ := List.mem_map.mp hn
  exact h src hsrc

theorem sum_seen_le_held (h : ∀ src ∈ srcs, 0 ≤ counter pk (t.holds src)) :
    (srcs.map (seen t pk)).sum ≤ held pk t.holds srcs :=
  List.sum_le_sum fun src hsrc => seen_le (h src hsrc)

theorem tally_autoscalePart_le
    (h : ∀ src ∈ (plan.autoscale.getD []).map Source.autoscale, 0 ≤ counter pk (t.holds src)) :
    tally pk (autoscalePart plan t) ≤
      held pk t.holds ((plan.autoscale.getD []).map Source.autoscale) := by
  unfold autoscalePart
  cases hplan : plan.autoscale with
  | none => exact Int.le_refl 0
  | some names =>
    rw [hplan] at h
    dsimp only
    cases hread : collectAutoscaleTransfer t names with
    | none => exact held_nonneg h
    | some merged =>
      rw [Option.getD_some, tally_collectAutoscaleTransfer hread]
      split
      · exact sum_seen_le_held h
      · exact held_nonneg h

theorem tally_collectOne_le (h : ∀ src ∈ plan.sources, 0 ≤ counter pk (t.holds src)) :
    tally pk ((collectOne plan t).getD Dict.empty) ≤ held pk t.holds plan.sources := by
  cases hone : collectOne plan t with
  | none => exact held_nonneg h
  | some combined =>
    obtain ⟨hauto, hplain⟩ := List.forall_mem_append.mp h
    have hstart := tally_autoscalePart_le hauto
    unfold collectOne at hone
    split at hone
    · cases hone
    · obtain ⟨hcombined, -⟩ := Option.filter_eq_some_iff.mp hone
      rw [Option.getD_some, held, Plan.sources, List.map_append, List.sum_append]
      split at hcombined
      · rw [tally_collectInterfaces hcombined]
        exact add_le_add hstart (sum_seen_le_held hplain)
      · obtain rfl := Option.some.inj hcombined
        exact le_add_of_le_of_nonneg hstart (held_nonneg hplain)

end Bound

/-- The metered tracker, what the interfaces held when each key's first baseline was recorded, and
what they hold now. -/
structure WgMetered where
  metered : Metered Int
  start : String → Option (Source → Transfer)
  latest : Source → Transfer

namespace WgMetered

def init (t₀ : CumulativeByteTracker Int) : WgMetered where
  metered := .init t₀
  start := fun _ => none
  latest := fun _ => Dict.empty

def tickOf (plan : Plan) (t : WgTick) : Tick Int := ⟨t.io, collected plan t, t.billed⟩

def tick (cap : Nat) (plan : Plan) (node : Int) (s : WgMetered) (t : WgTick) : WgMetered :=
  let metered := s.metered.tick cap node (tickOf plan t)
  { metered := metered
    start := fun pk =>
      (s.start pk).or (if (metered.tracker.last (node, pk)).isSome then some t.holds else none)
    latest := t.holds }

/-- No interface's counter for the key goes down. -/
def CountersGrow (plan : Plan) (pk : String) (s : WgMetered) (t : WgTick) : Prop :=
  ∀ src ∈ plan.sources, counter pk (s.latest src) ≤ counter pk (t.holds src)

/-- A reading that is about to become the first baseline is complete, and a later one does not fall
below the baseline. -/
def ReadCovers (plan : Plan) (node : Int) (pk : String) (s : WgMetered) (t : WgTick) : Prop :=
  ∀ r ∈ (tickOf plan t).reading pk,
    (s.metered.tracker.baseline t.io (node, pk) = none → t.billed = true →
      r = held pk t.holds plan.sources) ∧
    ∀ b ∈ s.metered.tracker.baseline t.io (node, pk), b ≤ r

instance (plan : Plan) (pk : String) (s : WgMetered) (t : WgTick) :
    Decidable (CountersGrow plan pk s t) :=
  inferInstanceAs (Decidable (∀ src ∈ plan.sources,
    counter pk (s.latest src) ≤ counter pk (t.holds src)))

instance (plan : Plan) (node : Int) (pk : String) (s : WgMetered) (t : WgTick) :
    Decidable (ReadCovers plan node pk s t) :=
  inferInstanceAs (Decidable (∀ r ∈ (tickOf plan t).reading pk,
    (s.metered.tracker.baseline t.io (node, pk) = none → t.billed = true →
      r = held pk t.holds plan.sources) ∧
    ∀ b ∈ s.metered.tracker.baseline t.io (node, pk), b ≤ r))

def growth (plan : Plan) (pk : String) (s : WgMetered) : Int :=
  match s.start pk with
  | none => 0
  | some start => (plan.sources.map fun src =>
    counter pk (s.latest src) - counter pk (start src)).sum

def Covered (plan : Plan) (node : Int) (pk : String) (s : WgMetered) : Prop :=
  (s.start pk = none ∧ s.metered.tracker.last (node, pk) = none ∧
    s.metered.tracker.store (node, pk) = none ∧ posted (node, pk) s.metered.billed = 0) ∨
  ∃ start b, s.start pk = some start ∧ s.metered.tracker.last (node, pk) = some b ∧
    posted (node, pk) s.metered.billed + held pk start plan.sources ≤ b ∧
    b ≤ held pk s.latest plan.sources

section Run

variable {cap : Nat} {plan : Plan} {node : Int} {pk : String} {s : WgMetered} {t : WgTick}

theorem reading_tickOf (plan : Plan) (t : WgTick) (pk : String) : (tickOf plan t).reading pk =
      (((collectOne plan t).getD Dict.empty).get? pk).map Counters.total := by
  rw [Tick.reading, tickOf, collected, Dict.get?_mapVal]
  cases ((collectOne plan t).getD Dict.empty).get? pk with
  | none => rfl
  | some c => rfl

theorem reading_le_held {r : Int} (h : ∀ src ∈ plan.sources, 0 ≤ counter pk (t.holds src))
    (hread : (tickOf plan t).reading pk = some r) : r ≤ held pk t.holds plan.sources := by
  have hle := tally_collectOne_le h
  rw [reading_tickOf] at hread
  rwa [tally, hread, Option.getD_some] at hle

theorem held_mono {a b : Source → Transfer}
    (h : ∀ src ∈ plan.sources, counter pk (a src) ≤ counter pk (b src)) :
    held pk a plan.sources ≤ held pk b plan.sources :=
  List.sum_le_sum h

theorem tick_start (cap : Nat) (plan : Plan) (node : Int) (s : WgMetered) (t : WgTick)
    (pk : String) : (s.tick cap plan node t).start pk = (s.start pk).or
      (if ((s.metered.tick cap node (tickOf plan t)).tracker.last (node, pk)).isSome
        then some t.holds else none) := rfl

theorem covered_tick (hcov : s.Covered plan node pk)
    (hpos : ∀ src ∈ plan.sources, 0 ≤ counter pk (t.holds src))
    (hgrow : CountersGrow plan pk s t) (hread : ReadCovers plan node pk s t) :
    (s.tick cap plan node t).Covered plan node pk := by
  have hmono := held_mono hgrow
  have hstart := tick_start cap plan node s t pk
  change _ ∨ ∃ start b, _ ∧ (s.metered.tick cap node (tickOf plan t)).tracker.last _ = _ ∧
    posted _ (s.metered.tick cap node (tickOf plan t)).billed + _ ≤ _ ∧ _ ≤ held pk t.holds _
  cases hr : (tickOf plan t).reading pk with
  | none =>
    obtain ⟨hlast, hstore, hposted, -⟩ := Metered.tick_unread cap node s.metered hr
    rcases hcov with ⟨hs, hl, hst, hp⟩ | ⟨start, b, hs, hl, hp, hle⟩
    · rw [hs, hlast, hl] at hstart
      exact .inl ⟨hstart, hlast.trans hl, hstore.trans hst, hposted.trans hp⟩
    · rw [hs] at hstart
      exact .inr ⟨start, b, hstart, hlast.trans hl, hposted ▸ hp, hle.trans hmono⟩
  | some r =>
    have hcovers := hread r hr
    have hrle := reading_le_held hpos hr
    rcases hcov with ⟨hs, hl, hst, hp⟩ | ⟨start, b, hs, hl, hp, hle⟩
    · -- no baseline yet: a commit makes the reading the first one, and it is complete
      have hbase : s.metered.tracker.baseline t.io (node, pk) = none := by
        simp [CumulativeByteTracker.baseline, hl, hst]
      obtain ⟨hposted, hlast, hstore⟩ := Metered.tick_of_none cap hr hbase
      rw [hs, hlast] at hstart
      have hflag : (tickOf plan t).billed = t.billed := rfl
      cases hbilled : t.billed with
      | true =>
        rw [hflag, hbilled] at hstart hlast
        refine .inr ⟨t.holds, r, hstart, hlast, ?_, hrle⟩
        rw [hposted, hp, zero_add]
        exact (hcovers.1 hbase hbilled).ge
      | false =>
        rw [hflag, hbilled] at hstart hlast
        exact .inl ⟨hstart, hlast, (hstore hbilled).trans hst, hposted.trans hp⟩
    · -- the baseline moves at least as far as the bill, and not past the reading
      have hbase : s.metered.tracker.baseline t.io (node, pk) = some b := by
        simp [CumulativeByteTracker.baseline, hl]
      obtain ⟨b', hlast, hle', hpaid⟩ := Metered.tick_of_le cap hr hbase (hcovers.2 b hbase)
      rw [hs] at hstart
      exact .inr ⟨start, b', hstart, hlast, by omega, hle'.trans hrle⟩

def step (cap : Nat) (plan : Plan) (node : Int) (s : WgMetered) (t : WgTick) :
    Option WgMetered :=
  some (s.tick cap plan node t)

/-- **Partial reads never over-bill** if they cover the recorded baselines. -/
theorem billed_le_growth (cap : Nat) (plan : Plan) (node : Int) (pk : String)
    (t₀ : CumulativeByteTracker Int) (hlast : t₀.last (node, pk) = none)
    (hstore : t₀.store (node, pk) = none) (s : WgMetered)
    (hrun : Lib.Run (step cap plan node)
      (fun s t => CountersGrow plan pk s t ∧ ReadCovers plan node pk s t) (init t₀) s) :
    posted (node, pk) s.metered.billed ≤ s.growth plan pk := by
  -- counters start at zero and never go down, so they are never negative
  have hinv : s.Covered plan node pk ∧ ∀ src ∈ plan.sources, 0 ≤ counter pk (s.latest src) := by
    refine Lib.Run.invariant (fun s => s.Covered plan node pk ∧
      ∀ src ∈ plan.sources, 0 ≤ counter pk (s.latest src))
      ?_ ?_ hrun
    · exact ⟨.inl ⟨rfl, hlast, hstore, rfl⟩, fun _ _ => Int.le_refl 0⟩
    · rintro s s' t ⟨hcov, hpos⟩ ⟨hgrow, hread⟩ hs
      obtain rfl := Option.some.inj hs
      have hpos' : ∀ src ∈ plan.sources, 0 ≤ counter pk (t.holds src) := fun src hsrc =>
        (hpos src hsrc).trans (hgrow src hsrc)
      exact ⟨covered_tick hcov hpos' hgrow hread, hpos'⟩
  rw [growth]
  rcases hinv.1 with ⟨hs, -, -, hp⟩ | ⟨start, b, hs, -, hp, hle⟩
  · rw [hs, hp]
  · have hsum : (plan.sources.map fun src =>
        counter pk (s.latest src) - counter pk (start src)).sum + held pk start plan.sources
          = held pk s.latest plan.sources := by
      rw [held, ← List.sum_map_add]
      simp only [sub_add_cancel]
      rfl
    rw [hs]
    dsimp only
    omega

end Run

def twoInterfaces : Plan := ⟨["wg0", "awg0"], none⟩

def twoTick (a b : Int) (awg : Outcome) : WgTick where
  io := ⟨fun _ => false, fun _ => false⟩
  client := true
  autoscaleClient := false
  holds := fun src =>
    if src = .plain "wg0" then ⟨[("pk", some ⟨a, 0⟩)], by simp⟩
    else ⟨[("pk", some ⟨b, 0⟩)], by simp⟩
  outcome := fun src => if src = .plain "awg0" then awg else .ok
  billed := true

/-- The read of `awg0` fails once, and 60 bytes that never flowed are billed. -/
theorem partial_read_overbills :
    ∃ s, Lib.Run (step 104857600 twoInterfaces 1)
        (fun s t => ∀ src ∈ twoInterfaces.sources,
          counter "pk" (s.latest src) ≤ counter "pk" (t.holds src) ∧
          counter "pk" (t.holds src) - counter "pk" (s.latest src) ≤ 104857600)
        (init ⟨fun _ => none, fun _ => none⟩) s ∧
      s.growth twoInterfaces "pk" = 0 ∧ posted (1, "pk") s.metered.billed = 60 := by
  refine ⟨_, Lib.Run.of_execGuarded [twoTick 60 50 .ok, twoTick 60 50 .raised] rfl,
    ?_, ?_⟩
  · decide
  · decide

/-- The read of `awg0` fails, but what `wg0` has alone is not below the baseline. -/
theorem covering_reads_billed :
    ∃ s : WgMetered, s.growth twoInterfaces "pk" = 95 ∧
      posted (1, "pk") s.metered.billed = 95 ∧
      posted (1, "pk") s.metered.billed ≤ s.growth twoInterfaces "pk" := by
  refine ⟨_, ?_, ?_, billed_le_growth 104857600 twoInterfaces 1 "pk"
    ⟨fun _ => none, fun _ => none⟩ rfl rfl _ (Lib.Run.of_execGuarded
      [twoTick 60 50 .ok, twoTick 120 60 .raised, twoTick 130 75 .ok] rfl)⟩
  · decide
  · decide

end WgMetered

end Shahkar.Usage
