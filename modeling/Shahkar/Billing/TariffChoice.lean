import Mathlib.Data.Prod.Lex
import Mathlib.Data.Set.Finite.Lemmas
import Mathlib.Data.Set.Finite.List
import Shahkar.Billing.ResellerTariffs
import Shahkar.Lib.Least

/-!
# Which tariff a request falls under, said without the order of the catalog

`match_tariff` sorts and snaps; what comes out is the least tariff of a ranking: first by the
distance of its duration from the requested one, then by its duration, its price and its id.
-/

namespace Shahkar.Billing

open Shahkar.Db Shahkar.Lib

/-!
### Rankings
-/

def nearRank (want day : Int) : ℕ ×ₗ Int := toLex ((day - want).natAbs, day)

def cheapRank (t : ResellerPlanTariff) : Int ×ₗ ℕ := toLex (t.price, t.id)

theorem nearRank_le_iff {want a b : Int} : nearRank want a ≤ nearRank want b ↔
    (a - want).natAbs < (b - want).natAbs ∨ ((a - want).natAbs = (b - want).natAbs ∧ a ≤ b) :=
  Prod.Lex.toLex_le_toLex

theorem nearRank_injective (want : Int) : Function.Injective (nearRank want) := by
  intro a b h
  exact (Prod.mk.inj (toLex.injective h)).2

theorem cheapRank_le_iff {s t : ResellerPlanTariff} : cheapRank s ≤ cheapRank t ↔ cheaperLe s t :=
  Prod.Lex.toLex_le_toLex

structure OfVolume (d : Database) (dataLimit : Option Int) (t : ResellerPlanTariff) : Prop where
  mem : t ∈ d.tariffs
  enabled : t.enabled
  volume : normalizeDataLimit t.dataLimit = normalizeDataLimit dataLimit

/-- The durations of a tariff that a request for `want` days may fall under. -/
def Near (want day : Int) : Prop := (day - want).natAbs ≤ 1

instance (want day : Int) : Decidable (Near want day) := inferInstanceAs (Decidable (_ ≤ 1))

/-- The tariff for a number of days: the nearest duration, then the cheapest tariff of it. -/
def TimedChoice (d : Database) (dataLimit : Option Int) (want : Int) (t : ResellerPlanTariff) :
    Prop :=
  ∃ day, OfVolume d dataLimit t ∧ t.durationDays = some day ∧ Near want day ∧
    ∀ t' day', OfVolume d dataLimit t' → t'.durationDays = some day' → Near want day' →
      nearRank want day < nearRank want day' ∨ (day = day' ∧ cheapRank t ≤ cheapRank t')

/-- The tariff for an account without an end: the cheapest one without an end. -/
def OpenChoice (d : Database) (dataLimit : Option Int) (t : ResellerPlanTariff) : Prop :=
  OfVolume d dataLimit t ∧ t.durationDays = none ∧
    ∀ t', OfVolume d dataLimit t' → t'.durationDays = none → cheapRank t ≤ cheapRank t'

/-!
### The snapped duration
-/

theorem snapDurationToCatalog_eq_and_mem_iff (want day : Int) {catalog : List Int}
    (hpos : ∀ day ∈ catalog, 0 < day) :
    snapDurationToCatalog want catalog = day ∧ day ∈ catalog ↔
      day ∈ catalog ∧ Near want day ∧
        ∀ day' ∈ catalog, Near want day' → nearRank want day ≤ nearRank want day' := by
  have hcatalog : catalog.filter (0 < ·) = catalog :=
    List.filter_eq_self.mpr fun day hday => decide_eq_true (hpos day hday)
  unfold snapDurationToCatalog
  dsimp only
  rw [hcatalog]
  by_cases hwant : want ∈ catalog
  · rw [if_pos (.inr hwant)]
    constructor
    · intro h
      obtain ⟨rfl, hmem⟩ := h
      refine ⟨hmem, by simp [Near], fun day' _ _ => ?_⟩
      rw [nearRank_le_iff]
      omega
    · intro h
      obtain ⟨hmem, -, hleast⟩ := h
      have hle := nearRank_le_iff.mp (hleast want hwant (by simp [Near]))
      exact ⟨by omega, hmem⟩
  · by_cases hempty : catalog = []
    · simp [hempty]
    · rw [if_neg (not_or.mpr ⟨hempty, hwant⟩)]
      have hhead : ∀ z, ((catalog.filter fun day => (day - want).natAbs ≤ 1).insertionSort fun a b =>
          (a - want).natAbs < (b - want).natAbs ∨
            ((a - want).natAbs = (b - want).natAbs ∧ a ≤ b)).head? = some z ↔
          z ∈ catalog ∧ Near want z ∧
            ∀ day' ∈ catalog, Near want day' → nearRank want z ≤ nearRank want day' := by
        intro z
        rw [head?_insertionSort_eq_some_iff (nearRank want)
          (fun a b => nearRank_le_iff.symm) fun a _ b _ h => nearRank_injective want h]
        simp [Near, and_assoc]
      rw [← hhead]
      cases hsorted : ((catalog.filter fun day => (day - want).natAbs ≤ 1).insertionSort fun a b =>
          (a - want).natAbs < (b - want).natAbs ∨
            ((a - want).natAbs = (b - want).natAbs ∧ a ≤ b)).head? with
      | none =>
        simp only [Option.getD_none, reduceCtorEq, iff_false, not_and]
        intro h
        subst h
        exact hwant
      | some z =>
        rw [Option.getD_some, Option.some.injEq, and_iff_left_iff_imp]
        intro h
        subst h
        exact ((hhead z).mp hsorted).1

def DistinctIds (d : Database) : Prop :=
  ∀ s ∈ d.tariffs, ∀ t ∈ d.tariffs, s.enabled → t.enabled → s.id = t.id → s = t

def PositiveDurations (d : Database) : Prop :=
  ∀ t ∈ d.tariffs, t.enabled → ∀ day, t.durationDays = some day → 0 < day

section Match

variable {d : Database} {dataLimit : Option Int} {t : ResellerPlanTariff}

theorem mem_sameVolume_iff : t ∈ ((listTariffs d).filter fun t =>
    normalizeDataLimit t.dataLimit = normalizeDataLimit dataLimit) ↔ OfVolume d dataLimit t := by
  simp only [List.mem_filter, mem_listTariffs, decide_eq_true_eq]
  exact ⟨fun h => ⟨h.1.1, h.1.2, h.2⟩, fun h => ⟨⟨h.mem, h.enabled⟩, h.volume⟩⟩

theorem cheapest_eq_some_iff (hids : DistinctIds d) (p : ResellerPlanTariff → Bool) :
    ((((listTariffs d).filter fun t => normalizeDataLimit t.dataLimit =
        normalizeDataLimit dataLimit).filter p).insertionSort cheaperLe).head? = some t ↔
      (OfVolume d dataLimit t ∧ p t) ∧
        ∀ t', OfVolume d dataLimit t' ∧ p t' → cheapRank t ≤ cheapRank t' := by
  have hmem : ∀ t', t' ∈ (((listTariffs d).filter fun t => normalizeDataLimit t.dataLimit =
      normalizeDataLimit dataLimit).filter p) ↔ OfVolume d dataLimit t' ∧ p t' := by
    intro t'
    rw [List.mem_filter, mem_sameVolume_iff]
  rw [head?_insertionSort_eq_some_iff cheapRank (fun a b => cheapRank_le_iff.symm)]
  · simp only [hmem]
  · intro a ha b hb h
    have ha := ((hmem a).mp ha).1
    have hb := ((hmem b).mp hb).1
    exact hids a ha.mem b hb.mem ha.enabled hb.enabled (Prod.mk.inj (toLex.injective h)).2

theorem matchTariff_eq_some_iff_of_timed {want : Int} (hids : DistinctIds d)
    (hdurations : PositiveDurations d) (hwant : 0 < want) :
    matchTariff d dataLimit (some want) = some t ↔ TimedChoice d dataLimit want t := by
  have hnormal : normalizeDurationDays (some want) = some want := by
    simp [normalizeDurationDays, hwant]
  have hcatalog : ∀ day, day ∈ (((listTariffs d).filter fun t => normalizeDataLimit t.dataLimit =
      normalizeDataLimit dataLimit).filterMap fun t => normalizeDurationDays t.durationDays) ↔
      ∃ t', OfVolume d dataLimit t' ∧ t'.durationDays = some day := by
    intro day
    simp only [List.mem_filterMap, mem_sameVolume_iff, normalizeDurationDays,
      Option.filter_eq_some_iff, decide_eq_true_eq]
    refine exists_congr fun t' => and_congr_right fun ht' => and_iff_left_iff_imp.mpr fun hday => ?_
    exact hdurations t' ht'.mem ht'.enabled day hday
  have hsnap := fun day => snapDurationToCatalog_eq_and_mem_iff want day fun day' hday' => by
    obtain ⟨t', ht', hday'⟩ := (hcatalog day').mp hday'
    exact hdurations t' ht'.mem ht'.enabled day' hday'
  unfold matchTariff
  simp only [hnormal]
  rw [cheapest_eq_some_iff hids]
  generalize hsnapped : snapDurationToCatalog want _ = snapped at hsnap ⊢
  simp only [hcatalog] at hsnap
  simp only [decide_eq_true_eq]
  constructor
  · intro h
    obtain ⟨⟨ht, hday⟩, hcheap⟩ := h
    obtain ⟨-, hnear, hleast⟩ := (hsnap snapped).mp ⟨rfl, t, ht, hday⟩
    refine ⟨snapped, ht, hday, hnear, fun t' day' ht' hday' hnear' => ?_⟩
    rcases (hleast day' ⟨t', ht', hday'⟩ hnear').lt_or_eq with hlt | heq
    · exact .inl hlt
    · obtain rfl := nearRank_injective want heq
      exact .inr ⟨rfl, hcheap t' ⟨ht', hday'⟩⟩
  · intro h
    obtain ⟨day, ht, hday, hnear, hbest⟩ := h
    have hleast : ∀ day', (∃ t', OfVolume d dataLimit t' ∧ t'.durationDays = some day') →
        Near want day' → nearRank want day ≤ nearRank want day' := by
      intro day' hex hnear'
      obtain ⟨t', ht', hday'⟩ := hex
      rcases hbest t' day' ht' hday' hnear' with hlt | ⟨rfl, -⟩
      · exact hlt.le
      · exact le_rfl
    obtain ⟨rfl, -⟩ := (hsnap day).mpr ⟨⟨t, ht, hday⟩, hnear, hleast⟩
    refine ⟨⟨ht, hday⟩, fun t' ht' => ?_⟩
    rcases hbest t' snapped ht'.1 ht'.2 hnear with hlt | ⟨-, hcheap⟩
    · exact absurd hlt (lt_irrefl _)
    · exact hcheap

theorem matchTariff_eq_some_iff_of_open {durationDays : Option Int} (hids : DistinctIds d)
    (hopen : normalizeDurationDays durationDays = none) :
    matchTariff d dataLimit durationDays = some t ↔ OpenChoice d dataLimit t := by
  unfold matchTariff
  simp only [hopen]
  rw [cheapest_eq_some_iff hids]
  simp only [Option.isNone_iff_eq_none, OpenChoice, and_assoc, and_imp]

theorem finite_ofVolume (d : Database) (dataLimit : Option Int) :
    {t | OfVolume d dataLimit t}.Finite :=
  d.tariffs.finite_toSet.subset fun _ ht => ht.mem

theorem exists_timedChoice {want day : Int} (ht : OfVolume d dataLimit t)
    (hday : t.durationDays = some day) (hnear : Near want day) :
    ∃ t', TimedChoice d dataLimit want t' := by
  -- The candidates, ranked by duration and price at once.
  obtain ⟨best, ⟨hvolume, bestDay, hbestDay, hbestNear⟩, hleast⟩ := Set.exists_min_image
    {t' | OfVolume d dataLimit t' ∧ ∃ day', t'.durationDays = some day' ∧ Near want day'}
    (fun t' => toLex (nearRank want (t'.durationDays.getD 0), cheapRank t'))
    ((finite_ofVolume d dataLimit).subset fun _ h => h.1) ⟨t, ht, day, hday, hnear⟩
  refine ⟨best, bestDay, hvolume, hbestDay, hbestNear, fun t' day' ht' hday' hnear' => ?_⟩
  have hle := hleast t' ⟨ht', day', hday', hnear'⟩
  rw [Prod.Lex.toLex_le_toLex] at hle
  simp only [hbestDay, hday', Option.getD_some] at hle
  exact hle.imp_right fun h => ⟨nearRank_injective want h.1, h.2⟩

theorem exists_openChoice (ht : OfVolume d dataLimit t) (hopen : t.durationDays = none) :
    ∃ t', OpenChoice d dataLimit t' := by
  obtain ⟨best, ⟨hvolume, hbestOpen⟩, hleast⟩ := Set.exists_min_image
    {t' | OfVolume d dataLimit t' ∧ t'.durationDays = none} cheapRank
    ((finite_ofVolume d dataLimit).subset fun _ h => h.1) ⟨t, ht, hopen⟩
  exact ⟨best, hvolume, hbestOpen, fun t' ht' hopen' => hleast t' ⟨ht', hopen'⟩⟩

theorem ofVolume_perm {d' : Database} (hperm : d'.tariffs.Perm d.tariffs) :
    OfVolume d' dataLimit t ↔ OfVolume d dataLimit t :=
  ⟨fun h => ⟨hperm.mem_iff.mp h.mem, h.enabled, h.volume⟩,
    fun h => ⟨hperm.mem_iff.mpr h.mem, h.enabled, h.volume⟩⟩

theorem snapDurationToCatalog_congr (want : Int) {catalog catalog' : List Int}
    (hmem : ∀ day, day ∈ catalog ↔ day ∈ catalog') :
    snapDurationToCatalog want catalog = snapDurationToCatalog want catalog' := by
  have hpositive : ∀ day, day ∈ catalog.filter (0 < ·) ↔ day ∈ catalog'.filter (0 < ·) := by
    intro day
    simp only [List.mem_filter, hmem]
  have hempty : catalog.filter (0 < ·) = [] ↔ catalog'.filter (0 < ·) = [] := by
    simp only [List.eq_nil_iff_forall_not_mem, hpositive]
  unfold snapDurationToCatalog
  simp only [hempty, hpositive]
  split
  · rfl
  · rw [head?_insertionSort_congr (nearRank want) (fun a b => nearRank_le_iff.symm) (fun day => ?_)
      fun a _ b _ h => nearRank_injective want h]
    simp only [List.mem_filter, hmem]

theorem matchTariff_perm {d' : Database} (hids : DistinctIds d)
    (hperm : d'.tariffs.Perm d.tariffs) (dataLimit durationDays : Option Int) :
    matchTariff d' dataLimit durationDays = matchTariff d dataLimit durationDays := by
  have hids' : DistinctIds d' := fun s hs t ht =>
    hids s (hperm.mem_iff.mp hs) t (hperm.mem_iff.mp ht)
  have hcheapest : ∀ p : ResellerPlanTariff → Bool,
      ((((listTariffs d').filter fun t => normalizeDataLimit t.dataLimit =
        normalizeDataLimit dataLimit).filter p).insertionSort cheaperLe).head? =
      ((((listTariffs d).filter fun t => normalizeDataLimit t.dataLimit =
        normalizeDataLimit dataLimit).filter p).insertionSort cheaperLe).head? := by
    intro p
    ext t
    rw [cheapest_eq_some_iff hids', cheapest_eq_some_iff hids]
    simp only [ofVolume_perm hperm]
  unfold matchTariff
  cases normalizeDurationDays durationDays with
  | none => exact hcheapest _
  | some want =>
    dsimp only
    rw [hcheapest, snapDurationToCatalog_congr want fun day => ?_]
    simp only [List.mem_filterMap, mem_sameVolume_iff, ofVolume_perm hperm]

end Match

/-- **`match_tariff` is the least tariff of the ranking**, in whatever order. -/
theorem match_tariff_least (d : Database) (hids : DistinctIds d) (hdurations : PositiveDurations d)
    (dataLimit : Option Int) :
    (∀ want, 0 < want →
      (∀ t, matchTariff d dataLimit (some want) = some t ↔ TimedChoice d dataLimit want t) ∧
      (matchTariff d dataLimit (some want) = none ↔
        ∀ t day, OfVolume d dataLimit t → t.durationDays = some day → ¬ Near want day)) ∧
    (∀ durationDays, normalizeDurationDays durationDays = none →
      (∀ t, matchTariff d dataLimit durationDays = some t ↔ OpenChoice d dataLimit t) ∧
      (matchTariff d dataLimit durationDays = none ↔
        ∀ t, OfVolume d dataLimit t → t.durationDays ≠ none)) ∧
    ∀ d' : Database, d'.tariffs.Perm d.tariffs → ∀ durationDays,
      matchTariff d' dataLimit durationDays = matchTariff d dataLimit durationDays := by
  refine ⟨fun want hwant => ?_, fun durationDays hopen => ?_, fun d' hperm durationDays =>
    matchTariff_perm hids hperm dataLimit durationDays⟩
  · have hsome : ∀ t, matchTariff d dataLimit (some want) = some t ↔
        TimedChoice d dataLimit want t :=
      fun t => matchTariff_eq_some_iff_of_timed hids hdurations hwant
    refine ⟨hsome, ?_, ?_⟩
    · intro hnone t day ht hday hnear
      obtain ⟨t', ht'⟩ := exists_timedChoice ht hday hnear
      rw [(hsome t').mpr ht'] at hnone
      cases hnone
    · intro hfar
      refine Option.eq_none_iff_forall_ne_some.mpr fun t ht => ?_
      obtain ⟨day, hvolume, hday, hnear, -⟩ := (hsome t).mp ht
      exact hfar t day hvolume hday hnear
  · have hsome : ∀ t, matchTariff d dataLimit durationDays = some t ↔ OpenChoice d dataLimit t :=
      fun t => matchTariff_eq_some_iff_of_open hids hopen
    refine ⟨hsome, ?_, ?_⟩
    · intro hnone t ht hend
      obtain ⟨t', ht'⟩ := exists_openChoice ht hend
      rw [(hsome t').mpr ht'] at hnone
      cases hnone
    · intro htimed
      refine Option.eq_none_iff_forall_ne_some.mpr fun t ht => ?_
      obtain ⟨hvolume, hend, -⟩ := (hsome t).mp ht
      exact htimed t hvolume hend

def monthly : Database where
  tariffs := [{ id := 1, name := "long", price := 5, durationDays := some 31 },
    { id := 2, name := "short", price := 9, durationDays := some 29 },
    { id := 3, name := "two months", price := 1, durationDays := some 60 }]

/-- 30 days are as far from 29 as from 31, and fall under the shorter one. -/
theorem thirty_days_fall_under_shorter :
    (matchTariff monthly none (some 30)).map ResellerPlanTariff.id = some 2 ∧
      matchTariff monthly none (some 33) = none := by
  have hmatch := match_tariff_least monthly (by unfold DistinctIds; decide)
    (by unfold PositiveDurations; decide) none
  refine ⟨by decide, ?_⟩
  refine ((hmatch.1 33 (by decide)).2).mpr ?_
  intro t day ht hday
  have hmem := ht.mem
  simp only [monthly, List.mem_cons, List.not_mem_nil, or_false] at hmem
  rcases hmem with rfl | rfl | rfl
  · obtain rfl := Option.some.inj hday
    decide
  · obtain rfl := Option.some.inj hday
    decide
  · obtain rfl := Option.some.inj hday
    decide

end Shahkar.Billing
