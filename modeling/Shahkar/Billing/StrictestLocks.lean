import Shahkar.Billing.Routes
import Shahkar.Billing.TariffChoice

/-!
# The locks of a reseller are the strictest ones

A lock is the least positive value of a field over the enabled plans of the requested shape, the
commercial plan that is sold and the tariff the shape falls under.
-/

namespace Shahkar.Billing

open Shahkar.Db Shahkar.Lib

/-!
### The locked fields
-/

inductive LockField
  | deviceLimit
  | speedLimitUp
  | speedLimitDown
  deriving Repr, DecidableEq

namespace LockField

def ofLocks (field : LockField) (locks : LimitLocks) : Option Int :=
  match field with
  | deviceLimit => locks.deviceLimit
  | speedLimitUp => locks.speedLimitUp
  | speedLimitDown => locks.speedLimitDown

def ofTariff (field : LockField) (t : ResellerPlanTariff) : Option Int :=
  match field with
  | deviceLimit => t.deviceLimit
  | speedLimitUp => t.speedLimitUp
  | speedLimitDown => t.speedLimitDown

def ofPlan (field : LockField) (plan : Plan) : Option Int :=
  match field with
  | deviceLimit => plan.deviceLimit
  | speedLimitUp => none
  | speedLimitDown => none

def ofPayload (field : LockField) (user : UserCreate) : Option Int :=
  match field with
  | deviceLimit => user.deviceLimit
  | speedLimitUp => user.speedLimitUp
  | speedLimitDown => user.speedLimitDown

end LockField

/-!
### The request
-/

def resolveLockedLimits (d : Database) (now : Int) (admin : Option Admin)
    (dataLimit durationDays expire : Option Int) (commercialPlan : Option Plan) : LimitLocks :=
  match commercialPlan with
  | some plan => resolveLockedLimitsForPlan d admin plan
  | none => resolveLockedLimitsForAdmin d admin dataLimit
      ((normalizeDurationDays durationDays).or (durationDaysFromExpire now expire)) {}

def requestedShape (now : Int) (dataLimit durationDays expire : Option Int) :
    Option Plan → Option Int × Option Int
  | some plan => (plan.dataLimit, normalizeDurationDays plan.durationDays)
  | none =>
    (dataLimit, (normalizeDurationDays durationDays).or (durationDaysFromExpire now expire))

structure OfShape (d : Database) (shape : Option Int × Option Int) (plan : Plan) : Prop where
  mem : plan ∈ d.plans.entries.map Prod.snd
  enabled : plan.enabled
  volume : normalizeDataLimit plan.dataLimit = normalizeDataLimit shape.1
  duration : normalizeDurationDays plan.durationDays = normalizeDurationDays shape.2

def shapeValues (d : Database) (shape : Option Int × Option Int) (commercialPlan : Option Plan)
    (field : LockField) : Set Int :=
  {v | 0 < v ∧ ((∃ plan, OfShape d shape plan ∧ field.ofPlan plan = some v) ∨
    (∃ plan, commercialPlan = some plan ∧ field.ofPlan plan = some v) ∨
    ∃ t, matchTariff d shape.1 shape.2 = some t ∧ field.ofTariff t = some v)}

def unlimitedValues (d : Database) (field : LockField) : Set Int :=
  {v | 0 < v ∧ ∃ t ∈ d.tariffs, t.enabled ∧ isUnlimitedDataLimit t.dataLimit ∧
    field.ofTariff t = some v}

/-- The values a lock is the least of. -/
def lockValues (d : Database) (shape : Option Int × Option Int) (commercialPlan : Option Plan)
    (field : LockField) : Set Int :=
  {v | v ∈ shapeValues d shape commercialPlan field ∨
    (shapeValues d shape commercialPlan .deviceLimit = ∅ ∧ isUnlimitedDataLimit shape.1 ∧
      v ∈ unlimitedValues d field)}

def LocksOf (values : LockField → Set Int) (locks : LimitLocks) : Prop :=
  ∀ field, LeastOf {v | v ∈ values field ∧ 0 < v} (field.ofLocks locks)

namespace LocksOf

variable {values values' : LockField → Set Int} {locks locks' : LimitLocks}

theorem congr (h : LocksOf values locks)
    (hvalues : ∀ field v, 0 < v → (v ∈ values field ↔ v ∈ values' field)) :
    LocksOf values' locks := by
  intro field
  have hset : {v | v ∈ values' field ∧ 0 < v} = {v | v ∈ values field ∧ 0 < v} := by
    ext v
    exact and_congr_left fun hv => (hvalues field v hv).symm
  rw [hset]
  exact h field

theorem unique (h : LocksOf values locks) (h' : LocksOf values locks') : locks = locks' := by
  cases locks with
  | mk device up down =>
    cases locks' with
    | mk device' up' down' =>
      congr
      · exact (h .deviceLimit).unique (h' .deviceLimit)
      · exact (h .speedLimitUp).unique (h' .speedLimitUp)
      · exact (h .speedLimitDown).unique (h' .speedLimitDown)

theorem empty : LocksOf (fun _ => ∅) {} := by
  intro field
  cases field <;> simp [LeastOf, LockField.ofLocks]

theorem mergeLimit_eq {a b : Option Int} (ha : ∀ v, a = some v → 0 < v)
    (hb : ∀ v, b = some v → 0 < v) : mergeLimit a b = a.merge min b := by
  have hfilter : ∀ {c : Option Int}, (∀ v, c = some v → 0 < v) → c.filter (0 < ·) = c := by
    intro c hc
    cases c with
    | none => rfl
    | some v => simp [hc v rfl]
  unfold mergeLimit
  rw [hfilter ha, hfilter hb]
  cases a <;> cases b <;> rfl

theorem merge (h : LocksOf values locks) (h' : LocksOf values' locks') :
    LocksOf (fun field => values field ∪ values' field) (locks.merge locks') := by
  intro field
  have hmerge : field.ofLocks (locks.merge locks') =
      (field.ofLocks locks).merge min (field.ofLocks locks') := by
    rw [← mergeLimit_eq (fun v hv => ((h field).mem hv).2) fun v hv => ((h' field).mem hv).2]
    cases field <;> rfl
  have hunion : {v | v ∈ values field ∪ values' field ∧ 0 < v} =
      {v | v ∈ values field ∧ 0 < v} ∪ {v | v ∈ values' field ∧ 0 < v} := by
    ext v
    simp [or_and_right]
  rw [hmerge, hunion]
  exact (h field).merge (h' field)

theorem foldl {α : Type} {own : α → LimitLocks} {ownValues : α → LockField → Set Int}
    (hown : ∀ x, LocksOf (ownValues x) (own x)) (h : LocksOf values locks) (l : List α) :
    LocksOf (fun field => values field ∪ {v | ∃ x ∈ l, v ∈ ownValues x field})
      (l.foldl (fun acc x => acc.merge (own x)) locks) := by
  induction l generalizing values locks with
  | nil => simpa using h
  | cons x rest ih =>
    refine (ih (h.merge (hown x))).congr fun field v _ => ?_
    simp [or_assoc]

end LocksOf

theorem locksOf_tariff (t : ResellerPlanTariff) :
    LocksOf (fun field => {v | field.ofTariff t = some v}) (lockedLimitOverrides t) := by
  intro field
  have h := LeastOf.filter (field.ofTariff t) fun v => decide (0 < v)
  simp only [decide_eq_true_eq] at h
  cases field <;> exact h

theorem locksOf_plan (plan : Plan) :
    LocksOf (fun field => {v | field.ofPlan plan = some v}) (lockedLimitOverridesFromPlan plan) := by
  intro field
  have h := LeastOf.filter (field.ofPlan plan) fun v => decide (0 < v)
  simp only [decide_eq_true_eq] at h
  cases field <;> exact h

section Resolve

variable {d : Database}

theorem locksOf_resolvePlanLimitLocks (shape : Option Int × Option Int) :
    LocksOf (fun field => {v | ∃ plan, OfShape d shape plan ∧ field.ofPlan plan = some v})
      (resolvePlanLimitLocks d shape.1 shape.2) := by
  refine (LocksOf.foldl locksOf_plan LocksOf.empty _).congr fun field v _ => ?_
  simp only [Set.empty_union, List.mem_filter, decide_eq_true_eq, Set.mem_ofPred_eq]
  refine exists_congr fun plan => and_congr_left fun _ => ?_
  exact ⟨fun h => ⟨h.1, h.2.1, h.2.2.1, h.2.2.2⟩,
    fun h => ⟨h.mem, h.enabled, h.volume, h.duration⟩⟩

theorem locksOf_defaultUnlimitedTariffLocks :
    LocksOf (fun field => {v | ∃ t ∈ d.tariffs, t.enabled ∧ isUnlimitedDataLimit t.dataLimit ∧
      field.ofTariff t = some v}) (defaultUnlimitedTariffLocks d) := by
  refine (LocksOf.foldl locksOf_tariff LocksOf.empty _).congr fun field v _ => ?_
  simp only [Set.empty_union, List.mem_filter, mem_listTariffs, Set.mem_ofPred_eq, and_assoc]

theorem locksOf_matched (dataLimit durationDays : Option Int) :
    LocksOf (fun field => {v | ∃ t, matchTariff d dataLimit durationDays = some t ∧
      field.ofTariff t = some v})
      (((matchTariff d dataLimit durationDays).map lockedLimitOverrides).getD {}) := by
  cases matchTariff d dataLimit durationDays with
  | none => exact LocksOf.empty.congr fun field v _ => by simp
  | some t => exact (locksOf_tariff t).congr fun field v _ => by simp

theorem locksOf_commercialPlan (commercialPlan : Option Plan) :
    LocksOf (fun field => {v | ∃ plan, commercialPlan = some plan ∧ field.ofPlan plan = some v})
      ((commercialPlan.map lockedLimitOverridesFromPlan).getD {}) := by
  cases commercialPlan with
  | none => exact LocksOf.empty.congr fun field v _ => by simp
  | some plan => exact (locksOf_plan plan).congr fun field v _ => by simp

theorem locksOf_shapeValues (shape : Option Int × Option Int) (commercialPlan : Option Plan) :
    LocksOf (shapeValues d shape commercialPlan)
      (((resolvePlanLimitLocks d shape.1 shape.2).merge
        ((commercialPlan.map lockedLimitOverridesFromPlan).getD {})).merge
          (((matchTariff d shape.1 shape.2).map lockedLimitOverrides).getD {})) := by
  refine (((locksOf_resolvePlanLimitLocks shape).merge
    (locksOf_commercialPlan commercialPlan)).merge (locksOf_matched shape.1 shape.2)).congr
      fun field v hv => ?_
  simp [shapeValues, hv, or_assoc]

theorem locksOf_resolveLockedLimitsForAdmin {admin : Admin} (hreseller : admin.isSudo = false)
    (shape : Option Int × Option Int) (commercialPlan : Option Plan) :
    LocksOf (lockValues d shape commercialPlan)
      (resolveLockedLimitsForAdmin d (some admin) shape.1 shape.2
        ((commercialPlan.map lockedLimitOverridesFromPlan).getD {})) := by
  have hshape := locksOf_shapeValues (d := d) shape commercialPlan
  have hdevices : (((resolvePlanLimitLocks d shape.1 shape.2).merge
        ((commercialPlan.map lockedLimitOverridesFromPlan).getD {})).merge
          (((matchTariff d shape.1 shape.2).map lockedLimitOverrides).getD {})).deviceLimit = none ↔
      shapeValues d shape commercialPlan .deviceLimit = ∅ := by
    refine (hshape .deviceLimit).eq_none_iff.trans ?_
    rw [Set.sep_eq_self_iff_mem_true.mpr fun v hv => hv.1]
  unfold resolveLockedLimitsForAdmin
  simp only [hreseller, Bool.false_eq_true, if_false, Option.isNone_iff_eq_none, hdevices]
  split
  · next hfloor =>
      refine (hshape.merge locksOf_defaultUnlimitedTariffLocks).congr fun field v hv => ?_
      simp [lockValues, unlimitedValues, hfloor, hv]
  · next hfloor =>
      refine hshape.congr fun field v hv => ?_
      rw [not_and] at hfloor
      refine (or_iff_left fun h => ?_).symm
      exact hfloor h.1 h.2.1

theorem resolveLockedLimits_eq (d : Database) (now : Int) (admin : Option Admin)
    (dataLimit durationDays expire : Option Int) (commercialPlan : Option Plan) :
    resolveLockedLimits d now admin dataLimit durationDays expire commercialPlan =
      resolveLockedLimitsForAdmin d admin
        (requestedShape now dataLimit durationDays expire commercialPlan).1
        (requestedShape now dataLimit durationDays expire commercialPlan).2
        ((commercialPlan.map lockedLimitOverridesFromPlan).getD {}) := by
  cases commercialPlan <;> rfl

theorem normalize_durationDaysForCreatePayload (now : Int) (user : UserCreate) :
    (normalizeDurationDays (durationDaysForCreatePayload now user)).or
      (durationDaysFromExpire now user.expire) = durationDaysForCreatePayload now user := by
  have hpositive : ∀ days, durationDaysForCreatePayload now user = some days → 0 < days := by
    intro days h
    simp only [durationDaysForCreatePayload, Option.or_eq_some_iff, durationDaysFromOnHold,
      durationDaysFromExpire, Option.bind_eq_some_iff, Option.filter_eq_some_iff,
      decide_eq_true_eq] at h
    rcases h with ⟨secs, -, -, h⟩ | ⟨-, ts, -, h⟩
    · exact h
    · split at h
      · cases h
      · exact of_decide_eq_true (Option.filter_eq_some_iff.mp h).2
  cases hdays : durationDaysForCreatePayload now user with
  | none => exact (Option.or_eq_none_iff.mp hdays).2
  | some days => simp [normalizeDurationDays, hpositive days hdays]

theorem lockValues_perm {d' : Database} (hids : DistinctIds d)
    (htariffs : d'.tariffs.Perm d.tariffs) (hplans : d'.plans.entries.Perm d.plans.entries)
    (shape : Option Int × Option Int) (commercialPlan : Option Plan) :
    lockValues d' shape commercialPlan = lockValues d shape commercialPlan := by
  have hofShape : ∀ plan, OfShape d' shape plan ↔ OfShape d shape plan := fun plan =>
    ⟨fun h => ⟨(hplans.map _).mem_iff.mp h.mem, h.enabled, h.volume, h.duration⟩,
      fun h => ⟨(hplans.map _).mem_iff.mpr h.mem, h.enabled, h.volume, h.duration⟩⟩
  have hshape : shapeValues d' shape commercialPlan = shapeValues d shape commercialPlan := by
    funext field
    simp only [shapeValues, hofShape, matchTariff_perm hids htariffs]
  funext field
  simp only [lockValues, hshape, unlimitedValues, htariffs.mem_iff]

end Resolve

/-- **The locks of a reseller are the strictest ones**, in whatever order. -/
theorem locks_strictest (d : Database) (hids : DistinctIds d) (now : Int) (admin : Admin)
    (hreseller : admin.isSudo = false) (dataLimit durationDays expire : Option Int)
    (commercialPlan : Option Plan) :
    (∀ field : LockField, LeastOf (lockValues d
        (requestedShape now dataLimit durationDays expire commercialPlan) commercialPlan field)
      (field.ofLocks (resolveLockedLimits d now (some admin) dataLimit durationDays expire
        commercialPlan))) ∧
    (∀ d' : Database, d'.tariffs.Perm d.tariffs → d'.plans.entries.Perm d.plans.entries →
      resolveLockedLimits d' now (some admin) dataLimit durationDays expire commercialPlan =
        resolveLockedLimits d now (some admin) dataLimit durationDays expire commercialPlan) ∧
    ∀ (user : UserCreate) (field : LockField) (lock : Int),
      field.ofLocks (resolveLockedLimits d now (some admin) user.dataLimit
        (durationDaysForCreatePayload now user) user.expire none) = some lock →
      field.ofPayload (enforceResellerCreateLocks d now (some admin) user) = some lock := by
  have hlocks : ∀ d : Database, LocksOf _ (resolveLockedLimits d now (some admin) dataLimit
      durationDays expire commercialPlan) := fun d => by
    rw [resolveLockedLimits_eq]
    exact locksOf_resolveLockedLimitsForAdmin hreseller _ commercialPlan
  refine ⟨fun field => ?_, fun d' htariffs hplans => ?_, fun user field lock hlock => ?_⟩
  · have h := hlocks d field
    rwa [Set.sep_eq_self_iff_mem_true.mpr fun v hv => ?_] at h
    rcases hv with hv | hv
    · exact hv.1
    · exact hv.2.2.1
  · refine (hlocks d').unique ?_
    rw [lockValues_perm hids htariffs hplans]
    exact hlocks d
  · rw [resolveLockedLimits, normalize_durationDaysForCreatePayload] at hlock
    cases field with
    | deviceLimit => exact Option.or_eq_some_iff.mpr (.inl hlock)
    | speedLimitUp => exact Option.or_eq_some_iff.mpr (.inl hlock)
    | speedLimitDown => exact Option.or_eq_some_iff.mpr (.inl hlock)

def lockedCatalog : Database where
  plans := (Dict.empty.set 1 { durationDays := some 30, deviceLimit := some 5 }).set
    2 { durationDays := some 30, deviceLimit := some 2 }
  tariffs := [
    { id := 1, name := "month", durationDays := some 30, deviceLimit := some 3,
      speedLimitUp := some 10 }]

theorem strictest_lock_of_month : lockedCatalog.tariffs ≠ [] ∧
    (LeastOf (lockValues lockedCatalog (requestedShape 0 none (some 30) none none) none .deviceLimit)
      (some 2)) ∧
    (LockField.ofLocks .speedLimitUp
      (resolveLockedLimits lockedCatalog 0 (some { username := "reseller" }) none (some 30) none
        none)) = some 10 := by
  refine ⟨by decide, ?_, by decide⟩
  exact (locks_strictest lockedCatalog (by unfold DistinctIds; decide) 0
    { username := "reseller" } rfl none (some 30) none none).1 .deviceLimit

end Shahkar.Billing
