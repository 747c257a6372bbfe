import Mathlib.Algebra.Order.Ring.Int
import Mathlib.Algebra.Order.BigOperators.Group.List
import Shahkar.Db.Models

/-!
The data-limit helpers of `app/quota.py` that billing goes through: the clamp of a usage delta, the
cap of a counter, the move of a user to `limited` and back, and what a recharge does with the
overage.
-/

namespace Shahkar.Usage

open Shahkar.Db

def clampUsageDelta (used : Int) (limit : Option Int) (delta : Int) : Int :=
  match limit with
  | none => max 0 delta
  | some limit =>
    if limit ≤ 0 ∨ delta ≤ 0 then max 0 delta
    else min delta (max 0 (limit - used))

def enforceUsageCap (u : User) : User :=
  match u.finiteLimit with
  | none => u
  | some limit => { u with usedTraffic := min u.usedTraffic limit }

def limitUserQuota (u : User) : User :=
  let u := enforceUsageCap u
  if u.status ≠ .active then u
  else
    match u.dataLimit with
    | none => u
    | some limit =>
      if limit = 0 ∨ u.usedTraffic < limit then u
      else { u with status := .limited }

def quotaExhausted (u : User) : Bool := u.finiteLimit.any fun limit => limit ≤ u.usedTraffic

def remainingTraffic (u : User) : Option Int := u.finiteLimit.map fun l => max 0 (l - u.usedTraffic)

def reactivateIfQuotaAvailable (u : User) : User :=
  if u.status ≠ .limited ∨ quotaExhausted u ∨ 0 < u.overageTraffic then u
  else { u with status := .active }

def applyOverageOnRecharge (newDataLimit : Int) (u : User) : User :=
  if u.overageTraffic ≤ 0 then u
  else if newDataLimit ≤ 0 then
    { u with usedTraffic := u.usedTraffic + u.overageTraffic, overageTraffic := 0 }
  else
    let totalConsumed := u.usedTraffic + u.overageTraffic
    { u with
      usedTraffic := min totalConsumed newDataLimit
      overageTraffic := max 0 (totalConsumed - newDataLimit) }

def addUsage (value : Int) (u : User) : User :=
  match u.finiteLimit with
  | none => { u with usedTraffic := u.usedTraffic + value }
  | some limit =>
    { u with
      usedTraffic := if limit < u.usedTraffic + value then limit else u.usedTraffic + value }

def addSplit (up down : Int) (u : User) : User :=
  { u with usedTrafficUp := u.usedTrafficUp + up, usedTrafficDown := u.usedTrafficDown + down }

/-!
### Lemmas
-/

variable {u : User} {l : Int}

theorem finiteLimit_eq_some_iff :
    u.finiteLimit = some l ↔ u.dataLimit = some l ∧ 0 < l := by
  unfold User.finiteLimit
  rw [Option.filter_eq_some_iff]
  simp

theorem clampUsageDelta_nonneg (used : Int) (limit : Option Int) (delta : Int) :
    0 ≤ clampUsageDelta used limit delta := by
  unfold clampUsageDelta
  cases limit with
  | none => exact le_max_left _ _
  | some limit =>
    dsimp only
    split_ifs
    · exact le_max_left _ _
    · omega

theorem clampUsageDelta_of_limit {used limit delta : Int} (hl : 0 < limit) :
    clampUsageDelta used (some limit) delta =
      if delta ≤ 0 then 0 else min delta (max 0 (limit - used)) := by
  have hlimit : ¬ limit ≤ 0 := not_le.mpr hl
  simp only [clampUsageDelta, hlimit, false_or]
  split_ifs with hd
  · exact max_eq_left hd
  · rfl

theorem clampUsageDelta_of_unlimited (hl : u.finiteLimit = none) (delta : Int) :
    clampUsageDelta u.usedTraffic u.dataLimit delta = max 0 delta := by
  cases hd : u.dataLimit with
  | none => rfl
  | some limit =>
    have hle : limit ≤ 0 := by
      by_contra hpos
      have := finiteLimit_eq_some_iff.mpr ⟨hd, not_le.mp hpos⟩
      rw [hl] at this
      cases this
    exact if_pos (.inl hle)

theorem addUsage_of_unlimited (hl : u.finiteLimit = none) (value : Int) :
    addUsage value u = { u with usedTraffic := u.usedTraffic + value } := by
  rw [addUsage, hl]

theorem addUsage_of_limit (hl : u.finiteLimit = some l) (value : Int) :
    addUsage value u = { u with usedTraffic := min (u.usedTraffic + value) l } := by
  rw [addUsage, hl]
  dsimp only
  congr 1
  split_ifs with h
  · exact (min_eq_right h.le).symm
  · exact (min_eq_left (not_lt.mp h)).symm

theorem foldl_addUsage_of_unlimited (hl : u.finiteLimit = none) (values : List Int) :
    values.foldl (fun u v => addUsage v u) u =
      { u with usedTraffic := u.usedTraffic + values.sum } := by
  induction values generalizing u with
  | nil => simp
  | cons v rest ih =>
    rw [List.foldl_cons, addUsage_of_unlimited hl,
      ih (u := { u with usedTraffic := u.usedTraffic + v }) hl, List.sum_cons, ← add_assoc]

theorem foldl_addUsage_of_limit (hl : u.finiteLimit = some l) (hle : u.usedTraffic ≤ l)
    {values : List Int} (hnonneg : ∀ v ∈ values, 0 ≤ v) :
    values.foldl (fun u v => addUsage v u) u =
      { u with usedTraffic := min (u.usedTraffic + values.sum) l } := by
  induction values generalizing u with
  | nil =>
    rw [List.foldl_nil, List.sum_nil, add_zero, min_eq_left hle]
  | cons v rest ih =>
    have hrest : 0 ≤ rest.sum :=
      List.sum_nonneg fun v hv => hnonneg v (List.mem_cons_of_mem _ hv)
    rw [List.foldl_cons, addUsage_of_limit hl,
      ih (u := { u with usedTraffic := min (u.usedTraffic + v) l }) hl (min_le_right _ _)
        (fun v hv => hnonneg v (List.mem_cons_of_mem _ hv)), List.sum_cons]
    dsimp only
    congr 1
    omega

theorem limitUserQuota_of_reached (hl : u.finiteLimit = some l) (hused : u.usedTraffic = l)
    (hstatus : u.status = .active) :
    limitUserQuota u = { u with status := .limited } := by
  obtain ⟨hd, hpos⟩ := finiteLimit_eq_some_iff.mp hl
  have hcap : enforceUsageCap u = u := by
    rw [enforceUsageCap, hl]
    dsimp only
    rw [hused, min_self, ← hused]
  unfold limitUserQuota
  rw [hcap, if_neg (not_not.mpr hstatus), hd]
  dsimp only
  rw [if_neg (by omega)]

end Shahkar.Usage
