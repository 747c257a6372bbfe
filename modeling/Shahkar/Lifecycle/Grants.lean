import Shahkar.Billing.Completion
import Shahkar.Lifecycle.DeadAccounts

/-!
# What an account is granted, and what `review` makes of it

A next plan takes what is left of the old package along exactly when it is not to. A renewal adds up
volume and time, but gives an end to an account that had none, and serves one that is past its end
if the plan has no duration.
-/

namespace Shahkar.Lifecycle

open Shahkar.Db Shahkar.Lib Shahkar.Usage Shahkar.Billing Shahkar.Portal

/-!
### `review`
-/

def Past (now : Int) (expire : Option Int) : Prop := ∃ e, expire = some e ∧ 0 < e ∧ e ≤ now

section Review

variable {now : Int} {a : Account}

theorem expired_iff_past : a.expired now = true ↔ Past now a.expire := by
  simp [Account.expired, Past, Option.any_eq_true]

theorem reviewStages_of_alive (hactive : a.status = .active) (halive : a.dead now = false)
    (blocked others : Bool) : a.reviewStages now blocked others =
      [a, a, a, a.enforceResellerTrafficCaps blocked others] := by
  simp [Account.reviewStages, Account.reviewRaises, Account.reviewActive, Account.reviewOnHold,
    Account.reviewLimited, hactive, halive]

theorem reviewActive_of_past (hactive : a.status = .active) (hpast : Past now a.expire)
    (hnext : a.nextPlan = none) :
    (a.reviewActive now).status = .limited ∨ (a.reviewActive now).status = .expired := by
  have hdead : a.dead now = true := by rw [Account.dead, expired_iff_past.mpr hpast, Bool.true_or]
  obtain ⟨e, he, hpos, hle⟩ := hpast
  simp only [Account.reviewActive, hactive, hdead, ne_eq, not_true_eq_false, or_self, if_false,
    Account.duePlan, hnext, Option.filter_none]
  split
  · next hlimited =>
      -- the usage is capped at the limit, which it has reached
      obtain ⟨l, hl, hne, hreached⟩ : ∃ l, a.dataLimit = some l ∧ l ≠ 0 ∧ l ≤ a.usedTraffic := by
        simpa [Option.any_eq_true] using hlimited
      left
      have hstays : staysActive (enforceUsageCap a.toUser) = false := by
        rw [staysActive, enforceUsageCap, User.finiteLimit, hl]
        by_cases hpos : 0 < l <;>
          simp [Option.filter_some, hpos, hl, hactive, orNone, hne, hreached]
      simp [Account.limitUserQuota, hstays, Account.updateUserStatus]
  · right
    simp [he, hle, hpos.ne', Account.updateUserStatus]

theorem enforcedUser_of_active {u : User} (hactive : u.status = .active)
    (hleft : quotaExhausted u = false) (blocked others : Bool) :
    (enforcedUser blocked others u).status =
        (if blocked ∧ u.adminId ≠ none then .disabled else .active) ∧
      (enforcedUser blocked others u).dataLimit = u.dataLimit ∧
      (enforcedUser blocked others u).expire = u.expire := by
  by_cases hadmin : u.adminId = none
  · simp [enforcedUser, hadmin, hactive]
  · cases blocked with
    | true => simp [enforcedUser, hadmin, hactive, suspendedUser]
    | false =>
      by_cases hcapped : u.cappedByReseller
      · simp [enforcedUser, hadmin, hcapped, hleft, restoredUser]
      · simp [enforcedUser, hadmin, hcapped, hactive]

end Review

theorem remainingTraffic_of_unused {u : User} (h : u.usedTraffic = 0) :
    remainingTraffic u = u.finiteLimit := by
  rw [remainingTraffic, h]
  cases hl : u.finiteLimit with
  | none => rfl
  | some l =>
    have hpos := (finiteLimit_eq_some_iff.mp hl).2
    simp [hpos.le]

theorem quotaExhausted_of_unused {u : User} (h : u.usedTraffic = 0) : quotaExhausted u = false := by
  rw [quotaExhausted, h]
  cases hl : u.finiteLimit with
  | none => rfl
  | some l => simpa using (finiteLimit_eq_some_iff.mp hl).2

structure Fresh (v : User) : Prop where
  status : v.status = .active
  usedTraffic : v.usedTraffic = 0
  nextPlan : v.nextPlan = none

section Fresh

variable {now : Int} {v : User} {a : Account}

theorem Fresh.reviewStages_eq (h : Fresh v) (ha : a.toUser = v) (hpast : ¬ Past now v.expire)
    (blocked others : Bool) : a.reviewStages now blocked others =
      [a, a, a, a.enforceResellerTrafficCaps blocked others] := by
  subst ha
  refine reviewStages_of_alive h.status (dead_eq_false_iff.mpr ⟨?_, ?_⟩) blocked others
  · rwa [← expired_iff_past, Bool.not_eq_true] at hpast
  · exact quotaExhausted_of_unused h.usedTraffic

theorem Fresh.kept_iff (h : Fresh v) (now : Int) :
    (∀ (a : Account) (blocked others : Bool), a.toUser = v →
      ∀ b ∈ a.reviewStages now blocked others, b.status ≠ .limited ∧ b.status ≠ .expired) ↔
      ¬ Past now v.expire := by
  constructor
  · intro hkept hpast
    obtain ⟨hlimited, hover⟩ := hkept { toUser := v } false false rfl _ List.mem_cons_self
    have hended := reviewActive_of_past (a := { toUser := v }) h.status hpast h.nextPlan
    exact hended.elim hlimited hover
  · intro hpast a blocked others ha
    rw [h.reviewStages_eq ha hpast]
    subst ha
    have hcap := (enforcedUser_of_active h.status (quotaExhausted_of_unused h.usedTraffic) blocked
      others).1
    simp only [List.mem_cons, List.not_mem_nil, or_false, forall_eq_or_imp, forall_eq, h.status,
      Account.enforceResellerTrafficCaps, Account.toUser_onUser, hcap]
    split_ifs <;> simp

end Fresh

/-- What the plan says: its volume, with what was left of a finite limit if that is to be added; and
`review` leaves it at that. -/
structure PlanGranted (now : Int) (plan : NextPlan) (limit : Int) (u v : User) : Prop where
  volume : 0 < limit → remainingTraffic v = some (limit +
    if plan.addRemainingTraffic then (remainingTraffic u).getD 0 else 0)
  unlimited : limit = 0 → remainingTraffic v = none
  kept : ∀ (a : Account) (blocked others : Bool), a.toUser = v →
    ∀ b ∈ a.reviewStages now blocked others, b.status ≠ .limited ∧ b.status ≠ .expired

def GrantsPlan (now : Int) (plan : NextPlan) (limit : Int) (u : User) : Prop :=
  (if plan.addRemainingTraffic then limit = 0 ∨ ∀ old ∈ u.finiteLimit, old ≤ u.usedTraffic
    else ∃ old, u.dataLimit = some old ∧
      if limit = 0 then old ≤ u.usedTraffic else old = u.usedTraffic) ∧
    ∀ duration ∈ plan.expire, 0 ≤ duration ∨ now + duration ≤ 0

section NextPlan

variable {now limit : Int} {plan : NextPlan} {u v : User}

theorem exec_resetUserByNext {id : Int} {s : Exec Database Write} (hpend : s.pend = [])
    (hget : s.db.users.get? id = some u) (hplan : u.nextPlan = some plan) :
    (∃ s', (resetUserByNext now id u).exec store s = (.ok (some v), s') ∧
      s'.db.users.get? id = some v) ↔ nextPlanUser now plan u = some v := by
  unfold resetUserByNext
  rw [hplan]
  cases hrow : nextPlanUser now plan u with
  | none => simp [hrow, Prog.exec]
  | some row =>
    simp only [hrow]
    obtain ⟨hok, -, hafter, -⟩ := Prog.exec_of_alone
      (alone_replaceUser row (fun found => some (found.getD row)) hpend hget)
    constructor
    · rintro ⟨s', hexec, -⟩
      have hsame := hok.symm.trans (congrArg Prod.fst hexec)
      exact Except.ok.inj hsame |> Option.some.inj |> congrArg some
    · rintro ⟨⟩
      exact ⟨_, Prod.ext hok rfl, hafter⟩

theorem granted_row (hlimit : plan.dataLimit = some limit) :
    nextPlanUser now plan u = some v → Fresh v ∧
      v.expire = (orNone plan.expire).map (now + ·) ∧
      (if plan.addRemainingTraffic then v.dataLimit = some limit
        else ∃ old, u.dataLimit = some old ∧
          v.dataLimit = some (limit + (old - u.usedTraffic))) := by
  intro hv
  obtain ⟨l, hl, rfl⟩ := Option.map_eq_some_iff.mp hv
  refine ⟨⟨rfl, rfl, rfl⟩, rfl, ?_⟩
  rw [nextPlanLimit, hlimit, Option.bind_some] at hl
  split_ifs at hl ⊢ with hadd
  · rw [add_zero] at hl
    exact hl.symm
  · obtain ⟨old, hold, rfl⟩ := Option.map_eq_some_iff.mp hl
    exact ⟨old, hold, rfl⟩

theorem not_past_iff : ¬ Past now ((orNone plan.expire).map (now + ·)) ↔
    ∀ duration ∈ plan.expire, 0 ≤ duration ∨ now + duration ≤ 0 := by
  cases hplan : plan.expire with
  | none => simp [Past, orNone]
  | some duration =>
    by_cases hzero : duration = 0
    · simp [Past, orNone, hzero]
    · simp [Past, orNone, hzero]
      omega

theorem planGranted_iff (hlimit : plan.dataLimit = some limit) (hnonneg : 0 ≤ limit)
    (hv : nextPlanUser now plan u = some v) :
    PlanGranted now plan limit u v ↔ GrantsPlan now plan limit u := by
  obtain ⟨hfresh, hexpire, hrow⟩ := granted_row hlimit hv
  have hkept := hfresh.kept_iff now
  rw [hexpire, not_past_iff] at hkept
  have hleft := remainingTraffic_of_unused hfresh.usedTraffic
  suffices hvolume : ((0 < limit → remainingTraffic v = some (limit +
      if plan.addRemainingTraffic then (remainingTraffic u).getD 0 else 0)) ∧
      (limit = 0 → remainingTraffic v = none)) ↔
      (if plan.addRemainingTraffic then limit = 0 ∨ ∀ old ∈ u.finiteLimit, old ≤ u.usedTraffic
        else ∃ old, u.dataLimit = some old ∧
          if limit = 0 then old ≤ u.usedTraffic else old = u.usedTraffic) by
    rw [GrantsPlan, ← hvolume, ← hkept]
    exact ⟨fun h => ⟨⟨h.volume, h.unlimited⟩, h.kept⟩, fun h => ⟨h.1.1, h.1.2, h.2⟩⟩
  rw [hleft, User.finiteLimit]
  by_cases hadd : plan.addRemainingTraffic
  · rw [if_pos hadd] at hrow ⊢
    rw [if_pos hadd, hrow, remainingTraffic]
    rcases hnonneg.eq_or_lt with rfl | hpos
    · simp
    · cases hold : u.finiteLimit with
      | none => simp [hpos, hpos.ne']
      | some old =>
        simp [hpos, hpos.ne']
        omega
  · rw [if_neg hadd] at hrow ⊢
    obtain ⟨old, hold, hrow⟩ := hrow
    rw [if_neg hadd, hrow, hold]
    rcases hnonneg.eq_or_lt with rfl | hpos
    · simp
    · simp [hpos, hpos.ne', Option.filter_eq_some_iff]
      omega

/-- **The next plan grants what it says** exactly if the flag and what is left agree. -/
theorem next_plan_grants_iff (now id : Int) (d : Database) (n : Nat) (u : User)
    (hget : d.users.get? id = some u) (plan : NextPlan) (hplan : u.nextPlan = some plan)
    (limit : Int) (hlimit : plan.dataLimit = some limit) (hnonneg : 0 ≤ limit) :
    (∃ v s', (resetUserByNext now id u).exec store { db := d, next := n } = (.ok (some v), s') ∧
      s'.db.users.get? id = some v ∧ PlanGranted now plan limit u v) ↔
      GrantsPlan now plan limit u := by
  have hexec : ∀ v, (∃ s', (resetUserByNext now id u).exec store { db := d, next := n } =
      (.ok (some v), s') ∧ s'.db.users.get? id = some v) ↔ nextPlanUser now plan u = some v :=
    fun v => exec_resetUserByNext rfl hget hplan
  constructor
  · rintro ⟨v, s', hrun, hrow, hgranted⟩
    exact (planGranted_iff hlimit hnonneg ((hexec v).mp ⟨s', hrun, hrow⟩)).mp hgranted
  · intro hgrants
    obtain ⟨v, hv⟩ : ∃ v, nextPlanUser now plan u = some v := by
      rw [← Option.isSome_iff_exists, nextPlanUser, Option.isSome_map, nextPlanLimit, hlimit,
        Option.bind_some]
      split_ifs with hadd
      · rfl
      · have hold := hgrants.1
        rw [if_neg hadd] at hold
        obtain ⟨old, hold, -⟩ := hold
        rw [hold]
        rfl
    obtain ⟨s', hrun, hrow⟩ := (hexec v).mpr hv
    exact ⟨v, s', hrun, hrow, (planGranted_iff hlimit hnonneg hv).mpr hgrants⟩

end NextPlan

def planned (used : Int) (add : Bool) : User where
  username := "alice"
  usedTraffic := used
  dataLimit := some 100
  nextPlan := some
    { dataLimit := some 50, expire := some 60, addRemainingTraffic := add, fireOnEither := true }

def holding (u : User) : Exec Database Write where
  db := { users := Dict.empty.set 7 u }
  next := 1

/-- **The flag is read the wrong way round.** -/
theorem remaining_traffic_inverted :
    let reset := fun u : User => ((resetUserByNext 1000 7 u).exec store (holding u)).1
    (reset (planned 40 true)).toOption.join.map remainingTraffic = some (some 50) ∧
      (reset (planned 40 false)).toOption.join.map remainingTraffic = some (some 110) ∧
      reset { planned 40 false with dataLimit := none } = .error .type := by
  decide +kernel

theorem used_up_package_replaced : ∃ v s',
    (resetUserByNext 1000 7 (planned 100 false)).exec store (holding (planned 100 false)) =
        (.ok (some v), s') ∧ s'.db.users.get? 7 = some v ∧
      PlanGranted 1000 ⟨some 50, some 60, false, true⟩ 50 (planned 100 false) v :=
  (next_plan_grants_iff 1000 7 _ 1 (planned 100 false) (by decide +kernel)
    ⟨some 50, some 60, false, true⟩ rfl 50 rfl (by decide)).mpr
      ⟨⟨100, rfl, rfl⟩, fun _ h => .inl (Option.some.inj h ▸ by decide)⟩

/-- What a renewal promises: volume and time are added to what is left, an account without an end
does not get one, and `review` leaves it at that. -/
structure Renewed (now : Int) (plan : Plan) (blocked others : Bool) (u v : User) : Prop where
  volume : ∀ left planLimit, remainingTraffic u = some left →
    normalizeDataLimit plan.dataLimit = some planLimit →
    remainingTraffic v = some (planLimit + left)
  time : ∀ days e, orNone plan.durationDays = some days → orNone u.expire = some e →
    v.expire = some (max now e + days * 86400)
  endless : orNone u.expire = none → orNone v.expire = none
  status : v.status = .active
  kept : ∀ a : Account, a.toUser = v → ∀ b ∈ a.reviewStages now blocked others,
    b.status = a.status ∧ b.dataLimit = a.dataLimit ∧ b.expire = a.expire

/-- With a duration of one day or more: the account has an end; and without a duration: its end has
not passed. -/
def RenewsWell (now : Int) (plan : Plan) (blocked : Bool) (u : User) : Prop :=
  (blocked → u.adminId = none) ∧
    match orNone plan.durationDays, orNone u.expire with
    | some days, some e =>
      max now e + days * 86400 ≠ 0 ∧ ¬ Past now (some (max now e + days * 86400))
    | some days, none => now + days * 86400 = 0
    | none, some e => ¬ Past now (some e)
    | none, none => True

section Renewal

variable {now : Int} {plan : Plan} {u : User} {locks : LimitLocks}

theorem fresh_updatedUser {modify : UserModify} {limit : Int} (hused : u.usedTraffic = 0)
    (hover : u.overageTraffic ≤ 0) (hstatus : modify.status = some .active)
    (hlimit : modify.dataLimit.join = some limit) (hnonneg : 0 ≤ limit)
    (hnext : modify.nextPlan = none) : Fresh (updatedUser now modify u) := by
  have hstays : ¬ limit < 0 := not_lt.mpr hnonneg
  have hlimited : (applyDataLimit modify (applyStatus modify u)).status = .active ∧
      (applyDataLimit modify (applyStatus modify u)).usedTraffic = 0 := by
    simp [applyDataLimit, applyStatus, applyOverageOnRecharge, hstatus, hlimit, hused, hover,
      hstays]
  unfold updatedUser
  rw [if_pos (.inl (by rw [hstatus]; decide)), reactivateIfQuotaAvailable_eq]
  generalize applyDataLimit modify (applyStatus modify u) = w at hlimited ⊢
  have htimed : (applyExpire now modify w).status = .active := by
    cases hexpire : modify.expire.join with
    | none => simpa [applyExpire, hexpire] using hlimited.1
    | some e => simpa [applyExpire, hexpire, hstatus] using hlimited.1
  refine ⟨?_, (usage_applyExpire now modify w).1.trans hlimited.2, hnext⟩
  rw [htimed, if_neg (by simp)]

theorem renewed_row (hused : 0 ≤ u.usedTraffic) :
    let v := updatedUser now (renewalModify now u plan locks) (renewalBase u)
    Fresh v ∧ v.dataLimit = computeRenewalDataLimit u plan ∧
      v.expire = orNone (computeRenewalExpire now u plan) ∧ v.adminId = u.adminId := by
  have hlimit : ∀ l, computeRenewalDataLimit u plan = some l → 0 < l := by
    intro l hl
    obtain ⟨planLimit, hplan, rfl⟩ := Option.map_eq_some_iff.mp hl
    have hpos : 0 < planLimit := by simpa using (Option.filter_eq_some_iff.mp hplan).2
    split <;> omega
  have hbase : (renewalBase u).usedTraffic = 0 ∧ (renewalBase u).overageTraffic ≤ 0 := by
    unfold renewalBase
    split_ifs with h
    · exact ⟨rfl, le_rfl⟩
    · omega
  have hrelimited := relimited_updatedUser now (renewalModify now u plan locks) (renewalBase u)
  refine ⟨fresh_updatedUser hbase.1 hbase.2 rfl rfl ?_ rfl, ?_, ?_, ?_⟩
  · cases hl : computeRenewalDataLimit u plan with
    | none => rfl
    | some l => exact (hlimit l hl).le
  · rw [hrelimited.dataLimit]
    cases hl : computeRenewalDataLimit u plan with
    | none => simp [nextLimit, renewalModify, hl, orNone]
    | some l => simp [nextLimit, renewalModify, hl, orNone, (hlimit l hl).ne']
  · rw [hrelimited.expire]
    cases he : computeRenewalExpire now u plan with
    | none => simp [nextLimit, renewalModify, he, orNone]
    | some e => simp [nextLimit, renewalModify, he, orNone]
  · rw [hrelimited.adminId]
    unfold renewalBase
    split_ifs <;> rfl

theorem orNone_computeRenewalExpire : orNone (computeRenewalExpire now u plan) =
    match orNone plan.durationDays, orNone u.expire with
    | some days, some e => orNone (some (max now e + days * 86400))
    | some days, none => orNone (some (now + days * 86400))
    | none, e => e := by
  unfold computeRenewalExpire
  cases hdays : orNone plan.durationDays with
  | none => simp only [show plan.durationDays.filter (· ≠ 0) = none from hdays]
  | some days =>
    simp only [show plan.durationDays.filter (· ≠ 0) = some days from hdays, getD_filter_later]
    cases orNone u.expire <;> rfl

theorem Fresh.kept_all_iff {v : User} (h : Fresh v) (now : Int) (blocked others : Bool) :
    (∀ a : Account, a.toUser = v → ∀ b ∈ a.reviewStages now blocked others,
      b.status = a.status ∧ b.dataLimit = a.dataLimit ∧ b.expire = a.expire) ↔
      (blocked → v.adminId = none) ∧ ¬ Past now v.expire := by
  have hcap := enforcedUser_of_active h.status (quotaExhausted_of_unused h.usedTraffic) blocked
    others
  constructor
  · intro hkept
    have hpast : ¬ Past now v.expire := by
      intro hpast
      have hstatus := (hkept { toUser := v } rfl _ List.mem_cons_self).1
      have hended := reviewActive_of_past (a := { toUser := v }) h.status hpast h.nextPlan
      rw [hstatus, h.status] at hended
      simp at hended
    refine ⟨fun hblocked => ?_, hpast⟩
    have hstatus := (hkept { toUser := v } rfl
      (Account.enforceResellerTrafficCaps { toUser := v } blocked others)
      (by rw [h.reviewStages_eq rfl hpast]; simp)).1
    rw [Account.enforceResellerTrafficCaps, Account.toUser_onUser, hcap.1, h.status] at hstatus
    by_contra hadmin
    rw [if_pos ⟨hblocked, hadmin⟩] at hstatus
    cases hstatus
  · rintro ⟨hadmin, hpast⟩ a rfl b hb
    rw [h.reviewStages_eq rfl hpast] at hb
    have hsame : b = a ∨ b = a.enforceResellerTrafficCaps blocked others := by simpa using hb
    rcases hsame with rfl | rfl
    · exact ⟨rfl, rfl, rfl⟩
    · rw [Account.enforceResellerTrafficCaps, Account.toUser_onUser, hcap.1, h.status,
        if_neg fun hboth => hboth.2 (hadmin hboth.1)]
      exact ⟨rfl, hcap.2⟩

theorem remainingTraffic_renewed {plan : Plan} {u v : User} {left planLimit : Int}
    (hused : v.usedTraffic = 0) (hlimit : v.dataLimit = computeRenewalDataLimit u plan)
    (hleft : remainingTraffic u = some left)
    (hplan : normalizeDataLimit plan.dataLimit = some planLimit) :
    remainingTraffic v = some (planLimit + left) := by
  obtain ⟨l, hl, rfl⟩ := Option.map_eq_some_iff.mp hleft
  have hpos : 0 < planLimit := by simpa using (Option.filter_eq_some_iff.mp hplan).2
  have hsum : v.dataLimit = some (planLimit + max 0 (l - u.usedTraffic)) := by
    rw [hlimit, computeRenewalDataLimit, hplan, Option.map_some,
      show normalizeDataLimit u.dataLimit = some l from hl]
  rw [remainingTraffic_of_unused hused]
  exact finiteLimit_eq_some_iff.mpr ⟨hsum, by omega⟩

/-- **A renewal conserves what was paid** exactly if it ends nothing endless and revives nothing. -/
theorem renewal_conserves_iff (now id : Int) (planId : Nat) (plan : Plan) (d : Database) (n : Nat)
    (u v : User) (s' : Exec Database Write) (hget : d.users.get? id = some u)
    (hused : 0 ≤ u.usedTraffic)
    (hexec : (applyPlanToUser now id u planId plan).exec store { db := d, next := n } = (.ok v, s'))
    (blocked others : Bool) :
    s'.db.users.get? id = some v ∧
      (Renewed now plan blocked others u v ↔ RenewsWell now plan blocked u) := by
  have hpost := Prog.exec_of_alone
    (@alone_applyPlanToUser { db := d, next := n } plan planId id u now rfl hget)
  rw [hexec] at hpost
  split at hpost
  · cases hpost
  obtain ⟨row, locks, hrow, -, -, -, hafter, hv⟩ := hpost
  obtain rfl := Except.ok.inj hrow
  refine ⟨hafter, ?_⟩
  obtain ⟨hfresh, hlimit, hexpire, hadmin⟩ : Fresh v ∧
      v.dataLimit = computeRenewalDataLimit u plan ∧
      v.expire = orNone (computeRenewalExpire now u plan) ∧ v.adminId = u.adminId := by
    rw [hv]
    exact renewed_row hused
  have hkept := hfresh.kept_all_iff now blocked others
  have hparts : Renewed now plan blocked others u v ↔
      (∀ days e, orNone plan.durationDays = some days → orNone u.expire = some e →
        v.expire = some (max now e + days * 86400)) ∧
      (orNone u.expire = none → orNone v.expire = none) ∧
      (blocked → u.adminId = none) ∧ ¬ Past now v.expire := by
    rw [← hadmin, ← hkept]
    exact ⟨fun h => ⟨h.time, h.endless, h.kept⟩,
      fun h => ⟨fun _ _ => remainingTraffic_renewed hfresh.usedTraffic hlimit, h.1, h.2.1,
        hfresh.status, h.2.2⟩⟩
  rw [hparts, RenewsWell, hexpire, orNone_computeRenewalExpire]
  cases orNone plan.durationDays with
  | none =>
    cases horNone : orNone u.expire with
    | none => simp [Past, orNone]
    | some e => simp
  | some days =>
    cases orNone u.expire with
    | none =>
      by_cases hzero : now + days * 86400 = 0 <;> simp [orNone, Option.filter_some, hzero, Past]
    | some e =>
      by_cases hzero : max now e + days * 86400 = 0 <;> simp [orNone, Option.filter_some, hzero]

end Renewal

def renewing (expire : Option Int) : User where
  username := "bob"
  usedTraffic := 40
  dataLimit := some 100
  expire := expire

/-- **A renewal can take time away.** -/
theorem renewal_ends_endless :
    let renew := fun (u : User) (plan : Plan) =>
      ((applyPlanToUser 1000 7 u 1 plan).exec store (holding u)).1.toOption
    (renew (renewing none) { durationDays := some 30 }).map (·.expire) = some (some 2593000) ∧
      (renew (renewing (some 900)) { dataLimit := some 50 }).map (fun v =>
        (v.status, (({ toUser := v } : Account).review 1000 false false).status)) =
          some (.active, .expired) := by
  decide +kernel

def month : Plan := { dataLimit := some 50, durationDays := some 30 }

theorem running_account_renewed :
    ∃ v s', (applyPlanToUser 1000 7 (renewing (some 1100)) 1 month).exec store
        (holding (renewing (some 1100))) = (.ok v, s') ∧
      s'.db.users.get? 7 = some v ∧
      Renewed 1000 month false false (renewing (some 1100)) v := by
  have hok : ((applyPlanToUser 1000 7 (renewing (some 1100)) 1 month).exec store
      (holding (renewing (some 1100)))).1.isOk := by decide +kernel
  generalize hrun : (applyPlanToUser 1000 7 (renewing (some 1100)) 1 month).exec store
      (holding (renewing (some 1100))) = result at hok
  obtain ⟨_ | v, s'⟩ := result
  · cases hok
  have hrenewed := renewal_conserves_iff 1000 7 1 month _ 1 (renewing (some 1100)) v s'
    (by decide +kernel) (by decide) hrun false false
  refine ⟨v, s', rfl, hrenewed.1, hrenewed.2.mpr ⟨by decide, by decide, ?_⟩⟩
  rintro ⟨e, he, -, hle⟩
  cases he
  exact absurd hle (by decide)

inductive LaterStep where
  | review (now : Int) (blocked others : Bool)
  | edit (now : Int) (modify : UserModify)

def LaterStep.run (a : Account) : LaterStep → Account
  | .review now blocked others => a.review now blocked others
  | .edit now modify => a.updateUser now modify

def NeutralRun (a : Account) : List LaterStep → Prop
  | [] => True
  | .review now blocked others :: steps => NeutralRun (a.review now blocked others) steps
  | .edit now modify :: steps => modify.status = none ∧
      (a.updateUser now modify).dataLimit = a.dataLimit ∧
      (a.updateUser now modify).usedTraffic = a.usedTraffic ∧
      NeutralRun (a.updateUser now modify) steps

structure Unused (u : User) : Prop where
  quota : ∀ l, orNone u.dataLimit = some l → u.usedTraffic < l
  overage : u.overageTraffic = 0

section OperatorLimit

variable {now : Int} {modify : UserModify} {u : User} {a : Account}

theorem Unused.quotaExhausted_eq (h : Unused u) : quotaExhausted u = false := by
  rw [quotaExhausted]
  cases hl : u.finiteLimit with
  | none => rfl
  | some l =>
    obtain ⟨hlimit, hpos⟩ := finiteLimit_eq_some_iff.mp hl
    have hleft := h.quota l (by rw [hlimit]; simp [orNone, Option.filter_some, hpos.ne'])
    simpa using hleft

theorem Unused.reactivate_status (h : Unused u) :
    (Usage.reactivateIfQuotaAvailable u).status ≠ .limited := by
  rw [reactivateIfQuotaAvailable_eq]
  dsimp only
  split_ifs with hlimited
  · decide
  · exact fun hs => hlimited ⟨hs, by simp [h.quotaExhausted_eq], h.overage.le⟩

theorem updatedUser_status_ne_limited
    (hmodify : modify.status ≠ some .limited ∨ modify.dataLimit.join.isSome)
    (h : Unused (updatedUser now modify u)) : (updatedUser now modify u).status ≠ .limited := by
  unfold updatedUser at h ⊢
  rw [if_pos hmodify] at h ⊢
  refine Unused.reactivate_status ?_
  rw [reactivateIfQuotaAvailable_eq] at h
  exact ⟨h.quota, h.overage⟩

theorem usage_updatedUser (now : Int) (modify : UserModify) (h : u.overageTraffic = 0) :
    (updatedUser now modify u).usedTraffic ≤ u.usedTraffic ∧
      (updatedUser now modify u).overageTraffic = 0 := by
  have hlimits : (applyDataLimit modify (applyStatus modify u)).usedTraffic ≤ u.usedTraffic ∧
      (applyDataLimit modify (applyStatus modify u)).overageTraffic = 0 := by
    rw [applyStatus_eq]
    unfold applyDataLimit applyOverageOnRecharge
    split
    · exact ⟨le_rfl, h⟩
    · rw [if_pos h.le]
      dsimp only
      split_ifs with hover <;> first | exact ⟨le_rfl, h⟩ | exact ⟨hover.2.le, h⟩
  obtain ⟨hused, -, hover⟩ :=
    usage_applyExpire now modify (applyDataLimit modify (applyStatus modify u))
  rw [← hused, ← hover] at hlimits
  unfold updatedUser
  split_ifs
  · rw [reactivateIfQuotaAvailable_eq]
    exact hlimits
  · exact hlimits

theorem Unused.updated (h : Unused u)
    (hlimit : (updatedUser now modify u).dataLimit = u.dataLimit) :
    Unused (updatedUser now modify u) := by
  obtain ⟨hused, hover⟩ := usage_updatedUser now modify h.overage
  refine ⟨fun l hl => ?_, hover⟩
  rw [hlimit] at hl
  exact hused.trans_lt (h.quota l hl)

theorem Unused.review_status (h : Unused a.toUser) (hlimited : a.status = .limited)
    (now : Int) (blocked others : Bool) : (a.review now blocked others).status ≠ .limited := by
  have hleft : ¬ a.dataLimit.any fun limit => limit ≠ 0 ∧ limit < a.usedTraffic := by
    intro hany
    obtain ⟨l, hl, hzero, hlt⟩ : ∃ l, a.dataLimit = some l ∧ l ≠ 0 ∧ l < a.usedTraffic := by
      simpa [Option.any_eq_true] using hany
    have hquota := h.quota l (by rw [hl]; simp [orNone, Option.filter_some, hzero])
    exact hlt.asymm hquota
  have hlifted : a.reviewLimited = a.onUser fun u => { u with status := .active } := by
    rw [Account.reviewLimited, if_neg (not_not.mpr hlimited), if_neg hleft, Account.onUser,
      reactivateIfQuotaAvailable_eq, if_pos ⟨hlimited, by simp [h.quotaExhausted_eq], h.overage.le⟩]
    rfl
  have hreview : a.review now blocked others =
      a.reviewLimited.enforceResellerTrafficCaps blocked others := by
    simp [Account.review, Account.reviewRaises, Account.reviewActive, Account.reviewOnHold, hlimited]
  have hcap := (enforcedUser_of_active (u := { a.toUser with status := .active }) rfl
    h.quotaExhausted_eq blocked others).1
  rw [hreview, hlifted, Account.enforceResellerTrafficCaps, Account.toUser_onUser,
    Account.toUser_onUser, hcap]
  split_ifs <;> decide

/-- **The operator's limit sticks** exactly if nothing follows it. -/
theorem operator_limit_sticks_iff (a : Account) (hquota : ∀ l, orNone a.dataLimit = some l →
      a.usedTraffic < l) (hover : a.overageTraffic = 0) (now : Int) (modify : UserModify)
    (hstatus : modify.status = some .limited)
    (hlimit : (a.updateUser now modify).dataLimit = a.dataLimit) (steps : List LaterStep)
    (hneutral : NeutralRun (a.updateUser now modify) steps) :
    (∀ l, l <+: steps → (l.foldl LaterStep.run (a.updateUser now modify)).status = .limited) ↔
      modify.dataLimit.join = none ∧ steps = [] := by
  have hunused : Unused (a.updateUser now modify).toUser :=
    Unused.updated (u := a.toUser) ⟨hquota, hover⟩ hlimit
  constructor
  · intro hsticks
    have hnone : modify.dataLimit.join = none := by
      by_contra hsome
      exact updatedUser_status_ne_limited (.inr (Option.isSome_iff_ne_none.mpr hsome)) hunused
        (hsticks [] List.nil_prefix)
    refine ⟨hnone, ?_⟩
    have hlimited := hsticks [] List.nil_prefix
    -- the first step lifts the limit, whatever it is
    cases steps with
    | nil => rfl
    | cons step steps =>
      refine absurd (hsticks [step] (List.cons_prefix_cons.mpr ⟨rfl, List.nil_prefix⟩)) ?_
      cases step with
      | review now' blocked others => exact hunused.review_status hlimited now' blocked others
      | edit now' modify' =>
        obtain ⟨hnamed, hsame, -, -⟩ := hneutral
        exact updatedUser_status_ne_limited (.inl (by rw [hnamed]; decide))
          (hunused.updated hsame)
  · rintro ⟨hnone, rfl⟩ l hl
    rw [List.prefix_nil.mp hl]
    change (updatedUser now modify a.toUser).status = .limited
    unfold updatedUser
    rw [if_neg (by rw [hstatus, hnone]; decide), applyDataLimit_of_none hnone]
    cases hexpire : modify.expire.join with
    | none => simp [applyExpire, hexpire, applyStatus, hstatus]
    | some e => simp [applyExpire, hexpire, applyStatus, hstatus]

end OperatorLimit

def throttled : Account where
  toUser := renewing none

theorem operator_limit_lifted :
    let a := throttled.updateUser 1000 { status := some .limited }
    a.status = .limited ∧ (a.review 1060 false false).status = .active ∧
      (a.updateUser 1060 { deviceLimit := some (some 2) }).status = .active := by
  decide +kernel

theorem operator_limit_set :
    (throttled.updateUser 1000 { status := some .limited }).status = .limited :=
  (operator_limit_sticks_iff throttled (fun _ h => Option.some.inj h ▸ by decide) rfl 1000
    { status := some .limited } rfl rfl [] trivial).mpr ⟨rfl, rfl⟩ [] List.nil_prefix

end Shahkar.Lifecycle
