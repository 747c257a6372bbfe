import Shahkar.Lifecycle.Account

/-!
# Who is served again

Nine operations can set an account to `active` without an operator naming the status. Only
`apply_bulk_status` looks at both the expiry and the quota before it does.
-/

namespace Shahkar.Lifecycle

open Shahkar.Db Shahkar.Usage Shahkar.Billing Shahkar.Services

structure PlainEdit where
  modify : UserModify
  status : modify.status = none
  limit_nonneg : ∀ limit, modify.dataLimit.join = some limit → 0 ≤ limit

/-- The operations that may reactivate an account. -/
inductive Revival
  | reactivateIfQuotaAvailable
  | reviewLimited
  | enforceResellerTrafficCaps (blocked others : Bool)
  | updateUser (edit : PlainEdit)
  | applyBulkExtend (body : BulkExtendRequest)
  | applyBulkStatusEnable
  | applyBulkResetUsage
  | resetUserDataUsage
  | activateAllDisabledUsers (admin : Option AdminId)

def Revival.run (now : Int) (a : Account) : Revival → Account
  | .reactivateIfQuotaAvailable => a.onUser Usage.reactivateIfQuotaAvailable
  | .reviewLimited => a.reviewLimited
  | .enforceResellerTrafficCaps blocked others => a.enforceResellerTrafficCaps blocked others
  | .updateUser edit => a.updateUser now edit.modify
  | .applyBulkExtend body => a.applyBulkExtend now body
  | .applyBulkStatusEnable => a.applyBulkStatus now .enable
  | .applyBulkResetUsage => a.applyBulkResetUsage
  | .resetUserDataUsage => a.resetUserDataUsage
  | .activateAllDisabledUsers admin => a.activateAllDisabledUsers admin

def Account.hasQuota (a : Account) : Bool :=
  a.status = .limited ∧ ¬ quotaExhausted a.toUser ∧ a.overageTraffic ≤ 0

def headroom (limit : Int) (u : User) : Bool :=
  limit = 0 ∨ u.usedTraffic + max 0 u.overageTraffic < limit

def revivedByEdit (now : Int) (modify : UserModify) (a : Account) : Bool :=
  match a.status, modify.dataLimit.join, modify.expire.join with
  | .limited, some limit, none => headroom limit a.toUser ∧ a.expired now
  | .limited, none, none => a.hasQuota ∧ a.expired now
  | .limited, none, some expire => a.hasQuota ∧ 0 < expire ∧ expire ≤ now
  | .expired, none, some expire => (expire = 0 ∨ now < expire) ∧ quotaExhausted a.toUser
  | .expired, some limit, some expire =>
    (expire = 0 ∨ now < expire) ∧ 0 < limit ∧ limit ≤ a.usedTraffic + max 0 a.overageTraffic
  | _, _, _ => false

def extensionBase (now : Int) (u : User) : Int :=
  (u.expire.filter fun e => e ≠ 0 ∧ now < e).getD now

def reachesFuture (now : Int) (body : BulkExtendRequest) (u : User) : Bool :=
  if body.days = 0 then u.expire.any fun e => e ≠ 0 ∧ now < e
  else extensionBase now u + body.days * 86400 ≠ 0

def revivedByExtension (now : Int) (body : BulkExtendRequest) (a : Account) : Bool :=
  match a.status with
  | .limited => body.days = 0 ∧ a.expired now ∧
      a.toUser.finiteLimit.any fun limit => a.usedTraffic < limit + body.addDataBytes
  | .expired => reachesFuture now body a.toUser ∧
      a.toUser.finiteLimit.any fun limit => limit + body.addDataBytes ≤ a.usedTraffic
  | _ => false

/-- The accounts an operation makes active although they are dead. -/
def Revival.revivesDead (now : Int) (a : Account) : Revival → Bool
  | .reactivateIfQuotaAvailable => a.hasQuota ∧ a.expired now
  | .reviewLimited => a.hasQuota ∧ a.expired now ∧
      ¬ a.dataLimit.any fun limit => limit ≠ 0 ∧ limit < a.usedTraffic
  | .enforceResellerTrafficCaps blocked _ =>
    a.adminId ≠ none ∧ ¬ blocked ∧ a.cappedByReseller ∧ a.status ≠ .active ∧
      ¬ quotaExhausted a.toUser ∧ a.expired now
  | .updateUser edit => revivedByEdit now edit.modify a
  | .applyBulkExtend body => revivedByExtension now body a
  | .applyBulkStatusEnable => false
  | .applyBulkResetUsage =>
    (a.usedTraffic ≠ 0 ∨ a.hasNodeUsages) ∧ (a.status = .limited ∨ a.status = .onHold) ∧
      a.expired now
  | .resetUserDataUsage => (a.status = .limited ∨ a.status = .onHold) ∧ a.expired now
  | .activateAllDisabledUsers admin =>
    a.ownedBy admin ∧ a.status = .disabled ∧ ¬ a.heldAgain ∧ a.dead now

def ServesAlive (now : Int) (a a' : Account) : Prop :=
  a'.status = .active → a.status ≠ .active → a'.dead now = false

section Rules

variable {now : Int} {a a' : Account}

theorem servesAlive_of_kept (h : a'.status = a.status) : ServesAlive now a a' := by
  intro hactive hwas
  exact absurd (h ▸ hactive) hwas

theorem servesAlive_of_inactive (h : a'.status ≠ .active) : ServesAlive now a a' := fun hactive =>
  absurd hactive h

theorem servesAlive_of_revived (hwas : a.status ≠ .active) (h : a'.status = .active) :
    ServesAlive now a a' ↔ a'.dead now = false := ⟨fun hserves => hserves h hwas, fun hd _ _ => hd⟩

theorem dead_eq_false_iff :
    a.dead now = false ↔ a.expired now = false ∧ quotaExhausted a.toUser = false := by
  exact Bool.or_eq_false_iff

end Rules

theorem quotaExhausted_eq (u : User) :
    quotaExhausted u = u.dataLimit.any fun limit => 0 < limit ∧ limit ≤ u.usedTraffic := by
  unfold quotaExhausted User.finiteLimit
  cases u.dataLimit with
  | none => rfl
  | some limit => by_cases hpos : 0 < limit <;> simp [Option.filter, hpos]

theorem reactivateIfQuotaAvailable_eq (u : User) :
    Usage.reactivateIfQuotaAvailable u = { u with
      status := if u.status = .limited ∧ ¬ quotaExhausted u ∧ u.overageTraffic ≤ 0 then .active
        else u.status } := by
  unfold Usage.reactivateIfQuotaAvailable
  by_cases hquota : u.status = .limited ∧ ¬ quotaExhausted u ∧ u.overageTraffic ≤ 0
  · rw [if_pos hquota, if_neg]
    simp only [not_or, not_not, not_lt]
    exact hquota
  · rw [if_neg hquota, if_pos]
    by_contra hnot
    simp only [not_or, not_not, not_lt] at hnot
    exact hquota hnot

section Operations

variable (now : Int) (a : Account)

theorem servesAlive_reactivateIfQuotaAvailable :
    ServesAlive now a (a.onUser Usage.reactivateIfQuotaAvailable) ↔
      ¬ Revival.reactivateIfQuotaAvailable.revivesDead now a := by
  rw [Revival.revivesDead, decide_eq_true_iff]
  unfold Account.onUser
  rw [reactivateIfQuotaAvailable_eq]
  by_cases hquota : a.hasQuota
  · have hlimited := of_decide_eq_true hquota
    rw [if_pos hlimited, servesAlive_of_revived (by rw [hlimited.1]; decide) rfl,
      dead_eq_false_iff]
    -- only the status is another one
    change a.expired now = false ∧ quotaExhausted a.toUser = false ↔ _
    simp [hquota, hlimited.2.1]
  · rw [if_neg fun h => hquota (decide_eq_true h)]
    exact iff_of_true (servesAlive_of_kept rfl) fun h => hquota h.1

theorem servesAlive_reviewLimited :
    ServesAlive now a a.reviewLimited ↔ ¬ Revival.reviewLimited.revivesDead now a := by
  rw [Revival.revivesDead, decide_eq_true_iff]
  unfold Account.reviewLimited
  split
  · next hstatus =>
      refine iff_of_true (servesAlive_of_kept rfl) fun h => hstatus (of_decide_eq_true h.1).1
  · split
    · next hover =>
        refine iff_of_true (servesAlive_of_kept ?_) fun h => h.2.2 hover
        unfold Account.onUser enforceUsageCap
        split <;> rfl
    · next hover =>
        rw [servesAlive_reactivateIfQuotaAvailable, Revival.revivesDead, decide_eq_true_iff]
        exact not_congr ⟨fun h => ⟨h.1, h.2, hover⟩, fun h => ⟨h.1, h.2.1⟩⟩

theorem servesAlive_enforceResellerTrafficCaps (blocked others : Bool) :
    ServesAlive now a (a.enforceResellerTrafficCaps blocked others) ↔
      ¬ (Revival.enforceResellerTrafficCaps blocked others).revivesDead now a := by
  rw [Revival.revivesDead, decide_eq_true_iff]
  unfold Account.enforceResellerTrafficCaps Account.onUser enforcedUser
  split
  · next hadmin => exact iff_of_true (servesAlive_of_kept rfl) fun h => h.1 hadmin
  split
  · next hblocked =>
      refine iff_of_true ?_ fun h => h.2.1 hblocked
      split
      · exact servesAlive_of_inactive (by simp [suspendedUser])
      · exact servesAlive_of_kept rfl
  · next hadmin hblocked =>
      split
      · next hcapped =>
          by_cases hexhausted : quotaExhausted a.toUser
          · refine iff_of_true (servesAlive_of_inactive ?_) fun h => h.2.2.2.2.1 hexhausted
            simp [restoredUser, hexhausted]
          · by_cases hactive : a.status = .active
            · refine iff_of_true (fun _ hne => absurd hactive hne) fun h => h.2.2.2.1 hactive
            · rw [servesAlive_of_revived hactive (by simp [restoredUser, hexhausted]),
                dead_eq_false_iff]
              -- the restore leaves the expiry and the quota alone
              change a.expired now = false ∧ quotaExhausted a.toUser = false ↔ _
              simp [hexhausted, hactive, hadmin, hblocked, hcapped.1]
      · next hcapped =>
          refine iff_of_true (servesAlive_of_kept rfl) fun h => hcapped ⟨h.2.2.1, .inr h.2.2.2.2.1⟩

theorem servesAlive_resetUserDataUsage :
    ServesAlive now a a.resetUserDataUsage ↔ ¬ Revival.resetUserDataUsage.revivesDead now a := by
  rw [Revival.revivesDead, decide_eq_true_iff]
  have hquota : quotaExhausted a.resetUserDataUsage.toUser = false := by
    unfold quotaExhausted
    rw [Option.any_eq_false]
    intro limit hlimit
    have hpos : 0 < limit := (finiteLimit_eq_some_iff.mp hlimit).2
    exact decide_eq_false (not_le.mpr hpos)
  have hexpired : a.resetUserDataUsage.expired now = a.expired now := rfl
  have hstatus : a.resetUserDataUsage.status =
      if a.status = .expired ∨ a.status = .disabled then a.status else .active := rfl
  cases h : a.status with
  | active => exact iff_of_true (fun _ hne => absurd h hne) (by simp)
  | disabled | expired =>
    refine iff_of_true (servesAlive_of_kept ?_) (by simp)
    rw [hstatus, h]
    rfl
  | limited | onHold =>
    rw [servesAlive_of_revived (by rw [h]; decide) (by rw [hstatus, h]; rfl), dead_eq_false_iff,
      hquota, hexpired]
    simp

theorem servesAlive_applyBulkResetUsage :
    ServesAlive now a a.applyBulkResetUsage ↔
      ¬ Revival.applyBulkResetUsage.revivesDead now a := by
  rw [Revival.revivesDead, decide_eq_true_iff]
  unfold Account.applyBulkResetUsage
  split
  · next hskip =>
      refine iff_of_true (servesAlive_of_kept rfl) fun h => ?_
      exact h.1.elim (fun hused => hused hskip.1) hskip.2
  · next hskip =>
      rw [servesAlive_resetUserDataUsage, Revival.revivesDead, decide_eq_true_iff]
      have : a.usedTraffic ≠ 0 ∨ a.hasNodeUsages := by
        by_contra hnot
        simp only [not_or, not_not] at hnot
        exact hskip hnot
      simp [this]

theorem servesAlive_activateAllDisabledUsers (admin : Option AdminId) :
    ServesAlive now a (a.activateAllDisabledUsers admin) ↔
      ¬ (Revival.activateAllDisabledUsers admin).revivesDead now a := by
  rw [Revival.revivesDead, decide_eq_true_iff]
  unfold Account.activateAllDisabledUsers
  split
  · next howned => exact iff_of_true (servesAlive_of_kept rfl) fun h => howned h.1
  split
  · next hheld =>
      exact iff_of_true (servesAlive_of_inactive (by simp)) fun h => h.2.2.1 hheld
  split
  · next howned hheld hdisabled =>
      rw [servesAlive_of_revived (by rw [hdisabled]; decide) rfl]
      have hdead : Account.dead now { a with status := .active } = a.dead now := rfl
      rw [hdead]
      simp [not_not.mp howned, hdisabled, hheld]
  · next hdisabled => exact iff_of_true (servesAlive_of_kept rfl) fun h => hdisabled h.2.1

theorem servesAlive_applyBulkStatusEnable :
    ServesAlive now a (a.applyBulkStatus now .enable) := by
  unfold Account.applyBulkStatus bulkStatus
  by_cases hdisabled : a.status = .disabled
  · simp only [hdisabled, ne_eq, not_true_eq_false, if_false]
    intro hactive _
    have hstatus : reactivatedStatus now a.toUser = .active := hactive
    unfold reactivatedStatus at hstatus
    split at hstatus
    · cases hstatus
    split at hstatus
    · cases hstatus
    · next hexpired hexhausted =>
        refine dead_eq_false_iff.mpr ⟨Bool.eq_false_iff.mpr hexpired, ?_⟩
        rw [quotaExhausted_eq]
        exact Bool.eq_false_iff.mpr hexhausted
  · simp only [hdisabled, ne_eq, not_false_eq_true, if_true]
    exact servesAlive_of_kept rfl

end Operations

section Edits

variable {now : Int} {modify : UserModify} {u : User}

theorem applyDataLimit_of_none (h : modify.dataLimit.join = none) : applyDataLimit modify u = u := by
  unfold applyDataLimit
  rw [h]

def recharged (limit : Int) (u : User) : User :=
  let v := applyOverageOnRecharge limit { u with dataLimit := orNone (some limit) }
  if limit ≠ 0 ∧ limit < v.usedTraffic then { v with usedTraffic := limit } else v

theorem recharged_status (limit : Int) : (recharged limit u).status = u.status := by
  unfold recharged applyOverageOnRecharge
  dsimp only
  split_ifs <;> rfl

theorem recharged_dataLimit (limit : Int) :
    (recharged limit u).dataLimit = orNone (some limit) := by
  unfold recharged applyOverageOnRecharge
  dsimp only
  split_ifs <;> rfl

theorem recharged_lt_iff (limit : Int) : (recharged limit u).usedTraffic < limit ↔
      u.usedTraffic + max 0 u.overageTraffic < limit := by
  unfold recharged applyOverageOnRecharge
  dsimp only
  split_ifs with h₁ h₂ h₃ h₄ h₅ <;> dsimp only at * <;> omega

variable {limit : Int} {status : UserStatus}

theorem applyDataLimit_eq (h : modify.dataLimit.join = some limit) :
    applyDataLimit modify u =
      if modify.status.isSome ∨ (recharged limit u).status = .expired ∨
          (recharged limit u).status = .disabled then recharged limit u
      else if limit = 0 ∨ (recharged limit u).usedTraffic < limit then
        if (recharged limit u).status = .onHold then recharged limit u
        else { recharged limit u with status := .active }
      else { recharged limit u with status := .limited } := by
  unfold applyDataLimit
  rw [h]
  rfl

theorem applyDataLimit_of_some (hstatus : modify.status = none)
    (h : modify.dataLimit.join = some limit) :
    applyDataLimit modify u = { recharged limit u with
      status := if u.status = .expired ∨ u.status = .disabled then u.status
        else if headroom limit u then if u.status = .onHold then .onHold else .active
        else .limited } := by
  have hroom : headroom limit u = true ↔
      (limit = 0 ∨ (recharged limit u).usedTraffic < limit) := by
    rw [recharged_lt_iff]
    exact decide_eq_true_iff
  have hkept := recharged_status (u := u) limit
  rw [applyDataLimit_eq h, hstatus]
  simp only [hroom, ← hkept]
  generalize recharged limit u = w
  by_cases hdone : w.status = .expired ∨ w.status = .disabled
  · simp [hdone]
  · simp only [Option.isSome_none, Bool.false_eq_true, false_or, hdone, if_false]
    split_ifs with hover hheld
    · rw [← hheld]
    · rfl
    · rfl

def retimed (now : Int) : Option Int → UserStatus → UserStatus
  | none, status => status
  | some expire, status =>
    if status = .active ∨ status = .expired then
      if expire = 0 ∨ now < expire then .active else .expired
    else status

theorem applyExpire_status (hstatus : modify.status = none) :
    (applyExpire now modify u).status = retimed now modify.expire.join u.status := by
  unfold applyExpire
  cases modify.expire.join with
  | none => rfl
  | some expire =>
    have hcond : ((none : Option UserStatus).isSome ∨
        (u.status ≠ .active ∧ u.status ≠ .expired)) ↔
        ¬ (u.status = .active ∨ u.status = .expired) := by simp
    dsimp only
    rw [hstatus, if_congr hcond rfl rfl, ite_not, retimed]
    split_ifs <;> rfl

def past (now : Int) (stored : Option Int) : Option Int → Bool
  | none => stored.any fun e => 0 < e ∧ e ≤ now
  | some expire => 0 < expire ∧ expire ≤ now

theorem any_nextLimit (now : Int) (field : Option (Option Int)) (stored : Option Int) :
    ((nextLimit field stored).any fun e => 0 < e ∧ e ≤ now) = past now stored field.join := by
  unfold nextLimit
  cases field.join with
  | none => rfl
  | some expire =>
    by_cases hzero : expire = 0
    · simp [orNone, past, hzero]
    · simp [orNone, past, hzero]

def settled (now : Int) (expire : Option Int) (status : UserStatus) (exhausted : Bool)
    (overage : Int) : UserStatus :=
  if retimed now expire status = .limited ∧ ¬ exhausted ∧ overage ≤ 0 then .active
  else retimed now expire status

theorem settled_limited_exhausted (expire : Option Int) (overage : Int) :
    settled now expire .limited true overage = .limited := by
  cases expire <;> simp [settled, retimed]

theorem settled_limited (expire : Option Int) (exhausted : Bool) (overage : Int) :
    settled now expire .limited exhausted overage =
      if ¬ exhausted ∧ overage ≤ 0 then .active else .limited := by
  cases expire <;> simp [settled, retimed]

theorem settled_of_kept (expire : Option Int) (exhausted : Bool) (overage : Int)
    (h : status = .disabled ∨ status = .onHold) :
    settled now expire status exhausted overage = status := by
  rcases h with rfl | rfl <;> cases expire <;> simp [settled, retimed]

theorem settled_of_timed (expire : Option Int) (exhausted : Bool) (overage : Int)
    (h : status = .active ∨ status = .expired) :
    settled now expire status exhausted overage = retimed now expire status := by
  have hne : retimed now expire status ≠ .limited := by
    cases expire with
    | none => rcases h with rfl | rfl <;> simp [retimed]
    | some e =>
      rw [retimed, if_pos h]
      split <;> simp
  exact if_neg fun hlimited => hne hlimited.1

structure Edited (now : Int) (modify : UserModify) (u v : User) : Prop where
  usedTraffic : v.usedTraffic = (applyDataLimit modify u).usedTraffic
  dataLimit : v.dataLimit = (applyDataLimit modify u).dataLimit
  expire : v.expire = nextLimit modify.expire u.expire
  status : v.status = settled now modify.expire.join (applyDataLimit modify u).status
    (quotaExhausted (applyDataLimit modify u)) (applyDataLimit modify u).overageTraffic

theorem usage_applyExpire (now : Int) (modify : UserModify) (u : User) :
    (applyExpire now modify u).usedTraffic = u.usedTraffic ∧
      (applyExpire now modify u).dataLimit = u.dataLimit ∧
      (applyExpire now modify u).overageTraffic = u.overageTraffic := by
  obtain ⟨status, hrow⟩ := applyExpire_row now modify u
  rw [hrow]
  exact ⟨rfl, rfl, rfl⟩

theorem quotaExhausted_congr {u v : User} (hused : v.usedTraffic = u.usedTraffic)
    (hlimit : v.dataLimit = u.dataLimit) : quotaExhausted v = quotaExhausted u := by
  rw [quotaExhausted_eq, quotaExhausted_eq, hused, hlimit]

theorem edited_updatedUser (now : Int) (hstatus : modify.status = none) (u : User) :
    Edited now modify u (updatedUser now modify u) := by
  have hnone : applyStatus modify u = u := by
    unfold applyStatus
    rw [hstatus]
  obtain ⟨hused, hlimit, hover⟩ := usage_applyExpire now modify (applyDataLimit modify u)
  have hexhausted := quotaExhausted_congr hused hlimit
  have hexpire := (relimited_updatedUser now modify u).expire
  unfold updatedUser at hexpire ⊢
  rw [hnone, if_pos (.inl (by rw [hstatus]; decide)), reactivateIfQuotaAvailable_eq] at hexpire ⊢
  refine ⟨hused, hlimit, hexpire, ?_⟩
  rw [settled, ← applyExpire_status hstatus, ← hexhausted, ← hover]
  rfl

theorem quotaExhausted_applyDataLimit (hstatus : modify.status = none)
    (h : modify.dataLimit.join = some limit) :
    quotaExhausted (applyDataLimit modify u) =
      decide (0 < limit ∧ limit ≤ u.usedTraffic + max 0 u.overageTraffic) := by
  rw [applyDataLimit_of_some hstatus h, quotaExhausted_eq]
  rw [recharged_dataLimit]
  have hlt := recharged_lt_iff (u := u) limit
  by_cases hzero : limit = 0
  · simp [orNone, hzero]
  · simp only [orNone, Option.filter_some, ne_eq, hzero, not_false_eq_true, decide_true, if_true,
      Option.any_some]
    rw [decide_eq_decide]
    omega

end Edits

section EditedAccounts

variable (now : Int) (a : Account)

variable {modify : UserModify} {status : UserStatus}

theorem servesAlive_updateUser_iff (hstatus : modify.status = none) :
    ServesAlive now a (a.updateUser now modify) ↔
      (settled now modify.expire.join (applyDataLimit modify a.toUser).status
          (quotaExhausted (applyDataLimit modify a.toUser))
          (applyDataLimit modify a.toUser).overageTraffic = .active → a.status ≠ .active →
        (past now a.expire modify.expire.join ||
          quotaExhausted (applyDataLimit modify a.toUser)) = false) := by
  obtain ⟨hused, hlimit, hexpire, hafter⟩ := edited_updatedUser now hstatus a.toUser
  have hdead : (a.updateUser now modify).dead now = (past now a.expire modify.expire.join ||
      quotaExhausted (applyDataLimit modify a.toUser)) := by
    rw [← quotaExhausted_congr hused hlimit, ← any_nextLimit, ← hexpire]
    rfl
  unfold ServesAlive
  rw [show (a.updateUser now modify).status = _ from hafter, hdead]

theorem retimed_some_eq_active {expire : Int} (hlive : status = .active ∨ status = .expired) :
    retimed now (some expire) status = .active ↔ expire = 0 ∨ now < expire := by
  rw [retimed, if_pos hlive]
  split
  · next h => simp [h]
  · next h => simp [h]

theorem retimed_serves_iff (hlive : status = .active ∨ status = .expired) (expire : Int)
    (stored : Option Int) (exhausted : Bool) :
    (retimed now (some expire) status = .active →
        (past now stored (some expire) || exhausted) = false) ↔
      ¬ ((expire = 0 ∨ now < expire) ∧ exhausted) := by
  rw [retimed_some_eq_active now hlive]
  by_cases hfuture : expire = 0 ∨ now < expire
  · have hpast : past now stored (some expire) = false := decide_eq_false (by omega)
    simp [hfuture, hpast]
  · simp [hfuture]

theorem servesAlive_updateUser_of_no_limit (hstatus : modify.status = none)
    (hvolume : modify.dataLimit.join = none) :
    ServesAlive now a (a.updateUser now modify) ↔ ¬ revivedByEdit now modify a := by
  rw [servesAlive_updateUser_iff now a hstatus, applyDataLimit_of_none hvolume]
  unfold revivedByEdit
  rw [hvolume]
  cases hwas : a.status with
  | active => simp
  | disabled => simp [settled_of_kept]
  | onHold => simp [settled_of_kept]
  | limited =>
    rw [settled_limited]
    by_cases hquota : ¬ quotaExhausted a.toUser ∧ a.overageTraffic ≤ 0
    · have hhas : a.hasQuota = true := decide_eq_true ⟨hwas, hquota⟩
      cases htime : modify.expire.join with
      | none => simp [hquota, hhas, past, Account.expired]
      | some expire => simp [hquota, hhas, past]
    · have hhas : a.hasQuota = false := decide_eq_false fun h => hquota h.2
      rw [if_neg hquota]
      cases htime : modify.expire.join with
      | none => simp [hhas]
      | some expire => simp [hhas]
  | expired =>
    rw [settled_of_timed _ _ _ (.inr rfl)]
    cases htime : modify.expire.join with
    | none => simp [retimed]
    | some expire =>
      simp only [ne_eq, reduceCtorEq, not_false_eq_true, true_imp_iff,
        retimed_serves_iff now (.inr rfl), decide_eq_true_eq]

theorem servesAlive_updateUser_of_limit {limit : Int} (hstatus : modify.status = none)
    (hvolume : modify.dataLimit.join = some limit) (hnonneg : 0 ≤ limit) :
    ServesAlive now a (a.updateUser now modify) ↔ ¬ revivedByEdit now modify a := by
  rw [servesAlive_updateUser_iff now a hstatus, quotaExhausted_applyDataLimit hstatus hvolume,
    show (applyDataLimit modify a.toUser).status = _ from
      congrArg User.status (applyDataLimit_of_some hstatus hvolume)]
  generalize (applyDataLimit modify a.toUser).overageTraffic = overage
  unfold revivedByEdit
  rw [hvolume]
  -- an account without headroom has used up the new limit
  have hover : headroom limit a.toUser = false ↔
      0 < limit ∧ limit ≤ a.usedTraffic + max 0 a.overageTraffic := by
    rw [headroom, decide_eq_false_iff_not]
    omega
  cases hwas : a.status with
  | active => simp
  | disabled => simp [settled_of_kept]
  | onHold =>
    cases hroom : headroom limit a.toUser with
    | true => simp [settled_of_kept]
    | false => simp [hover.mp hroom, settled_limited_exhausted]
  | limited =>
    cases hroom : headroom limit a.toUser with
    | true =>
      have hfits : ¬ (0 < limit ∧ limit ≤ a.usedTraffic + max 0 a.overageTraffic) := by
        rw [← hover, hroom]
        decide
      rw [decide_eq_false hfits, if_neg (by decide), if_pos rfl, if_neg (by decide),
        settled_of_timed _ _ _ (.inl rfl)]
      cases htime : modify.expire.join with
      | none => simp [retimed, past, Account.expired, hroom]
      | some expire =>
        simp only [ne_eq, reduceCtorEq, not_false_eq_true, true_imp_iff,
          retimed_serves_iff now (.inl rfl)]
        simp
    | false =>
      rw [decide_eq_true (hover.mp hroom), if_neg (by decide), if_neg (by decide),
        settled_limited_exhausted]
      cases htime : modify.expire.join with
      | none => simp [hroom]
      | some expire => simp
  | expired =>
    rw [if_pos (.inl rfl), settled_of_timed _ _ _ (.inr rfl)]
    cases htime : modify.expire.join with
    | none => simp [retimed]
    | some expire =>
      simp only [ne_eq, reduceCtorEq, not_false_eq_true, true_imp_iff,
        retimed_serves_iff now (.inr rfl), decide_eq_true_eq]

theorem servesAlive_updateUser (edit : PlainEdit) :
    ServesAlive now a (a.updateUser now edit.modify) ↔ ¬ revivedByEdit now edit.modify a := by
  cases hvolume : edit.modify.dataLimit.join with
  | none => exact servesAlive_updateUser_of_no_limit now a edit.status hvolume
  | some limit =>
    exact servesAlive_updateUser_of_limit now a edit.status hvolume
      (edit.limit_nonneg limit hvolume)

end EditedAccounts

section Extensions

variable (now : Int) (a : Account) (body : BulkExtendRequest)

theorem le_extensionBase (u : User) : now ≤ extensionBase now u := by
  unfold extensionBase
  cases hbase : u.expire.filter fun e => e ≠ 0 ∧ now < e with
  | none => exact le_refl now
  | some e =>
    have hlater := of_decide_eq_true (Option.filter_eq_some_iff.mp hbase).2
    exact hlater.2.le

theorem extendedUser_usage (u : User) : (extendedUser now body u).usedTraffic = u.usedTraffic ∧
      (extendedUser now body u).dataLimit = (extendedLimits now body u).dataLimit ∧
      (extendedUser now body u).expire = (extendedLimits now body u).expire := by
  unfold extendedUser
  dsimp only
  split_ifs <;> exact ⟨rfl, rfl, rfl⟩

theorem quotaExhausted_extendedUser (u : User) :
    quotaExhausted (extendedUser now body u) =
      u.finiteLimit.any fun limit => limit + body.addDataBytes ≤ u.usedTraffic := by
  obtain ⟨hused, hlimit, -⟩ := extendedUser_usage now body u
  rw [quotaExhausted_eq, hused, hlimit]
  unfold extendedLimits User.finiteLimit
  cases u.dataLimit with
  | none => rfl
  | some limit =>
    by_cases hpos : 0 < limit
    · simp [Option.filter, hpos]
      intro
      omega
    · simp [Option.filter, hpos]

theorem expired_extendedUser :
    ((extendedUser now body a.toUser).expire.any fun e => 0 < e ∧ e ≤ now) =
      (decide (body.days = 0) && a.expired now) := by
  obtain ⟨-, -, hexpire⟩ := extendedUser_usage now body a.toUser
  have hbase := le_extensionBase now a.toUser
  rw [hexpire]
  unfold extendedLimits Account.expired
  by_cases hdays : body.days = 0
  · simp [hdays]
  · simp only [hdays, if_false, decide_false, Bool.false_and, Option.any_some]
    refine decide_eq_false fun h => ?_
    have hle : extensionBase now a.toUser + body.days * 86400 ≤ now := h.2
    omega

theorem extendedUser_status (u : User) : (extendedUser now body u).status =
      if (u.status = .expired ∧ (extendedLimits now body u).expire.any fun e => e ≠ 0 ∧ now < e) ∨
        (u.status = .limited ∧ (orNone (extendedLimits now body u).dataLimit).all
          fun limit => u.usedTraffic < limit) then .active else u.status := by
  have hstatus : (extendedLimits now body u).status = u.status := rfl
  unfold extendedUser
  cases hwas : u.status <;> simp only [hstatus, hwas, reduceCtorEq, false_and, true_and, if_false,
    false_or, or_false] <;> split_ifs <;> simp_all [extendedLimits]

variable {u : User}

theorem addDataBytes_of_unchanged {limit : Int} (h : extendedLimits now body u = u)
    (hlimit : u.finiteLimit = some limit) :
    body.addDataBytes = 0 := by
  obtain ⟨hdata, hpos⟩ := finiteLimit_eq_some_iff.mp hlimit
  have hsame : u.dataLimit.map (fun l : Int => if 0 < l then l + body.addDataBytes else l) =
      u.dataLimit := congrArg User.dataLimit h
  rw [hdata, Option.map_some, if_pos hpos, Option.some.injEq] at hsame
  omega

theorem days_of_unchanged (h : extendedLimits now body u = u)
    (hdays : body.days ≠ 0) : extensionBase now u + body.days * 86400 = 0 := by
  have hexpire : (if body.days = 0 then u.expire
      else some (extensionBase now u + body.days * 86400)) = u.expire := congrArg User.expire h
  rw [if_neg hdays] at hexpire
  by_contra hne
  have hbase := le_extensionBase now u
  -- the new expiry would be the stored one, and count from itself
  have hself : extensionBase now u = extensionBase now u + body.days * 86400 := by
    conv_lhs => rw [extensionBase, ← hexpire]
    rw [Option.filter_some, if_pos (decide_eq_true ⟨hne, by omega⟩), Option.getD_some]
  omega

theorem revivedByExtension_of_unchanged (h : extendedLimits now body a.toUser = a.toUser) :
    revivedByExtension now body a = false := by
  unfold revivedByExtension
  cases hwas : a.status with
  | active | disabled | onHold => rfl
  | limited =>
    refine decide_eq_false fun hrevived => ?_
    obtain ⟨hdays, -, hroom⟩ := hrevived
    obtain ⟨limit, hlimit, -⟩ := Option.any_eq_true _ _ |>.mp hroom
    exact body.change.elim (fun hne => hne hdays) fun hne =>
      hne (addDataBytes_of_unchanged now body h hlimit)
  | expired =>
    refine decide_eq_false fun hrevived => ?_
    obtain ⟨hfuture, hroom⟩ := hrevived
    obtain ⟨limit, hlimit, -⟩ := Option.any_eq_true _ _ |>.mp hroom
    have hdays : body.days ≠ 0 := body.change.resolve_right fun hne =>
      hne (addDataBytes_of_unchanged now body h hlimit)
    rw [reachesFuture, if_neg hdays] at hfuture
    exact of_decide_eq_true hfuture (days_of_unchanged now body h hdays)

theorem unchanged_of_unlimited (hlimit : u.finiteLimit = none)
    (hdays : body.days = 0) : extendedLimits now body u = u := by
  have hsame : u.dataLimit.map (fun l : Int => if 0 < l then l + body.addDataBytes else l) =
      u.dataLimit := by
    cases hdata : u.dataLimit with
    | none => rfl
    | some l =>
      have hneg : ¬ 0 < l := by
        intro hpos
        rw [finiteLimit_eq_some_iff.mpr ⟨hdata, hpos⟩] at hlimit
        cases hlimit
      rw [Option.map_some, if_neg hneg]
  unfold extendedLimits
  dsimp only
  rw [if_pos hdays, hsame]

theorem orNone_extendedLimits {limit : Int} (hlimit : u.finiteLimit = some limit) :
    orNone (extendedLimits now body u).dataLimit = some (limit + body.addDataBytes) := by
  obtain ⟨hdata, hpos⟩ := finiteLimit_eq_some_iff.mp hlimit
  have hne : limit + body.addDataBytes ≠ 0 := by omega
  unfold extendedLimits orNone
  rw [hdata, Option.map_some, if_pos hpos, Option.filter_some, if_pos (decide_eq_true hne)]

theorem any_extendedLimits_expire (u : User) :
    ((extendedLimits now body u).expire.any fun e => e ≠ 0 ∧ now < e) =
      reachesFuture now body u := by
  have hbase := le_extensionBase now u
  unfold reachesFuture
  change (if body.days = 0 then u.expire
    else some (extensionBase now u + body.days * 86400)).any _ = _
  split
  · rfl
  · rw [Option.any_some, decide_eq_decide]
    exact and_iff_left (by omega)

theorem not_expired_of_reachesFuture (h : reachesFuture now body a.toUser) :
    (decide (body.days = 0) && a.expired now) = false := by
  by_cases hdays : body.days = 0
  · rw [reachesFuture, if_pos hdays] at h
    obtain ⟨e, he, hlater⟩ := Option.any_eq_true _ _ |>.mp h
    have hlater := (of_decide_eq_true hlater).2
    unfold Account.expired
    rw [he, Option.any_some, Bool.and_eq_false_iff]
    exact .inr (decide_eq_false (by omega))
  · simp [hdays]

theorem servesAlive_applyBulkExtend :
    ServesAlive now a (a.applyBulkExtend now body) ↔ ¬ revivedByExtension now body a := by
  unfold Account.applyBulkExtend
  split
  · next hsame =>
      refine iff_of_true (servesAlive_of_kept rfl) ?_
      rw [revivedByExtension_of_unchanged now a body hsame]
      decide
  next hchanged =>
  have hdead : Account.dead now { a.onUser (extendedUser now body) with editAt := some now } =
      (decide (body.days = 0) && a.expired now || a.toUser.finiteLimit.any fun limit =>
        limit + body.addDataBytes ≤ a.usedTraffic) := by
    rw [← expired_extendedUser, ← quotaExhausted_extendedUser now]
    rfl
  have hstatus := extendedUser_status now body a.toUser
  unfold ServesAlive
  rw [hdead]
  change (extendedUser now body a.toUser).status = .active → _ ↔ _
  rw [hstatus]
  unfold revivedByExtension
  cases hwas : a.status with
  | active | disabled | onHold => simp
  | limited =>
    cases hlimit : a.toUser.finiteLimit with
    | none =>
      have hdays : body.days ≠ 0 := fun hdays =>
        hchanged (unchanged_of_unlimited now body hlimit hdays)
      simp [hdays]
    | some limit =>
      rw [orNone_extendedLimits now body hlimit]
      by_cases hroom : a.usedTraffic < limit + body.addDataBytes
      · have hfits : ¬ limit + body.addDataBytes ≤ a.usedTraffic := not_le.mpr hroom
        simp [hroom, hfits]
      · simp [hroom]
  | expired =>
    rw [any_extendedLimits_expire]
    cases hfuture : reachesFuture now body a.toUser with
    | true => simp [not_expired_of_reachesFuture now a body hfuture]
    | false => simp

end Extensions

/-- **Which operations serve dead accounts**: those that `revivesDead` describes. -/
theorem revival_serves_alive_iff (now : Int) (op : Revival) (a : Account) :
    ((op.run now a).status = .active → a.status ≠ .active →
        (op.run now a).expired now = false ∧ quotaExhausted (op.run now a).toUser = false) ↔
      op.revivesDead now a = false := by
  have hserves : ServesAlive now a (op.run now a) ↔ ¬ op.revivesDead now a = true := by
    cases op with
    | reactivateIfQuotaAvailable => exact servesAlive_reactivateIfQuotaAvailable now a
    | reviewLimited => exact servesAlive_reviewLimited now a
    | enforceResellerTrafficCaps blocked others =>
      exact servesAlive_enforceResellerTrafficCaps now a blocked others
    | updateUser edit => exact servesAlive_updateUser now a edit
    | applyBulkExtend body => exact servesAlive_applyBulkExtend now a body
    | applyBulkStatusEnable =>
      exact iff_of_true (servesAlive_applyBulkStatusEnable now a) Bool.false_ne_true
    | applyBulkResetUsage => exact servesAlive_applyBulkResetUsage now a
    | resetUserDataUsage => exact servesAlive_resetUserDataUsage now a
    | activateAllDisabledUsers admin => exact servesAlive_activateAllDisabledUsers now a admin
  rw [Bool.not_eq_true] at hserves
  rw [← hserves]
  unfold ServesAlive
  simp only [dead_eq_false_iff]

def overdue : Account where
  username := "user"
  status := .limited
  usedTraffic := 50
  dataLimit := some 100
  expire := some 10
  adminId := some 1

def suspendedOverdue : Account := { overdue with status := .disabled, cappedByReseller := true }

def usedUp : Account := { overdue with status := .expired, usedTraffic := 100 }

def moreVolume : PlainEdit := ⟨{ dataLimit := some (some 200) }, rfl, by simp⟩

def moreTime : PlainEdit := ⟨{ expire := some (some 30) }, rfl, by simp⟩

/-- At time 20 every operation but one makes a dead account active. -/
theorem revivals_serve_dead_accounts :
    ([(.reactivateIfQuotaAvailable, overdue), (.reviewLimited, overdue),
      (.enforceResellerTrafficCaps false false, suspendedOverdue),
      (.updateUser moreVolume, overdue), (.updateUser moreTime, usedUp),
      (.applyBulkExtend ⟨0, 1, by decide, by decide⟩, overdue),
      (.applyBulkExtend ⟨1, 0, by decide, by decide⟩, usedUp),
      (.applyBulkResetUsage, overdue), (.resetUserDataUsage, overdue),
      (.activateAllDisabledUsers none, suspendedOverdue)] : List (Revival × Account)).all
      (fun e => e.2.status ≠ .active ∧ (e.1.run 20 e.2).status = .active ∧
        (e.1.run 20 e.2).dead 20) = true := by
  decide

end Shahkar.Lifecycle
