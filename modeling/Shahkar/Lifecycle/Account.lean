import Shahkar.Services.UserBulk
import Shahkar.Usage.RecordSession

/-!
# The life of an account

What the jobs and the operators' actions that set `status` do to the row they find committed
(`app/db/crud.py`, `app/quota.py`, `app/jobs/review_users.py`, `app/services/user_bulk.py`).
-/

namespace Shahkar.Lifecycle

open Shahkar.Db Shahkar.Usage Shahkar.Billing Shahkar.Services

def enforcedUser (blocked others : Bool) (u : User) : User :=
  if u.adminId = none then u
  else if blocked then if u.status = .active then suspendedUser u else u
  else if u.cappedByReseller ∧ (others ∨ ¬ quotaExhausted u) then restoredUser u
  else u

/-- A `users` row with the columns that only the life of the account depends on. -/
structure Account extends User where
  onlineAt : Option Int := none
  editAt : Option Int := none
  createdAt : Int := 0
  hasNodeUsages : Bool := false
  deriving Repr, DecidableEq

namespace Account

variable (now : Int) (a : Account)

def onUser (f : User → User) : Account := { a with toUser := f a.toUser }

@[simp] theorem toUser_onUser (f : User → User) : (a.onUser f).toUser = f a.toUser := rfl
@[simp] theorem onlineAt_onUser (f : User → User) : (a.onUser f).onlineAt = a.onlineAt := rfl

def expired : Bool := a.expire.any fun e => 0 < e ∧ e ≤ now

/-- Not to be served: expired, or out of quota. -/
def dead : Bool := a.expired now || quotaExhausted a.toUser

/-!
### Single accounts
-/

def offline (status : UserStatus) : Bool :=
  status = .disabled ∨ status = .expired ∨ status = .limited

def updateUserStatus (status : UserStatus) : Account :=
  { a with status := status, onlineAt := if offline status then none else a.onlineAt }

def startUserExpire : Option Account :=
  a.onHoldExpireDuration.map fun d => { a with
    expire := some (now + d)
    onHoldExpireDuration := none
    onHoldTimeout := none }

def limitUserQuota : Account :=
  let a := a.onUser enforceUsageCap
  if staysActive a.toUser then a else a.updateUserStatus .limited

def updateUser (modify : UserModify) : Account :=
  { a.onUser (updatedUser now modify) with
    onlineAt := if modify.status.any offline then none else a.onlineAt
    editAt := some now }

def resetUserDataUsage : Account := { a.onUser resetUser with hasNodeUsages := false }

def markOnline (seenAt : Int) : Account :=
  if a.status.billable ∧ a.onlineAt.all (· < seenAt) then { a with onlineAt := some seenAt } else a

/-!
### `review`
-/

/-- The next plan that fires on a due account. -/
def duePlan : Option NextPlan :=
  let limited := a.dataLimit.any fun limit => limit ≠ 0 ∧ limit ≤ a.usedTraffic
  let expired := a.expire.any fun e => e ≠ 0 ∧ e ≤ now
  a.nextPlan.filter fun plan => (limited ∨ expired) ∧ (plan.fireOnEither ∨ (limited ∧ expired))

def reviewActive : Account :=
  if a.status ≠ .active ∨ ¬ a.dead now then a
  else
    let limited := a.dataLimit.any fun limit => limit ≠ 0 ∧ limit ≤ a.usedTraffic
    let expired := a.expire.any fun e => e ≠ 0 ∧ e ≤ now
    match a.duePlan now with
    | some plan =>
      match nextPlanUser now plan a.toUser with
      | some u => { a with toUser := u, hasNodeUsages := false }
      | none => a
    | none =>
      if limited then a.limitUserQuota
      else if expired then a.updateUserStatus .expired
      else a

/-- `reset_user_by_next` raises a `TypeError` on the account, which ends the whole pass. -/
def reviewRaises : Bool :=
  a.status = .active ∧ a.dead now ∧
    (a.duePlan now).any fun plan => (nextPlanUser now plan a.toUser).isNone

def reviewOnHold : Account :=
  if a.status = .onHold ∧
      (a.onlineAt.any (a.editAt.getD a.createdAt ≤ ·) ∨ a.onHoldTimeout.any (· ≤ now)) then
    ((a.updateUserStatus .active).startUserExpire now).getD (a.updateUserStatus .active)
  else a

def reviewLimited : Account :=
  if a.status ≠ .limited then a
  else if a.dataLimit.any fun limit => limit ≠ 0 ∧ limit < a.usedTraffic then
    a.onUser enforceUsageCap
  else a.onUser reactivateIfQuotaAvailable

def enforceResellerTrafficCaps (blocked others : Bool) : Account :=
  a.onUser (enforcedUser blocked others)

/-- What the stages of a pass make of the account. -/
def reviewStages (blocked others : Bool) : List Account :=
  let due := a.reviewActive now
  let held := due.reviewOnHold now
  let limited := held.reviewLimited
  due :: if a.reviewRaises now then []
    else [held, limited, limited.enforceResellerTrafficCaps blocked others]

def review (blocked others : Bool) : Account :=
  if a.reviewRaises now then a
  else (((a.reviewActive now).reviewOnHold now).reviewLimited).enforceResellerTrafficCaps blocked
    others

def ownedBy (admin : Option AdminId) : Bool := admin.all fun id => a.adminId = some id

def resetAllUsersDataUsage (admin : Option AdminId) : Account :=
  if ¬ a.ownedBy admin then a
  else { a with
    usedTraffic := 0
    usedTrafficUp := 0
    usedTrafficDown := 0
    overageTraffic := 0
    status := if a.status = .onHold ∨ a.status = .expired ∨ a.status = .disabled then a.status
      else .active
    nextPlan := none
    hasNodeUsages := false }

def disableAllActiveUsers (admin : Option AdminId) : Account :=
  if a.ownedBy admin ∧ (a.status = .active ∨ a.status = .onHold) then
    { a with status := .disabled }
  else a

def heldAgain : Bool :=
  a.status = .disabled ∧ a.expire = none ∧ a.onHoldExpireDuration ≠ none ∧ a.onlineAt = none

def activateAllDisabledUsers (admin : Option AdminId) : Account :=
  if ¬ a.ownedBy admin then a
  else if a.heldAgain then { a with status := .onHold }
  else if a.status = .disabled then { a with status := .active }
  else a

def applyBulkExtend (body : BulkExtendRequest) : Account :=
  if extendedLimits now body a.toUser = a.toUser then a
  else { a.onUser (extendedUser now body) with editAt := some now }

def applyBulkResetUsage : Account :=
  if a.usedTraffic = 0 ∧ ¬ a.hasNodeUsages then a else a.resetUserDataUsage

def applyBulkStatus (action : BulkStatusAction) : Account :=
  match bulkStatus now action a.toUser with
  | none => a
  | some status => { a with
      status := status
      onlineAt := if action = .disable then none else a.onlineAt
      editAt := some now }

end Account

end Shahkar.Lifecycle
