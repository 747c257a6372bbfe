import Shahkar.Billing.ResellerTariffs

/-!
Applying a commercial plan to an account and creating an account from one (`app/portal/__init__.py`,
`app/portal/username_check.py`).
-/

namespace Shahkar.Portal

open Shahkar.Db Shahkar.Lib Shahkar.Billing

def computeRenewalExpire (now : Int) (user : User) (plan : Plan) : Option Int :=
  match plan.durationDays.filter (· ≠ 0) with
  | none => user.expire
  | some days =>
    let base := (user.expire.filter fun e => e ≠ 0 ∧ now < e).getD now
    some (base + days * 86400)

theorem getD_filter_later (now : Int) (expire : Option Int) :
    (expire.filter fun e => e ≠ 0 ∧ now < e).getD now =
      ((orNone expire).map (max now)).getD now := by
  cases expire with
  | none => rfl
  | some e =>
    by_cases hzero : e = 0
    · simp [orNone, Option.filter_some, hzero]
    · by_cases hlater : now < e
      · simp [orNone, Option.filter_some, hzero, hlater, hlater.le]
      · simp [orNone, Option.filter_some, hzero, hlater, not_lt.mp hlater]

def computeFreshExpire (now : Int) (plan : Plan) : Option Int :=
  (plan.durationDays.filter (· ≠ 0)).map fun days => now + days * 86400

def computeRenewalDataLimit (user : User) (plan : Plan) : Option Int :=
  (normalizeDataLimit plan.dataLimit).map fun planLimit =>
    match normalizeDataLimit user.dataLimit with
    | none => planLimit
    | some limit => planLimit + max 0 (limit - user.usedTraffic)

def renewalModify (now : Int) (user : User) (plan : Plan) (locks : LimitLocks) : UserModify where
  status := some .active
  expire := some (some ((computeRenewalExpire now user plan).getD 0))
  dataLimit := some (some ((computeRenewalDataLimit user plan).getD 0))
  deviceLimit := some (locks.deviceLimit.or plan.deviceLimit)
  speedLimitUp := locks.speedLimitUp.map some
  speedLimitDown := locks.speedLimitDown.map some

def applyPlanToUser (now : Int) (id : Int) (user : User) (planId : Nat) (plan : Plan) :
    Action User := do
  let row ← if 0 < user.usedTraffic ∨ 0 < user.overageTraffic then resetUserDataUsage id user
    else pure user
  let locks ← Prog.query fun d =>
    resolveLockedLimitsForPlan d (row.adminId.bind d.admins.get?) plan
  let modify := renewalModify now user plan locks
  if (locks.deviceLimit.or plan.deviceLimit).any (· < 0) then .raise .validation
  else do
    Prog.emit (.notePlanApplied id planId)
    updateUser now id row modify

def createUserOrder (userId : Int) (planId : Nat) (plan : Plan) : Action Nat := do
  let id ← Prog.freshKey
  Prog.emit (.insertOrder id { userId, planId, amount := plan.price, status := .paid })
  commit
  return id

def markOrderApplied (id : Nat) : Action Unit := do
  Prog.emit (.setOrderStatus id .applied)
  commit

def usernameFormatDetail : String :=
  "Username only can be 3 to 32 characters and contain a-z, A-Z, 0-9, and underscores."

def usernameTakenDetail : String := "Username already exists"

def usernameFormatOk (username : String) : Bool :=
  3 ≤ username.length ∧ username.length ≤ 32 ∧
    username.toList.all fun c =>
      ('a' ≤ c ∧ c ≤ 'z') ∨ ('A' ≤ c ∧ c ≤ 'Z') ∨ ('0' ≤ c ∧ c ≤ '9') ∨ c = '_'

def usernameRefusal (d : Database) (username : String) : Option Error :=
  if ¬ usernameFormatOk username then some (.http 400 usernameFormatDetail)
  else if (d.userByName username).isSome ∨ (d.adminByName username).isSome then
    some (.http 409 usernameTakenDetail)
  else none

section NewAccount

variable (blueprint : User → UserCreate → Option String)

def createAccountFromPlan (now : Int) (ownerId : Int) (owner : User) (plan : Plan)
    (username : String) : Action (Int × String) := do
  match ← Prog.query fun d => usernameRefusal d username with
  | some refusal => .raise refusal
  | none =>
    let admin ← Prog.query fun d =>
      owner.adminId.bind fun a => (d.admins.get? a).map fun r => (a, r)
    let locks ← Prog.query fun d => resolveLockedLimitsForPlan d (admin.map Prod.snd) plan
    let user : UserCreate :=
      { username
        expire := computeFreshExpire now plan
        dataLimit := plan.dataLimit
        deviceLimit := locks.deviceLimit.or plan.deviceLimit
        speedLimitUp := locks.speedLimitUp
        speedLimitDown := locks.speedLimitDown }
    match blueprint owner user with
    | some invalid => .raise (.http 400 invalid)
    | none =>
      let (id, row) ← (createUser user admin).tryCatch fun e =>
        match e with
        | .integrity => .raise (.http 409 usernameTakenDetail)
        | .value message => .raise (.http 400 message)
        | e => .raise e
      Prog.emit (.updateUser id row { row with
        portalOwnerUserId := some ownerId, adminId := row.adminId.or owner.adminId })
      commit
      return (id, username)

end NewAccount

end Shahkar.Portal
