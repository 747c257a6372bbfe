import Shahkar.Db.Store

/-!
Creating, editing and resetting accounts (`app/db/crud.py`): the columns of `users` that limits,
expiry and billing depend on. Proxies, reminders, notes and portal logins are left out.
-/

namespace Shahkar.Db

open Shahkar.Lib Shahkar.Usage
open Prog hiding commit

structure UserCreate where
  username : String
  status : UserStatus := .active
  dataLimit : Option Int := none
  expire : Option Int := none
  onHoldExpireDuration : Option Int := none
  onHoldTimeout : Option Int := none
  nextPlan : Option NextPlan := none
  deviceLimit : Option Int := none
  speedLimitUp : Option Int := none
  speedLimitDown : Option Int := none
  deriving Repr, DecidableEq

structure UserModify where
  status : Option UserStatus := none
  dataLimit : Option (Option Int) := none
  expire : Option (Option Int) := none
  onHoldExpireDuration : Option Int := none
  onHoldTimeout : Option Int := none
  nextPlan : Option NextPlan := none
  deviceLimit : Option (Option Int) := none
  speedLimitUp : Option (Option Int) := none
  speedLimitDown : Option (Option Int) := none
  deriving Repr, DecidableEq

def orNone (x : Option Int) : Option Int := x.filter (· ≠ 0)

def getUsersCount (d : Database) (adminId : AdminId) : Int :=
  (d.users.entries.filter fun e => e.2.adminId = some adminId).length

def newUser (user : UserCreate) (adminId : Option AdminId) : User where
  username := user.username
  status := user.status
  dataLimit := orNone user.dataLimit
  expire := orNone user.expire
  adminId := adminId
  onHoldExpireDuration := orNone user.onHoldExpireDuration
  onHoldTimeout := orNone user.onHoldTimeout
  nextPlan := user.nextPlan
  deviceLimit := user.deviceLimit
  speedLimitUp := user.speedLimitUp
  speedLimitDown := user.speedLimitDown

def createRefusal (d : Database) (admin : Option (AdminId × Admin)) : Option Error :=
  let current := (admin.map fun a => getUsersCount d a.1).getD 0
  match admin.bind fun a => a.2.maxUsers.filter fun m => m ≤ current,
      admin.bind fun a => a.2.maxTotalTraffic.filter fun m =>
        ¬ a.2.isSudo ∧ m ≤ a.2.usersUsage with
  | some maxUsers, _ => some (.value s!"Reseller user limit reached ({maxUsers})")
  | none, some maxTraffic =>
    some (.value s!"Reseller total-traffic limit reached ({maxTraffic} bytes)")
  | none, none => none

def createUser (user : UserCreate) (admin : Option (AdminId × Admin)) :
    Action (Int × User) := do
  match ← Prog.query fun d => createRefusal d admin with
  | some refusal => .raise refusal
  | none =>
    let id ← Prog.freshKey
    let row := newUser user (admin.map Prod.fst)
    Prog.emit (.insertUser id row)
    commit
    return (id, row)

/-!
### `update_user`
-/

def applyStatus (modify : UserModify) (u : User) : User :=
  match modify.status with
  | none => u
  | some status =>
    if status = .onHold then { u with status := status }
    else { u with
      status := status
      onHoldExpireDuration :=
        if modify.onHoldExpireDuration.isNone then none else u.onHoldExpireDuration
      onHoldTimeout := if modify.onHoldTimeout.isNone then none else u.onHoldTimeout }

def applyDataLimit (modify : UserModify) (u : User) : User :=
  match modify.dataLimit.join with
  | none => u
  | some limit =>
    let u := applyOverageOnRecharge limit { u with dataLimit := orNone (some limit) }
    let u := if limit ≠ 0 ∧ limit < u.usedTraffic then { u with usedTraffic := limit } else u
    if modify.status.isSome ∨ u.status = .expired ∨ u.status = .disabled then u
    else if limit = 0 ∨ u.usedTraffic < limit then
      if u.status = .onHold then u else { u with status := .active }
    else { u with status := .limited }

def applyExpire (now : Int) (modify : UserModify) (u : User) : User :=
  match modify.expire.join with
  | none => u
  | some expire =>
    let u := { u with expire := orNone (some expire) }
    if modify.status.isSome ∨ (u.status ≠ .active ∧ u.status ≠ .expired) then u
    else if expire = 0 ∨ now < expire then { u with status := .active }
    else { u with status := .expired }

def updatedUser (now : Int) (modify : UserModify) (u : User) : User :=
  let u := applyExpire now modify (applyDataLimit modify (applyStatus modify u))
  let u := { u with
    onHoldTimeout := modify.onHoldTimeout.or u.onHoldTimeout
    onHoldExpireDuration := modify.onHoldExpireDuration.or u.onHoldExpireDuration
    nextPlan := modify.nextPlan
    deviceLimit := (modify.deviceLimit.map orNone).getD u.deviceLimit
    speedLimitUp := (modify.speedLimitUp.map orNone).getD u.speedLimitUp
    speedLimitDown := (modify.speedLimitDown.map orNone).getD u.speedLimitDown }
  -- an explicit `limited` is only undone together with a new package
  if modify.status ≠ some .limited ∨ modify.dataLimit.join.isSome then reactivateIfQuotaAvailable u
  else u

def updateUser (now : Int) (id : Int) (dbuser : User) (modify : UserModify) : Action User := do
  let row := updatedUser now modify dbuser
  Prog.emit (.updateUser id dbuser row)
  commit
  Prog.query fun d => (d.users.get? id).getD row

def resetUser (u : User) : User :=
  { u with
    usedTraffic := 0
    usedTrafficUp := 0
    usedTrafficDown := 0
    overageTraffic := 0
    status := if u.status = .expired ∨ u.status = .disabled then u.status else .active
    nextPlan := none }

def resetUserDataUsage (id : Int) (dbuser : User) : Action User := do
  let row := resetUser dbuser
  Prog.emit (.updateUser id dbuser row)
  Prog.emit (.clearNodeUsages id)
  commit
  Prog.query fun d => (d.users.get? id).getD row

def nextPlanLimit (plan : NextPlan) (u : User) : Option Int :=
  plan.dataLimit.bind fun limit =>
    if plan.addRemainingTraffic then some (limit + 0)
    else u.dataLimit.map fun current => limit + (current - u.usedTraffic)

def nextPlanUser (now : Int) (plan : NextPlan) (u : User) : Option User :=
  (nextPlanLimit plan u).map fun limit => { u with
    status := .active
    dataLimit := some limit
    -- a duration, not a date
    expire := (orNone plan.expire).map (now + ·)
    usedTraffic := 0
    usedTrafficUp := 0
    usedTrafficDown := 0
    overageTraffic := 0
    nextPlan := none }

def resetUserByNext (now id : Int) (dbuser : User) : Action (Option User) :=
  match dbuser.nextPlan with
  | none => return none
  | some plan =>
    match nextPlanUser now plan dbuser with
    | none => .raise .type
    | some row => do
      Prog.emit (.updateUser id dbuser row)
      Prog.emit (.clearNodeUsages id)
      commit
      Prog.query fun d => some ((d.users.get? id).getD row)

section Columns

variable (now : Int) (modify : UserModify) (u : User)

structure Relimited (u : User) (dataLimit expire : Option Int) (v : User) : Prop where
  username : v.username = u.username
  adminId : v.adminId = u.adminId
  chargedId : v.resellerTariffChargedId = u.resellerTariffChargedId
  chargedExpire : v.resellerTariffChargedExpire = u.resellerTariffChargedExpire
  dataLimit : v.dataLimit = dataLimit
  expire : v.expire = expire

def nextLimit (field : Option (Option Int)) (stored : Option Int) : Option Int :=
  match field.join with
  | none => stored
  | some value => orNone (some value)

def keptTimer (status : Option UserStatus) (field stored : Option Int) : Option Int :=
  if status.any (· ≠ .onHold) ∧ field.isNone then none else stored

theorem applyStatus_eq : applyStatus modify u = { u with
    status := modify.status.getD u.status
    onHoldExpireDuration :=
      keptTimer modify.status modify.onHoldExpireDuration u.onHoldExpireDuration
    onHoldTimeout := keptTimer modify.status modify.onHoldTimeout u.onHoldTimeout } := by
  unfold applyStatus keptTimer
  cases modify.status with
  | none => simp
  | some status => by_cases hhold : status = .onHold <;> simp [hhold]

theorem applyOverageOnRecharge_eq (limit : Int) : ∃ used overage, applyOverageOnRecharge limit u =
    { u with usedTraffic := used, overageTraffic := overage } := by
  unfold applyOverageOnRecharge
  split_ifs <;> exact ⟨_, _, rfl⟩

theorem applyDataLimit_row : ∃ status used overage, applyDataLimit modify u = { u with
    status := status
    usedTraffic := used
    overageTraffic := overage
    dataLimit := nextLimit modify.dataLimit u.dataLimit } := by
  unfold applyDataLimit nextLimit
  split
  · exact ⟨_, _, _, rfl⟩
  · next limit _ =>
      obtain ⟨used, overage, hoverage⟩ :=
        applyOverageOnRecharge_eq { u with dataLimit := orNone (some limit) } limit
      rw [hoverage]
      dsimp only
      split_ifs <;> exact ⟨_, _, _, rfl⟩

theorem applyExpire_row : ∃ status, applyExpire now modify u =
    { u with status := status, expire := nextLimit modify.expire u.expire } := by
  unfold applyExpire nextLimit
  split
  · exact ⟨_, rfl⟩
  · dsimp only
    split_ifs <;> exact ⟨_, rfl⟩

theorem updatedUser_row : ∃ status used overage, updatedUser now modify u = { u with
    status := status
    usedTraffic := used
    overageTraffic := overage
    dataLimit := nextLimit modify.dataLimit u.dataLimit
    expire := nextLimit modify.expire u.expire
    onHoldExpireDuration := modify.onHoldExpireDuration.or
      (keptTimer modify.status modify.onHoldExpireDuration u.onHoldExpireDuration)
    onHoldTimeout := modify.onHoldTimeout.or
      (keptTimer modify.status modify.onHoldTimeout u.onHoldTimeout)
    nextPlan := modify.nextPlan
    deviceLimit := (modify.deviceLimit.map orNone).getD u.deviceLimit
    speedLimitUp := (modify.speedLimitUp.map orNone).getD u.speedLimitUp
    speedLimitDown := (modify.speedLimitDown.map orNone).getD u.speedLimitDown } := by
  obtain ⟨status, used, overage, hlimit⟩ := applyDataLimit_row modify (applyStatus modify u)
  obtain ⟨status', hexpire⟩ :=
    applyExpire_row now modify (applyDataLimit modify (applyStatus modify u))
  unfold updatedUser reactivateIfQuotaAvailable
  rw [hexpire, hlimit, applyStatus_eq]
  dsimp only
  split_ifs <;> exact ⟨_, _, _, rfl⟩

theorem relimited_updatedUser :
    Relimited u (nextLimit modify.dataLimit u.dataLimit) (nextLimit modify.expire u.expire)
      (updatedUser now modify u) := by
  obtain ⟨status, used, overage, hrow⟩ := updatedUser_row now modify u
  rw [hrow]
  exact ⟨rfl, rfl, rfl, rfl, rfl, rfl⟩

@[simp] theorem cappedByReseller_updatedUser :
    (updatedUser now modify u).cappedByReseller = u.cappedByReseller := by
  obtain ⟨status, used, overage, hrow⟩ := updatedUser_row now modify u
  rw [hrow]

theorem onHoldExpireDuration_updatedUser (hstatus : modify.status = none) :
    (updatedUser now modify u).onHoldExpireDuration =
      modify.onHoldExpireDuration.or u.onHoldExpireDuration := by
  obtain ⟨status, used, overage, hrow⟩ := updatedUser_row now modify u
  rw [hrow, hstatus]
  rfl

end Columns

section Footprint

variable {P : Write → Prop} {A L : Row → Prop}

theorem confined_createUser {user : UserCreate} {admin : Option (AdminId × Admin)}
    (hP : ∀ id u, P (.insertUser id u)) : (createUser user admin).Confined P A L := by
  refine confined_bind (confined_query _) fun refusal => ?_
  split
  · exact confined_raise _
  · exact confined_bind confined_freshKey fun id =>
      confined_bind (confined_emit.mpr (hP _ _)) fun _ =>
      confined_bind confined_commit fun _ => confined_pure _

variable {dbuser : User} {now id : Int}

theorem confined_updateUser {modify : UserModify}
    (hP : P (.updateUser id dbuser (updatedUser now modify dbuser))) :
    (updateUser now id dbuser modify).Confined P A L :=
  confined_bind (confined_emit.mpr hP) fun _ =>
    confined_bind confined_commit fun _ => confined_query _

theorem confined_resetUserDataUsage {id : Int} (hP : P (.updateUser id dbuser (resetUser dbuser)))
    (hclear : P (.clearNodeUsages id)) :
    (resetUserDataUsage id dbuser).Confined P A L :=
  confined_bind (confined_emit.mpr hP) fun _ =>
    confined_bind (confined_emit.mpr hclear) fun _ =>
    confined_bind confined_commit fun _ => confined_query _

theorem confined_resetUserByNext
    (hP : ∀ plan row, nextPlanUser now plan dbuser = some row → P (.updateUser id dbuser row))
    (hclear : P (.clearNodeUsages id)) : (resetUserByNext now id dbuser).Confined P A L := by
  unfold resetUserByNext
  split
  · exact confined_pure _
  · split
    · exact confined_raise _
    · next hrow =>
        exact confined_bind (confined_emit.mpr (hP _ _ hrow)) fun _ =>
          confined_bind (confined_emit.mpr hclear) fun _ =>
          confined_bind confined_commit fun _ => confined_query _

end Footprint

end Shahkar.Db
