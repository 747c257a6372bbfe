import Mathlib.Data.List.Sort
import Shahkar.Billing.Wallet
import Shahkar.Db.Crud

/-!
Wholesale tariffs of resellers (`app/billing/reseller_tariffs.py`): which tariff an account falls
under, which limits it locks, and what a new or an edited account costs.
-/

namespace Shahkar.Billing

open Shahkar.Db Shahkar.Lib

/-!
### Matching a tariff
-/

def normalizeDataLimit (dataLimit : Option Int) : Option Int := dataLimit.filter (0 < ·)

def isUnlimitedDataLimit (dataLimit : Option Int) : Bool := (normalizeDataLimit dataLimit).isNone

def normalizeDurationDays (durationDays : Option Int) : Option Int := durationDays.filter (0 < ·)

def nullsLastLe (a b : Option Int) : Bool :=
  match a, b with
  | some x, some y => x ≤ y
  | none, some _ => false
  | _, none => true

def tariffLe (s t : ResellerPlanTariff) : Prop :=
  if s.durationDays ≠ t.durationDays then nullsLastLe s.durationDays t.durationDays
  else if s.dataLimit ≠ t.dataLimit then nullsLastLe s.dataLimit t.dataLimit
  else s.id ≤ t.id

instance : DecidableRel tariffLe := fun s t => by unfold tariffLe; infer_instance

def listTariffs (d : Database) : List ResellerPlanTariff :=
  (d.tariffs.filter ResellerPlanTariff.enabled).insertionSort tariffLe

def cheaperLe (s t : ResellerPlanTariff) : Prop :=
  s.price < t.price ∨ (s.price = t.price ∧ s.id ≤ t.id)

instance : DecidableRel cheaperLe := fun s t => by unfold cheaperLe; infer_instance

def snapDurationToCatalog (want : Int) (catalogDays : List Int) : Int :=
  let catalog := catalogDays.filter (0 < ·)
  if catalog = [] ∨ want ∈ catalog then want
  else
    let near := catalog.filter fun day => (day - want).natAbs ≤ 1
    ((near.insertionSort fun a b => (a - want).natAbs < (b - want).natAbs ∨
      ((a - want).natAbs = (b - want).natAbs ∧ a ≤ b)).head?).getD want

def matchTariff (d : Database) (dataLimit durationDays : Option Int) :
    Option ResellerPlanTariff :=
  let sameVolume := (listTariffs d).filter fun t =>
    normalizeDataLimit t.dataLimit = normalizeDataLimit dataLimit
  match normalizeDurationDays durationDays with
  | some want =>
    let snapped := snapDurationToCatalog want (sameVolume.filterMap fun t =>
      normalizeDurationDays t.durationDays)
    ((sameVolume.filter fun t => t.durationDays = some snapped).insertionSort cheaperLe).head?
  | none => ((sameVolume.filter fun t => t.durationDays.isNone).insertionSort cheaperLe).head?

def effectiveTariffPrice (d : Database) (adminId : AdminId) (tariff : ResellerPlanTariff) : Int :=
  ((d.tariffOverrides.get? (adminId, tariff.id)).join).getD tariff.price

/-!
### Durations
-/

def roundDays (secs : Int) : Int :=
  let q := secs / 86400
  let r := secs % 86400
  if 2 * r < 86400 then q
  else if 86400 < 2 * r then q + 1
  else if q % 2 = 0 then q else q + 1

def normExpire (expire : Option Int) : Option Int := expire.filter (0 < ·)

def durationDaysFromExpire (now : Int) (expire : Option Int) : Option Int :=
  (normExpire expire).bind fun ts =>
    if ts - now ≤ 0 then none else some (roundDays (ts - now)) |>.filter (0 < ·)

def durationDaysFromOnHold (onHoldExpireDuration : Option Int) : Option Int :=
  (onHoldExpireDuration.filter (0 < ·)).bind fun secs => some (roundDays secs) |>.filter (0 < ·)

def durationDaysForCreatePayload (now : Int) (user : UserCreate) : Option Int :=
  (durationDaysFromOnHold user.onHoldExpireDuration).or (durationDaysFromExpire now user.expire)

def billableDurationCandidates (now : Int) (oldExpire newExpire : Option Int) : List Int :=
  match normExpire newExpire with
  | none => []
  | some new =>
    let fromNow := (some (roundDays (new - now))).filter (0 < ·)
    let added := ((normExpire oldExpire).filter fun old => now < old ∧ old + 3600 < new).bind
      fun old => (some (roundDays (new - old))).filter fun days =>
        0 < days ∧ some days ≠ fromNow
    fromNow.toList ++ added.toList

def matchTariffForModify (d : Database) (now : Int) (dataLimit oldExpire newExpire : Option Int) :
    Option ResellerPlanTariff :=
  let hit := (billableDurationCandidates now oldExpire newExpire).findSome? fun days =>
    matchTariff d dataLimit (some days)
  let close := match normExpire oldExpire, normExpire newExpire with
    | none, none => true
    | some old, some new => (new - old).natAbs ≤ 3600
    | _, _ => false
  hit.or (if close then matchTariff d dataLimit (durationDaysFromExpire now newExpire) else none)

def shapeRefusal (d : Database) (dataLimit durationDays : Option Int) : Option Error :=
  let tariffs := listTariffs d
  if tariffs = [] ∨ (matchTariff d dataLimit durationDays).isSome then none
  else if isUnlimitedDataLimit dataLimit then
    let unlimited := tariffs.filter fun t => isUnlimitedDataLimit t.dataLimit
    if unlimited = [] then none
    else
      let examples := ((unlimited.filterMap fun t => normalizeDurationDays t.durationDays).dedup
        ).insertionSort (· ≤ ·)
      let list := String.intercalate ", " (examples.map fun days => toString days ++ " days")
      let hint := if examples = [] then "" else s!" (e.g. {list})"
      let got := match durationDays with
        | some days => s!" (received {days} days)"
        | none => " (no expiry)"
      some (.resellerTariff
        ("Unlimited accounts must use a duration that matches a wholesale tariff" ++ hint ++ got ++
          ". Creating without expiry (or a non-matching duration) is not allowed.") 400)
  else if tariffs.any fun t => ¬ isUnlimitedDataLimit t.dataLimit then
    some (.resellerTariff
      ("No wholesale tariff matches this data limit / duration. " ++
        "Pick a volume and period that exists under Resellers → Tariffs.") 400)
  else none

def modifyShapeRefusal (d : Database) (now : Int)
    (oldDataLimit oldExpire nextDataLimit nextExpire : Option Int) : Option Error :=
  let tariffs := listTariffs d
  let candidates := billableDurationCandidates now oldExpire nextExpire
  let sameVolume := normalizeDataLimit oldDataLimit = normalizeDataLimit nextDataLimit
  if tariffs = [] then none
  else if (normExpire oldExpire).isSome ∧ (normExpire nextExpire).isNone ∧
      isUnlimitedDataLimit nextDataLimit ∧ tariffs.any fun t =>
        isUnlimitedDataLimit t.dataLimit ∧ (normalizeDurationDays t.durationDays).isSome then
    some (.resellerTariff
      ("Cannot remove expiry on unlimited accounts while wholesale " ++
        "duration tariffs are configured — renew with a matching period instead.") 400)
  else if candidates = [] ∧ sameVolume then none
  else if (matchTariffForModify d now nextDataLimit oldExpire nextExpire).isSome then none
  else if candidates ≠ [] ∧ isUnlimitedDataLimit nextDataLimit ∧
      tariffs.any fun t => isUnlimitedDataLimit t.dataLimit then
    some (.resellerTariff
      ("Expiry must match a wholesale tariff duration " ++
        "(extension/set does not match 30/60/90…).") 400)
  else if sameVolume then none
  else shapeRefusal d nextDataLimit (durationDaysFromExpire now nextExpire)

def shouldChargeResellerModify (now : Int) (dbuser : User) (tariff : ResellerPlanTariff)
    (nextDataLimit nextExpire : Option Int) : Bool :=
  let new := normExpire nextExpire
  let extended := new.any fun n => match normExpire dbuser.expire with
    | none => true
    | some old => old ≤ now ∨ old + 3600 < n
  let dataChanged := normalizeDataLimit dbuser.dataLimit ≠ normalizeDataLimit nextDataLimit
  match dbuser.resellerTariffChargedId with
  | none => extended ∨ dataChanged
  | some paidId =>
    if extended then
      match normExpire dbuser.resellerTariffChargedExpire with
      | none => true
      | some paid => new.any fun n => paid + 3600 < n
    else dataChanged ∧ paidId ≠ tariff.id

structure LimitLocks where
  deviceLimit : Option Int := none
  speedLimitUp : Option Int := none
  speedLimitDown : Option Int := none
  deriving Repr, DecidableEq

def mergeLimit (a b : Option Int) : Option Int :=
  match a.filter (0 < ·), b.filter (0 < ·) with
  | some x, some y => some (min x y)
  | x, y => x.or y

def LimitLocks.merge (a b : LimitLocks) : LimitLocks where
  deviceLimit := mergeLimit a.deviceLimit b.deviceLimit
  speedLimitUp := mergeLimit a.speedLimitUp b.speedLimitUp
  speedLimitDown := mergeLimit a.speedLimitDown b.speedLimitDown

def lockedLimitOverrides (t : ResellerPlanTariff) : LimitLocks where
  deviceLimit := t.deviceLimit.filter (0 < ·)
  speedLimitUp := t.speedLimitUp.filter (0 < ·)
  speedLimitDown := t.speedLimitDown.filter (0 < ·)

def lockedLimitOverridesFromPlan (plan : Plan) : LimitLocks :=
  { deviceLimit := plan.deviceLimit.filter (0 < ·) }

def resolvePlanLimitLocks (d : Database) (dataLimit durationDays : Option Int) : LimitLocks :=
  let plans := (d.plans.entries.map Prod.snd).filter fun plan =>
    plan.enabled ∧ normalizeDataLimit plan.dataLimit = normalizeDataLimit dataLimit ∧
      normalizeDurationDays plan.durationDays = normalizeDurationDays durationDays
  plans.foldl (fun locks plan => locks.merge (lockedLimitOverridesFromPlan plan)) {}

def defaultUnlimitedTariffLocks (d : Database) : LimitLocks :=
  ((listTariffs d).filter fun t => isUnlimitedDataLimit t.dataLimit).foldl
    (fun locks t => locks.merge (lockedLimitOverrides t)) {}

def resolveLockedLimitsForAdmin (d : Database) (admin : Option Admin)
    (dataLimit durationDays : Option Int) (planLocks : LimitLocks) : LimitLocks :=
  match admin with
  | none => {}
  | some admin =>
    if admin.isSudo then {}
    else
      let locks := ((resolvePlanLimitLocks d dataLimit durationDays).merge planLocks).merge
        (((matchTariff d dataLimit durationDays).map lockedLimitOverrides).getD {})
      if locks.deviceLimit.isNone ∧ isUnlimitedDataLimit dataLimit then
        locks.merge (defaultUnlimitedTariffLocks d)
      else locks

def resolveLockedLimitsForPlan (d : Database) (admin : Option Admin) (plan : Plan) :
    LimitLocks :=
  resolveLockedLimitsForAdmin d admin plan.dataLimit (normalizeDurationDays plan.durationDays)
    (lockedLimitOverridesFromPlan plan)

def chargeable (d : Database) (admin : Option (AdminId × Admin)) : Option (AdminId × Admin) :=
  admin.filter fun a => ¬ a.2.isSudo ∧ d.settings.billingEnabled

def tariffQuote (d : Database) (admin : Option (AdminId × Admin))
    (dataLimit durationDays : Option Int) :
    Except Error (Option (AdminId × ResellerPlanTariff × Int)) :=
  match chargeable d admin with
  | none => .ok none
  | some (adminId, _) =>
    match matchTariff d dataLimit durationDays with
    | none =>
      match shapeRefusal d dataLimit durationDays with
      | some refusal => .error refusal
      | none => .ok none
    | some tariff => .ok (some (adminId, tariff, effectiveTariffPrice d adminId tariff))

def checkWallet (adminId : AdminId) (tariff : ResellerPlanTariff) (price : Int)
    (need : Int → String) (count : Nat) : Action (Option ResellerPlanTariff × Int) :=
  if price ≤ 0 then pure (some tariff, 0)
  else do
    let balance ← getOrCreateWallet none adminId
    if balance < price * count then .raise (.resellerTariff (need balance) 402)
    else return (some tariff, price)

def prepareResellerTariffCharge (admin : Option (AdminId × Admin))
    (dataLimit durationDays : Option Int) (count : Nat) :
    Action (Option ResellerPlanTariff × Int) :=
  if count < 1 then pure (none, 0)
  else do
    match ← Prog.query fun d => tariffQuote d admin dataLimit durationDays with
    | .error refusal => .raise refusal
    | .ok none => return (none, 0)
    | .ok (some (adminId, tariff, price)) =>
      checkWallet adminId tariff price (fun balance =>
        s!"Insufficient wallet balance — need {price * count} for {count}× «{tariff.name}», " ++
          s!"have {balance}") count

def modifyQuote (d : Database) (now : Int) (admin : Option (AdminId × Admin)) (dbuser : User)
    (nextDataLimit nextExpire : Option Int) :
    Except Error (Option (AdminId × ResellerPlanTariff × Int)) :=
  match chargeable d admin with
  | none => .ok none
  | some (adminId, _) =>
    match modifyShapeRefusal d now dbuser.dataLimit dbuser.expire nextDataLimit nextExpire with
    | some refusal => .error refusal
    | none =>
      match matchTariffForModify d now nextDataLimit dbuser.expire nextExpire with
      | none => .ok none
      | some tariff =>
        if shouldChargeResellerModify now dbuser tariff nextDataLimit nextExpire then
          .ok (some (adminId, tariff, effectiveTariffPrice d adminId tariff))
        else .ok none

def prepareResellerModifyCharge (now : Int) (admin : Option (AdminId × Admin)) (dbuser : User)
    (nextDataLimit nextExpire : Option Int) : Action (Option ResellerPlanTariff × Int) := do
  match ← Prog.query fun d => modifyQuote d now admin dbuser nextDataLimit nextExpire with
  | .error refusal => .raise refusal
  | .ok none => return (none, 0)
  | .ok (some (adminId, tariff, price)) =>
    checkWallet adminId tariff price (fun balance =>
      s!"Insufficient wallet balance — need {price} for «{tariff.name}», have {balance}") 1

inductive TariffEvent
  | create
  | modify
  | portalPurchase
  | portalRenew
  deriving Repr, DecidableEq

def TariffEvent.text : TariffEvent → String
  | .create => "create"
  | .modify => "modify"
  | .portalPurchase => "portal_purchase"
  | .portalRenew => "portal_renew"

def chargeResellerTariff (adminId : AdminId) (admin : Admin) (tariff : ResellerPlanTariff)
    (unitPrice : Int) (usernames : List String) (event : TariffEvent) :
    Action (Option Transaction) :=
  match usernames with
  | [] => pure none
  | first :: _ =>
    if unitPrice ≤ 0 ∨ admin.isSudo then pure none
    else do
      let n := usernames.length
      let tx ← addTransaction none adminId (-(unitPrice * n)) .planSale
        (some s!"reseller_tariff_{event.text}:tariff:{tariff.id}:n:{n}:user:{first}") false
      return some tx

def markedUser (u : User) (tariff : ResellerPlanTariff) : User :=
  { u with
    resellerTariffChargedId := some tariff.id
    resellerTariffChargedExpire := normExpire u.expire }

def markCharged (username : String) (tariff : ResellerPlanTariff) : Action Unit := do
  match ← Prog.query fun d => d.userByName username with
  | none => pure ()
  | some (id, dbuser) => do
    Prog.emit (.updateUser id dbuser (markedUser dbuser tariff))
    commit

def markUsersTariffCharged (usernames : List String) (tariff : ResellerPlanTariff) :
    Action Unit :=
  if usernames = [] then pure ()
  else do
    let rows ← Prog.query fun d => d.users.entries.filter fun e =>
      usernames.any fun name => sameUsername e.2.username name
    let _ ← Prog.each (fun (e : Int × User) =>
      Prog.emit (.updateUser e.1 e.2 (markedUser e.2 tariff))) rows
    commit

def chargeUnlimitedCreates (adminId : AdminId) (admin : Admin) (tariff : ResellerPlanTariff)
    (unitPrice : Int) (usernames : List String) : Action Unit := do
  (if 0 < unitPrice then do
    let _ ← chargeResellerTariff adminId admin tariff unitPrice usernames .create
  else pure ())
  markUsersTariffCharged usernames tariff

def chargePortalPlanTariff (resellerAdminId : Option AdminId) (commercialPlan : Plan)
    (username : String) (event : TariffEvent) : Action Unit := do
  match ← Prog.query fun d => resellerAdminId.bind fun a => (d.admins.get? a).map fun r => (a, r) with
  | none => pure ()
  | some (adminId, admin) =>
    if admin.isSudo then pure ()
    else do
      match ← prepareResellerTariffCharge (some (adminId, admin)) commercialPlan.dataLimit
          commercialPlan.durationDays 1 with
      | (none, _) => pure ()
      | (some tariff, unit) => do
        (if 0 < unit then do
          let _ ← chargeResellerTariff adminId admin tariff unit [username] event
        else pure ())
        markCharged username tariff

variable {d : Database} {admin : Option (AdminId × Admin)} {t : ResellerPlanTariff}
  {dataLimit durationDays : Option Int} {tariff : ResellerPlanTariff}

theorem mem_listTariffs :
    t ∈ listTariffs d ↔ t ∈ d.tariffs ∧ t.enabled := by
  simp [listTariffs]

theorem chargeable_eq_some {p : AdminId × Admin}
    (h : chargeable d admin = some p) : admin = some p ∧ p.2.isSudo = false := by
  obtain ⟨hadmin, hreseller⟩ := Option.filter_eq_some_iff.mp h
  exact ⟨hadmin, by simpa using (of_decide_eq_true hreseller).1⟩

theorem tariffQuote_payer {b : AdminId} {price : Int}
    (h : tariffQuote d admin dataLimit durationDays = .ok (some (b, tariff, price))) :
    ∃ r, admin = some (b, r) ∧ r.isSudo = false := by
  unfold tariffQuote at h
  split at h
  · cases h
  next adminId r hchargeable =>
  split at h
  · split at h <;> cases h
  · cases h
    exact ⟨r, chargeable_eq_some hchargeable⟩

theorem modifyQuote_payer {now : Int} {dbuser : User} {dataLimit expire : Option Int} {b : AdminId}
    {price : Int}
    (h : modifyQuote d now admin dbuser dataLimit expire = .ok (some (b, tariff, price))) :
    ∃ r, admin = some (b, r) ∧ r.isSudo = false := by
  unfold modifyQuote at h
  split at h
  · cases h
  next adminId r hchargeable =>
  split at h
  · cases h
  split at h
  · cases h
  split at h
  · cases h
    exact ⟨r, chargeable_eq_some hchargeable⟩
  · cases h

section Footprint

variable {P : Write → Prop} {A L : Row → Prop}

theorem confined_markUsersTariffCharged {usernames : List String} {tariff : ResellerPlanTariff}
    (hP : ∀ id u v, P (.updateUser id u v)) :
    (markUsersTariffCharged usernames tariff).Confined P A L := by
  unfold markUsersTariffCharged
  split
  · exact Prog.confined_pure _
  · exact Prog.confined_bind (Prog.confined_query _) fun rows =>
      Prog.confined_bind (Prog.confined_each fun e _ => Prog.confined_emit.mpr (hP _ _ _))
        fun _ => confined_commit

end Footprint

end Shahkar.Billing
