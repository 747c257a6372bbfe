import Shahkar.Billing.TrafficPackages
import Shahkar.Billing.ResellerTariffs

/-!
The requests that move money (`app/routers/billing.py`) and the requests that create or edit
accounts for a reseller's money (`app/routers/user.py`). Protocol switches, live cores, the choice
of a subscription panel and notifications are left out.
-/

namespace Shahkar.Billing

open Shahkar.Db Shahkar.Lib

/-!
### Wallets, invoices and packages
-/

structure Caller where
  username : String
  isSudo : Bool
  canRead : Bool
  canWrite : Bool
  deriving Repr, DecidableEq

def withBilling {α : Type} (permitted : Bool) (permission : String) (p : Action α) :
    Action α :=
  if ¬ permitted then .raise (.http 403 s!"Missing permission: {permission}")
  else do
    let enabled ← Prog.query fun d => d.settings.billingEnabled
    if ¬ enabled then .raise (.http 404 "Billing is disabled") else p

def afterWalletTopup (now : Int) (adminId : AdminId) : Action Unit :=
  Prog.tryCatch (do
    match ← Prog.query fun d => d.admins.get? adminId with
    | none => pure ()
    | some target => do
      let _ ← billResellerUsage now adminId target
      let _ ← enforceResellerTrafficCaps now) fun _ => pure ()

inductive AdjustMode
  | set
  | delta
  | other (mode : String)
  deriving Repr, DecidableEq

def adjustDelta (mode : AdjustMode) (amount balance : Int) : Except Error (Option Int) :=
  match mode with
  | .set =>
    if amount < 0 then .error (.http 400 "set amount must be >= 0")
    else if amount - balance = 0 then .ok none
    else .ok (some (amount - balance))
  | .delta =>
    if amount = 0 then .error (.http 400 "delta amount must be non-zero")
    else .ok (some amount)
  | .other _ => .error (.http 400 "mode must be 'set' or 'delta'")

def adjustWallet (now : Int) (isSudo : Bool) (username : String) (mode : AdjustMode)
    (amount : Int) : Action Int :=
  withBilling isSudo "sudo" do
    match mode with
    | .other _ => .raise (.http 400 "mode must be 'set' or 'delta'")
    | _ => do
      match ← Prog.query fun d => d.adminByName username with
      | none => .raise (.http 404 "Admin not found")
      | some (adminId, target) =>
        if target.isSudo then .raise (.http 400 "Cannot adjust a sudo wallet")
        else do
          let balance ← getOrCreateWallet none adminId
          match adjustDelta mode amount balance with
          | .error e => .raise e
          | .ok none => return balance
          | .ok (some delta) => do
            let _ ← addTransaction (some balance) adminId delta
              (if 0 < delta then .credit else .debit) none true
            afterWalletTopup now adminId
            getOrCreateWallet none adminId

def createInvoiceRoute (caller : Caller) (username : Option String) (amount : Int)
    (provider : Option String) : Action Nat :=
  withBilling caller.canWrite "billing:write" do
    let target := (username.filter (· ≠ "")).getD caller.username
    if ¬ caller.isSudo ∧ target ≠ caller.username then
      .raise (.http 403 "Cannot invoice other admins")
    else do
      match ← Prog.query fun d => d.adminByName target with
      | none => .raise (.http 404 "Admin not found")
      | some (adminId, _) => createInvoice adminId amount provider

def noDatabaseAdmin : Error :=
  .http 400 "Billing requires a database-backed admin (env SUDOERS have no wallet)"

def payError : Error → Error
  | .insufficientWalletBalance message => .http 400 message
  | .value message => .http 400 message
  | e => e

def payInvoiceRoute (caller : Caller) (invoiceId : Nat) : Action Unit :=
  withBilling caller.canRead "billing:read" do
    match ← Prog.query fun d => d.invoices.get? invoiceId with
    | none => .raise (.http 404 "Invoice not found")
    | some invoice =>
      let self ← Prog.query fun d => (d.adminByName caller.username).map Prod.fst
      if ¬ caller.isSudo ∧ self = none then .raise noDatabaseAdmin
      else if ¬ caller.isSudo ∧ self ≠ some invoice.adminId then
        .raise (.http 403 "Cannot pay another admin's invoice")
      else
        let provider := if caller.isSudo then (invoice.provider.filter (· ≠ "")).getD "manual"
          else "wallet"
        (payInvoice invoiceId invoice (some provider)).tryCatch fun e => .raise (payError e)

def purchaseTrafficPackage (now : Int) (caller : Caller) (packageId : Nat) : Action Unit :=
  withBilling caller.canRead "billing:read" do
    if caller.isSudo then
      .raise (.http 400 "Sudo accounts cannot purchase traffic packages")
    else do
      match ← Prog.query fun d => d.adminByName caller.username with
      | none => .raise noDatabaseAdmin
      | some (adminId, actor) =>
        let hasWallet ← Prog.query fun d => (d.wallets.get? adminId).isSome
        let live := if hasWallet then some actor.prepaidTrafficRemaining else none
        let _ ← (purchasePackage live adminId packageId (some adminId)).tryCatch fun e =>
          match e with
          | .trafficPackage message status => .raise (.http status message)
          | e => .raise e
        afterWalletTopup now adminId

def tariffError : Error → Error
  | .resellerTariff message status => .http status message
  | e => e

def enforceResellerCreateLocks (d : Database) (now : Int) (admin : Option Admin)
    (user : UserCreate) : UserCreate :=
  let locks := resolveLockedLimitsForAdmin d admin user.dataLimit
    (durationDaysForCreatePayload now user) {}
  { user with
    deviceLimit := locks.deviceLimit.or user.deviceLimit
    speedLimitUp := locks.speedLimitUp.or user.speedLimitUp
    speedLimitDown := locks.speedLimitDown.or user.speedLimitDown }

def settleCreates (admin : Option (AdminId × Admin)) (tariff : Option ResellerPlanTariff)
    (unitPrice : Int) (usernames : List String) : Action Unit :=
  match tariff, admin with
  | none, _ => pure ()
  | some tariff, some (adminId, admin) =>
    chargeUnlimitedCreates adminId admin tariff unitPrice usernames
  | some tariff, none => markUsersTariffCharged usernames tariff

def addUser (now : Int) (username : String) (newUser : UserCreate) : Action Unit := do
  let dbadmin ← Prog.query fun d => d.adminByName username
  let user ← Prog.query fun d =>
    enforceResellerCreateLocks d now (dbadmin.map Prod.snd) newUser
  let (tariff, unitPrice) ← (prepareResellerTariffCharge dbadmin user.dataLimit
    (durationDaysForCreatePayload now newUser) 1).tryCatch fun e => .raise (tariffError e)
  let _ ← (createUser user dbadmin).tryCatch fun e =>
    match e with
    | .value message => .raise (.http 403 message)
    | .integrity => .raise (.http 409 "User already exists")
    | e => .raise e
  settleCreates dbadmin tariff unitPrice [user.username]

def bulkUsersFromTemplate (now : Int) (username : String) (template : UserCreate)
    (names : List String) : Action (List String) :=
  if names.length < 1 ∨ 500 < names.length then
    .raise (.http 400 "count must be between 1 and 500")
  else do
    let dbadmin ← Prog.query fun d => d.adminByName username
    let (tariff, unitPrice) ← (prepareResellerTariffCharge dbadmin template.dataLimit
      (durationDaysFromExpire now template.expire) names.length).tryCatch fun e =>
        .raise (tariffError e)
    let created ← Prog.each (fun (name : String) => Prog.tryCatch (do
      let user ← Prog.query fun d => enforceResellerCreateLocks d now (dbadmin.map Prod.snd)
        { template with username := name }
      let _ ← createUser user dbadmin
      return some name) fun _ => return none) names
    let created := created.filterMap id
    settleCreates dbadmin tariff unitPrice created
    return created

def modifyUser (now : Int) (caller : Caller) (id : Int) (payload : UserModify) :
    Action Unit := do
  match ← Prog.query fun d => d.users.get? id with
  | none => .raise (.http 404 "User not found")
  | some dbuser =>
    if caller.isSudo then do
      let _ ← updateUser now id dbuser payload
    else do
      let dbadmin ← Prog.query fun d => d.adminByName caller.username
      let nextDataLimit := payload.dataLimit.getD dbuser.dataLimit
      let nextExpire := payload.expire.getD dbuser.expire
      let locks ← Prog.query fun d => resolveLockedLimitsForAdmin d (dbadmin.map Prod.snd)
        nextDataLimit (durationDaysFromExpire now nextExpire) {}
      let payload := { payload with
        deviceLimit := (locks.deviceLimit.map some).or payload.deviceLimit
        speedLimitUp := (locks.speedLimitUp.map some).or payload.speedLimitUp
        speedLimitDown := (locks.speedLimitDown.map some).or payload.speedLimitDown }
      let (tariff, unitPrice) ← (prepareResellerModifyCharge now dbadmin dbuser nextDataLimit
        nextExpire).tryCatch fun e => .raise (tariffError e)
      let row ← updateUser now id dbuser payload
      match tariff with
      | none => pure ()
      | some tariff => do
        let dbadmin ← Prog.query fun d => d.adminByName caller.username
        (match dbadmin with
        | some (adminId, admin) =>
          if 0 < unitPrice then do
            let _ ← chargeResellerTariff adminId admin tariff unitPrice [row.username] .modify
          else pure ()
        | none => pure ())
        Prog.emit (.updateUser id row (markedUser row tariff))
        commit

theorem BillingRules.afterWalletTopup_of_billResellerUsage {Φ : (α : Type) → Action α → Prop}
    (hΦ : BillingRules Φ) {now : Int} {a : AdminId}
    (hbill : ∀ dbadmin, Φ _ (Billing.billResellerUsage now a dbadmin)) :
    Φ _ (Billing.afterWalletTopup now a) := by
  refine hΦ.tryCatch (hΦ.bind (hΦ.query _) fun found => ?_) fun _ => hΦ.pure _
  cases found with
  | none => exact hΦ.pure _
  | some target =>
    exact hΦ.bind (hbill target) fun _ => hΦ.bind (hΦ.enforceResellerTrafficCaps now)
      fun _ => hΦ.pure _

end Shahkar.Billing
