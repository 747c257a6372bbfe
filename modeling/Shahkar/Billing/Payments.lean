import Shahkar.Billing.UsageBilling
import Shahkar.Portal.Plans

/-!
Completing, reviewing and expiring payment intents (`app/billing/payments.py`). The status of an
intent is checked when a call starts and written when it ends.
-/

namespace Shahkar.Billing

open Shahkar.Db Shahkar.Lib Shahkar.Portal

structure PaymentEnv (Payload : Type) where
  verify : PaymentIntent → Payload → Bool
  adminApproved : Payload
  blueprint : User → UserCreate → Option String
  token : String
  pendingTtlMinutes : Int

variable {Payload : Type} (env : PaymentEnv Payload) (now : Int)

/-!
### Applying a payment
-/

def applyTopup (id : Nat) (intent : PaymentIntent) : Action Unit := do
  let _ ← addTransaction none intent.adminId intent.amount .topup (some s!"payment:{id}") false
  Prog.tryCatch (do
    let admin ← Prog.query fun d => d.admins.get? intent.adminId
    (match admin with
    | some admin => do
      let _ ← billResellerUsage now intent.adminId admin
    | none => pure ())
    let reactivated ← enforceResellerTrafficCaps now
    if reactivated = [] then pure () else commit) fun _ => pure ()

def chargeTariff (adminId : Option AdminId) (plan : Plan) (username : String)
    (event : TariffEvent) : Action Unit :=
  (chargePortalPlanTariff adminId plan username event).tryCatch fun e =>
    match e with
    | .resellerTariff message status => .raise (.http status message)
    | e => .raise e

def applyPortalRenew (intent : PaymentIntent) : Action Unit := do
  let target ← Prog.query fun d =>
    (intent.userId.bind fun u => (d.users.get? u).map fun r => (u, r),
      intent.planId.bind fun p => (d.plans.get? p).map fun r => (p, r))
  match target with
  | (some (userId, dbuser), some (planId, plan)) =>
    let order ← createUserOrder userId planId plan
    let row ← applyPlanToUser now userId dbuser planId plan
    markOrderApplied order
    chargeTariff row.adminId plan row.username .portalRenew
  | _ => .raise (.http 404 "Payment target not found")

def freeUsername (d : Database) (base : String) : String :=
  let free (name : String) : Bool := (d.userByName name).isNone
  if free base then base
  else
    let stem := String.ofList (base.toList.take 29)
    (((List.range' 2 98).map fun n => stem ++ toString n).find? free).getD
      (String.ofList (base.toList.take 24) ++ env.token)

def applyPortalPurchase (id : Nat) (intent : PaymentIntent) : Action Unit := do
  let target ← Prog.query fun d =>
    (intent.planId.bind fun p => (d.plans.get? p).map fun r => (p, r),
      intent.userId.bind fun u => (d.users.get? u).map fun r => (u, r))
  match target with
  | (some (planId, plan), some (ownerId, owner)) =>
    if intent.extra.newUsername = "" then .raise (.http 404 "Purchase target not found")
    else
      let username ← Prog.query fun d => freeUsername env d intent.extra.newUsername
      let (userId, username) ← createAccountFromPlan env.blueprint now ownerId owner plan username
      let order ← createUserOrder userId planId plan
      markOrderApplied order
      chargeTariff owner.adminId plan username .portalPurchase
      Prog.emit (.setIntentUser id userId)
      Prog.emit (.setIntentExtra id { intent.extra with
        createdUsername := some username
        portalUserId := intent.extra.portalUserId.or (some ownerId) })
      commit
  | _ => .raise (.http 404 "Purchase target not found")

def applyPayment (id : Nat) (intent : PaymentIntent) : Action Unit :=
  match intent.kind with
  | .topup => applyTopup now id intent
  | .portalRenew => applyPortalRenew now intent
  | .portalPurchase => applyPortalPurchase env now id intent
  | .other _ => .raise (.http 400 "Unknown payment kind")

def isOpen (status : PaymentStatus) : Bool := status = .pending || status = .awaitingReview

def completePayment (id : Nat) (intent : PaymentIntent) (payload : Payload) : Action Unit :=
  if intent.status = .completed then pure ()
  else if ¬ isOpen intent.status then .raise (.http 409 "Payment is not pending")
  else if ¬ env.verify intent payload then .raise (.http 400 "Payment verification failed")
  else do
    applyPayment env now id intent
    Prog.emit (.setIntentStatus id .completed)
    commit

def reviewRefusal (d : Database) (reviewer : AdminId × Admin) (intent : PaymentIntent) :
    Option Error :=
  let owner := d.admins.get? intent.adminId
  match intent.kind with
  | .topup =>
    if reviewer.2.isSudo ∨ (owner.bind Admin.parentAdminId) = some reviewer.1 then none
    else some (.http 403
      "Only the parent reseller or platform owner can approve this wallet top-up")
  | .portalRenew | .portalPurchase =>
    if owner.isSome ∧ (intent.adminId = reviewer.1 ∨
        reviewer.2.isSudo ∧ owner.any Admin.isSudo) then none
    else some (.http 403
      "Reseller portal card orders are reviewed by that reseller, not the platform owner")
  | .other _ => none

def reviewable (intent : PaymentIntent) : Option Error :=
  match intent.kind with
  | .other _ => some (.http 400 "Not a reviewable card payment")
  | _ => if isOpen intent.status then none
    else some (.http 409 "Payment is not awaiting review")

def approvePortalPayment (id : Nat) (intent : PaymentIntent) (reviewer : AdminId × Admin) :
    Action Unit := do
  match reviewable intent with
  | some refusal => .raise refusal
  | none =>
    if intent.provider ≠ "card" then
      .raise (.http 400 "Only card payments can be manually approved")
    else
      match ← Prog.query fun d => reviewRefusal d reviewer intent with
      | some refusal => .raise refusal
      | none => completePayment env now id intent env.adminApproved

def rejectPortalPayment (id : Nat) (intent : PaymentIntent) (reviewer : AdminId × Admin) :
    Action Unit := do
  match reviewable intent with
  | some refusal => .raise refusal
  | none =>
    match ← Prog.query fun d => reviewRefusal d reviewer intent with
    | some refusal => .raise refusal
    | none => do
      Prog.emit (.setIntentStatus id .rejected)
      commit

def portalPaymentExpiresAt (createdAt : Int) : Int :=
  createdAt + 60 * max 5 env.pendingTtlMinutes

def isPortalPaymentExpired (intent : PaymentIntent) : Bool :=
  (intent.kind = .portalRenew ∨ intent.kind = .portalPurchase) ∧ intent.status = .pending ∧
    intent.extra.expiresAt.getD (portalPaymentExpiresAt env intent.createdAt) ≤ now

def expireStalePortalPayments (limit : Nat) : Action Nat := do
  let stale ← Prog.query fun d =>
    ((d.intents.entries.filter fun e =>
      (e.2.kind = .portalRenew ∨ e.2.kind = .portalPurchase) ∧ e.2.status = .pending).take
        (max 1 (min limit 1000))).filter fun e => isPortalPaymentExpired env now e.2
  let _ ← Prog.each (fun (e : Nat × PaymentIntent) => do
    Prog.emit (.setIntentStatus e.1 .expired)
    Prog.emit (.setIntentExtra e.1 { e.2.extra with
      expiresAt := e.2.extra.expiresAt.or (some (portalPaymentExpiresAt env e.2.createdAt)) }))
    stale
  if stale = [] then return 0
  else
    commit
    return stale.length

end Shahkar.Billing
