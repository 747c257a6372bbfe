import Shahkar.Billing.Wallet

/-!
Pay-as-you-go billing of a reseller's traffic (`app/billing/usage_billing.py`), and the suspension
of a reseller's users that follows from it (`enforce_reseller_traffic_caps` in `app/quota.py`).
-/

namespace Shahkar.Billing

open Shahkar.Db Shahkar.Lib Shahkar.Usage

/-!
### Rates and splits
-/

def gb : Int := 1024 ^ 3

structure UsageSplit where
  ownedBytes : Int := 0
  foreignBytes : Int := 0
  deriving Repr, DecidableEq

def UsageSplit.totalBytes (s : UsageSplit) : Int := s.ownedBytes + s.foreignBytes

def effectiveRate (baseRate discountPercent : Int) : Int :=
  let pct := max 0 (min 100 discountPercent)
  max 0 (baseRate * (100 - pct) / 100)

def computeCharge (split : UsageSplit) (ratePerGb discountPercent : Int) : Int :=
  if ratePerGb ≤ 0 then 0
  else
    split.ownedBytes * effectiveRate ratePerGb discountPercent / gb +
      split.foreignBytes * ratePerGb / gb

def applyPrepaidCover (split : UsageSplit) (prepaidRemaining : Int) : UsageSplit × Int :=
  let prepaid := max 0 prepaidRemaining
  if prepaid ≤ 0 ∨ split.totalBytes ≤ 0 then (split, 0)
  else
    let coverForeign := min split.foreignBytes prepaid
    let coverOwned := min split.ownedBytes (prepaid - coverForeign)
    ({ ownedBytes := split.ownedBytes - coverOwned
       foreignBytes := split.foreignBytes - coverForeign }, coverForeign + coverOwned)

def walletIsLow (d : Database) (balance : Int) : Bool := balance < d.settings.walletLowThreshold

def effectiveUsageRatePerGb (d : Database) (admin : Admin) : Int :=
  admin.usageRatePerGb.getD d.settings.usageRatePerGb

def resolveDiscountPercent (d : Database) (admin : Admin) : Int :=
  (admin.tenantId.bind d.tenantDiscounts.get?).getD 0

def nodeOwnedByReseller (node : Node) (adminId : AdminId) (tenantId : Option Nat) : Bool :=
  (tenantId.isSome && node.tenantId = tenantId) || node.ownerAdminId = some adminId

def aggregateResellerUsage (d : Database) (adminId : AdminId) (tenantId : Option Nat)
    (since until_ : Int) : UsageSplit :=
  let rows := d.nodeUserUsages.filter fun r =>
    ((d.users.get? r.userId).any fun u =>
        u.adminId = some adminId ∧ u.finiteLimit.isSome) ∧
      since < r.createdAt ∧ r.createdAt ≤ until_ ∧ 0 < r.usedTraffic
  let owned := rows.filter fun r =>
    (r.nodeId.bind d.nodes.get?).any fun n => nodeOwnedByReseller n adminId tenantId
  let foreign := rows.filter fun r =>
    ¬ (r.nodeId.bind d.nodes.get?).any fun n => nodeOwnedByReseller n adminId tenantId
  { ownedBytes := (owned.map NodeUserUsage.usedTraffic).sum
    foreignBytes := (foreign.map NodeUserUsage.usedTraffic).sum }

def ownershipRatioSplit (d : Database) (now : Int) (adminId : AdminId) (tenantId : Option Nat)
    (deltaBytes : Int) : UsageSplit :=
  let delta := max 0 deltaBytes
  if delta ≤ 0 then {}
  else
    let ratio := aggregateResellerUsage d adminId tenantId (now - 24 * 3600) now
    if ratio.totalBytes ≤ 0 then { ownedBytes := 0, foreignBytes := delta }
    else
      let owned := delta * ratio.ownedBytes / ratio.totalBytes
      { ownedBytes := owned, foreignBytes := delta - owned }

def getOrCreateCheckpoint (now : Int) (adminId : AdminId) : Action UsageBillingCheckpoint := do
  match ← Prog.query fun d => d.checkpoints.get? adminId with
  | some row => return row
  | none =>
    let row ← Prog.query fun d =>
      { lastBilledAt := now - max 15 d.settings.jobIntervalSeconds
        lastBilledUsersUsage := ((d.admins.get? adminId).map Admin.usersUsage).getD 0
        : UsageBillingCheckpoint }
    Prog.emit (.insertCheckpoint adminId row)
    commit
    Prog.query fun d => (d.checkpoints.get? adminId).getD row

def unbilledUsageSplit (now : Int) (adminId : AdminId) (admin : Admin)
    (checkpoint : UsageBillingCheckpoint) : Action (UsageSplit × Int × Int) := do
  let current := admin.usersUsage
  let last := min current checkpoint.lastBilledUsersUsage
  let split ← Prog.query fun d =>
    ownershipRatioSplit d now adminId admin.tenantId (max 0 (current - last))
  return (split, current, last)

def logLowBalanceEvent (now : Int) (adminId : AdminId) (needed balance : Int) :
    Action Unit := do
  let logged ← Prog.query fun d =>
    (((d.events.filter fun e => now - 30 * 60 ≤ e.createdAt).reverse.take 80).any fun e =>
      e.adminId = adminId)
  if logged then pure ()
  else do
    Prog.emit (.insertEvent { adminId, balance, needed, createdAt := now })
    commit

def chargeUsage (now : Int) (adminId : AdminId) (admin : Admin)
    (checkpoint : UsageBillingCheckpoint) (split : UsageSplit) (current last : Int)
    (covered cost : Int) : Action (Option Transaction × UsageSplit) :=
  let prepaid := admin.prepaidTrafficRemaining
  let billed : UsageBillingCheckpoint := { lastBilledAt := now, lastBilledUsersUsage := current }
  if cost ≤ 0 then do
    if 0 < covered then
      Prog.emit (.updatePrepaid adminId prepaid (max 0 (prepaid - covered)))
      Prog.emit (.updateCheckpoint adminId checkpoint billed)
      commit
      return (none, split)
    else if split.totalBytes ≤ 0 then
      Prog.emit (.updateCheckpoint adminId checkpoint billed)
      commit
      return (none, split)
    else
      -- bytes that do not make up a whole charge unit stay billable
      Prog.emit (.updateCheckpoint adminId checkpoint { checkpoint with lastBilledAt := now })
      commit
      return (none, split)
  else do
    let balance ← getOrCreateWallet none adminId
    if balance < cost then
      logLowBalanceEvent now adminId cost balance
      commit
      return (none, split)
    else
      (if 0 < covered then
        Prog.emit (.updatePrepaid adminId prepaid (max 0 (prepaid - covered)))
      else pure ())
      Prog.emit (.updateCheckpoint adminId checkpoint billed)
      let tx ← addTransaction (some balance) adminId (-cost) .usageBilling
        (some s!"usage:{last}:{current}:{now}") false
      let low ← Prog.query fun d =>
        if walletIsLow d (d.balance adminId) then some (d.balance adminId) else none
      match low with
      | some balance => do
        logLowBalanceEvent now adminId 0 balance
        return (some tx, split)
      | none => return (some tx, split)

def billResellerUsage (now : Int) (adminId : AdminId) (dbadmin : Admin) :
    Action (Option Transaction × UsageSplit) := do
  let rate ← Prog.query fun d => effectiveUsageRatePerGb d dbadmin
  if dbadmin.isSudo ∨ rate ≤ 0 then return (none, {})
  else
    let checkpoint ← getOrCreateCheckpoint now adminId
    let admin ← Prog.query fun d => (d.admins.get? adminId).getD dbadmin
    let (split, current, last) ← unbilledUsageSplit now adminId admin checkpoint
    let restarted : UsageBillingCheckpoint :=
      { checkpoint with lastBilledUsersUsage := min current checkpoint.lastBilledUsersUsage }
    Prog.emit (.updateCheckpoint adminId checkpoint restarted)
    let discount ← Prog.query fun d => resolveDiscountPercent d admin
    let (overflow, covered) := applyPrepaidCover split admin.prepaidTrafficRemaining
    chargeUsage now adminId admin restarted split current last covered
      (computeCharge overflow rate discount)

def resellersWithUnpaidUsage (now : Int) : Action (List AdminId) := do
  let enabled ← Prog.query fun d => d.settings.billingEnabled
  if ¬ enabled then return []
  else
    let admins ← Prog.query fun d => d.admins.entries.filter fun e => ¬ e.2.isSudo
    let blocked ← Prog.each (fun (e : AdminId × Admin) => do
      let rate ← Prog.query fun d => effectiveUsageRatePerGb d e.2
      if rate ≤ 0 then return none
      else
        let checkpoint ← getOrCreateCheckpoint now e.1
        let (split, _, _) ← unbilledUsageSplit now e.1 e.2 checkpoint
        if split.totalBytes ≤ 0 then return none
        else
          let discount ← Prog.query fun d => resolveDiscountPercent d e.2
          let cost := computeCharge (applyPrepaidCover split e.2.prepaidTrafficRemaining).1
            rate discount
          if cost ≤ 0 then return none
          else
            let balance ← getOrCreateWallet none e.1
            return if balance < cost then some e.1 else none) admins
    return blocked.filterMap id

def suspendedUser (u : User) : User := { u with status := .disabled, cappedByReseller := true }

def restoredUser (u : User) : User :=
  { u with
    cappedByReseller := false
    status := if quotaExhausted u then .limited else .active }

def enforceResellerTrafficCaps (now : Int) : Action (List Int) := do
  let overCap ← Prog.query fun d => (d.admins.entries.filter fun e =>
    ¬ e.2.isSudo ∧ e.2.maxTotalTraffic.any fun cap => cap ≤ e.2.usersUsage).map Prod.fst
  let walletBlocked ← (resellersWithUnpaidUsage now).tryCatch fun _ => return []
  let suspended := overCap ++ walletBlocked
  let active ← Prog.query fun d => d.users.entries.filter fun e =>
    e.2.status = .active ∧ e.2.adminId.any fun a => a ∈ suspended
  let newly ← Prog.each (fun (e : Int × User) =>
    Prog.emit (.updateUser e.1 e.2 (suspendedUser e.2))) active
  let capped ← Prog.query fun d => d.users.entries.filter fun e =>
    e.2.cappedByReseller ∧ e.2.adminId.any fun a => a ∉ suspended
  let _ ← Prog.each (fun (e : Int × User) =>
    Prog.emit (.updateUser e.1 e.2 (restoredUser e.2))) capped
  let reactivated := (capped.filter fun e => ¬ quotaExhausted e.2).map Prod.fst
  if newly.length + reactivated.length = 0 then return reactivated
  else
    commit
    return reactivated

theorem confined_getOrCreateCheckpoint {P : Write → Prop} {A L : Row → Prop} {now : Int}
    {a : AdminId} (hP : ∀ c, P (.insertCheckpoint a c)) :
    (getOrCreateCheckpoint now a).Confined P A L := by
  refine Prog.confined_bind (Prog.confined_query _) fun found => ?_
  cases found with
  | some row => exact Prog.confined_pure row
  | none =>
    exact Prog.confined_bind (Prog.confined_query _) fun row =>
      Prog.confined_bind (Prog.confined_emit.mpr (hP row)) fun _ =>
        Prog.confined_bind confined_commit fun _ => Prog.confined_query _

def Routine : Write → Prop
  | .updatePrepaid _ _ _ | .updateCheckpoint _ _ _ | .insertEvent _ | .updateUser _ _ _ => True
  | _ => False

theorem Routine.isSome_apply {w : Write} (h : Routine w) (d : Database) : (w.apply d).isSome := by
  cases w with
  | updatePrepaid _ _ _ | updateCheckpoint _ _ _ | insertEvent _ | updateUser _ _ _ => rfl
  | _ => exact absurd h id

theorem holds_resellersWithUnpaidUsage {Φ : (α : Type) → Action α → Prop}
    (hΦ : Prog.Compositional Φ) (hcheckpoint : ∀ now a, Φ _ (getOrCreateCheckpoint now a))
    (hwallet : ∀ live a, Φ _ (getOrCreateWallet live a)) (now : Int) :
    Φ _ (resellersWithUnpaidUsage now) :=
  hΦ.bind (hΦ.query _) fun _ => hΦ.ite (hΦ.pure _) (hΦ.bind (hΦ.query _) fun _ =>
    hΦ.bind (hΦ.each fun _ => hΦ.bind (hΦ.query _) fun _ => hΦ.ite (hΦ.pure _)
      (hΦ.bind (hcheckpoint _ _) fun _ =>
        hΦ.bind (hΦ.bind (hΦ.query _) fun _ => hΦ.pure _) fun _ =>
        hΦ.ite (hΦ.pure _) (hΦ.bind (hΦ.query _) fun _ => hΦ.ite (hΦ.pure _)
          (hΦ.bind (hwallet _ _) fun _ => hΦ.pure _)))) fun _ => hΦ.pure _)

structure BillingRules (Φ : (α : Type) → Action α → Prop) : Prop extends
    Prog.Compositional Φ where
  emit : ∀ {w : Write}, Routine w → Φ _ (Prog.emit w)
  commit : Φ _ Db.commit
  wallet : ∀ live a, Φ _ (getOrCreateWallet live a)
  checkpoint : ∀ now a, Φ _ (getOrCreateCheckpoint now a)

namespace BillingRules

variable {Φ : (α : Type) → Action α → Prop} (hΦ : BillingRules Φ)

include hΦ

theorem logLowBalanceEvent (now : Int) (a : AdminId) (needed balance : Int) :
    Φ _ (logLowBalanceEvent now a needed balance) :=
  hΦ.bind (hΦ.query _) fun _ => hΦ.ite (hΦ.pure _) (hΦ.bind (hΦ.emit trivial) fun _ => hΦ.commit)

theorem unbilledUsageSplit (now : Int) (a : AdminId) (admin : Admin)
    (checkpoint : UsageBillingCheckpoint) :
    Φ _ (unbilledUsageSplit now a admin checkpoint) :=
  hΦ.bind (hΦ.query _) fun _ => hΦ.pure _

theorem billResellerUsage_of_chargeUsage {now : Int} {a : AdminId}
    (hcharge : ∀ admin checkpoint split current last covered cost,
      Φ _ (chargeUsage now a admin checkpoint split current last covered cost))
    (dbadmin : Admin) : Φ _ (billResellerUsage now a dbadmin) :=
  hΦ.bind (hΦ.query _) fun _ => hΦ.ite (hΦ.pure _) (hΦ.bind (hΦ.checkpoint _ _) fun _ =>
    hΦ.bind (hΦ.query _) fun _ => hΦ.bind (hΦ.unbilledUsageSplit _ _ _ _) fun _ =>
    hΦ.bind (hΦ.emit trivial) fun _ => hΦ.bind (hΦ.query _) fun _ => hcharge _ _ _ _ _ _ _)

theorem chargeUsage_of_posting {now : Int} {a : AdminId} {admin : Admin}
    {checkpoint : UsageBillingCheckpoint} {split : UsageSplit} {current last covered cost : Int}
    (hpost : 0 < cost → Φ _ (chargeUsage now a admin checkpoint split current last covered cost)) :
    Φ _ (chargeUsage now a admin checkpoint split current last covered cost) := by
  by_cases hcost : cost ≤ 0
  · have hdone : ∀ x, Φ _ (do Db.commit; return x : Action (Option Transaction × UsageSplit)) :=
      fun x => hΦ.bind hΦ.commit fun _ => hΦ.pure x
    unfold chargeUsage
    rw [if_pos hcost]
    exact hΦ.ite (hΦ.bind (hΦ.emit trivial) fun _ => hΦ.bind (hΦ.emit trivial) fun _ => hdone _)
      (hΦ.ite (hΦ.bind (hΦ.emit trivial) fun _ => hdone _)
        (hΦ.bind (hΦ.emit trivial) fun _ => hdone _))
  · exact hpost (not_le.mp hcost)

theorem billResellerUsage (hpost : ∀ live a amount type reference, type ≠ .topup →
      Φ _ (postTransaction live a amount type reference))
    (now : Int) (a : AdminId) (dbadmin : Admin) : Φ _ (billResellerUsage now a dbadmin) := by
  refine hΦ.billResellerUsage_of_chargeUsage (fun _ _ _ _ _ covered cost =>
    hΦ.chargeUsage_of_posting fun hcost => ?_) dbadmin
  unfold chargeUsage
  rw [if_neg (not_le.mpr hcost)]
  refine hΦ.bind (hΦ.wallet _ _) fun balance => hΦ.ite
    (hΦ.bind (hΦ.logLowBalanceEvent _ _ _ _) fun _ => hΦ.bind hΦ.commit fun _ => hΦ.pure _)
    (hΦ.bind (hΦ.ite (hΦ.emit trivial) (hΦ.pure _)) fun _ => hΦ.bind (hΦ.emit trivial) fun _ =>
      hΦ.bind (holds_addTransaction hΦ.toCompositional
        (fun _ _ _ _ => hpost _ _ _ _ _ (by decide)) (hpost _ _ _ _ _ (by decide)) _) fun tx =>
      hΦ.bind (hΦ.query _) fun low => ?_)
  cases low with
  | some balance => exact hΦ.bind (hΦ.logLowBalanceEvent _ _ _ _) fun _ => hΦ.pure _
  | none => exact hΦ.pure _

theorem resellersWithUnpaidUsage (now : Int) : Φ _ (resellersWithUnpaidUsage now) :=
  holds_resellersWithUnpaidUsage hΦ.toCompositional hΦ.checkpoint hΦ.wallet now

theorem enforceResellerTrafficCaps (now : Int) : Φ _ (enforceResellerTrafficCaps now) :=
  hΦ.bind (hΦ.query _) fun _ =>
    hΦ.bind (hΦ.tryCatch (hΦ.resellersWithUnpaidUsage now) fun _ => hΦ.pure _) fun _ =>
    hΦ.bind (hΦ.query _) fun _ => hΦ.bind (hΦ.each fun _ => hΦ.emit trivial) fun _ =>
    hΦ.bind (hΦ.query _) fun _ => hΦ.bind (hΦ.each fun _ => hΦ.emit trivial) fun _ =>
    hΦ.ite (hΦ.pure _) (hΦ.bind hΦ.commit fun _ => hΦ.pure _)

end BillingRules

end Shahkar.Billing
