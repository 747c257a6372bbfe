import Shahkar.Lib.Session
import Shahkar.Usage.Quota

/-!
The panel's database as a `Lib.Store`: the tables, the writes a session flushes, and the rows the
code locks (`with_for_update`).
-/

namespace Shahkar.Db

open Shahkar.Lib

structure Settings where
  billingEnabled : Bool := true
  defaultCommissionPercent : Int := 0
  usageRatePerGb : Int := 0
  jobIntervalSeconds : Int := 30
  walletLowThreshold : Int := 10000
  deriving Repr, DecidableEq

structure Database where
  settings : Settings := {}
  admins : Dict AdminId Admin := .empty
  users : Dict Int User := .empty
  wallets : Dict AdminId Int := .empty
  transactions : List Transaction := []
  invoices : Dict Nat Invoice := .empty
  packages : Dict Nat ResellerTrafficPackage := .empty
  packageOverrides : Dict (AdminId × Nat) ResellerTrafficPackageOverride := .empty
  purchases : List ResellerTrafficPurchase := []
  checkpoints : Dict AdminId UsageBillingCheckpoint := .empty
  events : List LowBalanceEvent := []
  tenantDiscounts : Dict Nat Int := .empty
  nodes : Dict Nat Node := .empty
  nodeUserUsages : List NodeUserUsage := []
  plans : Dict Nat Plan := .empty
  tariffs : List ResellerPlanTariff := []
  tariffOverrides : Dict (AdminId × Nat) (Option Int) := .empty
  templates : Dict Nat UserTemplate := .empty
  orders : Dict Nat UserOrder := .empty
  intents : Dict Nat PaymentIntent := .empty

inductive Row
  | wallet (a : AdminId)
  | admin (a : AdminId)
  | package (id : Nat)
  deriving Repr, DecidableEq

inductive Error
  | http (status : Nat) (detail : String)
  | value (message : String)
  | valueFrom (message : String) (cause : Error)
  | insufficientWalletBalance (message : String)
  | trafficPackage (message : String) (status : Nat)
  | resellerTariff (message : String) (status : Nat)
  | integrity
  | validation
  | type
  deriving Repr, DecidableEq

def written {β : Type} [DecidableEq β] (loaded assigned current : β) : β :=
  if loaded = assigned then current else assigned

@[simp] theorem written_loaded {β : Type} [DecidableEq β] (loaded assigned : β) :
    written loaded assigned loaded = assigned := by
  unfold written
  split
  · next h => exact h
  · rfl

@[simp] theorem written_same {β : Type} [DecidableEq β] (loaded current : β) :
    written loaded loaded current = current := if_pos rfl

def User.written (loaded assigned current : User) : User where
  username := Db.written loaded.username assigned.username current.username
  status := Db.written loaded.status assigned.status current.status
  usedTraffic := Db.written loaded.usedTraffic assigned.usedTraffic current.usedTraffic
  overageTraffic :=
    Db.written loaded.overageTraffic assigned.overageTraffic current.overageTraffic
  usedTrafficUp := Db.written loaded.usedTrafficUp assigned.usedTrafficUp current.usedTrafficUp
  usedTrafficDown :=
    Db.written loaded.usedTrafficDown assigned.usedTrafficDown current.usedTrafficDown
  dataLimit := Db.written loaded.dataLimit assigned.dataLimit current.dataLimit
  expire := Db.written loaded.expire assigned.expire current.expire
  adminId := Db.written loaded.adminId assigned.adminId current.adminId
  onHoldExpireDuration := Db.written loaded.onHoldExpireDuration
    assigned.onHoldExpireDuration current.onHoldExpireDuration
  onHoldTimeout := Db.written loaded.onHoldTimeout assigned.onHoldTimeout current.onHoldTimeout
  nextPlan := Db.written loaded.nextPlan assigned.nextPlan current.nextPlan
  deviceLimit := Db.written loaded.deviceLimit assigned.deviceLimit current.deviceLimit
  speedLimitUp := Db.written loaded.speedLimitUp assigned.speedLimitUp current.speedLimitUp
  speedLimitDown :=
    Db.written loaded.speedLimitDown assigned.speedLimitDown current.speedLimitDown
  cappedByReseller :=
    Db.written loaded.cappedByReseller assigned.cappedByReseller current.cappedByReseller
  portalOwnerUserId :=
    Db.written loaded.portalOwnerUserId assigned.portalOwnerUserId current.portalOwnerUserId
  resellerTariffChargedId := Db.written loaded.resellerTariffChargedId
    assigned.resellerTariffChargedId current.resellerTariffChargedId
  resellerTariffChargedExpire := Db.written loaded.resellerTariffChargedExpire
    assigned.resellerTariffChargedExpire current.resellerTariffChargedExpire

@[simp] theorem User.written_loaded (loaded assigned : User) :
    User.written loaded assigned loaded = assigned := by
  cases assigned
  simp [User.written]

inductive Write
  | insertWallet (a : AdminId)
  | updateWallet (a : AdminId) (loaded assigned : Int)
  | insertTransaction (tx : Transaction)
  | insertInvoice (id : Nat) (invoice : Invoice)
  | payInvoice (id : Nat) (provider : Option String)
  | updatePrepaid (a : AdminId) (loaded assigned : Int)
  | insertPurchase (purchase : ResellerTrafficPurchase)
  | insertCheckpoint (a : AdminId) (checkpoint : UsageBillingCheckpoint)
  | updateCheckpoint (a : AdminId) (loaded assigned : UsageBillingCheckpoint)
  | insertEvent (event : LowBalanceEvent)
  | insertUser (id : Int) (user : User)
  | updateUser (id : Int) (loaded assigned : User)
  | billUsage (id value : Int)
  | billSplit (id up down : Int)
  | chargeAdmin (a : AdminId) (value : Int)
  | insertNodeUsage (key : UsageKey)
  | addNodeUsage (key : UsageKey) (value : Int)
  | upsertNodeUsage (key : UsageKey) (value : Int)
  | clearNodeUsages (userId : Int)
  | insertOrder (id : Nat) (order : UserOrder)
  | setOrderStatus (id : Nat) (status : OrderStatus)
  | setIntentStatus (id : Nat) (status : PaymentStatus)
  | setIntentUser (id : Nat) (userId : Int)
  | setIntentExtra (id : Nat) (extra : PaymentExtra)
  | notePlanApplied (userId : Int) (planId : Nat)

def sameUsername (a b : String) : Bool := a.toLower = b.toLower

namespace Database

variable (d : Database)

def userByName (username : String) : Option (Int × User) :=
  d.users.entries.find? fun e => sameUsername e.2.username username

def adminByName (username : String) : Option (AdminId × Admin) :=
  d.admins.entries.find? fun e => e.2.username = username

def adminIdOf (username : String) : Option AdminId := (d.adminByName username).map Prod.fst

def balance (a : AdminId) : Int := (d.wallets.get? a).getD 0

def ledger (a : AdminId) : Int := posted a (d.transactions.map fun tx => (tx.adminId, tx.amount))

end Database

def rowValue (d : Database) : Row → Option Int
  | .wallet a => d.wallets.get? a
  | .admin a => (d.admins.get? a).map Admin.prepaidTrafficRemaining
  | .package _ => none

def Write.touched : Write → List Row
  | .insertWallet a | .updateWallet a _ _ => [.wallet a]
  | .updatePrepaid a _ _ => [.admin a]
  | _ => []

def hasHourly (rows : List NodeUserUsage) (key : UsageKey) : Bool := rows.any (·.key = key)

/-- `INSERT IGNORE` of a row for the key. -/
def insertHourly (key : UsageKey) (rows : List NodeUserUsage) : List NodeUserUsage :=
  if hasHourly rows key then rows
  else rows ++ [{ userId := key.2.1, nodeId := key.2.2, usedTraffic := 0, createdAt := key.1 }]

def addHourly (key : UsageKey) (value : Int) (rows : List NodeUserUsage) : List NodeUserUsage :=
  rows.map fun u => if u.key = key then { u with usedTraffic := u.usedTraffic + value } else u

def Write.apply (w : Write) (d : Database) : Option Database :=
  match w with
  | .insertWallet a =>
    if (d.wallets.get? a).isSome then none else some { d with wallets := d.wallets.set a 0 }
  | .updateWallet a loaded assigned =>
    some { d with wallets := d.wallets.modify a (written loaded assigned) }
  | .insertTransaction tx => some { d with transactions := d.transactions ++ [tx] }
  | .insertInvoice id invoice => some { d with invoices := d.invoices.set id invoice }
  | .payInvoice id provider => some { d with
      invoices := d.invoices.modify id fun i => { i with
        status := .paid, provider := provider.or i.provider } }
  | .updatePrepaid a loaded assigned => some { d with
      admins := d.admins.modify a fun r => { r with
        prepaidTrafficRemaining := written loaded assigned r.prepaidTrafficRemaining } }
  | .insertPurchase purchase => some { d with purchases := d.purchases ++ [purchase] }
  | .insertCheckpoint a checkpoint =>
    if (d.checkpoints.get? a).isSome then none
    else some { d with checkpoints := d.checkpoints.set a checkpoint }
  | .updateCheckpoint a loaded assigned => some { d with
      checkpoints := d.checkpoints.modify a fun c => {
        lastBilledAt := written loaded.lastBilledAt assigned.lastBilledAt c.lastBilledAt
        lastBilledUsersUsage := written loaded.lastBilledUsersUsage
          assigned.lastBilledUsersUsage c.lastBilledUsersUsage } }
  | .insertEvent event => some { d with events := d.events ++ [event] }
  | .insertUser id user =>
    if (d.userByName user.username).isSome then none
    else some { d with users := d.users.set id user }
  | .updateUser id loaded assigned =>
    some { d with users := d.users.modify id (User.written loaded assigned) }
  | .billUsage id value => some { d with users := d.users.modify id (Usage.addUsage value) }
  | .billSplit id up down =>
    some { d with users := d.users.modify id (Usage.addSplit up down) }
  | .chargeAdmin a value => some { d with
      admins := d.admins.modify a fun r => { r with usersUsage := r.usersUsage + value } }
  | .insertNodeUsage key => some { d with nodeUserUsages := insertHourly key d.nodeUserUsages }
  | .addNodeUsage key value => some { d with nodeUserUsages := addHourly key value d.nodeUserUsages }
  | .upsertNodeUsage key value => some { d with
      nodeUserUsages := addHourly key value (insertHourly key d.nodeUserUsages) }
  | .clearNodeUsages userId => some { d with
      nodeUserUsages := d.nodeUserUsages.filter fun u => u.userId ≠ userId }
  | .insertOrder id order => some { d with orders := d.orders.set id order }
  | .setOrderStatus id status =>
    some { d with orders := d.orders.modify id fun o => { o with status := status } }
  | .setIntentStatus id status =>
    some { d with intents := d.intents.modify id fun i => { i with status := status } }
  | .setIntentUser id userId =>
    some { d with intents := d.intents.modify id fun i => { i with userId := userId } }
  | .setIntentExtra id extra =>
    some { d with intents := d.intents.modify id fun i => { i with extra := extra } }
  | .notePlanApplied _ _ => some d

theorem eq_of_ite_none {α : Type*} {taken : Prop} [Decidable taken] {a b : α}
    (h : (if taken then none else some a) = some b) : ¬ taken ∧ a = b := by
  simpa using h

theorem Write.frame {w : Write} {d d' : Database} (h : w.apply d = some d') (r : Row)
    (hr : r ∉ w.touched) : rowValue d' r = rowValue d r := by
  cases w with
  | insertWallet a =>
    obtain ⟨-, rfl⟩ := eq_of_ite_none h
    cases r with
    | wallet b =>
      simp only [touched, List.mem_singleton, Row.wallet.injEq] at hr
      simp [rowValue, Dict.get?_set, hr]
    | admin b | package id => rfl
  | updateWallet a loaded assigned =>
    obtain rfl := Option.some.inj h
    cases r with
    | wallet b =>
      simp only [touched, List.mem_singleton, Row.wallet.injEq] at hr
      simp [rowValue, Dict.get?_modify, hr]
    | admin b | package id => rfl
  | updatePrepaid a loaded assigned =>
    obtain rfl := Option.some.inj h
    cases r with
    | admin b =>
      simp only [touched, List.mem_singleton, Row.admin.injEq] at hr
      simp [rowValue, Dict.get?_modify, hr]
    | wallet b | package id => rfl
  | chargeAdmin a value =>
    obtain rfl := Option.some.inj h
    cases r with
    | admin b =>
      simp only [rowValue, Dict.get?_modify]
      split
      · cases d.admins.get? b <;> rfl
      · rfl
    | wallet b | package id => rfl
  | insertCheckpoint a checkpoint | insertUser id user =>
    obtain ⟨-, rfl⟩ := eq_of_ite_none h
    cases r <;> rfl
  | _ =>
    obtain rfl := Option.some.inj h
    cases r <;> rfl

theorem Write.adminIdOf_apply {w : Write} {d d' : Database} (h : w.apply d = some d') :
    d'.adminIdOf = d.adminIdOf := by
  cases w with
  | updatePrepaid a _ _ | chargeAdmin a _ =>
    obtain rfl := Option.some.inj h
    funext username
    exact Dict.map_fst_find?_modify (p := fun r : Admin => r.username = username) d.admins a
      fun _ => rfl
  | insertWallet _ | insertCheckpoint _ _ | insertUser _ _ =>
    obtain ⟨-, rfl⟩ := eq_of_ite_none h
    rfl
  | _ =>
    obtain rfl := Option.some.inj h
    rfl

def store : Store Database Row (Option Int) Write where
  row := rowValue
  touched := Write.touched
  apply := Write.apply
  frame := Write.frame

abbrev Action := Prog Database Row Write Error

abbrev Panel := Sys Database Row (Option Int) Write Error

def commit : Action Unit := Prog.commitOr .integrity

@[simp] theorem store_row (d : Database) (r : Row) : store.row d r = rowValue d r := rfl
@[simp] theorem store_touched (w : Write) : store.touched w = w.touched := rfl
@[simp] theorem store_apply (w : Write) (d : Database) : store.apply w d = w.apply d := rfl
@[simp] theorem rowValue_wallet (d : Database) (a : AdminId) :
    rowValue d (.wallet a) = d.wallets.get? a := rfl

theorem applyAll_updateUser (f : User → User) (rows : List (Int × User)) (d : Database) :
    store.applyAll (rows.map fun e => .updateUser e.1 e.2 (f e.2)) d = some { d with
      users := rows.foldl (fun us e => us.modify e.1 (User.written e.2 (f e.2))) d.users } := by
  induction rows generalizing d with
  | nil => rfl
  | cons e rest ih => exact ih _

theorem confined_commit {P : Write → Prop} {A L : Row → Prop} :
    (commit : Action Unit).Confined P A L := Prog.confined_commitOr _

end Shahkar.Db
