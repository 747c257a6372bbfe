import Mathlib.Data.PNat.Basic

/-!
The database rows the modelled jobs and routes work on (`app/db/models.py`), with the columns those
read or write. A column that defaults to zero is never `NULL` here. Primary keys are the keys of the
tables.
-/

namespace Shahkar.Db

inductive UserStatus
  | active
  | disabled
  | limited
  | expired
  | onHold
  deriving Repr, DecidableEq

abbrev AdminId := ℕ+

instance : OfNat AdminId 1 := ⟨⟨1, Nat.one_pos⟩⟩

structure NextPlan where
  dataLimit : Option Int
  expire : Option Int
  addRemainingTraffic : Bool
  fireOnEither : Bool
  deriving Repr, DecidableEq

structure User where
  username : String
  status : UserStatus := .active
  usedTraffic : Int := 0
  overageTraffic : Int := 0
  usedTrafficUp : Int := 0
  usedTrafficDown : Int := 0
  dataLimit : Option Int := none
  expire : Option Int := none
  adminId : Option AdminId := none
  onHoldExpireDuration : Option Int := none
  onHoldTimeout : Option Int := none
  nextPlan : Option NextPlan := none
  deviceLimit : Option Int := none
  speedLimitUp : Option Int := none
  speedLimitDown : Option Int := none
  cappedByReseller : Bool := false
  portalOwnerUserId : Option Int := none
  resellerTariffChargedId : Option Nat := none
  resellerTariffChargedExpire : Option Int := none
  deriving Repr, DecidableEq

def User.finiteLimit (u : User) : Option Int := u.dataLimit.filter fun l => 0 < l

def UserStatus.billable (s : UserStatus) : Bool := s = .active || s = .onHold

structure Admin where
  username : String
  isSudo : Bool := false
  usersUsage : Int := 0
  maxUsers : Option Int := none
  maxTotalTraffic : Option Int := none
  prepaidTrafficRemaining : Int := 0
  usageRatePerGb : Option Int := none
  tenantId : Option Nat := none
  parentAdminId : Option AdminId := none
  commissionPercent : Int := 0
  deriving Repr, DecidableEq

/-!
### Money
-/

inductive TransactionType
  | credit
  | debit
  | invoice
  | topup
  | commission
  | trafficPackage
  | usageBilling
  | planSale
  deriving Repr, DecidableEq

structure Transaction where
  id : Nat
  adminId : AdminId
  amount : Int
  type : TransactionType
  reference : Option String
  deriving Repr, DecidableEq

inductive InvoiceStatus
  | pending
  | paid
  | canceled
  deriving Repr, DecidableEq

structure Invoice where
  adminId : AdminId
  amount : Int
  status : InvoiceStatus
  provider : Option String
  deriving Repr, DecidableEq

structure ResellerTrafficPackage where
  name : String
  bytes : Int
  price : Int
  enabled : Bool
  deriving Repr, DecidableEq

structure ResellerTrafficPackageOverride where
  price : Option Int
  bytes : Option Int
  deriving Repr, DecidableEq

structure ResellerTrafficPurchase where
  adminId : AdminId
  packageId : Nat
  bytes : Int
  pricePaid : Int
  createdByAdminId : AdminId
  deriving Repr, DecidableEq

structure UsageBillingCheckpoint where
  lastBilledAt : Int
  lastBilledUsersUsage : Int
  deriving Repr, DecidableEq

structure LowBalanceEvent where
  adminId : AdminId
  balance : Int
  needed : Int
  createdAt : Int
  deriving Repr, DecidableEq

structure NodeUserUsage where
  userId : Int
  nodeId : Option Nat
  usedTraffic : Int
  createdAt : Int
  deriving Repr, DecidableEq

/-- The hour, the user and the node of a row: its unique key. -/
abbrev UsageKey := Int × Int × Option Nat

def NodeUserUsage.key (u : NodeUserUsage) : UsageKey := (u.createdAt, u.userId, u.nodeId)

structure Node where
  tenantId : Option Nat
  ownerAdminId : Option AdminId
  deriving Repr, DecidableEq

structure Plan where
  price : Int := 0
  dataLimit : Option Int := none
  durationDays : Option Int := none
  deviceLimit : Option Int := none
  enabled : Bool := true
  deriving Repr, DecidableEq

structure ResellerPlanTariff where
  id : Nat
  name : String
  price : Int := 0
  dataLimit : Option Int := none
  durationDays : Option Int := none
  deviceLimit : Option Int := none
  speedLimitUp : Option Int := none
  speedLimitDown : Option Int := none
  enabled : Bool := true
  deriving Repr, DecidableEq

structure UserTemplate where
  dataLimit : Option Int := some 0
  expireDuration : Option Int := some 0
  usernamePrefix : Option String := none
  usernameSuffix : Option String := none
  nextPlan : Option NextPlan := none
  deriving Repr, DecidableEq

inductive OrderStatus
  | pending
  | paid
  | applied
  deriving Repr, DecidableEq

structure UserOrder where
  userId : Int
  planId : Nat
  amount : Int
  status : OrderStatus
  deriving Repr, DecidableEq

inductive PaymentKind
  | topup
  | portalRenew
  | portalPurchase
  | other (kind : String)
  deriving Repr, DecidableEq

inductive PaymentStatus
  | pending
  | awaitingReview
  | completed
  | rejected
  | expired
  | failed
  deriving Repr, DecidableEq

structure PaymentExtra where
  newUsername : String := ""
  createdUsername : Option String := none
  portalUserId : Option Int := none
  expiresAt : Option Int := none
  deriving Repr, DecidableEq

structure PaymentIntent where
  kind : PaymentKind
  adminId : AdminId
  userId : Option Int := none
  planId : Option Nat := none
  amount : Int
  provider : String
  status : PaymentStatus := .pending
  extra : PaymentExtra := {}
  createdAt : Int
  deriving Repr, DecidableEq

end Shahkar.Db
