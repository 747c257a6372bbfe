import Shahkar.Db.Store

/-!
Wallets, transactions and invoices (`app/billing/__init__.py`), and the commission of a parent
reseller (`app/billing/commission.py`).
-/

namespace Shahkar.Billing

open Shahkar.Db Shahkar.Lib
open Prog hiding commit

def getOrCreateWallet (live : Option Int) (adminId : AdminId) : Action Int :=
  match live with
  | some balance => pure balance
  | none => do
    match ← Prog.fetch (.wallet adminId) fun d => d.wallets.get? adminId with
    | some balance => pure balance
    | none => do
      Prog.emit (.insertWallet adminId)
      commit
      Prog.fetch (.wallet adminId) fun d => d.balance adminId

def postTransaction (live : Option Int) (adminId : AdminId) (amount : Int)
    (type : TransactionType) (reference : Option String) : Action Transaction := do
  let balance ← getOrCreateWallet live adminId
  let id ← Prog.freshKey
  let tx : Transaction := { id, adminId, amount, type, reference }
  Prog.emit (.insertTransaction tx)
  Prog.emit (.updateWallet adminId balance (balance + amount))
  commit
  return tx

def creditParentCommission (adminId : AdminId) (debitAmount : Int) (reference : String) :
    Action Unit :=
  if 0 ≤ debitAmount then pure ()
  else do
    let child ← Prog.query fun d => d.admins.get? adminId
    match child, child.bind Admin.parentAdminId with
    | some child, some parent =>
      let default ← Prog.query fun d => d.settings.defaultCommissionPercent
      let pct := if child.commissionPercent ≤ 0 then default else child.commissionPercent
      let commission := debitAmount.natAbs * pct / 100
      if pct ≤ 0 ∨ commission ≤ 0 then pure ()
      else do
        let _ ← postTransaction none parent commission .commission reference
    | _, _ => pure ()

def addTransaction (live : Option Int) (adminId : AdminId) (amount : Int)
    (type : TransactionType) (reference : Option String) (skipCommission : Bool) :
    Action Transaction := do
  let tx ← postTransaction live adminId amount type reference
  if ¬ skipCommission ∧ amount < 0 ∧ type ≠ .commission ∧ type ≠ .invoice then
    creditParentCommission adminId amount (reference.getD (toString tx.id))
    return tx
  else return tx

def createInvoice (adminId : AdminId) (amount : Int) (provider : Option String) :
    Action Nat := do
  let id ← Prog.freshKey
  Prog.emit (.insertInvoice id { adminId, amount, status := .pending, provider })
  commit
  return id

def payInvoice (id : Nat) (invoice : Invoice) (providerName : Option String) : Action Unit :=
  if invoice.status = .paid then pure ()
  else if invoice.status = .canceled then .raise (.value "Invoice is canceled")
  else do
    let balance ← getOrCreateWallet none invoice.adminId
    if balance < invoice.amount then
      .raise (.insufficientWalletBalance
        s!"Insufficient wallet balance (need {invoice.amount}, have {balance})")
    else do
      Prog.emit (.payInvoice id providerName)
      let _ ← addTransaction (some balance) invoice.adminId (-invoice.amount) .invoice
        (some (toString id)) false

section Judgement

variable {Φ : (α : Type) → Action α → Prop} (hΦ : Prog.Compositional Φ)

include hΦ

theorem holds_creditParentCommission
    (hpost : ∀ live a amount reference,
      Φ _ (postTransaction live a amount .commission reference))
    (a : AdminId) (debitAmount : Int) (reference : String) :
    Φ _ (creditParentCommission a debitAmount reference) := by
  refine hΦ.ite (hΦ.pure _) (hΦ.bind (hΦ.query _) fun child => ?_)
  split
  · exact hΦ.bind (hΦ.query _) fun default => hΦ.ite (hΦ.pure _)
      (hΦ.bind (hpost _ _ _ _) fun _ => hΦ.pure _)
  · exact hΦ.pure _

theorem holds_addTransaction {live : Option Int} {a : AdminId} {amount : Int}
    {type : TransactionType} {reference : Option String}
    (hcommission : ∀ live a amount reference,
      Φ _ (postTransaction live a amount .commission reference))
    (hpost : Φ _ (postTransaction live a amount type reference)) (skipCommission : Bool) :
    Φ _ (addTransaction live a amount type reference skipCommission) :=
  hΦ.bind hpost fun _ => hΦ.ite (hΦ.bind
    (holds_creditParentCommission hΦ hcommission _ _ _) fun _ => hΦ.pure _) (hΦ.pure _)

end Judgement

section Footprint

variable {P : Write → Prop} {A L : Row → Prop} {a : AdminId}

theorem confined_getOrCreateWallet {live : Option Int} (hP : P (.insertWallet a))
    (hA : A (.wallet a)) : (getOrCreateWallet live a).Confined P A L := by
  cases live with
  | some balance => exact confined_pure balance
  | none =>
    refine confined_bind (confined_fetch.mpr hA) fun found => ?_
    cases found with
    | some balance => exact confined_pure balance
    | none =>
      exact confined_bind (confined_emit.mpr hP) fun _ =>
        confined_bind confined_commit fun _ => confined_fetch.mpr hA

theorem confined_createInvoice {amount : Int} {provider : Option String}
    (hP : ∀ id invoice, P (.insertInvoice id invoice)) :
    (createInvoice a amount provider).Confined P A L :=
  confined_bind confined_freshKey fun _ =>
    confined_bind (confined_emit.mpr (hP _ _)) fun _ =>
    confined_bind confined_commit fun _ => confined_pure _

end Footprint

end Shahkar.Billing
