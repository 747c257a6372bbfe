import Shahkar.Billing.UsageBilling

/-!
Buying a prepaid traffic package from the wallet (`app/billing/traffic_packages.py`). This is the
one writer of wallets that locks the row before it reads the balance.
-/

namespace Shahkar.Billing

open Shahkar.Db Shahkar.Lib
open Prog hiding commit

def effectivePackageOffer (d : Database) (adminId : AdminId) (id : Nat)
    (pkg : ResellerTrafficPackage) : Int × Int :=
  let override := d.packageOverrides.get? (adminId, id)
  ((override.bind ResellerTrafficPackageOverride.price).getD pkg.price,
    (override.bind ResellerTrafficPackageOverride.bytes).getD pkg.bytes)

def lockOffer (adminId : AdminId) (packageId : Nat) : Action (Admin × Int × Int × Int) := do
  let pkg ← Prog.fetchForUpdate (.package packageId) fun d =>
    (d.packages.get? packageId).filter ResellerTrafficPackage.enabled
  match pkg with
  | none => .raise (.trafficPackage "Traffic package not found or disabled" 404)
  | some pkg =>
    let admin ← Prog.fetchForUpdate (.admin adminId) fun d =>
      (d.admins.get? adminId).filter fun a => ¬ a.isSudo
    match admin with
    | none => .raise (.trafficPackage "Reseller not found" 404)
    | some admin =>
      let wallet ← Prog.fetchForUpdate (.wallet adminId) fun d => d.wallets.get? adminId
      match wallet with
      | none => .raise (.trafficPackage "Wallet not found" 404)
      | some balance =>
        let (price, bytes) ← Prog.query fun d => effectivePackageOffer d adminId packageId pkg
        if bytes ≤ 0 then .raise (.trafficPackage "Package bytes must be positive" 400)
        else if balance < price then
          .raise (.trafficPackage
            s!"Insufficient wallet balance (need {price}, have {balance})" 400)
        else return (admin, balance, price, bytes)

def purchasePackage (live : Option Int) (adminId : AdminId) (packageId : Nat)
    (createdByAdminId : Option AdminId) : Action ResellerTrafficPurchase := do
  let _ ← getOrCreateWallet none adminId
  let (admin, balance, price, bytes) ← lockOffer adminId packageId
  let reference := s!"traffic_package:{packageId}"
  (if 0 < price then do
    let id ← Prog.freshKey
    Prog.emit (.insertTransaction
      { id, adminId, amount := -price, type := .trafficPackage, reference })
    Prog.emit (.updateWallet adminId balance (balance - price))
  else pure ())
  let prepaid := live.getD admin.prepaidTrafficRemaining
  Prog.emit (.updatePrepaid adminId prepaid (prepaid + bytes))
  let purchase : ResellerTrafficPurchase :=
    { adminId, packageId, bytes, pricePaid := price,
      createdByAdminId := createdByAdminId.getD adminId }
  Prog.emit (.insertPurchase purchase)
  commit
  (if 0 < price then creditParentCommission adminId (-price) reference else pure ())
  return purchase

structure OfferLocked (a : AdminId) (balance price : Int) (t t' : Trans Row (Option Int) Write) :
    Prop where
  pend : t'.pend = t.pend
  seen : t'.seen (.wallet a) = some (some balance)
  held : ∀ b, .wallet b ∈ t'.held ↔ b = a ∨ .wallet b ∈ t.held
  covered : price ≤ balance

theorem wp_lockOffer {C : Contract Database Row (Option Int) Write} {a : AdminId}
    {packageId : Nat} {t : Trans Row (Option Int) Write}
    {post : Except Error (Admin × Int × Int × Int) → Trans Row (Option Int) Write → Prop}
    (hok : ∀ admin balance price bytes t', OfferLocked a balance price t t' →
      post (.ok (admin, balance, price, bytes)) t')
    (herror : ∀ e t', post (.error e) t') : C.wp store (lockOffer a packageId) t post := by
  simp only [lockOffer, Contract.wp_bind, Contract.wp_fetchForUpdate, Contract.andThen_ok]
  intro d₁ _
  split
  · exact herror _ _
  simp only [Contract.wp_bind, Contract.wp_fetchForUpdate, Contract.andThen_ok]
  intro d₂ _
  split
  · exact herror _ _
  simp only [Contract.wp_bind, Contract.wp_fetchForUpdate, Contract.andThen_ok]
  intro d₃ _
  split
  · exact herror _ _
  next balance hbalance =>
  simp only [Contract.wp_bind, Contract.wp_query, Contract.andThen_ok]
  intro d₄ _
  split
  · exact herror _ _
  split
  · exact herror _ _
  next hcovered =>
  refine hok _ _ _ _ _ ⟨rfl, ?_, fun b => ?_, not_lt.mp hcovered⟩
  · simp [Trans.lock_seen, hbalance]
  · simp

theorem alone_lockOffer {I : Database → List Write → Prop} {a : AdminId} {packageId : Nat}
    {s : Exec Database Write} : (lockOffer a packageId).alone store I s fun x s' =>
      s' = s ∧ ∀ admin balance price bytes, x = .ok (admin, balance, price, bytes) →
        s.db.wallets.get? a = some balance := by
  simp only [lockOffer, alone_bind, alone_fetchForUpdate, aloneThen_ok]
  split
  · exact ⟨rfl, by simp⟩
  simp only [alone_bind, alone_fetchForUpdate, aloneThen_ok]
  split
  · exact ⟨rfl, by simp⟩
  simp only [alone_bind, alone_fetchForUpdate, aloneThen_ok]
  split
  · exact ⟨rfl, by simp⟩
  next balance hbalance =>
  simp only [alone_bind, alone_query, aloneThen_ok]
  split
  · exact ⟨rfl, by simp⟩
  split
  · exact ⟨rfl, by simp⟩
  · refine ⟨rfl, ?_⟩
    rintro _ _ _ _ ⟨⟩
    exact hbalance

def purchaseWrites (tx : Transaction) (balance prepaid bytes : Int)
    (purchase : ResellerTrafficPurchase) : List Write :=
  (if tx.amount < 0 then
    [.insertTransaction tx, .updateWallet tx.adminId balance (balance + tx.amount)] else []) ++
  [.updatePrepaid tx.adminId prepaid (prepaid + bytes), .insertPurchase purchase]

section Purchase

variable {C : Contract Database Row (Option Int) Write} {J : Trans Row (Option Int) Write → Prop}
  {a : AdminId}

theorem wp_purchasePackage (hwallet : C.Preserves store J (getOrCreateWallet none a))
    (hcommission : ∀ debit reference, C.Preserves store J
      (creditParentCommission a debit reference))
    (hcommitted : ∀ t : Trans Row (Option Int) Write, J (t.committed store))
    (hwrites : ∀ t tx balance prepaid bytes purchase d d', J t → tx.adminId = a →
      0 ≤ balance + tx.amount → C.inv d → d.wallets.get? a = some balance →
      store.applyAll (t.pend ++ purchaseWrites tx balance prepaid bytes purchase) d = some d' →
      C.inv d')
    (live : Option Int) (packageId : Nat) (createdBy : Option AdminId)
    {t : Trans Row (Option Int) Write} (ht : J t) :
    C.wp store (purchasePackage live a packageId createdBy) t fun _ _ => True := by
  unfold purchasePackage
  rw [Contract.wp_bind]
  refine hwallet.wp ht ?_
  rintro (e | _) t₁ ht₁
  · trivial
  rw [Contract.andThen_ok, Contract.wp_bind]
  refine wp_lockOffer (fun admin balance price bytes t₂ ht₂ => ?_) fun _ _ => trivial
  -- the row is locked, so the balance is still there when the purchase commits
  have hcurrent : ∀ {d}, t₂.Current store d → d.wallets.get? a = some balance := fun hcur =>
    Option.some.inj ((hcur _ ((ht₂.held a).mpr (.inl rfl))).symm.trans ht₂.seen)
  have hcovered := ht₂.covered
  rw [Contract.andThen_ok]
  by_cases hprice : 0 < price
  · simp only [if_pos hprice, Contract.wp_bind, Contract.wp_freshKey, Contract.wp_emit,
      Contract.andThen_ok]
    intro n
    refine Contract.wp_commitOr ?_ ?_ trivial
    · intro d d' hd hcur _ happly
      refine hwrites t₁ ⟨n, a, -price, .trafficPackage, some s!"traffic_package:{packageId}"⟩
        balance (live.getD admin.prepaidTrafficRemaining) bytes
        ⟨a, packageId, bytes, price, createdBy.getD a⟩ d d' ht₁ rfl ?_ hd (hcurrent hcur) ?_
      · change 0 ≤ balance + -price
        omega
      · simpa [purchaseWrites, hprice, ht₂.pend, ← sub_eq_add_neg] using happly
    · rw [Contract.andThen_ok, Contract.wp_bind]
      exact (hcommission _ _).wp (hcommitted _) fun x _ _ => by cases x <;> trivial
  · simp only [if_neg hprice, Contract.wp_bind, Contract.wp_pure, Contract.wp_emit,
      Contract.andThen_ok]
    refine Contract.wp_commitOr ?_ trivial trivial
    intro d d' hd hcur _ happly
    refine hwrites t₁ ⟨0, a, -price, .trafficPackage, none⟩ balance
      (live.getD admin.prepaidTrafficRemaining) bytes
      ⟨a, packageId, bytes, price, createdBy.getD a⟩ d d' ht₁ rfl ?_ hd (hcurrent hcur) ?_
    · change 0 ≤ balance + -price
      omega
    · simpa [purchaseWrites, hprice, ht₂.pend] using happly

end Purchase

end Shahkar.Billing
