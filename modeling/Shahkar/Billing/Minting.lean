import Shahkar.Billing.Ledger

/-!
# A reseller cannot mint money, as far as that is true

Every posting to the own wallet is a debit, except for two: the payment of a negative invoice, and a
commission if the admin is their own parent.
-/

namespace Shahkar.Billing

open Shahkar.Db Shahkar.Lib
open Prog hiding commit

/-!
### What requests leave as it is
-/

def paysItself (d : Database) (a : AdminId) : Bool :=
  (d.admins.get? a).any fun r => r.parentAdminId = some a ∧
    100 < if r.commissionPercent ≤ 0 then d.settings.defaultCommissionPercent
      else r.commissionPercent

def SameAdmins (a : AdminId) (d d' : Database) : Prop :=
  d'.adminIdOf = d.adminIdOf ∧ paysItself d' a = paysItself d a

theorem SameAdmins.refl (a : AdminId) (d : Database) : SameAdmins a d d := ⟨rfl, rfl⟩

variable {a : AdminId} {d d' : Database}

theorem SameAdmins.trans {d₁ d₂ d₃ : Database} (h₁ : SameAdmins a d₁ d₂)
    (h₂ : SameAdmins a d₂ d₃) : SameAdmins a d₁ d₃ :=
  ⟨h₂.1.trans h₁.1, h₂.2.trans h₁.2⟩

theorem paysItself_apply {w : Write} (h : w.apply d = some d') :
    paysItself d' a = paysItself d a := by
  cases w with
  | updatePrepaid _ _ _ | chargeAdmin _ _ =>
    obtain rfl := Option.some.inj h
    simp only [paysItself, Dict.get?_modify]
    split
    · cases d.admins.get? a <;> rfl
    · rfl
  | insertWallet _ | insertCheckpoint _ _ | insertUser _ _ =>
    obtain ⟨-, rfl⟩ := eq_of_ite_none h
    rfl
  | _ =>
    obtain rfl := Option.some.inj h
    rfl

theorem sameAdmins_applyAll {ws : List Write}
    (h : store.applyAll ws d = some d') : SameAdmins a d d' := by
  refine store.applyAll_induction (P := SameAdmins a d) (fun w _ d₁ d₂ happly hd₁ => ?_) h
    (.refl a d)
  exact hd₁.trans ⟨Write.adminIdOf_apply happly, paysItself_apply happly⟩

/-!
### Lone postings
-/

section Postings

variable {a : AdminId} {s : Exec Database Write}

structure Spared (a : AdminId) (s s' : Exec Database Write) : Prop where
  balance : s'.db.balance a = s.db.balance a
  wallet : ∀ v, s.db.wallets.get? a = some v → s'.db.wallets.get? a = some v
  admins : SameAdmins a s.db s'.db
  pend : ∀ w ∈ s'.pend, Spares a w

theorem alone_spared {α : Type} {p : Action α}
    (hp : p.Confined (Spares a) (fun _ => True) fun _ => True) (hpend : ∀ w ∈ s.pend, Spares a w) :
    p.alone store (fun _ _ => True) s fun _ => Spared a s := by
  refine alone_imp (fun _ _ _ => trivial) ?_ (alone_of_confined
    (I := fun d _ => d.balance a = s.db.balance a ∧ SameAdmins a s.db d ∧
      ∀ v, s.db.wallets.get? a = some v → d.wallets.get? a = some v) ?_ hp hpend
    ⟨rfl, .refl _ _, fun _ => id⟩)
  · rintro x s' ⟨⟨hbalance, hadmins, hwallet⟩, hpend'⟩
    exact ⟨hbalance, hwallet, hadmins, hpend'⟩
  · rintro ws d d' l hws happly ⟨hbalance, hadmins, hwallet⟩
    obtain ⟨hbalance', -, hwallet'⟩ := spares_applyAll hws happly
    exact ⟨hbalance'.trans hbalance, hadmins.trans (sameAdmins_applyAll happly),
      fun v hv => hwallet' v (hwallet v hv)⟩

theorem alone_getOrCreateWallet (live : Option Int) {b : AdminId}
    (hlive : ∀ v, live = some v → s.db.wallets.get? b = some v)
    (hpend : ∀ w ∈ s.pend, Spares a w) :
    (getOrCreateWallet live b).alone store (fun _ _ => True) s fun x s' =>
      Spared a s s' ∧ ∀ v, x = .ok v → s'.db.wallets.get? b = some v := by
  refine alone_and (alone_spared (confined_getOrCreateWallet trivial trivial) hpend) ?_
  unfold getOrCreateWallet
  cases live with
  | some balance =>
    rintro v ⟨⟩
    exact hlive _ rfl
  | none =>
    simp only [alone_bind, alone_fetch, aloneThen_ok]
    cases hget : s.db.wallets.get? b with
    | some balance =>
      rintro v ⟨⟩
      exact hget
    | none =>
      simp only [alone_bind, alone_emit, aloneThen_ok]
      refine alone_commitOr (fun d happly => ⟨trivial, ?_⟩) (fun v h => by cases h)
      rw [aloneThen_ok, alone_fetch]
      -- the last write of the commit created the row
      rw [Exec.push_pend, Store.applyAll_append] at happly
      obtain ⟨d₁, -, h₂⟩ := Option.bind_eq_some_iff.mp happly
      simp only [Store.applyAll_cons, store_apply, Write.apply, Option.bind_eq_some_iff,
        Option.ite_none_left_eq_some, Option.some.injEq, Store.applyAll_nil] at h₂
      obtain ⟨_, ⟨-, rfl⟩, rfl⟩ := h₂
      rintro v ⟨⟩
      simp [Database.balance, Dict.get?_set]

theorem balance_posting_applyAll (tx : Transaction) {loaded : Int} {before after : List Write}
    {d d' : Database} (hbefore : ∀ w ∈ before, Spares a w) (hafter : ∀ w ∈ after, Spares a w)
    (hfresh : tx.amount = 0 ∨ d.wallets.get? tx.adminId = some loaded)
    (h : store.applyAll (before ++ .insertTransaction tx ::
      .updateWallet tx.adminId loaded (loaded + tx.amount) :: after) d = some d') :
    d'.balance a = d.balance a + if tx.adminId = a then tx.amount else 0 := by
  split_ifs with ha
  · subst ha
    exact (posting_applyAll tx hbefore hafter hfresh h).1
  · refine (spares_applyAll (fun w hw => ?_) h).1.trans (add_zero _).symm
    simp only [List.mem_append, List.mem_cons] at hw
    rcases hw with hw | rfl | rfl | hw
    exacts [hbefore w hw, ha, ha, hafter w hw]

structure Moved (a : AdminId) (amount : Int) (s : Exec Database Write) (ok : Bool)
    (s' : Exec Database Write) : Prop where
  balance : s'.db.balance a = s.db.balance a + if ok then amount else 0
  admins : SameAdmins a s.db s'.db
  pend : ∀ w ∈ s'.pend, Spares a w

theorem alone_postTransaction {live : Option Int} {b : AdminId} {amount : Int}
    {type : TransactionType} {reference : Option String}
    (hlive : ∀ v, live = some v → s.db.wallets.get? b = some v)
    (hpend : ∀ w ∈ s.pend, Spares a w) :
    (postTransaction live b amount type reference).alone store (fun _ _ => True) s fun x s' =>
      Moved a (if b = a then amount else 0) s x.isOk s' := by
  refine alone_then (alone_getOrCreateWallet live hlive hpend) ?_
  rintro (e | balance) s₁ ⟨hspared, hbalance⟩
  · exact ⟨by simpa [Except.isOk, Except.toBool] using hspared.balance, hspared.admins,
      hspared.pend⟩
  simp only [aloneThen_ok, alone_bind, alone_freshKey, alone_emit]
  refine alone_commitOr (fun d happly => ⟨trivial, ?_⟩) ?_
  · simp only [Exec.push_pend, Exec.advanced_pend, Exec.push_db, Exec.advanced_db,
      List.append_assoc, List.cons_append, List.nil_append] at happly
    refine ⟨?_, hspared.admins.trans (sameAdmins_applyAll happly), by simp⟩
    have hmoved := balance_posting_applyAll (a := a)
      ⟨s₁.next, b, amount, type, reference⟩ hspared.pend (by simp)
      (.inr (hbalance balance rfl)) happly
    simpa [Except.isOk, Except.toBool, hspared.balance] using hmoved
  · exact ⟨by simpa [Except.isOk, Except.toBool] using hspared.balance, hspared.admins, by simp⟩

theorem commission_le (n : Nat) {pct : Int} (h : pct ≤ 100) : (n : Int) * pct / 100 ≤ n :=
  Int.ediv_le_of_le_mul (by decide) (Int.mul_le_mul_of_nonneg_left h (by omega))

theorem alone_creditParentCommission {debitAmount : Int} {reference : String}
    (hpays : paysItself s.db a = false) (hpend : ∀ w ∈ s.pend, Spares a w) :
    (creditParentCommission a debitAmount reference).alone store (fun _ _ => True) s fun _ s' =>
      s'.db.balance a ≤ s.db.balance a + debitAmount.natAbs ∧ SameAdmins a s.db s'.db ∧
        ∀ w ∈ s'.pend, Spares a w := by
  have hsame : s.db.balance a ≤ s.db.balance a + debitAmount.natAbs ∧ SameAdmins a s.db s.db ∧
      ∀ w ∈ s.pend, Spares a w := ⟨by omega, .refl _ _, hpend⟩
  unfold creditParentCommission
  split
  · exact hsame
  simp only [alone_bind, alone_query, aloneThen_ok]
  split
  · next child parent hchild hparent =>
      simp only [alone_bind, alone_query, aloneThen_ok]
      rw [hchild, Option.bind_some] at hparent
      simp only [paysItself, hchild, hparent, Option.any_some, Option.some.injEq,
        decide_eq_false_iff_not, not_and, not_lt] at hpays
      generalize (if child.commissionPercent ≤ 0 then _ else child.commissionPercent) = pct
        at hpays ⊢
      split
      · exact hsame
      · next hpos =>
          rw [alone_bind]
          refine alone_mono ?_
            (alone_postTransaction (a := a) (by simp) hpend)
          intro x s' hmoved
          have hle : s'.db.balance a ≤ s.db.balance a + debitAmount.natAbs := by
            rw [hmoved.balance]
            split_ifs with _ hself
            · have := commission_le debitAmount.natAbs (hpays hself)
              omega
            · omega
            · omega
          cases x <;> exact ⟨hle, hmoved.admins, hmoved.pend⟩
  · exact hsame

end Postings

structure Thrifty (a : AdminId) (d₀ : Database) (s : Exec Database Write) : Prop where
  balance : s.db.balance a ≤ d₀.balance a
  admins : SameAdmins a d₀ s.db
  pend : ∀ w ∈ s.pend, Spares a w

section Requests

variable {a : AdminId} {d₀ : Database} {s : Exec Database Write}

theorem Spared.thrifty {s' : Exec Database Write} (h : Spared a s s') (hs : Thrifty a d₀ s) :
    Thrifty a d₀ s' :=
  ⟨h.balance.trans_le hs.balance, hs.admins.trans h.admins, h.pend⟩

theorem Thrifty.push {w : Write} (h : Thrifty a d₀ s) (hw : Spares a w) :
    Thrifty a d₀ (s.push w) := by
  refine ⟨h.balance, h.admins, fun w' hw' => ?_⟩
  rcases List.mem_append.mp hw' with hw' | hw'
  · exact h.pend w' hw'
  · exact List.mem_singleton.mp hw' ▸ hw

theorem thrifty_of_confined {α : Type} {p : Action α}
    (hp : p.Confined (Spares a) (fun _ => True) fun _ => True) :
    p.Maintains store (fun _ _ => True) (Thrifty a d₀) := fun _ hs =>
  alone_mono (fun _ _ h => h.thrifty hs) (alone_spared hp hs.pend)

variable (a d₀) in
theorem thriftyRules :
    BillingRules fun _ p => p.Maintains store (fun _ _ => True) (Thrifty a d₀) where
  toCompositional := compositional_maintains
  emit hw _ hs := hs.push hw.spares
  commit := thrifty_of_confined confined_commit
  wallet _ _ := thrifty_of_confined (confined_getOrCreateWallet trivial trivial)
  checkpoint _ _ := thrifty_of_confined (confined_getOrCreateCheckpoint fun _ => trivial)

theorem thrifty_addTransaction {live : Option Int} {amount : Int} {type : TransactionType}
    {reference : Option String} {skipCommission : Bool} (hs : Thrifty a d₀ s)
    (hlive : ∀ v, live = some v → s.db.wallets.get? a = some v) (hamount : amount ≤ 0)
    (hpays : type = .invoice ∨ paysItself d₀ a = false) :
    (addTransaction live a amount type reference skipCommission).alone store (fun _ _ => True) s
      fun _ => Thrifty a d₀ := by
  refine alone_then (alone_postTransaction (a := a) hlive hs.pend) ?_
  have hbalance := hs.balance
  rintro (e | tx) s₁ ⟨hmoved, hadmins, hpend⟩
  · refine ⟨?_, hs.admins.trans hadmins, hpend⟩
    simp only [Except.isOk, Except.toBool, Bool.false_eq_true, if_false] at hmoved
    omega
  simp only [Except.isOk, Except.toBool, if_true] at hmoved
  rw [aloneThen_ok]
  split
  · next hcommission =>
      have hpays₁ : paysItself s₁.db a = false :=
        ((hs.admins.trans hadmins).2).trans (hpays.resolve_left hcommission.2.2.2)
      refine alone_then (alone_creditParentCommission hpays₁ hpend) ?_
      rintro x s₂ ⟨hle, hadmins₂, hpend₂⟩
      have hthrifty : Thrifty a d₀ s₂ :=
        ⟨by omega, (hs.admins.trans hadmins).trans hadmins₂, hpend₂⟩
      cases x <;> exact hthrifty
  · exact ⟨by omega, hs.admins.trans hadmins, hpend⟩

theorem thrifty_payInvoice {id : Nat} {invoice : Invoice} {providerName : Option String}
    (hadmin : invoice.adminId = a)
    (hamount : invoice.status ≠ .paid → invoice.status ≠ .canceled → 0 ≤ invoice.amount) :
    (payInvoice id invoice providerName).Maintains store (fun _ _ => True) (Thrifty a d₀) := by
  intro s hs
  unfold payInvoice
  split
  · exact hs
  split
  · exact hs
  next hpaid hcanceled =>
  rw [alone_bind, hadmin]
  refine alone_mono ?_
    (alone_getOrCreateWallet (a := a) none (by simp) hs.pend)
  rintro (e | balance) s₁ ⟨hspared, hbalance⟩
  · exact hspared.thrifty hs
  rw [aloneThen_ok]
  split
  · exact hspared.thrifty hs
  simp only [alone_bind, alone_emit, aloneThen_ok]
  have hle := hamount hpaid hcanceled
  refine alone_mono ?_ (thrifty_addTransaction
    ((hspared.thrifty hs).push trivial) ?_ (by omega) (.inl rfl))
  · rintro (e | tx) s₂ hs₂ <;> exact hs₂
  · rintro v ⟨⟩
    exact hbalance _ rfl

theorem thrifty_billResellerUsage (hpays : paysItself d₀ a = false) (now : Int) (dbadmin : Admin) :
    (billResellerUsage now a dbadmin).Maintains store (fun _ _ => True) (Thrifty a d₀) := by
  have hrules := thriftyRules a d₀
  refine hrules.billResellerUsage_of_chargeUsage (fun admin checkpoint split current last covered
    cost => hrules.chargeUsage_of_posting fun hcost s hs => ?_) dbadmin
  unfold chargeUsage
  rw [if_neg (not_le.mpr hcost)]
  refine alone_then (alone_getOrCreateWallet (a := a) none (by simp) hs.pend) ?_
  rintro (e | balance) s₁ ⟨hspared, hbalance⟩
  · exact hspared.thrifty hs
  replace hs := hspared.thrifty hs
  rw [aloneThen_ok]
  split
  · exact hrules.bind (hrules.logLowBalanceEvent _ _ _ _) (fun _ => hrules.bind hrules.commit
      fun _ => hrules.pure _) s₁ hs
  rw [alone_bind]
  -- the buffered checkpoint and prepaid volume leave the wallet row alone
  refine alone_mono (?_ : ∀ x s₂, Thrifty a d₀ s₂ ∧
    s₂.db.wallets.get? a = some balance → _) ?_
  · rintro (e | _) s₂ ⟨hs₂, hbalance₂⟩
    · exact hs₂
    simp only [aloneThen_ok, alone_bind, alone_emit]
    refine alone_mono ?_ (thrifty_addTransaction (hs₂.push trivial) ?_ (by omega) (.inr hpays))
    · rintro (e | tx) s₃ hs₃
      · exact hs₃
      rw [aloneThen_ok, alone_query_bind]
      split
      · exact hrules.bind (hrules.logLowBalanceEvent _ _ _ _) (fun _ => hrules.pure _) s₃ hs₃
      · exact hs₃
    · rintro v ⟨⟩
      exact hbalance₂
  · split
    · exact ⟨hs.push trivial, hbalance balance rfl⟩
    · exact ⟨hs, hbalance balance rfl⟩

theorem thrifty_purchasePackage (hpays : paysItself d₀ a = false) (live : Option Int)
    (packageId : Nat) (createdBy : Option AdminId) :
    (purchasePackage live a packageId createdBy).Maintains store (fun _ _ => True)
      (Thrifty a d₀) := by
  intro s hs
  refine alone_then (alone_getOrCreateWallet (a := a) none (by simp) hs.pend) ?_
  rintro (e | _) s₁ ⟨hspared, -⟩
  · exact hspared.thrifty hs
  have hs₁ := hspared.thrifty hs
  rw [aloneThen_ok, alone_bind]
  refine alone_mono ?_ alone_lockOffer
  rintro (e | ⟨admin, balance, price, bytes⟩) s₂ ⟨rfl, hbalance⟩
  · exact hs₁
  replace hbalance := hbalance _ _ _ _ rfl
  rw [aloneThen_ok]
  by_cases hprice : 0 < price
  · simp only [if_pos hprice, alone_bind, alone_freshKey, alone_emit,
      aloneThen_ok]
    refine alone_commitOr (fun d happly => ⟨trivial, ?_⟩) ⟨hs₁.balance, hs₁.admins, by simp⟩
    simp only [Exec.push_pend, Exec.advanced_pend, Exec.push_db, Exec.advanced_db,
      List.append_assoc, List.cons_append, List.nil_append, sub_eq_add_neg] at happly
    have hmoved := balance_posting_applyAll (a := a)
      ⟨s₂.next, a, -price, .trafficPackage, some s!"traffic_package:{packageId}"⟩
      hs₁.pend (by simp [Spares]) (.inr hbalance) happly
    have hadmins := hs₁.admins.trans (sameAdmins_applyAll happly)
    have hle := hs₁.balance
    rw [aloneThen_ok]
    refine alone_then (alone_creditParentCommission (hadmins.2.trans hpays) (by simp)) ?_
    rintro x s₃ ⟨hle₃, hadmins₃, hpend₃⟩
    have hthrifty : Thrifty a d₀ s₃ := by
      refine ⟨?_, hadmins.trans hadmins₃, hpend₃⟩
      simp only [if_true, Exec.committed_db] at hmoved hle₃
      omega
    cases x <;> exact hthrifty
  · simp only [if_neg hprice]
    have hrules := thriftyRules a d₀
    refine Prog.Maintains.alone ?_ hs₁
    exact hrules.bind (hrules.pure ()) fun _ => hrules.bind (hrules.emit trivial) fun _ =>
      hrules.bind (fun _ hs => hs.push trivial) fun _ => hrules.bind hrules.commit fun _ =>
      hrules.bind (hrules.pure ()) fun _ => hrules.pure _

theorem thrifty_withBilling {α : Type} {permitted : Bool} {permission : String} {p : Action α}
    (hs : Thrifty a d₀ s) (hp : p.alone store (fun _ _ => True) s fun _ => Thrifty a d₀) :
    (withBilling permitted permission p).alone store (fun _ _ => True) s
      fun _ => Thrifty a d₀ := by
  unfold withBilling
  split
  · exact hs
  rw [alone_query_bind]
  split
  · exact hs
  · exact hp

theorem thrifty_createInvoiceRoute (caller : Caller) (username : Option String) (amount : Int)
    (provider : Option String) :
    (createInvoiceRoute caller username amount provider).Maintains store (fun _ _ => True)
      (Thrifty a d₀) := by
  refine fun s hs => thrifty_withBilling hs ?_
  have hrules := thriftyRules a d₀
  refine hrules.ite (hrules.raise _) (hrules.bind (hrules.query _) fun found => ?_) s hs
  split
  · exact maintains_raise _
  · exact thrifty_of_confined (confined_createInvoice fun _ _ => trivial)

theorem thrifty_start (n : Nat) : Thrifty a d₀ { db := d₀, next := n } :=
  ⟨le_refl _, .refl a d₀, by simp⟩

theorem thrifty_payInvoiceRoute {caller : Caller} (hsudo : caller.isSudo = false)
    (hself : d₀.adminIdOf caller.username = some a) {invoiceId n : Nat}
    (hfair : ∀ invoice, d₀.invoices.get? invoiceId = some invoice → invoice.adminId = a →
      invoice.status ≠ .paid → invoice.status ≠ .canceled → 0 ≤ invoice.amount) :
    (payInvoiceRoute caller invoiceId).alone store (fun _ _ => True) { db := d₀, next := n }
      fun _ => Thrifty a d₀ := by
  have hstart : Thrifty a d₀ { db := d₀, next := n } := thrifty_start n
  refine thrifty_withBilling hstart ?_
  rw [alone_query_bind]
  split
  · exact hstart
  next invoice hinvoice =>
  rw [alone_query_bind]
  rw [Database.adminIdOf] at hself
  simp only [hsudo, hself, Bool.false_eq_true, not_false_eq_true, true_and, reduceCtorEq,
    if_false]
  split
  · exact hstart
  next hadmin =>
  replace hadmin : invoice.adminId = a := (Option.some.inj (not_not.mp hadmin)).symm
  exact Prog.Maintains.tryCatch (thrifty_payInvoice hadmin (hfair invoice hinvoice hadmin))
    (fun _ => maintains_raise _) _ hstart

theorem thrifty_purchaseTrafficPackage {caller : Caller}
    (hself : d₀.adminIdOf caller.username = some a) (hpays : paysItself d₀ a = false)
    {now : Int} {packageId n : Nat} :
    (purchaseTrafficPackage now caller packageId).alone store (fun _ _ => True)
      { db := d₀, next := n } fun _ => Thrifty a d₀ := by
  have hstart : Thrifty a d₀ { db := d₀, next := n } := thrifty_start n
  refine thrifty_withBilling hstart ?_
  split
  · exact hstart
  rw [alone_query_bind]
  split
  · exact hstart
  next adminId actor hactor =>
  obtain rfl : adminId = a := by
    simpa [Database.adminIdOf, hactor] using hself
  have hrules := thriftyRules adminId d₀
  refine hrules.bind (hrules.query _) (fun hasWallet => hrules.bind (hrules.tryCatch
    (thrifty_purchasePackage hpays _ _ _) fun e => ?_) fun _ =>
    hrules.afterWalletTopup_of_billResellerUsage (thrifty_billResellerUsage hpays now)) _ hstart
  split <;> exact maintains_raise _

end Requests

inductive BillingRequest
  | createInvoice (username : Option String) (amount : Int) (provider : Option String)
  | payInvoice (invoiceId : Nat)
  | purchaseTrafficPackage (now : Int) (packageId : Nat)

def BillingRequest.prog (caller : Caller) : BillingRequest → Action Unit
  | .createInvoice username amount provider => do
    let _ ← createInvoiceRoute caller username amount provider
  | .payInvoice invoiceId => payInvoiceRoute caller invoiceId
  | .purchaseTrafficPackage now packageId =>
    Billing.purchaseTrafficPackage now caller packageId

structure Server where
  db : Database
  next : Nat := 1

def Server.step (caller : Caller) (s : Server) (q : BillingRequest) : Option Server :=
  let s' := ((q.prog caller).exec store { db := s.db, next := s.next }).2
  some { db := s'.db, next := s'.next }

/-- The request pays no negative invoice of the admin, and buys no package while they pay themselves
a commission above 100 percent. -/
def fair (a : AdminId) (s : Server) : BillingRequest → Bool
  | .createInvoice _ _ _ => true
  | .payInvoice invoiceId => (s.db.invoices.get? invoiceId).all fun invoice =>
    invoice.adminId ≠ a || invoice.status = .paid || invoice.status = .canceled ||
      0 ≤ invoice.amount
  | .purchaseTrafficPackage _ _ => ¬ paysItself s.db a

theorem thrifty_prog {caller : Caller} (hsudo : caller.isSudo = false) {s : Server}
    (hself : s.db.adminIdOf caller.username = some a) {q : BillingRequest} (hfair : fair a s q) :
    (q.prog caller).alone store (fun _ _ => True) { db := s.db, next := s.next }
      fun _ => Thrifty a s.db := by
  cases q with
  | createInvoice username amount provider =>
    exact ((thrifty_createInvoiceRoute caller username amount provider).bind fun _ =>
      maintains_pure _) _ (thrifty_start _)
  | payInvoice invoiceId =>
    refine thrifty_payInvoiceRoute hsudo hself fun invoice hinvoice hadmin hpaid hcanceled => ?_
    simpa [fair, hinvoice, hadmin, hpaid, hcanceled] using hfair
  | purchaseTrafficPackage now packageId =>
    exact thrifty_purchaseTrafficPackage hself (by simpa [fair] using hfair)

/-- **No minting** by fair requests of one non-sudo admin. -/
theorem balance_never_rises (caller : Caller) (hsudo : caller.isSudo = false) (a : AdminId)
    (s₀ : Server) (hself : s₀.db.adminIdOf caller.username = some a) (s : Server)
    (hrun : Run (Server.step caller) (fun s q => fair a s q) s₀ s) :
    s.db.balance a ≤ s₀.db.balance a := by
  refine (hrun.invariant (fun s => s.db.balance a ≤ s₀.db.balance a ∧
    s.db.adminIdOf caller.username = some a) ⟨le_refl _, hself⟩ ?_).1
  rintro s s' q ⟨hle, hself'⟩ hfair hstep
  obtain rfl := Option.some.inj hstep
  have hthrifty := exec_of_alone (thrifty_prog hsudo hself' hfair)
  exact ⟨hthrifty.balance.trans hle, (congrFun hthrifty.admins.1 _).trans hself'⟩

def penniless : Server where
  db := { admins := Dict.empty.set 1 { username := "reseller" }, wallets := Dict.empty.set 1 0 }

def reseller : Caller :=
  { username := "reseller", isSudo := false, canRead := true, canWrite := true }

theorem negative_invoice_mints :
    ∃ s, Run (Server.step reseller) (fun _ _ => True) penniless s ∧
      penniless.db.balance 1 = 0 ∧ s.db.balance 1 = 100 := by
  refine ⟨_, Run.of_execGuarded [.createInvoice none (-100) none, .payInvoice 1] rfl, ?_⟩
  decide

theorem fair_invoices_mint_nothing :
    ∃ s : Server, s.db.invoices.keys = [1, 3] ∧ s.db.balance 1 ≤ penniless.db.balance 1 := by
  refine ⟨_, ?_, balance_never_rises reseller rfl 1 penniless (by decide) _ (Run.of_execGuarded
    [.createInvoice none 0 none, .payInvoice 1, .createInvoice none 50 none, .payInvoice 3] rfl)⟩
  decide

end Shahkar.Billing
