import Shahkar.Billing.Routes

/-!
# No debit path overdraws a reseller, as far as that is true

Creating and editing an account check the balance, commit the account, and read the balance again
when they debit it: they are safe if it has not fallen in between (`stillCovered`).
-/

namespace Shahkar.Billing

open Shahkar.Db Shahkar.Lib
open Contract

/-!
### Writes and balances
-/

def LeavesWallet (a : AdminId) (w : Write) : Prop := .wallet a ∉ w.touched

def Solvent (a : AdminId) : Write → Prop
  | .updateWallet b _ assigned => b = a → 0 ≤ assigned
  | _ => True

variable {a : AdminId}

theorem LeavesWallet.solvent {w : Write} (h : LeavesWallet a w) : Solvent a w := by
  cases w with
  | updateWallet b loaded assigned => exact fun hb => absurd (by simp [Write.touched, hb]) h
  | _ => trivial

theorem Solvent.apply {w : Write} {d d' : Database} (hw : Solvent a w) (h : w.apply d = some d')
    (hd : 0 ≤ d.balance a) : 0 ≤ d'.balance a := by
  cases w with
  | insertWallet b =>
    obtain ⟨-, rfl⟩ := eq_of_ite_none h
    simp only [Database.balance, Dict.get?_set]
    split_ifs
    · exact le_refl 0
    · exact hd
  | updateWallet b loaded assigned =>
    obtain rfl := Option.some.inj h
    simp only [Database.balance, Dict.get?_modify] at hd ⊢
    split_ifs with hb
    · cases hget : d.wallets.get? a with
      | none => exact le_refl 0
      | some balance =>
        rw [hget, Option.getD_some] at hd
        rw [Option.map_some, Option.getD_some, written]
        split_ifs
        · exact hd
        · exact hw hb.symm
    · exact hd
  | insertCheckpoint _ _ | insertUser _ _ =>
    obtain ⟨-, rfl⟩ := eq_of_ite_none h
    exact hd
  | _ =>
    obtain rfl := Option.some.inj h
    exact hd

/-!
### The contract of the debits
-/

def overdraftContract (a : AdminId) (ids : String → Option AdminId) :
    Contract Database Row (Option Int) Write where
  inv d := 0 ≤ d.balance a ∧ d.adminIdOf = ids
  okRead t r d := r = .wallet a → ∀ u, t.seen (.wallet a) = some (some u) →
    ∃ v, d.wallets.get? a = some v ∧ u ≤ v
  okCommit _ _ := True

def Idle (a : AdminId) (t : Trans Row (Option Int) Write) : Prop :=
  ∀ w ∈ t.pend, LeavesWallet a w

def Covers (a : AdminId) (t : Trans Row (Option Int) Write) (amount : Int) : Prop :=
  ∃ u, t.seen (.wallet a) = some (some u) ∧ amount ≤ u

section Contract

variable {a : AdminId} {ids : String → Option AdminId} {t t' : Trans Row (Option Int) Write}

theorem idle_new : Idle a {} := by simp [Idle]

theorem idle_committed : Idle a (t.committed store) := by simp [Idle]

theorem idle_rolledBack : Idle a t.rolledBack := by simp [Idle]

theorem Idle.push {w : Write} (h : Idle a t) (hw : LeavesWallet a w) : Idle a (t.push w) := by
  intro w' hw'
  rcases List.mem_append.mp hw' with hw' | hw'
  · exact h w' hw'
  · exact List.mem_singleton.mp hw' ▸ hw

theorem overdraftContract_apply {w : Write} {d d' : Database} (hw : Solvent a w)
    (h : store.apply w d = some d') (hd : (overdraftContract a ids).inv d) :
    (overdraftContract a ids).inv d' :=
  ⟨hw.apply h hd.1, (Write.adminIdOf_apply h).trans hd.2⟩

theorem overdraftContract_quiet :
    (overdraftContract a ids).Quiet store (LeavesWallet a) (· ≠ .wallet a) where
  inv hw := overdraftContract_apply hw.solvent
  rows := by
    rintro w r hw hr rfl
    exact hw hr

structure Unmoved (a : AdminId) (t t' : Trans Row (Option Int) Write) : Prop where
  idle : Idle a t'
  seen : t'.seen (.wallet a) = t.seen (.wallet a)

theorem Unmoved.covers (h : Unmoved a t t') {amount : Int} (hcovers : Covers a t amount) :
    Covers a t' amount := by
  obtain ⟨u, hseen, hle⟩ := hcovers
  exact ⟨u, h.seen.trans hseen, hle⟩

theorem wp_unmoved {α : Type} {p : Action α} (ht : Idle a t)
    (hp : p.Confined (LeavesWallet a) (· ≠ .wallet a) (· ≠ .wallet a)) :
    (overdraftContract a ids).wp store p t fun _ => Unmoved a t := by
  refine wp_mono ?_ (wp_of_confined overdraftContract_quiet hp ht)
  rintro x t' ⟨hpend, hseen, -⟩
  exact ⟨hpend, hseen _ (by simp) (by simp)⟩

theorem preserves_idle {α : Type} {p : Action α}
    (hp : p.Confined (LeavesWallet a) (· ≠ .wallet a) (· ≠ .wallet a)) :
    (overdraftContract a ids).Preserves store (Idle a) p := fun _ ht =>
  wp_mono (fun _ _ h => h.idle) (wp_unmoved ht hp)

theorem wp_commit_posting {α : Type} {b : AdminId} {tx : Transaction} {loaded assigned : Int}
    {x : α} (ht : Idle a t) (hsolvent : b = a → 0 ≤ assigned) :
    (overdraftContract a ids).wp store (do commit; return x : Action α)
      ((t.push (.insertTransaction tx)).push (.updateWallet b loaded assigned))
      fun _ => Idle a := by
  rw [wp_bind]
  refine wp_commitOr ?_ idle_committed idle_rolledBack
  intro d d' hd _ _ happly
  refine store.applyAll_induction (fun w hw _ _ => overdraftContract_apply ?_) happly hd
  simp only [Trans.push_pend, List.append_assoc, List.mem_append, List.mem_singleton] at hw
  rcases hw with hw | rfl | rfl
  · exact (ht w hw).solvent
  · trivial
  · exact hsolvent

theorem covers_see {d : Database} {v : Int} (h : d.wallets.get? a = some v) :
    Covers a (t.see store [.wallet a] d) v :=
  ⟨v, by simp [Trans.see_seen, h], le_refl v⟩

theorem wp_getOrCreateWallet {b : AdminId} (ht : Idle a t) :
    (overdraftContract a ids).wp store (getOrCreateWallet none b) t fun x t' =>
      Idle a t' ∧ ∀ v, x = .ok v → b = a →
        (0 < v → Covers a t' v) ∧ 0 ≤ v ∧ ∀ u, t.seen (.wallet a) = some (some u) → u ≤ v := by
  by_cases hb : b = a
  · subst hb
    unfold getOrCreateWallet
    simp only [wp_bind, wp_fetch, andThen_ok]
    intro d hd hread
    cases hget : d.wallets.get? b with
    | some v =>
      refine ⟨ht, ?_⟩
      rintro _ ⟨⟩ -
      refine ⟨fun _ => covers_see hget, by simpa [Database.balance, hget] using hd.1, ?_⟩
      intro u hu
      obtain ⟨v', hv', hle⟩ := hread rfl u hu
      rw [hget, Option.some.injEq] at hv'
      exact hv' ▸ hle
    | none =>
      -- a wallet the session had seen would still be there
      have hunseen : ∀ u, t.seen (.wallet b) ≠ some (some u) := by
        intro u hu
        obtain ⟨v', hv', -⟩ := hread rfl u hu
        rw [hget] at hv'
        cases hv'
      simp only [wp_bind, wp_emit, andThen_ok]
      refine wp_commitOr ?_ ?_ ⟨idle_rolledBack, fun v h => by cases h⟩
      · intro d₁ d₂ hd₁ _ _ happly
        refine store.applyAll_induction (fun w hw _ _ => overdraftContract_apply ?_) happly hd₁
        simp only [Trans.push_pend, Trans.see_pend, List.mem_append, List.mem_singleton] at hw
        rcases hw with hw | rfl
        · exact (ht w hw).solvent
        · trivial
      · rw [andThen_ok, wp_fetch]
        intro d₃ hd₃ _
        refine ⟨by simp [Idle], ?_⟩
        rintro _ ⟨⟩ -
        refine ⟨fun hpos => ?_, hd₃.1, fun u hu => absurd hu (hunseen u)⟩
        cases hget₃ : d₃.wallets.get? b with
        | none => simp [Database.balance, hget₃] at hpos
        | some v =>
          rw [Database.balance, hget₃]
          exact covers_see hget₃
  · refine wp_mono ?_ (preserves_idle (confined_getOrCreateWallet ?_ ?_) t ht)
    · exact fun x t' ht' => ⟨ht', fun v _ h => absurd h hb⟩
    · simpa [LeavesWallet, Write.touched] using Ne.symm hb
    · simpa using hb

theorem Routine.leavesWallet {w : Write} (h : Routine w) : LeavesWallet a w := by
  cases w <;> first | exact absurd h not_false | simp [LeavesWallet, Write.touched]

variable (a ids) in
theorem overdraftRules :
    BillingRules fun _ p => (overdraftContract a ids).Preserves store (Idle a) p where
  toCompositional := compositional_preserves
  emit hw _ ht := ht.push hw.leavesWallet
  commit := preserves_idle confined_commit
  wallet live b := by
    cases live with
    | some balance => exact preserves_pure balance
    | none => exact fun _ ht => wp_mono (fun _ _ h => h.1) (wp_getOrCreateWallet ht)
  checkpoint _ _ := preserves_idle (confined_getOrCreateCheckpoint fun _ => by
    simp [LeavesWallet, Write.touched])

end Contract

section Postings

variable {a : AdminId} {ids : String → Option AdminId} {t : Trans Row (Option Int) Write}

variable {b : AdminId} {type : TransactionType} {reference : Option String} {amount : Int}

theorem wp_postTransaction_some {balance amount : Int} (ht : Idle a t)
    (hsolvent : b = a → 0 ≤ balance + amount) :
    (overdraftContract a ids).wp store (postTransaction (some balance) b amount type reference) t
      fun _ => Idle a := by
  unfold postTransaction getOrCreateWallet
  simp only [wp_bind, wp_pure, wp_freshKey, wp_emit,
    andThen_ok]
  exact fun n => wp_bind.mp (wp_commit_posting ht hsolvent)

theorem wp_postTransaction_none (ht : Idle a t)
    (hcovered : b = a → 0 ≤ amount ∨ Covers a t (-amount)) :
    (overdraftContract a ids).wp store (postTransaction none b amount type reference) t
      fun _ => Idle a := by
  unfold postTransaction
  rw [wp_bind]
  refine wp_mono ?_ (wp_getOrCreateWallet ht)
  rintro (e | v) t₁ ⟨ht₁, hv⟩
  · exact ht₁
  simp only [andThen_ok, wp_bind, wp_freshKey, wp_emit]
  refine fun n => wp_bind.mp (wp_commit_posting ht₁ fun hb => ?_)
  obtain ⟨-, hnonneg, hge⟩ := hv v rfl hb
  rcases hcovered hb with hcredit | ⟨u, hseen, hle⟩
  · omega
  · have := hge u hseen
    omega

theorem idle_creditParentCommission (b : AdminId) (debitAmount : Int) (reference : String) :
    (overdraftContract a ids).Preserves store (Idle a)
      (creditParentCommission b debitAmount reference) := by
  have hrules := overdraftRules a ids
  refine hrules.ite (hrules.pure _) (hrules.bind (hrules.query _) fun child => ?_)
  split
  · refine hrules.bind (hrules.query _) fun default => ?_
    dsimp only
    generalize (if Admin.commissionPercent _ ≤ 0 then default else _) = pct
    split
    · exact hrules.pure _
    · -- a commission is a credit
      next hpct =>
      refine hrules.bind (fun t ht => wp_postTransaction_none ht fun _ => .inl ?_)
        fun _ => hrules.pure _
      omega
  · exact hrules.pure _

theorem wp_addTransaction {live : Option Int} {skipCommission : Bool}
    (hpost : (overdraftContract a ids).wp store (postTransaction live b amount type reference) t
      fun _ => Idle a) :
    (overdraftContract a ids).wp store
      (addTransaction live b amount type reference skipCommission) t fun _ => Idle a := by
  unfold addTransaction
  rw [wp_bind]
  refine wp_mono ?_ hpost
  rintro (e | tx) t₁ ht₁
  · exact ht₁
  · exact (overdraftRules a ids).ite
      ((overdraftRules a ids).bind (idle_creditParentCommission _ _ _) fun _ =>
        (overdraftRules a ids).pure _) ((overdraftRules a ids).pure _) t₁ ht₁

end Postings

section Debits

variable (a : AdminId) (ids : String → Option AdminId)

theorem idle_payInvoice (id : Nat) (invoice : Invoice) (providerName : Option String) :
    (overdraftContract a ids).Preserves store (Idle a) (payInvoice id invoice providerName) := by
  unfold payInvoice
  split
  · exact preserves_pure _
  split
  · exact preserves_raise _
  intro t ht
  rw [wp_bind]
  refine wp_mono ?_ (wp_getOrCreateWallet ht)
  rintro (e | v) t₁ ⟨ht₁, -⟩
  · exact ht₁
  rw [andThen_ok]
  split
  · exact ht₁
  · next hcovered =>
    simp only [wp_bind, wp_emit, andThen_ok]
    refine wp_mono ?_ (wp_addTransaction (wp_postTransaction_some
      (ht₁.push (by simp [LeavesWallet, Write.touched])) fun _ => ?_))
    · rintro (e | tx) t₂ ht₂ <;> exact ht₂
    · omega

theorem idle_billResellerUsage (now : Int) (b : AdminId) (dbadmin : Admin) :
    (overdraftContract a ids).Preserves store (Idle a) (billResellerUsage now b dbadmin) := by
  have hrules := overdraftRules a ids
  refine hrules.billResellerUsage_of_chargeUsage (fun admin checkpoint split current last covered
    cost => hrules.chargeUsage_of_posting fun hcost t ht => ?_) dbadmin
  unfold chargeUsage
  rw [if_neg (not_le.mpr hcost), wp_bind]
  refine wp_mono ?_ (wp_getOrCreateWallet ht)
  rintro (e | v) t₁ ⟨ht₁, -⟩
  · exact ht₁
  rw [andThen_ok]
  split
  · exact hrules.bind (hrules.logLowBalanceEvent _ _ _ _) (fun _ => hrules.bind hrules.commit
      fun _ => hrules.pure _) t₁ ht₁
  next hcovered =>
  refine Contract.Preserves.wp ?_ ht₁ fun _ _ => id
  refine hrules.bind (hrules.ite (hrules.emit trivial) (hrules.pure _)) fun _ =>
    hrules.bind (hrules.emit trivial) fun _ => hrules.bind (fun t₂ ht₂ => wp_addTransaction
      (wp_postTransaction_some ht₂ fun _ => ?_)) fun tx =>
    hrules.bind (hrules.query _) fun low => ?_
  · omega
  · cases low with
    | some balance => exact hrules.bind (hrules.logLowBalanceEvent _ _ _ _) fun _ => hrules.pure _
    | none => exact hrules.pure _

theorem solvent_purchaseWrites {b : AdminId} {tx : Transaction} {balance prepaid bytes : Int}
    {purchase : ResellerTrafficPurchase} (hnonneg : 0 ≤ balance + tx.amount) :
    ∀ w ∈ purchaseWrites tx balance prepaid bytes purchase, Solvent b w := by
  intro w hw
  unfold purchaseWrites at hw
  split_ifs at hw
  · simp only [List.cons_append, List.nil_append, List.mem_cons, List.not_mem_nil, or_false] at hw
    rcases hw with rfl | rfl | rfl | rfl
    exacts [trivial, fun _ => hnonneg, trivial, trivial]
  · simp only [List.nil_append, List.mem_cons, List.not_mem_nil, or_false] at hw
    rcases hw with rfl | rfl <;> trivial

theorem overdraft_purchasePackage (live : Option Int) (b : AdminId) (packageId : Nat)
    (createdBy : Option AdminId) {t : Trans Row (Option Int) Write} (ht : Idle a t) :
    (overdraftContract a ids).wp store (purchasePackage live b packageId createdBy) t
      fun _ _ => True := by
  refine wp_purchasePackage (J := Idle a) ?_ (idle_creditParentCommission b)
    (fun _ => idle_committed) ?_ live packageId createdBy ht
  · exact (overdraftRules a ids).wallet none b
  · intro t tx balance prepaid bytes purchase d d' ht _ hnonneg hd _ happly
    refine store.applyAll_induction (fun w hw _ _ => overdraftContract_apply ?_) happly hd
    rcases List.mem_append.mp hw with hw | hw
    · exact (ht w hw).solvent
    · exact solvent_purchaseWrites hnonneg w hw

end Debits

section Tariffs

variable {a : AdminId} {ids : String → Option AdminId} {t : Trans Row (Option Int) Write}

def Funded (a : AdminId) (payer : Option AdminId) (count : Nat) :
    Except Error (Option ResellerPlanTariff × Int) → Trans Row (Option Int) Write → Prop
  | .ok (_, unitPrice), t => Idle a t ∧ (0 < unitPrice → payer = some a →
      Covers a t (unitPrice * count))
  | .error _, t => Idle a t

variable {count : Nat} {tariff : ResellerPlanTariff} {admin : Option (AdminId × Admin)}
  {unitPrice : Int} {usernames : List String} {payer : Option AdminId}

theorem wp_checkWallet {b : AdminId} {price : Int} {need : Int → String} (hcount : 1 ≤ count)
    (ht : Idle a t) :
    (overdraftContract a ids).wp store (checkWallet b tariff price need count) t
      (Funded a (some b) count) := by
  unfold checkWallet
  split
  · exact ⟨ht, fun h => absurd h (by simp)⟩
  next hprice =>
  rw [wp_bind]
  refine wp_mono ?_ (wp_getOrCreateWallet ht)
  rintro (e | v) t₁ ⟨ht₁, hv⟩
  · exact ht₁
  rw [andThen_ok]
  split
  · exact ht₁
  next hcovered =>
  refine ⟨ht₁, fun _ hb => ?_⟩
  obtain rfl := Option.some.inj hb
  have hpos : 0 < price * count := Int.mul_pos (by omega) (by omega)
  obtain ⟨u, hseen, hle⟩ := (hv v rfl rfl).1 (by omega)
  exact ⟨u, hseen, by omega⟩

theorem wp_prepareResellerTariffCharge {dataLimit durationDays : Option Int} (ht : Idle a t) :
    (overdraftContract a ids).wp store
      (prepareResellerTariffCharge admin dataLimit durationDays count) t
      (Funded a (admin.map Prod.fst) count) := by
  unfold prepareResellerTariffCharge
  split
  · exact ⟨ht, fun h => absurd h (by simp)⟩
  next hcount =>
  rw [wp_bind, wp_query]
  intro d _
  rw [andThen_ok]
  split
  · exact ht
  · exact ⟨ht, fun h => absurd h (by simp)⟩
  · next hquote =>
      obtain ⟨r, rfl, -⟩ := tariffQuote_payer hquote
      exact wp_checkWallet (by omega) ht

theorem wp_prepareResellerModifyCharge {now : Int} {dbuser : User} {dataLimit expire : Option Int}
    (ht : Idle a t) :
    (overdraftContract a ids).wp store
      (prepareResellerModifyCharge now admin dbuser dataLimit expire) t
      (Funded a (admin.map Prod.fst) 1) := by
  unfold prepareResellerModifyCharge
  rw [wp_bind, wp_query]
  intro d _
  rw [andThen_ok]
  split
  · exact ht
  · exact ⟨ht, fun h => absurd h (by simp)⟩
  · next hquote =>
      obtain ⟨r, rfl, -⟩ := modifyQuote_payer hquote
      exact wp_checkWallet le_rfl ht

theorem wp_funded_tryCatch {p : Action (Option ResellerPlanTariff × Int)}
    (hp : (overdraftContract a ids).wp store p t (Funded a payer count)) :
    (overdraftContract a ids).wp store (p.tryCatch fun e => .raise (tariffError e)) t
      (Funded a payer count) := by
  refine wp_tryCatch.mpr (wp_mono ?_ hp)
  rintro (e | x) t' ht' <;> exact ht'

theorem wp_chargeResellerTariff {b : AdminId} {admin : Admin} {event : TariffEvent} (ht : Idle a t)
    (hcovers : 0 < unitPrice → b = a → Covers a t (unitPrice * usernames.length)) :
    (overdraftContract a ids).wp store
      (chargeResellerTariff b admin tariff unitPrice usernames event) t fun _ => Idle a := by
  unfold chargeResellerTariff
  split
  · exact ht
  split
  · exact ht
  next hprice =>
  rw [wp_bind]
  refine wp_mono ?_ (wp_addTransaction (wp_postTransaction_none ht fun hb => .inr ?_))
  · rintro (e | tx) t' ht' <;> exact ht'
  · rw [neg_neg]
    exact hcovers (by omega) hb

theorem idle_markUsersTariffCharged : (overdraftContract a ids).Preserves store (Idle a)
      (markUsersTariffCharged usernames tariff) :=
  preserves_idle (confined_markUsersTariffCharged fun _ _ _ => by
    simp [LeavesWallet, Write.touched])

theorem wp_settleCreates {tariff : Option ResellerPlanTariff} (hcount : usernames.length ≤ count)
    (hfunded : Funded a (admin.map Prod.fst) count (.ok (tariff, unitPrice)) t) :
    (overdraftContract a ids).wp store (settleCreates admin tariff unitPrice usernames) t
      fun _ => Idle a := by
  obtain ⟨ht, hcovers⟩ := hfunded
  unfold settleCreates
  split
  · exact ht
  · next b r =>
      unfold chargeUnlimitedCreates
      rw [wp_bind]
      refine wp_mono (?_ : ∀ x t', Idle a t' → _) ?_
      · rintro (e | _) t' ht'
        · exact ht'
        · exact idle_markUsersTariffCharged t' ht'
      · split
        · next hprice =>
            rw [wp_bind]
            refine wp_mono ?_ (wp_chargeResellerTariff ht fun _ hb => ?_)
            · rintro (e | tx) t' ht' <;> exact ht'
            · obtain ⟨u, hseen, hle⟩ := hcovers hprice (congrArg some hb)
              have hmul : unitPrice * usernames.length ≤ unitPrice * count :=
                Int.mul_le_mul_of_nonneg_left (by omega) (by omega)
              exact ⟨u, hseen, hmul.trans hle⟩
        · exact ht
  · exact idle_markUsersTariffCharged t ht

theorem Funded.unmoved {tariff : Option ResellerPlanTariff} {t' : Trans Row (Option Int) Write}
    (hfunded : Funded a payer count (.ok (tariff, unitPrice)) t) (h : Unmoved a t t') :
    Funded a payer count (.ok (tariff, unitPrice)) t' :=
  ⟨h.idle, fun hprice hpayer => h.covers (hfunded.2 hprice hpayer)⟩

theorem overdraft_addUser (now : Int) (username : String) (newUser : UserCreate) :
    (overdraftContract a ids).Preserves store (Idle a) (addUser now username newUser) := by
  intro t ht
  unfold addUser
  simp only [wp_bind, wp_query, andThen_ok]
  intro d₁ _ d₂ _
  refine wp_mono ?_ (wp_funded_tryCatch (wp_prepareResellerTariffCharge ht))
  rintro (e | ⟨tariff, unitPrice⟩) t₁ hfunded
  · exact hfunded
  rw [andThen_ok, wp_bind]
  -- the account is created in transactions of its own
  refine wp_mono ?_ (wp_unmoved hfunded.1 (Prog.confined_tryCatch
    (confined_createUser fun _ _ => by simp [LeavesWallet, Write.touched]) fun e => ?_))
  · rintro (e | _) t₂ ht₂
    · exact ht₂.idle
    · exact wp_settleCreates le_rfl (hfunded.unmoved ht₂)
  · split <;> exact Prog.confined_raise _

theorem overdraft_bulkUsersFromTemplate (now : Int) (username : String) (template : UserCreate)
    (names : List String) :
    (overdraftContract a ids).Preserves store (Idle a)
      (bulkUsersFromTemplate now username template names) := by
  intro t ht
  unfold bulkUsersFromTemplate
  split
  · exact ht
  simp only [wp_bind, wp_query, andThen_ok]
  intro d₁ _
  refine wp_mono ?_ (wp_funded_tryCatch (wp_prepareResellerTariffCharge ht))
  rintro (e | ⟨tariff, unitPrice⟩) t₁ hfunded
  · exact hfunded
  rw [andThen_ok, wp_bind]
  refine wp_mono ?_ (wp_returns (Prog.returns_each _ names)
    (wp_unmoved hfunded.1 (Prog.confined_each fun name _ => ?_)))
  · rintro (e | created) t₂ ⟨ht₂, hlength⟩
    · exact ht₂.idle
    · -- at most as many accounts are charged as were checked
      have hle : (created.filterMap id).length ≤ names.length :=
        (List.length_filterMap_le _ _).trans (hlength created rfl).le
      rw [andThen_ok, wp_bind]
      refine wp_mono ?_ (wp_settleCreates hle (hfunded.unmoved ht₂))
      rintro (e | _) t₃ ht₃ <;> exact ht₃
  · exact Prog.confined_tryCatch (Prog.confined_bind (Prog.confined_query _) fun _ =>
      Prog.confined_bind (confined_createUser fun _ _ => by simp [LeavesWallet, Write.touched])
        fun _ => Prog.confined_pure _) fun _ => Prog.confined_pure _

theorem overdraft_modifyUser (now : Int) (caller : Caller) (id : Int) (payload : UserModify) :
    (overdraftContract a ids).Preserves store (Idle a) (modifyUser now caller id payload) := by
  have hupdate : ∀ (dbuser : User) (payload : UserModify),
      (updateUser now id dbuser payload).Confined (LeavesWallet a) (· ≠ .wallet a)
        (· ≠ .wallet a) := fun _ _ =>
    confined_updateUser (by simp [LeavesWallet, Write.touched])
  intro t ht
  unfold modifyUser
  simp only [wp_bind, wp_query, andThen_ok]
  intro d₁ _
  split
  · exact ht
  split
  · exact ((preserves_idle (hupdate _ _)).bind fun _ => preserves_pure _) t ht
  simp only [wp_bind, wp_query, andThen_ok]
  intro d₂ hd₂ d₃ _
  refine wp_mono ?_ (wp_funded_tryCatch (wp_prepareResellerModifyCharge ht))
  rintro (e | ⟨tariff, unitPrice⟩) t₁ hfunded
  · exact hfunded
  rw [andThen_ok, wp_bind]
  refine wp_mono ?_ (wp_unmoved hfunded.1 (hupdate _ _))
  rintro (e | row) t₂ ht₂
  · exact ht₂.idle
  replace hfunded := hfunded.unmoved ht₂
  rw [andThen_ok]
  split
  · exact hfunded.1
  simp only [wp_bind, wp_query, andThen_ok]
  intro d₄ hd₄
  refine wp_mono (?_ : ∀ x t', Idle a t' → _) ?_
  · rintro (e | _) t₃ ht₃
    · exact ht₃
    · refine Contract.Preserves.wp ?_ ht₃ fun _ _ h => h
      exact (overdraftRules a ids).bind ((overdraftRules a ids).emit trivial) fun _ =>
        (overdraftRules a ids).commit
  · split
    · next b r hadmin =>
        split
        · rw [wp_bind]
          refine wp_mono ?_ (wp_chargeResellerTariff hfunded.1 fun hprice hb => ?_)
          · rintro (e | tx) t₃ ht₃ <;> exact ht₃
          · -- the username still belongs to the admin whose wallet was checked
            have hpayer : (d₂.adminByName caller.username).map Prod.fst = some a := by
              have hids := congrFun (hd₂.2.trans hd₄.2.symm) caller.username
              simp only [Database.adminIdOf] at hids
              rw [hids, hadmin, Option.map_some, hb]
            exact hfunded.2 hprice hpayer
        · exact hfunded.1
    · exact hfunded.1

end Tariffs

inductive DebitRequest
  | addUser (now : Int) (username : String) (newUser : UserCreate)
  | bulkUsersFromTemplate (now : Int) (username : String) (template : UserCreate)
    (names : List String)
  | modifyUser (now : Int) (caller : Caller) (id : Int) (payload : UserModify)
  | payInvoice (id : Nat) (invoice : Invoice) (providerName : Option String)
  | purchasePackage (live : Option Int) (adminId : AdminId) (packageId : Nat)
    (createdBy : Option AdminId)
  | billResellerUsage (now : Int) (adminId : AdminId) (dbadmin : Admin)

def DebitRequest.prog : DebitRequest → Action Unit
  | .addUser now username newUser => Billing.addUser now username newUser
  | .bulkUsersFromTemplate now username template names => do
    let _ ← Billing.bulkUsersFromTemplate now username template names
  | .modifyUser now caller id payload => Billing.modifyUser now caller id payload
  | .payInvoice id invoice providerName => Billing.payInvoice id invoice providerName
  | .purchasePackage live adminId packageId createdBy => do
    let _ ← Billing.purchasePackage live adminId packageId createdBy
  | .billResellerUsage now adminId dbadmin => do
    let _ ← Billing.billResellerUsage now adminId dbadmin

/-- A wallet that is read again without a lock, and was not written since, has not fallen below what
the session saw. -/
def stillCovered (a : AdminId) (s : Panel) : Act DebitRequest → Bool
  | .run i =>
    match s.sess.get? i with
    | some ⟨.read rs _, t⟩ =>
      match t.seen (.wallet a) with
      | some (some u) => .wallet a ∉ rs || (s.db.wallets.get? a).any fun v => u ≤ v
      | _ => true
    | _ => true
  | _ => true

theorem meetsAct_of_stillCovered {ids : String → Option AdminId} {s : Panel}
    {act : Act DebitRequest} (h : stillCovered a s act) :
    (overdraftContract a ids).MeetsAct s act := by
  cases act with
  | spawn i q => trivial
  | die i => trivial
  | run i =>
    intro t hi
    obtain ⟨p, t⟩ := t
    cases p with
    | read rs k =>
      rintro r hr rfl u hu
      dsimp only at hu
      simp only [stillCovered, hi, hu, hr, not_true_eq_false, decide_false, Bool.false_or,
        Option.any_eq_true, decide_eq_true_eq] at h
      exact h
    | _ => trivial

theorem overdraft_prog (a : AdminId) (ids : String → Option AdminId) (q : DebitRequest) :
    (overdraftContract a ids).wp store q.prog {} fun _ _ => True := by
  cases q with
  | addUser now username newUser =>
    exact (overdraft_addUser now username newUser).wp idle_new fun _ _ _ => trivial
  | bulkUsersFromTemplate now username template names =>
    exact ((overdraft_bulkUsersFromTemplate now username template names).bind fun _ =>
      preserves_pure _).wp idle_new fun _ _ _ => trivial
  | modifyUser now caller id payload =>
    exact (overdraft_modifyUser now caller id payload).wp idle_new fun _ _ _ => trivial
  | payInvoice id invoice providerName =>
    exact (idle_payInvoice a ids id invoice providerName).wp idle_new fun _ _ _ => trivial
  | purchasePackage live adminId packageId createdBy =>
    refine wp_bind.mpr (wp_mono ?_
      (overdraft_purchasePackage a ids live adminId packageId createdBy idle_new))
    rintro (e | x) t _ <;> trivial
  | billResellerUsage now adminId dbadmin =>
    exact ((idle_billResellerUsage a ids now adminId dbadmin).bind fun _ =>
      preserves_pure _).wp idle_new fun _ _ _ => trivial

/-- **No overdraft** if no balance fell between its check and its debit. -/
theorem balance_nonneg (a : AdminId) (s₀ : Panel) (hsess : s₀.sess = .empty)
    (hdb : 0 ≤ s₀.db.balance a) (s : Panel)
    (hrun : Run (Sys.step store DebitRequest.prog) (fun s act => stillCovered a s act) s₀ s) :
    0 ≤ s.db.balance a :=
  (inv_of_run (C := overdraftContract a s₀.db.adminIdOf) (overdraft_prog a _)
    ⟨hdb, rfl⟩ hsess (hrun.mono fun _ _ => meetsAct_of_stillCovered)).1

def twoAccounts : Panel where
  db :=
    { admins := Dict.empty.set 1 { username := "reseller" }
      wallets := Dict.empty.set 1 100
      users := (Dict.empty.set 1 { username := "alice", adminId := some 1 }).set 2
        { username := "bob", adminId := some 1 }
      tariffs := [{ id := 1, name := "monthly", price := 100, durationDays := some 30 }] }
  next := 1
  log := []
  sess := .empty

def extend (userId : Int) : DebitRequest :=
  .modifyUser 0 { username := "reseller", isSudo := false, canRead := true, canWrite := true }
    userId { expire := some (some (30 * 86400)) }

/-- **Overdraft** by two extensions that both saw the balance of 100. -/
theorem concurrent_extensions_overdraw :
    ∃ s, Run (Sys.step store DebitRequest.prog) (fun _ _ => True) twoAccounts s ∧
      (s.sess.entries.all fun e => e.2.prog.finished) = true ∧ s.db.balance 1 = -100 := by
  refine ⟨_, Run.of_execGuarded
    ([.spawn 0 (extend 1), .spawn 1 (extend 2)] ++ List.replicate 5 (.run 0) ++
      List.replicate 5 (.run 1) ++ List.replicate 12 (.run 0) ++ List.replicate 12 (.run 1)) rfl, ?_⟩
  decide

theorem consecutive_extensions_covered :
    ∃ s : Panel, s.db.balance 1 = 0 ∧ 0 ≤ s.db.balance 1 := by
  refine ⟨_, ?_, balance_nonneg 1 twoAccounts rfl (by decide) _ (Run.of_execGuarded
    ([.spawn 0 (extend 1), .spawn 1 (extend 2)] ++ List.replicate 17 (.run 0) ++
      List.replicate 5 (.run 1)) rfl)⟩
  decide

end Shahkar.Billing
