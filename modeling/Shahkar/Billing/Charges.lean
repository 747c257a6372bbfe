import Shahkar.Billing.ResellerTariffs

/-!
# What a lone request charges

A request that is alone with the database and has nothing buffered cannot fail to create a wallet,
to post a transaction or to charge a tariff; what these change, and what the debits of an admin add
up to.
-/

namespace Shahkar.Billing

open Shahkar.Db Shahkar.Lib
open Prog hiding commit

/-!
### Debits
-/

def entries (d : Database) : List (AdminId × Int) :=
  d.transactions.map fun tx => (tx.adminId, tx.amount)

def owed (a : AdminId) (posts : List (AdminId × Int)) : Int :=
  (posts.map fun e => if e.1 = a then max 0 (-e.2) else 0).sum

def debited (a : AdminId) (d : Database) : Int := owed a (entries d)

@[simp] theorem owed_nil (a : AdminId) : owed a [] = 0 := rfl

@[simp] theorem owed_append (a : AdminId) (l₁ l₂ : List (AdminId × Int)) :
    owed a (l₁ ++ l₂) = owed a l₁ + owed a l₂ := by
  simp [owed]

def MoneyOnly (d d' : Database) : Prop :=
  d' = { d with wallets := d'.wallets, transactions := d'.transactions }

theorem MoneyOnly.trans {d₁ d₂ d₃ : Database} (h₁ : MoneyOnly d₁ d₂) (h₂ : MoneyOnly d₂ d₃) :
    MoneyOnly d₁ d₃ := by
  unfold MoneyOnly at *
  rw [h₂, h₁]

structure Charged (posts : List (AdminId × Int)) (s s' : Exec Database Write) : Prop where
  money : MoneyOnly s.db s'.db
  entries : entries s'.db = entries s.db ++ posts
  balance : ∀ a, s'.db.balance a = s.db.balance a + posted a posts
  pend : s'.pend = []

namespace Charged

variable {posts posts' : List (AdminId × Int)} {s s₁ s' : Exec Database Write}

theorem refl (h : s.pend = []) : Charged [] s s := ⟨rfl, by simp, by simp, h⟩

theorem trans (h₁ : Charged posts s s₁) (h₂ : Charged posts' s₁ s') :
    Charged (posts ++ posts') s s' :=
  ⟨h₁.money.trans h₂.money, by simp [h₂.entries, h₁.entries],
    fun a => by simp [h₂.balance, h₁.balance, add_assoc], h₂.pend⟩

theorem debited (h : Charged posts s s') (a : AdminId) :
    debited a s'.db = debited a s.db + owed a posts := by
  rw [Billing.debited, h.entries, owed_append, Billing.debited]

end Charged

/-!
### Postings
-/

section Wallet

variable {s : Exec Database Write} {a : AdminId}

theorem charged_getOrCreateWallet (hpend : s.pend = []) :
    (getOrCreateWallet none a).alone store (fun _ _ => True) s fun x s' =>
      x = .ok (s.db.balance a) ∧ s'.db.wallets.get? a = some (s.db.balance a) ∧
        Charged [] s s' := by
  unfold getOrCreateWallet
  simp only [alone_bind, alone_fetch, aloneThen_ok]
  cases hget : s.db.wallets.get? a with
  | some balance =>
    have hbalance : s.db.balance a = balance := by simp [Database.balance, hget]
    rw [hbalance]
    exact ⟨rfl, hget, .refl hpend⟩
  | none =>
    have hbalance : s.db.balance a = 0 := by simp [Database.balance, hget]
    have happly : store.applyAll (s.push (.insertWallet a)).pend s.db =
        some { s.db with wallets := s.db.wallets.set a 0 } := by
      simp [hpend, Write.apply, hget]
    simp only [alone_bind, alone_emit, aloneThen_ok]
    refine (alone_commitOr_of_some happly).mpr ⟨trivial, ?_, ?_, rfl, ?_, fun b => ?_, rfl⟩
    · simp [Database.balance, Dict.get?_set, hget]
    · simp [Dict.get?_set, hbalance]
    · simp [entries]
    · by_cases hb : b = a
      · simp [Database.balance, Dict.get?_set, hb, hget]
      · simp [Database.balance, Dict.get?_set, hb]

variable {reference : Option String} {debitAmount : Int}

theorem charged_postTransaction {amount : Int} {type : TransactionType} (hpend : s.pend = []) :
    (postTransaction none a amount type reference).alone store (fun _ _ => True) s fun x s' =>
      x.isOk ∧ Charged [(a, amount)] s s' := by
  refine alone_then (charged_getOrCreateWallet (a := a) hpend) ?_
  rintro x s₁ ⟨rfl, hwallet, hcharged⟩
  simp only [aloneThen_ok, alone_bind, alone_freshKey, alone_emit]
  generalize htx : ({ id := s₁.next, .. } : Transaction) = tx
  have happly : store.applyAll ((s₁.advanced.push (.insertTransaction tx)).push
      (.updateWallet a (s.db.balance a) (s.db.balance a + amount))).pend s₁.db =
      some { s₁.db with
        transactions := s₁.db.transactions ++ [tx]
        wallets := s₁.db.wallets.modify a (written (s.db.balance a) (s.db.balance a + amount)) } := by
    simp [hcharged.pend, Write.apply]
  refine (alone_commitOr_of_some happly).mpr ⟨trivial, rfl, ?_⟩
  refine hcharged.trans ⟨rfl, ?_, fun b => ?_, rfl⟩
  · simp [entries, ← htx]
  · by_cases hb : b = a
    · subst hb
      simp [Database.balance, Dict.get?_modify, hwallet, posted_cons]
    · simp [Database.balance, Dict.get?_modify, hb, posted_cons, Ne.symm hb]

def parentPosts (d : Database) (child : Admin) (parent : AdminId) (debitAmount : Int) :
    List (AdminId × Int) :=
  let pct := if child.commissionPercent ≤ 0 then d.settings.defaultCommissionPercent
    else child.commissionPercent
  let commission := debitAmount.natAbs * pct / 100
  if pct ≤ 0 ∨ commission ≤ 0 then [] else [(parent, commission)]

def commissionPosts (d : Database) (a : AdminId) (debitAmount : Int) : List (AdminId × Int) :=
  if 0 ≤ debitAmount then []
  else
    match d.admins.get? a, (d.admins.get? a).bind Admin.parentAdminId with
    | some child, some parent => parentPosts d child parent debitAmount
    | _, _ => []

theorem owed_parentPosts (d : Database) (child : Admin) (parent b : AdminId)
    (debitAmount : Int) : owed b (parentPosts d child parent debitAmount) = 0 := by
  unfold parentPosts
  generalize (if child.commissionPercent ≤ 0 then _ else child.commissionPercent) = pct
  dsimp only
  split
  · rfl
  · simp only [owed, List.map_cons, List.map_nil, List.sum_cons, List.sum_nil]
    split <;> omega

@[simp] theorem owed_commissionPosts (d : Database) (a b : AdminId) (debitAmount : Int) :
    owed b (commissionPosts d a debitAmount) = 0 := by
  unfold commissionPosts
  split
  · rfl
  split
  · exact owed_parentPosts ..
  · rfl

theorem charged_creditParentCommission {reference : String} (hpend : s.pend = []) :
    (creditParentCommission a debitAmount reference).alone store (fun _ _ => True) s fun x s' =>
      x.isOk ∧ Charged (commissionPosts s.db a debitAmount) s s' := by
  unfold creditParentCommission commissionPosts
  by_cases hdebit : 0 ≤ debitAmount
  · rw [if_pos hdebit, if_pos hdebit]
    exact ⟨rfl, .refl hpend⟩
  rw [if_neg hdebit, if_neg hdebit]
  simp only [alone_bind, alone_query, aloneThen_ok]
  cases hchild : s.db.admins.get? a with
  | none => exact ⟨rfl, .refl hpend⟩
  | some child =>
    cases hparent : (some child).bind Admin.parentAdminId with
    | none => exact ⟨rfl, .refl hpend⟩
    | some parent =>
      simp only [alone_bind, alone_query, aloneThen_ok, parentPosts]
      generalize (if child.commissionPercent ≤ 0 then _ else child.commissionPercent) = pct
      by_cases hnone : pct ≤ 0 ∨ debitAmount.natAbs * pct / 100 ≤ 0
      · rw [if_pos hnone, if_pos hnone]
        exact ⟨rfl, .refl hpend⟩
      · rw [if_neg hnone, if_neg hnone]
        refine alone_then (charged_postTransaction hpend) ?_
        intro x s' hpost
        obtain ⟨hok, hcharged⟩ := hpost
        cases x with
        | error e => cases hok
        | ok tx => exact ⟨rfl, hcharged⟩

theorem charged_addTransaction {amount : Int} {type : TransactionType}
    (hcommission : type ≠ .commission) (hinvoice : type ≠ .invoice) (hpend : s.pend = []) :
    (addTransaction none a amount type reference false).alone store (fun _ _ => True) s
      fun x s' => x.isOk ∧ Charged ((a, amount) :: commissionPosts s.db a amount) s s' := by
  refine alone_then (charged_postTransaction hpend) ?_
  intro x s₁ hpost
  obtain ⟨hok, hcharged⟩ := hpost
  have hsame : ∀ x, commissionPosts s₁.db a x = commissionPosts s.db a x := by
    intro x
    rw [hcharged.money]
    rfl
  cases x with
  | error e => cases hok
  | ok tx =>
    rw [aloneThen_ok]
    split
    · refine alone_then (charged_creditParentCommission (a := a) hcharged.pend) ?_
      intro x s' hpost
      obtain ⟨hok, hcharged'⟩ := hpost
      rw [hsame] at hcharged'
      cases x with
      | error e => cases hok
      | ok _ => exact ⟨rfl, hcharged.trans hcharged'⟩
    · next hcredit =>
        have hnone : commissionPosts s.db a amount = [] :=
          if_pos (by simpa [hcommission, hinvoice] using hcredit)
        rw [hnone]
        exact ⟨rfl, hcharged⟩

end Wallet

section Tariff

variable {s : Exec Database Write}

def verdict (d : Database) (need : ResellerPlanTariff → Int → Int → String) (count : Nat) :
    Except Error (Option (AdminId × ResellerPlanTariff × Int)) →
      Except Error (Option ResellerPlanTariff × Int)
  | .error refusal => .error refusal
  | .ok none => .ok (none, 0)
  | .ok (some (a, tariff, price)) =>
    if price ≤ 0 then .ok (some tariff, 0)
    else if d.balance a < price * count then
      .error (.resellerTariff (need tariff price (d.balance a)) 402)
    else .ok (some tariff, price)

variable {count : Nat} {price : Int} {d : Database}
  {need : ResellerPlanTariff → Int → Int → String}
  {quote : Except Error (Option (AdminId × ResellerPlanTariff × Int))}
  {tariff : Option ResellerPlanTariff} {admin : Option (AdminId × Admin)}

theorem verdict_eq_ok (h : verdict d need count quote = .ok (tariff, price)) :
    quote = .ok none ∧ tariff = none ∧ price = 0 ∨
      ∃ a t p, quote = .ok (some (a, t, p)) ∧ tariff = some t ∧ price = max 0 p ∧
        (0 < p → p * count ≤ d.balance a) := by
  match quote with
  | .error refusal => cases h
  | .ok none =>
    simp only [verdict, Except.ok.injEq, Prod.mk.injEq] at h
    exact .inl ⟨rfl, h.1.symm, h.2.symm⟩
  | .ok (some (a, t, p)) =>
    refine .inr ⟨a, t, p, rfl, ?_⟩
    simp only [verdict] at h
    split_ifs at h with hfree hlow
    · simp only [Except.ok.injEq, Prod.mk.injEq] at h
      exact ⟨h.1.symm, by omega, by omega⟩
    · simp only [Except.ok.injEq, Prod.mk.injEq] at h
      exact ⟨h.1.symm, by omega, fun _ => not_lt.mp hlow⟩

theorem verdict_price_nonneg
    (h : verdict d need count quote = .ok (tariff, price)) : 0 ≤ price := by
  rcases verdict_eq_ok h with ⟨-, -, rfl⟩ | ⟨a, t, p, -, -, rfl, -⟩
  · exact le_refl 0
  · exact le_max_left ..

theorem charged_checkWallet {a : AdminId} {tariff : ResellerPlanTariff}
    (need : ResellerPlanTariff → Int → Int → String) (hpend : s.pend = []) :
    (checkWallet a tariff price (need tariff price) count).alone store (fun _ _ => True) s
      fun x s' => x = verdict s.db need count (.ok (some (a, tariff, price))) ∧
        Charged [] s s' := by
  unfold checkWallet
  simp only [verdict]
  split
  · exact ⟨rfl, .refl hpend⟩
  refine alone_then (charged_getOrCreateWallet (a := a) hpend) ?_
  rintro x s₁ ⟨rfl, -, hcharged⟩
  rw [aloneThen_ok]
  split
  · exact ⟨rfl, hcharged⟩
  · exact ⟨rfl, hcharged⟩

def createNeed (count : Nat) (tariff : ResellerPlanTariff) (price balance : Int) : String :=
  s!"Insufficient wallet balance — need {price * count} for {count}× «{tariff.name}», " ++
    s!"have {balance}"

theorem charged_prepareResellerTariffCharge {dataLimit durationDays : Option Int}
    (hcount : 1 ≤ count) (hpend : s.pend = []) :
    (prepareResellerTariffCharge admin dataLimit durationDays count).alone store
      (fun _ _ => True) s fun x s' => Charged [] s s' ∧
        x = verdict s.db (createNeed count) count
          (tariffQuote s.db admin dataLimit durationDays) := by
  unfold prepareResellerTariffCharge
  rw [if_neg (not_lt.mpr hcount), alone_query_bind]
  match tariffQuote s.db admin dataLimit durationDays with
  | .error refusal => exact ⟨.refl hpend, rfl⟩
  | .ok none => exact ⟨.refl hpend, rfl⟩
  | .ok (some (a, tariff, price)) =>
    exact alone_mono (fun _ _ h => ⟨h.2, h.1⟩)
      (charged_checkWallet (createNeed count) hpend)

def modifyNeed (tariff : ResellerPlanTariff) (price balance : Int) : String :=
  s!"Insufficient wallet balance — need {price} for «{tariff.name}», have {balance}"

theorem charged_prepareResellerModifyCharge {now : Int} {dbuser : User}
    {nextDataLimit nextExpire : Option Int} (hpend : s.pend = []) :
    (prepareResellerModifyCharge now admin dbuser nextDataLimit nextExpire).alone store
      (fun _ _ => True) s fun x s' => Charged [] s s' ∧
        x = verdict s.db modifyNeed 1
          (modifyQuote s.db now admin dbuser nextDataLimit nextExpire) := by
  unfold prepareResellerModifyCharge
  rw [alone_query_bind]
  match modifyQuote s.db now admin dbuser nextDataLimit nextExpire with
  | .error refusal => exact ⟨.refl hpend, rfl⟩
  | .ok none => exact ⟨.refl hpend, rfl⟩
  | .ok (some (a, tariff, price)) =>
    exact alone_mono (fun _ _ h => ⟨h.2, h.1⟩) (charged_checkWallet modifyNeed hpend)

def salePosts (d : Database) (a : AdminId) (total : Int) : List (AdminId × Int) :=
  if total ≤ 0 then [] else (a, -total) :: commissionPosts d a (-total)

theorem owed_salePosts (d : Database) (a b : AdminId) {total : Int} (h : 0 ≤ total) :
    owed b (salePosts d a total) = if a = b then total else 0 := by
  unfold salePosts
  split
  · simp [show total = 0 by omega]
  · rw [← List.singleton_append, owed_append, owed_commissionPosts, add_zero]
    simp [owed, h]

theorem salePosts_congr {d d' : Database} (hadmins : d'.admins = d.admins)
    (hsettings : d'.settings = d.settings) (a : AdminId) (total : Int) :
    salePosts d' a total = salePosts d a total := by
  simp only [salePosts, commissionPosts, parentPosts, hadmins, hsettings]

theorem charged_chargeResellerTariff {a : AdminId} {admin : Admin} {tariff : ResellerPlanTariff}
    {unitPrice : Int} {usernames : List String} {event : TariffEvent}
    (hsudo : admin.isSudo = false) (hpend : s.pend = []) :
    (chargeResellerTariff a admin tariff unitPrice usernames event).alone store
      (fun _ _ => True) s fun x s' => x.isOk ∧
        Charged (salePosts s.db a (unitPrice * usernames.length)) s s' := by
  unfold chargeResellerTariff salePosts
  cases usernames with
  | nil =>
    rw [if_pos (by simp)]
    exact ⟨rfl, .refl hpend⟩
  | cons first rest =>
    have hlength : (0 : Int) < (first :: rest).length := by simp
    simp only [hsudo, Bool.false_eq_true, or_false]
    split
    · next hfree =>
        rw [if_pos (Int.mul_nonpos_of_nonpos_of_nonneg hfree hlength.le)]
        exact ⟨rfl, .refl hpend⟩
    · next hprice =>
        rw [if_neg (not_le.mpr (mul_pos (not_le.mp hprice) hlength))]
        refine alone_then (charged_addTransaction (by decide) (by decide) hpend) ?_
        intro x s' hpost
        obtain ⟨hok, hcharged⟩ := hpost
        cases x with
        | error e => cases hok
        | ok tx => exact ⟨rfl, hcharged⟩

end Tariff

end Shahkar.Billing
