import Shahkar.Billing.Routes

/-!
# The wallet equals its ledger

Every movement of money inserts a transaction and writes a balance computed from the one the session
had read. The two stay in step if that is still the committed one, which only a session that holds
the lock of the wallet row knows.
-/

namespace Shahkar.Billing

open Shahkar.Db Shahkar.Lib

/-!
### Writes and ledgers
-/

def Spares (a : AdminId) : Write → Prop
  | .updateWallet b _ _ => b ≠ a
  | .insertTransaction tx => tx.adminId ≠ a
  | _ => True

def Balanced (a : AdminId) (d : Database) : Prop := d.balance a = d.ledger a

variable {d d' : Database} {a : AdminId} {loaded : Int} {ws : List Write}
  {before after : List Write}

theorem Spares.apply {w : Write} (hw : Spares a w) (h : w.apply d = some d') :
    d'.balance a = d.balance a ∧ d'.ledger a = d.ledger a ∧
      ∀ v, d.wallets.get? a = some v → d'.wallets.get? a = some v := by
  cases w with
  | insertWallet b =>
    obtain ⟨hfree, rfl⟩ := eq_of_ite_none h
    have habsent := Option.not_isSome_iff_eq_none.mp hfree
    by_cases hb : a = b
    · subst hb
      simp [Database.balance, Database.ledger, Dict.get?_set, habsent]
    · simp [Database.balance, Database.ledger, Dict.get?_set, hb]
  | updateWallet b loaded assigned =>
    obtain rfl := Option.some.inj h
    have hne : a ≠ b := Ne.symm hw
    simp [Database.balance, Database.ledger, Dict.get?_modify, hne]
  | insertTransaction tx =>
    obtain rfl := Option.some.inj h
    have hne : tx.adminId ≠ a := hw
    simp [Database.balance, Database.ledger, posted_cons, hne]
  | insertCheckpoint _ _ | insertUser _ _ =>
    obtain ⟨-, rfl⟩ := eq_of_ite_none h
    exact ⟨rfl, rfl, fun _ => id⟩
  | _ =>
    obtain rfl := Option.some.inj h
    exact ⟨rfl, rfl, fun _ => id⟩

theorem spares_applyAll (hws : ∀ w ∈ ws, Spares a w) (h : store.applyAll ws d = some d') :
    d'.balance a = d.balance a ∧ d'.ledger a = d.ledger a ∧
      ∀ v, d.wallets.get? a = some v → d'.wallets.get? a = some v := by
  refine store.applyAll_induction (P := fun d₁ => d₁.balance a = d.balance a ∧
    d₁.ledger a = d.ledger a ∧ ∀ v, d.wallets.get? a = some v → d₁.wallets.get? a = some v)
    ?_ h ⟨rfl, rfl, fun _ => id⟩
  rintro w hw d₁ d₂ happly ⟨hbalance, hledger, hget⟩
  obtain ⟨hbalance', hledger', hget'⟩ := (hws w hw).apply happly
  exact ⟨hbalance'.trans hbalance, hledger'.trans hledger, fun v hv => hget' v (hget v hv)⟩

theorem balanced_of_spares (hws : ∀ w ∈ ws, Spares a w) (h : store.applyAll ws d = some d')
    (hd : Balanced a d) :
    Balanced a d' := by
  obtain ⟨hbalance, hledger, -⟩ := spares_applyAll hws h
  rw [Balanced, hbalance, hledger]
  exact hd

def posting (tx : Transaction) (loaded : Int) (d : Database) : Database :=
  { d with
    transactions := d.transactions ++ [tx]
    wallets := d.wallets.modify tx.adminId (written loaded (loaded + tx.amount)) }

theorem ledger_posting (tx : Transaction) (loaded : Int) (d : Database) :
    (posting tx loaded d).ledger tx.adminId = d.ledger tx.adminId + tx.amount := by
  simp [posting, Database.ledger, posted_cons]

theorem balance_posting {tx : Transaction} {d : Database}
    (h : tx.amount = 0 ∨ d.wallets.get? tx.adminId = some loaded) :
    (posting tx loaded d).balance tx.adminId = d.balance tx.adminId + tx.amount := by
  simp only [posting, Database.balance, Dict.get?_modify, if_true]
  rcases h with hzero | hget
  · -- no column differs, so none is written
    cases d.wallets.get? tx.adminId with
    | none => simp [hzero]
    | some balance => simp [written, hzero]
  · simp only [hget, Option.map_some, Option.getD_some, written]
    split_ifs <;> omega

theorem applyAll_posting (tx : Transaction) (loaded : Int) (after : List Write) (d : Database) :
    store.applyAll (.insertTransaction tx ::
      .updateWallet tx.adminId loaded (loaded + tx.amount) :: after) d =
      store.applyAll after (posting tx loaded d) := rfl

theorem posting_applyAll (tx : Transaction) (hbefore : ∀ w ∈ before, Spares tx.adminId w)
    (hafter : ∀ w ∈ after, Spares tx.adminId w)
    (hfresh : tx.amount = 0 ∨ d.wallets.get? tx.adminId = some loaded)
    (h : store.applyAll (before ++ .insertTransaction tx ::
      .updateWallet tx.adminId loaded (loaded + tx.amount) :: after) d = some d') :
    d'.balance tx.adminId = d.balance tx.adminId + tx.amount ∧
      d'.ledger tx.adminId = d.ledger tx.adminId + tx.amount := by
  rw [Store.applyAll_append] at h
  obtain ⟨d₁, h₁, h₂⟩ := Option.bind_eq_some_iff.mp h
  rw [applyAll_posting] at h₂
  obtain ⟨hbalance₁, hledger₁, hget₁⟩ := spares_applyAll hbefore h₁
  obtain ⟨hbalance₂, hledger₂, -⟩ := spares_applyAll hafter h₂
  rw [hbalance₂, hledger₂, balance_posting (hfresh.imp_right (hget₁ loaded)), ledger_posting,
    hbalance₁, hledger₁]
  exact ⟨rfl, rfl⟩

theorem balanced_posting (tx : Transaction) (hbefore : ∀ w ∈ before, Spares tx.adminId w)
    (hafter : ∀ w ∈ after, Spares tx.adminId w) (hd : Balanced tx.adminId d)
    (hfresh : tx.amount = 0 ∨ d.wallets.get? tx.adminId = some loaded)
    (h : store.applyAll (before ++ .insertTransaction tx ::
      .updateWallet tx.adminId loaded (loaded + tx.amount) :: after) d = some d') :
    Balanced tx.adminId d' := by
  obtain ⟨hbalance, hledger⟩ := posting_applyAll tx hbefore hafter hfresh h
  rw [Balanced, hbalance, hledger, hd]

def ledgerContract (a : AdminId) : Contract Database Row (Option Int) Write where
  inv := Balanced a
  okRead _ _ _ := True
  okCommit t d := .wallet a ∈ t.held ∨ ∀ loaded assigned,
    .updateWallet a loaded assigned ∈ t.pend → loaded = assigned ∨ d.wallets.get? a = some loaded

structure Calm (a : AdminId) (t : Trans Row (Option Int) Write) : Prop where
  pend : ∀ w ∈ t.pend, Spares a w
  held : .wallet a ∉ t.held

section Contract

variable {a : AdminId} {t : Trans Row (Option Int) Write}

theorem calm_new : Calm a {} := ⟨by simp, by simp⟩

theorem calm_committed : Calm a (t.committed store) := ⟨by simp, by simp [Trans.committed]⟩

theorem calm_rolledBack : Calm a t.rolledBack := ⟨by simp, by simp [Trans.rolledBack]⟩

theorem Calm.push {w : Write} (h : Calm a t) (hw : Spares a w) : Calm a (t.push w) := by
  refine ⟨fun w' hw' => ?_, h.held⟩
  rcases List.mem_append.mp hw' with hw' | hw'
  · exact h.pend w' hw'
  · exact List.mem_singleton.mp hw' ▸ hw

theorem ledgerContract_quiet : (ledgerContract a).Quiet store (Spares a) fun _ => True :=
  ⟨fun hw h hd => ((Spares.apply hw h).1.trans hd).trans (Spares.apply hw h).2.1.symm,
    fun _ _ => trivial⟩

theorem preserves_of_confined {α : Type} {p : Action α}
    (hp : p.Confined (Spares a) (fun _ => True) (· ≠ .wallet a)) :
    (ledgerContract a).Preserves store (Calm a) p := by
  intro t ht
  refine Contract.wp_mono ?_ (Contract.wp_of_confined ledgerContract_quiet hp ht.pend)
  rintro x t' ⟨hpend, -, hheld⟩
  exact ⟨hpend, fun hmem => ht.held (hheld _ (by simp) hmem)⟩

theorem Routine.spares {w : Write} (h : Routine w) : Spares a w := by
  cases w <;> trivial

theorem ledgerRules :
    BillingRules fun _ p => (ledgerContract a).Preserves store (Calm a) p where
  toCompositional := Contract.compositional_preserves
  emit hw _ ht := ht.push hw.spares
  commit := preserves_of_confined confined_commit
  wallet _ _ := preserves_of_confined (confined_getOrCreateWallet trivial trivial)
  checkpoint _ _ := preserves_of_confined (confined_getOrCreateCheckpoint fun _ => trivial)

end Contract

section Writers

variable (a : AdminId)

theorem preserves_postTransaction (live : Option Int) (b : AdminId) (amount : Int)
    (type : TransactionType) (reference : Option String) :
    (ledgerContract a).Preserves store (Calm a)
      (postTransaction live b amount type reference) := by
  refine (ledgerRules.wallet live b).bind fun balance t ht => ?_
  simp only [Contract.wp_bind, Contract.wp_freshKey, Contract.andThen_ok, Contract.wp_emit]
  intro n
  refine Contract.wp_commitOr ?_ calm_committed calm_rolledBack
  intro d d' hd _ hok happly
  simp only [Trans.push_pend, List.append_assoc, List.cons_append, List.nil_append] at happly
  by_cases hb : b = a
  · subst hb
    refine balanced_posting { id := n, adminId := b, amount, type, reference }
      ht.pend (by simp) hd ?_ happly
    -- the wallet is not locked, so the contract vouches for the balance
    have hfresh := hok.resolve_left ht.held balance (balance + amount) (by simp)
    exact hfresh.imp_left fun h => by dsimp only; omega
  · refine balanced_of_spares (fun w hw => ?_) happly hd
    simp only [List.mem_append, List.mem_cons, List.not_mem_nil, or_false] at hw
    rcases hw with hw | rfl | rfl
    · exact ht.pend w hw
    · exact hb
    · exact hb

theorem preserves_addTransaction (live : Option Int) (b : AdminId) (amount : Int)
    (type : TransactionType) (reference : Option String) (skipCommission : Bool) :
    (ledgerContract a).Preserves store (Calm a)
      (addTransaction live b amount type reference skipCommission) :=
  holds_addTransaction Contract.compositional_preserves
    (fun _ _ _ _ => preserves_postTransaction a _ _ _ _ _)
    (preserves_postTransaction a _ _ _ _ _) skipCommission

theorem preserves_payInvoice (id : Nat) (invoice : Invoice) (providerName : Option String) :
    (ledgerContract a).Preserves store (Calm a) (payInvoice id invoice providerName) := by
  have hrules := ledgerRules (a := a)
  refine hrules.ite (hrules.pure _) (hrules.ite (hrules.raise _) (hrules.bind (hrules.wallet _ _)
    fun balance => hrules.ite (hrules.raise _) (hrules.bind ?_ fun _ => hrules.bind
      (preserves_addTransaction a _ _ _ _ _ _) fun _ => hrules.pure _)))
  exact fun _ ht => ht.push trivial

theorem preserves_billResellerUsage (now : Int) (b : AdminId) (dbadmin : Admin) :
    (ledgerContract a).Preserves store (Calm a) (billResellerUsage now b dbadmin) :=
  ledgerRules.billResellerUsage (fun _ _ _ _ _ _ => preserves_postTransaction a _ _ _ _ _)
    now b dbadmin

theorem preserves_adjustWallet (now : Int) (isSudo : Bool) (username : String)
    (mode : AdjustMode) (amount : Int) :
    (ledgerContract a).Preserves store (Calm a)
      (adjustWallet now isSudo username mode amount) := by
  have hrules := ledgerRules (a := a)
  refine hrules.ite (hrules.raise _) (hrules.bind (hrules.query _) fun enabled =>
    hrules.ite (hrules.raise _) ?_)
  split
  · exact hrules.raise _
  refine hrules.bind (hrules.query _) fun found => ?_
  split
  · exact hrules.raise _
  refine hrules.ite (hrules.raise _) (hrules.bind (hrules.wallet _ _) fun balance => ?_)
  split
  · exact hrules.raise _
  · exact hrules.pure _
  · exact hrules.bind (preserves_addTransaction a _ _ _ _ _ _) fun _ =>
      hrules.bind (hrules.afterWalletTopup_of_billResellerUsage
        (preserves_billResellerUsage a _ _)) fun _ => hrules.wallet _ _

variable {t : Trans Row (Option Int) Write}

theorem ledgerContract_purchaseWrites (b : AdminId) {tx : Transaction} {balance prepaid bytes : Int}
    {purchase : ResellerTrafficPurchase} {d d' : Database} (ht : Calm a t) (htx : tx.adminId = b)
    (hd : Balanced a d) (hbalance : d.wallets.get? b = some balance)
    (h : store.applyAll (t.pend ++ purchaseWrites tx balance prepaid bytes purchase) d = some d') :
    Balanced a d' := by
  subst htx
  unfold purchaseWrites at h
  by_cases hpost : tx.amount < 0 ∧ tx.adminId = a
  · obtain ⟨hneg, rfl⟩ := hpost
    rw [if_pos hneg] at h
    refine balanced_posting tx ht.pend ?_ hd (.inr hbalance) h
    simp [Spares]
  · refine balanced_of_spares (fun w hw => ?_) h hd
    rcases List.mem_append.mp hw with hw | hw
    · exact ht.pend w hw
    · split_ifs at hw with hneg
      · have hne : tx.adminId ≠ a := fun h => hpost ⟨hneg, h⟩
        simp only [List.cons_append, List.nil_append, List.mem_cons, List.not_mem_nil,
          or_false] at hw
        rcases hw with rfl | rfl | rfl | rfl
        exacts [hne, hne, trivial, trivial]
      · simp only [List.nil_append, List.mem_cons, List.not_mem_nil, or_false] at hw
        rcases hw with rfl | rfl <;> trivial

theorem ledger_purchasePackage (live : Option Int) (b : AdminId) (packageId : Nat)
    (createdBy : Option AdminId) (ht : Calm a t) :
    (ledgerContract a).wp store (purchasePackage live b packageId createdBy) t
      fun _ _ => True :=
  wp_purchasePackage (ledgerRules.wallet none b)
    (holds_creditParentCommission Contract.compositional_preserves
      (fun _ _ _ _ => preserves_postTransaction a _ _ _ _ _) b) (fun _ => calm_committed)
    (fun _ _ _ _ _ _ _ _ ht htx _ hd hbalance h =>
      ledgerContract_purchaseWrites a b ht htx hd hbalance h) live packageId createdBy ht

end Writers

inductive WalletRequest
  | addTransaction (adminId : AdminId) (amount : Int) (type : TransactionType)
    (reference : Option String) (skipCommission : Bool)
  | purchasePackage (live : Option Int) (adminId : AdminId) (packageId : Nat)
    (createdBy : Option AdminId)
  | payInvoice (id : Nat) (invoice : Invoice) (providerName : Option String)
  | adjustWallet (now : Int) (isSudo : Bool) (username : String) (mode : AdjustMode) (amount : Int)
  | billResellerUsage (now : Int) (adminId : AdminId) (dbadmin : Admin)

def WalletRequest.prog : WalletRequest → Action Unit
  | .addTransaction adminId amount type reference skipCommission => do
    let _ ← Billing.addTransaction none adminId amount type reference skipCommission
  | .purchasePackage live adminId packageId createdBy => do
    let _ ← Billing.purchasePackage live adminId packageId createdBy
  | .payInvoice id invoice providerName => Billing.payInvoice id invoice providerName
  | .adjustWallet now isSudo username mode amount => do
    let _ ← Billing.adjustWallet now isSudo username mode amount
  | .billResellerUsage now adminId dbadmin => do
    let _ ← Billing.billResellerUsage now adminId dbadmin

/-- An update of the wallet is committed under the lock, or finds the balance the session had
loaded, or assigns that balance. -/
def upToDate (a : AdminId) (s : Panel) : Act WalletRequest → Bool
  | .run i =>
    match s.sess.get? i with
    | some ⟨.commit _ _, t⟩ => .wallet a ∈ t.held || t.pend.all fun w =>
      match w with
      | .updateWallet b loaded assigned =>
        b ≠ a || loaded = assigned || s.db.wallets.get? a = some loaded
      | _ => true
    | _ => true
  | _ => true

theorem meetsAct_of_upToDate {s : Panel} {act : Act WalletRequest}
    (h : upToDate a s act) : (ledgerContract a).MeetsAct s act := by
  cases act with
  | spawn i q => trivial
  | die i => trivial
  | run i =>
    intro t hi
    obtain ⟨p, t⟩ := t
    cases p with
    | commit failed k =>
      simp only [upToDate, hi, Bool.or_eq_true, decide_eq_true_eq, List.all_eq_true] at h
      refine h.imp_right fun h loaded assigned hmem => ?_
      simpa using h _ hmem
    | _ => simp [Contract.Meets, ledgerContract]

theorem ledger_prog (a : AdminId) (q : WalletRequest) :
    (ledgerContract a).wp store q.prog {} fun _ _ => True := by
  cases q with
  | addTransaction adminId amount type reference skipCommission =>
    exact ((preserves_addTransaction a _ _ _ _ _ _).bind fun _ => Contract.preserves_pure _).wp
      calm_new fun _ _ _ => trivial
  | purchasePackage live adminId packageId createdBy =>
    refine Contract.wp_bind.mpr (Contract.wp_mono ?_ (ledger_purchasePackage a _ _ _ _ calm_new))
    rintro (e | x) t _ <;> trivial
  | payInvoice id invoice providerName =>
    exact (preserves_payInvoice a _ _ _).wp calm_new fun _ _ _ => trivial
  | adjustWallet now isSudo username mode amount =>
    exact ((preserves_adjustWallet a _ _ _ _ _).bind fun _ => Contract.preserves_pure _).wp
      calm_new fun _ _ _ => trivial
  | billResellerUsage now adminId dbadmin =>
    exact ((preserves_billResellerUsage a _ _ _).bind fun _ => Contract.preserves_pure _).wp
      calm_new fun _ _ _ => trivial

/-- **The wallet equals its ledger** if no session commits an outdated balance without the lock. -/
theorem balance_eq_ledger (a : AdminId) (s₀ : Panel) (hsess : s₀.sess = .empty)
    (hdb : s₀.db.balance a = s₀.db.ledger a) (s : Panel)
    (hrun : Run (Sys.step store WalletRequest.prog) (fun s act => upToDate a s act) s₀ s) :
    s.db.balance a = s.db.ledger a :=
  Contract.inv_of_run (C := ledgerContract a) (ledger_prog a) hdb hsess
    (hrun.mono fun _ _ => meetsAct_of_upToDate)

def emptyWallet : Panel :=
  { db := { wallets := Dict.empty.set 1 0 }, next := 1, log := [], sess := .empty }

def postRun (i : Nat) : List (Act WalletRequest) := List.replicate 5 (.run i)

/-- **Lost update** of two credits that read the wallet before either commits. -/
theorem concurrent_credits_lose_one :
    ∃ s, Run (Sys.step store WalletRequest.prog) (fun _ _ => True) emptyWallet s ∧
      (s.sess.entries.all fun e => e.2.prog.finished) = true ∧
      s.db.balance 1 = 70 ∧ s.db.ledger 1 = 120 := by
  refine ⟨_, Run.of_execGuarded
    ([.spawn 0 (.addTransaction 1 50 .credit none true),
      .spawn 1 (.addTransaction 1 70 .credit none true), .run 1] ++ postRun 0 ++
      List.replicate 4 (.run 1)) rfl, ?_⟩
  decide

theorem consecutive_credits_add_up :
    ∃ s : Panel, s.db.balance 1 = 120 ∧ s.db.balance 1 = s.db.ledger 1 := by
  refine ⟨_, ?_, balance_eq_ledger 1 emptyWallet rfl (by decide) _ (Run.of_execGuarded
    ([.spawn 0 (.addTransaction 1 50 .credit none true),
      .spawn 1 (.addTransaction 1 70 .credit none true)] ++ postRun 0 ++ postRun 1) rfl)⟩
  decide

end Shahkar.Billing
