import Shahkar.Billing.Effects
import Shahkar.Billing.Sales

/-!
# When a failed completion leaves something behind

A completion that is refused before its first commit leaves nothing. A renewal and a purchase may be
refused once more at the end, when the wholesale tariff is debited: by then the order, the plan or
the new account is committed.
-/

namespace Shahkar.Billing

open Shahkar.Db Shahkar.Lib Shahkar.Portal
open Prog hiding commit

/-!
### The condition
-/

def chargeRefused (d : Database) (adminId : Option AdminId) (plan : Plan) : Bool :=
  match adminId.bind fun a => (d.admins.get? a).map fun r => (a, r) with
  | none => false
  | some (a, r) => !r.isSudo &&
    match tariffQuote d (some (a, r)) plan.dataLimit plan.durationDays with
    | .error _ => true
    | .ok none => false
    | .ok (some (_, _, price)) => 0 < price && d.balance a < price

def invalidDevices (d : Database) (user : User) (plan : Plan) : Bool :=
  ((resolveLockedLimitsForPlan d (user.adminId.bind d.admins.get?) plan).deviceLimit.or
    plan.deviceLimit).any (· < 0)

def resellerOf (d : Database) (owner : User) : Option (AdminId × Admin) :=
  owner.adminId.bind fun a => (d.admins.get? a).map fun r => (a, r)

def accountFromPlan (d : Database) (now : Int) (owner : User) (plan : Plan) (username : String) :
    UserCreate :=
  let locks := resolveLockedLimitsForPlan d ((resellerOf d owner).map Prod.snd) plan
  { username
    expire := computeFreshExpire now plan
    dataLimit := plan.dataLimit
    deviceLimit := locks.deviceLimit.or plan.deviceLimit
    speedLimitUp := locks.speedLimitUp
    speedLimitDown := locks.speedLimitDown }

section Condition

variable {Payload : Type} (env : PaymentEnv Payload) (now : Int) (d : Database)

def accountRefused (owner : User) (plan : Plan) (username : String) : Bool :=
  (usernameRefusal d username).isSome ||
    (env.blueprint owner (accountFromPlan d now owner plan username)).isSome ||
    (createRefusal d (resellerOf d owner)).isSome

def appliesLate (intent : PaymentIntent) : Bool :=
  match intent.kind with
  | .topup | .other _ => false
  | .portalRenew =>
    match intent.userId.bind d.users.get?, intent.planId.bind d.plans.get? with
    | some user, some plan => invalidDevices d user plan || chargeRefused d user.adminId plan
    | _, _ => false
  | .portalPurchase =>
    match intent.planId.bind d.plans.get?, intent.userId.bind d.users.get? with
    | some plan, some owner =>
      intent.extra.newUsername ≠ "" &&
        !accountRefused env now d owner plan (freeUsername env d intent.extra.newUsername) &&
        chargeRefused d owner.adminId plan
    | _, _ => false

def failsLate (intent : PaymentIntent) (payload : Payload) : Bool :=
  isOpen intent.status && env.verify intent payload && appliesLate env now d intent

end Condition

def AccountsOnly (d d' : Database) : Prop :=
  d' = { d with users := d'.users, orders := d'.orders, nodeUserUsages := d'.nodeUserUsages }

theorem AccountsOnly.refl (d : Database) : AccountsOnly d d := rfl

theorem AccountsOnly.trans {d₁ d₂ d₃ : Database} (h₁ : AccountsOnly d₁ d₂)
    (h₂ : AccountsOnly d₂ d₃) : AccountsOnly d₁ d₃ := by
  unfold AccountsOnly at *
  rw [h₂, h₁]

variable {d d' : Database}

theorem AccountsOnly.chargeRefused (h : AccountsOnly d d') (adminId : Option AdminId)
    (plan : Plan) :
    chargeRefused d' adminId plan = chargeRefused d adminId plan := by
  rw [h]
  rfl

theorem AccountsOnly.invalidDevices (h : AccountsOnly d d') (user : User)
    (plan : Plan) : invalidDevices d' user plan = invalidDevices d user plan := by
  rw [h]
  rfl

theorem order_apply {w : Write} {order : Nat} (h : w.apply d = some d')
    (horder : (d.orders.get? order).isSome) : (d'.orders.get? order).isSome := by
  cases w with
  | insertOrder key row =>
    obtain rfl := Option.some.inj h
    rw [Dict.get?_set]
    split
    · rfl
    · exact horder
  | setOrderStatus key status =>
    obtain rfl := Option.some.inj h
    rw [Dict.get?_modify]
    split
    · rw [Option.isSome_map]
      exact horder
    · exact horder
  | insertWallet _ | insertCheckpoint _ _ | insertUser _ _ =>
    obtain ⟨-, rfl⟩ := eq_of_ite_none h
    exact horder
  | _ =>
    obtain rfl := Option.some.inj h
    exact horder

section Lone

variable {s : Exec Database Write} {α : Type}

theorem alone_order (p : Action α) {order : Nat} (h : (s.db.orders.get? order).isSome) :
    p.alone store (fun _ _ => True) s fun _ s' => (s'.db.orders.get? order).isSome := by
  refine alone_imp (fun _ _ _ => trivial) (fun _ _ hpost => hpost.1) (alone_of_confined
    (I := fun d _ => (d.orders.get? order).isSome) ?_ (confined_trivial p)
    (fun _ _ => trivial) h)
  intro ws d d' l _ happly hd
  exact store.applyAll_induction (fun _ _ _ _ => order_apply) happly hd

theorem alone_commit {post : Except Error Unit → Exec Database Write → Prop}
    (hws : ∀ w ∈ s.pend, ∀ d, (Write.apply w d).isSome)
    (hpost : ∀ d, store.applyAll s.pend s.db = some d → post (.ok ()) (s.committed d)) :
    (commit : Action Unit).alone store (fun _ _ => True) s post := by
  obtain ⟨d, happly⟩ := Option.isSome_iff_exists.mp (store.isSome_applyAll hws s.db)
  exact (alone_commitOr_of_some happly).mpr ⟨trivial, hpost d happly⟩

variable {plan : Plan} {adminId : Option AdminId} {planId : Nat} {d : Database} {username : String}

theorem alone_createUserOrder {userId : Int} (hpend : s.pend = []) :
    (createUserOrder userId planId plan).alone store (fun _ _ => True) s fun x s' =>
      x = .ok s.next ∧ AccountsOnly s.db s'.db ∧ s'.db.users = s.db.users ∧
        (s'.db.orders.get? s.next).isSome ∧ s'.pend = [] := by
  have happly : store.applyAll (s.advanced.push (.insertOrder s.next
      { userId, planId, amount := plan.price, status := .paid })).pend s.db = some { s.db with
        orders := s.db.orders.set s.next
          { userId, planId, amount := plan.price, status := .paid } } := by
    simp [hpend, Write.apply]
  unfold createUserOrder
  simp only [alone_bind, alone_freshKey, aloneThen_ok, alone_emit]
  refine (alone_commitOr_of_some happly).mpr ⟨trivial, rfl, rfl, rfl, ?_, rfl⟩
  rw [Exec.committed_db, Dict.get?_set, if_pos rfl]
  rfl

theorem alone_markOrderApplied {order : Nat} (hpend : s.pend = []) :
    (markOrderApplied order).alone store (fun _ _ => True) s fun x s' =>
      x = .ok () ∧ AccountsOnly s.db s'.db ∧ s'.pend = [] := by
  have happly : store.applyAll (s.push (.setOrderStatus order .applied)).pend s.db = some { s.db with
      orders := s.db.orders.modify order fun o => { o with status := .applied } } := by
    simp [hpend, Write.apply]
  unfold markOrderApplied
  simp only [alone_bind, aloneThen_ok, alone_emit]
  exact (alone_commitOr_of_some happly).mpr ⟨trivial, rfl, rfl, rfl⟩

variable {userId : Int} {user : User}

theorem alone_replaceUser (row : User) {β : Type} (f : Option User → β) (hpend : s.pend = [])
    (hget : s.db.users.get? userId = some user) :
    (do
      Prog.emit (.updateUser userId user row)
      Prog.emit (.clearNodeUsages userId)
      commit
      Prog.query fun d => f (d.users.get? userId) : Action β).alone store (fun _ _ => True) s
      fun x s' => x = .ok (f (some row)) ∧ AccountsOnly s.db s'.db ∧
        s'.db.users.get? userId = some row ∧ s'.pend = [] := by
  have happly : store.applyAll ((s.push (.updateUser userId user row)).push
      (.clearNodeUsages userId)).pend s.db = some { s.db with
        users := s.db.users.modify userId (User.written user row)
        nodeUserUsages := s.db.nodeUserUsages.filter fun u => u.userId ≠ userId } := by
    simp [hpend, Write.apply]
  have hafter : (s.db.users.modify userId (User.written user row)).get? userId = some row := by
    rw [Dict.get?_modify, if_pos rfl, hget, Option.map_some, User.written_loaded]
  simp only [alone_bind, aloneThen_ok, alone_emit]
  refine (alone_commitOr_of_some happly).mpr ⟨trivial, ?_, rfl, hafter, rfl⟩
  exact congrArg (fun found => Except.ok (f found)) hafter

theorem alone_resetUserDataUsage (hpend : s.pend = []) (hget : s.db.users.get? userId = some user) :
    (resetUserDataUsage userId user).alone store (fun _ _ => True) s fun x s' =>
      x = .ok (resetUser user) ∧ AccountsOnly s.db s'.db ∧
        s'.db.users.get? userId = some (resetUser user) ∧ s'.pend = [] :=
  alone_replaceUser (resetUser user) (·.getD (resetUser user)) hpend hget

theorem alone_applyUpdate {now : Int} {modify : UserModify} (hpend : s.pend = [])
    (hget : s.db.users.get? userId = some user) :
    (do
      Prog.emit (.notePlanApplied userId planId)
      updateUser now userId user modify : Action User).alone store (fun _ _ => True) s fun x s' =>
      x = .ok (updatedUser now modify user) ∧ AccountsOnly s.db s'.db ∧
        s'.db.users.get? userId = some (updatedUser now modify user) ∧ s'.pend = [] := by
  generalize hrow : updatedUser now modify user = row
  have happly : store.applyAll ((s.push (.notePlanApplied userId planId)).push
      (.updateUser userId user row)).pend s.db =
      some { s.db with users := s.db.users.modify userId (User.written user row) } := by
    simp [hpend, Write.apply]
  have hafter : (s.db.users.modify userId (User.written user row)).get? userId = some row := by
    rw [Dict.get?_modify, if_pos rfl, hget, Option.map_some, User.written_loaded]
  unfold updateUser
  simp only [alone_bind, aloneThen_ok, alone_emit, hrow]
  refine (alone_commitOr_of_some happly).mpr ⟨trivial, ?_, rfl, hafter, rfl⟩
  exact congrArg (fun found => Except.ok (found.getD row)) hafter

def renewalBase (user : User) : User :=
  if 0 < user.usedTraffic ∨ 0 < user.overageTraffic then resetUser user else user

theorem alone_applyPlanToUser {now : Int} (hpend : s.pend = [])
    (hget : s.db.users.get? userId = some user) :
    (applyPlanToUser now userId user planId plan).alone store (fun _ _ => True) s fun x s' =>
      if invalidDevices s.db user plan then x.isOk = false
      else ∃ row locks, x = .ok row ∧ row.adminId = user.adminId ∧ AccountsOnly s.db s'.db ∧
        s'.pend = [] ∧ s'.db.users.get? userId = some row ∧
        row = updatedUser now (renewalModify now user plan locks) (renewalBase user) := by
  -- from the row that is read after the reset, if there is one
  have hrest : ∀ {s₁ : Exec Database Write} {row : User}, s₁.pend = [] →
      s₁.db.users.get? userId = some row → row.adminId = user.adminId → row = renewalBase user →
      AccountsOnly s.db s₁.db →
      (do
        let locks ← Prog.query fun d =>
          resolveLockedLimitsForPlan d (row.adminId.bind d.admins.get?) plan
        let modify := renewalModify now user plan locks
        if (locks.deviceLimit.or plan.deviceLimit).any (· < 0) then .raise .validation
        else do
          Prog.emit (.notePlanApplied userId planId)
          updateUser now userId row modify : Action User).alone store (fun _ _ => True) s₁
        fun x s' => if invalidDevices s.db user plan then x.isOk = false
          else ∃ row locks, x = .ok row ∧ row.adminId = user.adminId ∧ AccountsOnly s.db s'.db ∧
            s'.pend = [] ∧ s'.db.users.get? userId = some row ∧
            row = updatedUser now (renewalModify now user plan locks) (renewalBase user) := by
    intro s₁ row hpend₁ hget₁ hadmin hbase hsame
    have hdevices : ((resolveLockedLimitsForPlan s₁.db (row.adminId.bind s₁.db.admins.get?)
        plan).deviceLimit.or plan.deviceLimit).any (· < 0) = invalidDevices s.db user plan := by
      rw [hadmin, ← hsame.invalidDevices]
      rfl
    rw [alone_query_bind]
    rw [hdevices]
    split
    · exact rfl
    · refine alone_mono ?_ (alone_applyUpdate hpend₁ hget₁)
      intro x s' hpost
      obtain ⟨rfl, hsame', hafter, hpend'⟩ := hpost
      exact ⟨_, _, rfl, (relimited_updatedUser _ _ row).adminId.trans hadmin, hsame.trans hsame',
        hpend', hafter, congrArg (updatedUser now _) hbase⟩
  unfold applyPlanToUser
  split
  · next hused =>
      refine alone_then (alone_resetUserDataUsage hpend hget) ?_
      intro x s₁ hpost
      obtain ⟨rfl, hsame, hget₁, hpend₁⟩ := hpost
      exact hrest hpend₁ hget₁ rfl (if_pos hused).symm hsame
  · next hfresh => exact hrest hpend hget rfl (if_neg hfresh).symm (.refl _)

theorem alone_markCharged {tariff : ResellerPlanTariff} (hpend : s.pend = []) :
    (markCharged username tariff).alone store (fun _ _ => True) s fun x s' =>
      x = .ok () ∧ s'.pend = [] := by
  unfold markCharged
  rw [alone_query_bind]
  cases s.db.userByName username with
  | none => exact ⟨rfl, hpend⟩
  | some found =>
    rw [alone_emit_bind]
    refine alone_commit ?_ fun _ _ => ⟨rfl, rfl⟩
    intro w hw d
    rw [Exec.push_pend, hpend, List.nil_append, List.mem_singleton] at hw
    rw [hw]
    rfl

theorem chargeRefused_of_none
    (h : (adminId.bind fun a => (d.admins.get? a).map fun r => (a, r)) = none) :
    chargeRefused d adminId plan = false := by
  rw [chargeRefused, h]

theorem chargeRefused_of_sudo {a : AdminId} {r : Admin}
    (h : (adminId.bind fun a => (d.admins.get? a).map fun r => (a, r)) = some (a, r))
    (hsudo : r.isSudo = true) : chargeRefused d adminId plan = false := by
  rw [chargeRefused, h]
  dsimp only
  rw [hsudo]
  rfl

theorem chargeRefused_iff {a : AdminId} {r : Admin}
    (h : (adminId.bind fun a => (d.admins.get? a).map fun r => (a, r)) = some (a, r))
    (hsudo : r.isSudo = false) : chargeRefused d adminId plan = true ↔
      ¬ Affords (d.balance a) 1 (tariffQuote d (some (a, r)) plan.dataLimit plan.durationDays) := by
  rw [chargeRefused, h]
  dsimp only
  rw [hsudo]
  match tariffQuote d (some (a, r)) plan.dataLimit plan.durationDays with
  | .error e => simp [Affords]
  | .ok none => simp [Affords]
  | .ok (some (b, t, price)) => simp [Affords]

theorem alone_chargeTariff {event : TariffEvent} (hpend : s.pend = []) :
    (chargeTariff adminId plan username event).alone store (fun _ _ => True) s fun x s' =>
      chargeRefused s.db adminId plan = true ∧ x.isOk = false ∨
      chargeRefused s.db adminId plan = false ∧ x = .ok () ∧ s'.pend = [] := by
  unfold chargeTariff chargePortalPlanTariff
  rw [alone_tryCatch, alone_query_bind]
  cases hadmin : adminId.bind fun a => (s.db.admins.get? a).map fun r => (a, r) with
  | none => exact .inr ⟨chargeRefused_of_none hadmin, rfl, hpend⟩
  | some admin =>
    obtain ⟨a, r⟩ := admin
    dsimp only
    cases hsudo : r.isSudo with
    | true => exact .inr ⟨chargeRefused_of_sudo hadmin hsudo, rfl, hpend⟩
    | false =>
      rw [if_neg Bool.false_ne_true]
      refine alone_then (charged_prepareResellerTariffCharge (le_refl 1) hpend) ?_
      intro x s₁ hpost
      obtain ⟨hcharged, rfl⟩ := hpost
      by_cases hafford : Affords (s.db.balance a) 1
          (tariffQuote s.db (some (a, r)) plan.dataLimit plan.durationDays)
      · have hrefused : chargeRefused s.db adminId plan = false :=
          Bool.eq_false_iff.mpr fun h => (chargeRefused_iff hadmin hsudo).mp h hafford
        obtain ⟨t, hverdict, -⟩ := verdict_of_affords (createNeed 1) hafford
        rw [hverdict, aloneThen_ok]
        cases t with
        | none => exact .inr ⟨hrefused, rfl, hcharged.pend⟩
        | some t =>
          refine alone_then (charged_chargePositive hsudo hcharged.pend) ?_
          intro x s₂ hpost
          obtain ⟨rfl, hcharged₂⟩ := hpost
          rw [aloneThen_ok]
          refine alone_mono ?_ (alone_markCharged hcharged₂.pend)
          intro x s₃ hpost
          obtain ⟨rfl, hpend₃⟩ := hpost
          exact .inr ⟨hrefused, rfl, hpend₃⟩
      · obtain ⟨m, status, hverdict, -⟩ := verdict_of_not_affords (createNeed 1) hafford
        rw [hverdict]
        exact .inl ⟨(chargeRefused_iff hadmin hsudo).mpr hafford, rfl⟩

def Unfailing (s : Exec Database Write) : Prop := ∀ w ∈ s.pend, ∀ d, (Write.apply w d).isSome

theorem unfailing_nil (hpend : s.pend = []) : Unfailing s := by
  intro w hw
  rw [hpend] at hw
  cases hw

theorem Unfailing.push {w : Write} (h : Unfailing s) (hw : ∀ d, (Write.apply w d).isSome) :
    Unfailing (s.push w) := by
  intro v hv
  rcases List.mem_append.mp hv with hv | hv
  · exact h v hv
  · exact List.mem_singleton.mp hv ▸ hw

theorem unfailing_commit {f : Unit → Action α}
    (hf : (f ()).Maintains store (fun _ _ => True) Unfailing) :
    (commit >>= f).alone store (fun _ _ => True) s fun _ => Unfailing :=
  alone_bind.mpr (alone_commitOr
    (fun d _ => ⟨trivial, hf (s.committed d) (unfailing_nil rfl)⟩) (unfailing_nil rfl))

theorem unfailingRules : BillingRules fun α (p : Action α) =>
    p.Maintains store (fun _ _ => True) Unfailing where
  toCompositional := compositional_maintains
  emit hw _ hs := hs.push hw.isSome_apply
  commit _ _ := alone_commitOr (fun _ _ => ⟨trivial, unfailing_nil rfl⟩) (unfailing_nil rfl)
  wallet live a s hs := by
    unfold getOrCreateWallet
    cases live with
    | some balance => exact hs
    | none =>
      rw [alone_bind, alone_fetch, aloneThen_ok]
      cases s.db.wallets.get? a with
      | some balance => exact hs
      | none => exact unfailing_commit fun _ hs => hs
  checkpoint now a s hs := by
    unfold getOrCreateCheckpoint
    rw [alone_query_bind]
    cases s.db.checkpoints.get? a with
    | some row => exact hs
    | none => exact unfailing_commit fun _ hs => hs

theorem unfailing_postTransaction (live : Option Int) (a : AdminId) (amount : Int)
    (type : TransactionType) (reference : Option String) :
    (postTransaction live a amount type reference).Maintains store (fun _ _ => True) Unfailing :=
  unfailingRules.bind (unfailingRules.wallet live a) fun _ _ _ => unfailing_commit fun _ hs => hs

theorem alone_afterCredit (now : Int) (a : AdminId) (hpend : s.pend = []) : (Prog.tryCatch (do
      let admin ← Prog.query fun d => d.admins.get? a
      (match admin with
      | some admin => do
        let _ ← billResellerUsage now a admin
      | none => pure ())
      let reactivated ← enforceResellerTrafficCaps now
      if reactivated = [] then pure () else commit : Action Unit) fun _ => pure ()).alone store
      (fun _ _ => True) s fun x s' => (∃ b, x = .ok b) ∧ Unfailing s' := by
  refine Prog.Maintains.alone_swallow ?_ () (unfailing_nil hpend)
  have hΦ := unfailingRules
  refine hΦ.bind (hΦ.query _) fun admin => hΦ.bind ?_ fun _ =>
    hΦ.bind (hΦ.enforceResellerTrafficCaps now) fun _ => hΦ.ite (hΦ.pure _) hΦ.commit
  cases admin with
  | none => exact hΦ.pure _
  | some admin =>
    exact hΦ.bind (hΦ.billResellerUsage
      (fun _ _ _ _ _ _ => unfailing_postTransaction _ _ _ _ _) now a admin) fun _ => hΦ.pure _

inductive Outcome (late : Bool) (s : Exec Database Write) :
    Except Error Unit → Exec Database Write → Prop
  | applied {s' : Exec Database Write} (h : late = false) (hpend : Unfailing s') :
      Outcome late s (.ok ()) s'
  | refused {e : Error} {s' : Exec Database Write} (h : late = false) (hdb : s'.db = s.db)
      (hlog : s'.log = s.log) : Outcome late s (.error e) s'
  | late {e : Error} {s' : Exec Database Write} (h : late = true) {order : Nat}
      (hnext : s.next ≤ order) (horder : (s'.db.orders.get? order).isSome) :
      Outcome late s (.error e) s'

section Apply

variable {Payload : Type} (env : PaymentEnv Payload) (now : Int) (intent : PaymentIntent)

theorem outcome_applyTopup (id : Nat) (hpend : s.pend = []) :
    (applyTopup now id intent).alone store (fun _ _ => True) s (Outcome false s) := by
  refine alone_then (charged_addTransaction (by decide) (by decide) hpend) ?_
  intro x s₁ hpost
  obtain ⟨hok, hcharged⟩ := hpost
  cases x with
  | error e => cases hok
  | ok tx =>
    refine alone_mono ?_ (alone_afterCredit now intent.adminId hcharged.pend)
    intro x s₂ hpost
    obtain ⟨⟨b, rfl⟩, hunfailing⟩ := hpost
    exact .applied rfl hunfailing

theorem outcome_order {late : Bool} {s₀ : Exec Database Write} {p : Action Unit} {order : Nat}
    (hnext : s₀.next ≤ order) (horder : (s.db.orders.get? order).isSome)
    (hp : p.alone store (fun _ _ => True) s fun x s' =>
      late = true ∧ x.isOk = false ∨ late = false ∧ x = .ok () ∧ Unfailing s') :
    p.alone store (fun _ _ => True) s (Outcome late s₀) := by
  refine alone_mono ?_ (alone_and hp (alone_order p horder))
  intro x s' hpost
  obtain ⟨⟨hlate, hok⟩ | ⟨hlate, rfl, hpend⟩, horder'⟩ := hpost
  · cases x with
    | error e => exact .late hlate hnext horder'
    | ok _ => cases hok
  · exact .applied hlate hpend

theorem bind_eq_map_snd {κ ν : Type} (key : Option κ) (get : κ → Option ν) :
    key.bind get = (key.bind fun k => (get k).map fun r => (k, r)).map Prod.snd := by
  cases key with
  | none => rfl
  | some k => cases hk : get k <;> simp [hk]

theorem get?_of_bind {κ ν : Type} {key : Option κ} {get : κ → Option ν} {k : κ} {r : ν}
    (h : (key.bind fun k => (get k).map fun r => (k, r)) = some (k, r)) : get k = some r := by
  obtain ⟨k', -, hk'⟩ := Option.bind_eq_some_iff.mp h
  obtain ⟨r', hr', heq⟩ := Option.map_eq_some_iff.mp hk'
  cases heq
  exact hr'

theorem outcome_applyPortalRenew (hkind : intent.kind = .portalRenew) (hpend : s.pend = []) :
    (applyPortalRenew now intent).alone store (fun _ _ => True) s
      (Outcome (appliesLate env now s.db intent) s) := by
  unfold applyPortalRenew appliesLate
  rw [hkind, alone_query_bind,
    bind_eq_map_snd intent.userId s.db.users.get?, bind_eq_map_snd intent.planId s.db.plans.get?]
  generalize huser : (intent.userId.bind fun u => (s.db.users.get? u).map fun r => (u, r)) = target
  generalize (intent.planId.bind fun p => (s.db.plans.get? p).map fun r => (p, r)) = bought
  match target, bought with
  | none, _ => exact .refused rfl rfl rfl
  | some _, none => exact .refused rfl rfl rfl
  | some (userId, user), some (planId, plan) =>
    refine alone_then (alone_createUserOrder hpend) ?_
    intro x s₁ hpost
    obtain ⟨rfl, hsame₁, husers, horder, hpend₁⟩ := hpost
    refine outcome_order (le_refl s.next) horder
      (alone_then (alone_applyPlanToUser hpend₁ (husers ▸ get?_of_bind huser)) ?_)
    intro x s₂ hpost
    rw [hsame₁.invalidDevices] at hpost
    dsimp only [Option.map_some]
    split at hpost
    · next hdevices =>
        cases x with
        | ok _ => cases hpost
        | error e => exact .inl ⟨by rw [hdevices]; rfl, rfl⟩
    · next hdevices =>
        obtain ⟨row, -, rfl, hadmin, hsame₂, hpend₂, -⟩ := hpost
        rw [Bool.eq_false_iff.mpr hdevices, Bool.false_or]
        refine alone_then (alone_markOrderApplied hpend₂) ?_
        intro x s₃ hpost
        obtain ⟨rfl, hsame₃, hpend₃⟩ := hpost
        refine alone_mono ?_ (alone_chargeTariff hpend₃)
        intro x s₄ hpost
        rw [((hsame₁.trans hsame₂).trans hsame₃).chargeRefused, hadmin] at hpost
        exact hpost.imp_right fun h => ⟨h.1, h.2.1, unfailing_nil h.2.2⟩

theorem userByName_of_usernameRefusal {d : Database} {username : String}
    (h : usernameRefusal d username = none) : d.userByName username = none := by
  unfold usernameRefusal at h
  split at h
  · cases h
  split at h
  · cases h
  · next hfree => exact Option.not_isSome_iff_eq_none.mp fun hsome => hfree (.inl hsome)

theorem alone_createUser_of_free {user : UserCreate} {admin : Option (AdminId × Admin)}
    (hpend : s.pend = []) (hfree : s.db.userByName user.username = none) :
    (createUser user admin).alone store (fun _ _ => True) s fun x s' =>
      (createRefusal s.db admin).isSome = true ∧ x.isOk = false ∧ s'.db = s.db ∧ s'.log = s.log ∨
      (createRefusal s.db admin).isSome = false ∧ x.isOk ∧ AccountsOnly s.db s'.db ∧
        s.next ≤ s'.next ∧ s'.pend = [] := by
  unfold createUser
  rw [alone_query_bind]
  cases createRefusal s.db admin with
  | some refusal => exact .inl ⟨rfl, rfl, rfl, rfl⟩
  | none =>
    simp only [alone_bind, alone_freshKey, alone_emit, aloneThen_ok]
    have hname : s.db.userByName (newUser user (admin.map Prod.fst)).username = none := hfree
    exact (alone_commitOr_of_some (applyAll_insertUser hpend hname)).mpr
      ⟨trivial, .inr ⟨rfl, rfl, rfl, Nat.le_succ _, rfl⟩⟩

theorem alone_createAccountFromPlan {ownerId : Int} {owner : User} {plan : Plan} {username : String}
    (hpend : s.pend = []) :
    (createAccountFromPlan env.blueprint now ownerId owner plan username).alone store
      (fun _ _ => True) s fun x s' =>
      accountRefused env now s.db owner plan username = true ∧ x.isOk = false ∧ s'.db = s.db ∧
        s'.log = s.log ∨
      accountRefused env now s.db owner plan username = false ∧ x.isOk ∧
        AccountsOnly s.db s'.db ∧ s.next ≤ s'.next ∧ s'.pend = [] := by
  unfold createAccountFromPlan accountRefused
  rw [alone_query_bind]
  cases husername : usernameRefusal s.db username with
  | some refusal => exact .inl ⟨rfl, rfl, rfl, rfl⟩
  | none =>
    rw [alone_query_bind, alone_query_bind]
    dsimp only
    split
    · next invalid hinvalid =>
        have hblueprint : env.blueprint owner (accountFromPlan s.db now owner plan username) =
          some invalid := hinvalid
        rw [hblueprint]
        exact .inl ⟨rfl, rfl, rfl, rfl⟩
    · next hvalid =>
        have hblueprint : env.blueprint owner (accountFromPlan s.db now owner plan username) =
          none := hvalid
        rw [hblueprint]
        have hfree : s.db.userByName (accountFromPlan s.db now owner plan username).username =
            none := userByName_of_usernameRefusal husername
        rw [alone_bind, alone_tryCatch]
        refine alone_mono ?_ (alone_createUser_of_free hpend hfree)
        intro x s₁ hpost
        obtain ⟨hrefused, hok, hdb, hlog⟩ | ⟨hrefused, hok, hsame, hnext, hpend₁⟩ := hpost
        · cases x with
          | ok _ => cases hok
          | error e => cases e <;> exact .inl ⟨hrefused, rfl, hdb, hlog⟩
        · cases x with
          | error e => cases hok
          | ok created =>
            rw [aloneElse_ok, aloneThen_ok, alone_emit_bind, alone_bind]
            refine (alone_commitOr_of_some (d := { s₁.db with
              users := s₁.db.users.modify created.1 (User.written created.2 { created.2 with
                portalOwnerUserId := some ownerId
                adminId := created.2.adminId.or owner.adminId }) }) ?_).mpr ⟨trivial, ?_⟩
            · rw [Exec.push_pend, hpend₁]
              rfl
            · exact .inr ⟨hrefused, rfl, hsame.trans rfl, hnext, rfl⟩

theorem outcome_applyPortalPurchase (id : Nat) (hkind : intent.kind = .portalPurchase)
    (hpend : s.pend = []) :
    (applyPortalPurchase env now id intent).alone store (fun _ _ => True) s
      (Outcome (appliesLate env now s.db intent) s) := by
  unfold applyPortalPurchase appliesLate
  rw [hkind, alone_query_bind,
    bind_eq_map_snd intent.userId s.db.users.get?, bind_eq_map_snd intent.planId s.db.plans.get?]
  generalize (intent.planId.bind fun p => (s.db.plans.get? p).map fun r => (p, r)) = bought
  generalize (intent.userId.bind fun u => (s.db.users.get? u).map fun r => (u, r)) = payer
  match bought, payer with
  | none, _ => exact .refused rfl rfl rfl
  | some _, none => exact .refused rfl rfl rfl
  | some (planId, plan), some (ownerId, owner) =>
    dsimp only [Option.map_some]
    by_cases hname : intent.extra.newUsername = ""
    · rw [if_pos hname, hname]
      exact .refused rfl rfl rfl
    · rw [if_neg hname, decide_eq_true hname, Bool.true_and, alone_query_bind]
      refine alone_then (alone_createAccountFromPlan env now hpend) ?_
      intro x s₁ hpost
      obtain ⟨hrefused, hok, hdb, hlog⟩ | ⟨hrefused, hok, hsame₁, hnext, hpend₁⟩ := hpost
      · rw [hrefused]
        cases x with
        | ok _ => cases hok
        | error e => exact .refused rfl hdb hlog
      · rw [hrefused]
        cases x with
        | error e => cases hok
        | ok account =>
          rw [aloneThen_ok]
          refine alone_then (alone_createUserOrder hpend₁) ?_
          intro x s₂ hpost
          obtain ⟨rfl, hsame₂, -, horder, hpend₂⟩ := hpost
          refine outcome_order hnext horder
            (alone_then (alone_markOrderApplied hpend₂) ?_)
          intro x s₃ hpost
          obtain ⟨rfl, hsame₃, hpend₃⟩ := hpost
          refine alone_then (alone_chargeTariff hpend₃) ?_
          intro x s₄ hpost
          rw [((hsame₁.trans hsame₂).trans hsame₃).chargeRefused] at hpost
          obtain ⟨hcharge, hok⟩ | ⟨hcharge, rfl, hpend₄⟩ := hpost
          · cases x with
            | ok _ => cases hok
            | error e => exact .inl ⟨hcharge, rfl⟩
          · refine alone_commit ?_ fun _ _ => .inr ⟨hcharge, rfl, unfailing_nil rfl⟩
            exact ((unfailing_nil hpend₄).push fun _ => rfl).push fun _ => rfl

theorem outcome_applyPayment (id : Nat) (hpend : s.pend = []) :
    (applyPayment env now id intent).alone store (fun _ _ => True) s
      (Outcome (appliesLate env now s.db intent) s) := by
  unfold applyPayment
  cases hkind : intent.kind with
  | topup =>
    rw [appliesLate, hkind]
    exact outcome_applyTopup now intent id hpend
  | portalRenew => exact outcome_applyPortalRenew env now intent hkind hpend
  | portalPurchase => exact outcome_applyPortalPurchase env now intent id hkind hpend
  | other kind =>
    rw [appliesLate, hkind]
    exact .refused rfl rfl rfl

theorem outcome_completePayment (id : Nat) (payload : Payload) (hpend : s.pend = []) :
    (completePayment env now id intent payload).alone store (fun _ _ => True) s
      (Outcome (failsLate env now s.db intent payload) s) := by
  unfold completePayment failsLate
  by_cases hcompleted : intent.status = .completed
  · rw [if_pos hcompleted, hcompleted]
    exact .applied rfl (unfailing_nil hpend)
  · rw [if_neg hcompleted]
    cases hopen : isOpen intent.status with
    | false => exact .refused rfl rfl rfl
    | true =>
      cases hverify : env.verify intent payload with
      | false => exact .refused rfl rfl rfl
      | true =>
        refine alone_then (outcome_applyPayment env now intent id hpend) ?_
        intro x s₁ hpost
        cases hpost with
        | refused h hdb hlog => exact .refused h hdb hlog
        | late h hnext horder => exact .late h hnext horder
        | applied h hunfailing =>
          refine alone_commit (hunfailing.push fun _ => rfl) fun _ _ => ?_
          exact .applied h (unfailing_nil rfl)

end Apply

end Lone

def SameRecords (d d' : Database) : Prop :=
  d'.users = d.users ∧ d'.orders = d.orders ∧ d'.wallets = d.wallets ∧ d'.intents = d.intents

/-- A failed completion leaves no trace exactly if it does not fail late. -/
theorem failed_completion_traceless_iff {Payload : Type} (env : PaymentEnv Payload) (now : Int)
    (id : Nat) (intent : PaymentIntent) (payload : Payload) (d : Database) (n : Nat)
    (hfresh : ∀ key, n ≤ key → d.orders.get? key = none) :
    (∀ e s, (completePayment env now id intent payload).exec store { db := d, next := n } =
        (.error e, s) →
      SameRecords d s.db ∧
      ∀ (env' : PaymentEnv Payload) (now' : Int) (intent' : PaymentIntent) (payload' : Payload)
        (d' : Database) (n' : Nat) (s' : Exec Database Write), isOpen intent'.status →
        (completePayment env' now' id intent' payload').exec store { db := d', next := n' } =
          (.ok (), s') →
        effects id s.log + effects id s'.log = 1) ↔
    failsLate env now d intent payload = false := by
  have hout := exec_of_alone (outcome_completePayment env now intent id payload
    (s := { db := d, next := n }) rfl)
  constructor
  · intro h
    generalize hexec : (completePayment env now id intent payload).exec store
      { db := d, next := n } = result at hout h
    obtain ⟨x, s⟩ := result
    cases hout with
    | applied hlate _ => exact hlate
    | refused hlate _ _ => exact hlate
    | late hlate hnext horder =>
      have hsame := (h _ _ rfl).1
      rw [hsame.2.1, hfresh _ hnext] at horder
      cases horder
  · intro hlate e s hexec
    rw [hexec] at hout
    cases hout with
    | late hlate' _ _ =>
      rw [hlate] at hlate'
      cases hlate'
    | refused _ hdb hlog =>
      refine ⟨by rw [hdb]; exact ⟨rfl, rfl, rfl, rfl⟩, ?_⟩
      intro env' now' intent' payload' d' n' s' hopen hexec'
      have hstart : SteadyAt id 0 (payStatus d' id) { db := d', next := n' } :=
        ⟨⟨rfl, rfl⟩, fun _ hw => absurd hw List.not_mem_nil⟩
      have heffect := exec_of_alone
        (alone_completePayment env' now' intent' payload' hopen hstart)
      rw [hexec'] at heffect
      rw [hlog, (heffect rfl).1.1]
      rfl

def plainEnv : PaymentEnv Unit where
  verify _ _ := true
  adminApproved := ()
  blueprint _ _ := none
  token := "token"
  pendingTtlMinutes := 30

def renewal (userId : Int) : PaymentIntent :=
  { kind := .portalRenew, adminId := 1, userId := some userId, planId := some 3, amount := 150
    provider := "card", createdAt := 0 }

def renewalDb (balance : Int) : Database where
  admins := Dict.empty.set 1 { username := "reseller" }
  users := Dict.empty.set 5 { username := "customer", adminId := some 1, expire := some 1000 }
  wallets := Dict.empty.set 1 balance
  plans := Dict.empty.set 3 { price := 150, durationDays := some 30 }
  tariffs := [{ id := 1, name := "monthly", price := 100, durationDays := some 30 }]
  intents := Dict.empty.set 9 (renewal 5)

theorem no_orders_yet (balance : Int) (key : Nat) (_ : 20 ≤ key) :
    (renewalDb balance).orders.get? key = none := rfl

theorem missing_account_leaves_no_trace :
    ∃ e s, (completePayment plainEnv 500 9 (renewal 6) ()).exec store
        { db := renewalDb 0, next := 20 } = (.error e, s) ∧ SameRecords (renewalDb 0) s.db := by
  refine ⟨_, _, rfl, ?_⟩
  exact ((failed_completion_traceless_iff plainEnv 500 9 (renewal 6) () (renewalDb 0) 20
    (no_orders_yet 0)).mpr (by decide +kernel) _ _ rfl).1

/-- A renewal fails with the plan applied, and is applied again later. -/
theorem refused_renewal_applied_twice :
    let first := (completePayment plainEnv 500 9 (renewal 5) ()).exec store
      { db := renewalDb 0, next := 20 }
    let second := (completePayment plainEnv 600 9 (renewal 5) ()).exec store
      { db := { first.2.db with wallets := Dict.empty.set 1 1000 }, next := first.2.next }
    first.1.isOk = false ∧ (first.2.db.users.get? 5).bind User.expire = some (1000 + 30 * 86400) ∧
      first.2.db.orders.keys = [20] ∧ payStatus first.2.db 9 = some .pending ∧
      second.1.isOk = true ∧ (second.2.db.users.get? 5).bind User.expire = some (1000 + 60 * 86400) ∧
      second.2.db.orders.keys = [20, 21] ∧ effects 9 first.2.log + effects 9 second.2.log = 2 := by
  decide +kernel

end Shahkar.Billing
