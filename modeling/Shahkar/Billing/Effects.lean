import Shahkar.Billing.Charges
import Shahkar.Billing.Payments

/-!
# The effect of a payment, counted

A payment is made for one write: the credit of a top-up, the application of a plan or the insertion
of an account. Everything else that completing it writes is `Harmless`.
-/

namespace Shahkar.Billing

open Shahkar.Db Shahkar.Lib Shahkar.Portal
open Prog hiding commit

/-!
### Effects
-/

def isEffect (id : Nat) : Write → Bool
  | .insertTransaction tx => tx.type = .topup && tx.reference = some s!"payment:{id}"
  | .notePlanApplied _ _ | .insertUser _ _ => true
  | _ => false

def effects (id : Nat) (log : List Write) : Nat := log.countP (isEffect id)

@[simp] theorem effects_nil (id : Nat) : effects id [] = 0 := rfl

@[simp] theorem effects_append (id : Nat) (l₁ l₂ : List Write) :
    effects id (l₁ ++ l₂) = effects id l₁ + effects id l₂ := List.countP_append

def payStatus (d : Database) (id : Nat) : Option PaymentStatus :=
  (d.intents.get? id).map PaymentIntent.status

def Harmless (id : Nat) : Write → Prop
  | .setIntentStatus other _ => other ≠ id
  | w => isEffect id w = false

variable {id : Nat}

variable {w : Write} {d d' : Database} {ws : List Write} {f : Unit → Action α}
  {type : TransactionType} {log : List Write}

theorem Harmless.isEffect (h : Harmless id w) : isEffect id w = false := by
  cases w with
  | setIntentStatus other status => rfl
  | _ => exact h

theorem effects_of_harmless (h : ∀ w ∈ ws, Harmless id w) : effects id ws = 0 := by
  refine List.countP_eq_zero.mpr fun w hw => ?_
  rw [(h w hw).isEffect]
  exact Bool.false_ne_true

theorem Harmless.payStatus_apply (h : Harmless id w)
    (happly : w.apply d = some d') : payStatus d' id = payStatus d id := by
  cases w with
  | setIntentStatus other status =>
    obtain rfl := Option.some.inj happly
    simp only [payStatus, Dict.get?_modify, if_neg (Ne.symm h)]
  | setIntentUser other userId | setIntentExtra other extra =>
    obtain rfl := Option.some.inj happly
    simp only [payStatus, Dict.get?_modify]
    split
    · cases d.intents.get? id <;> rfl
    · rfl
  | insertWallet _ | insertCheckpoint _ _ | insertUser _ _ =>
    obtain ⟨-, rfl⟩ := eq_of_ite_none happly
    rfl
  | _ =>
    obtain rfl := Option.some.inj happly
    rfl

theorem payStatus_apply_of_isEffect (h : isEffect id w = true)
    (happly : w.apply d = some d') : payStatus d' id = payStatus d id := by
  cases w with
  | insertUser _ _ =>
    obtain ⟨-, rfl⟩ := eq_of_ite_none happly
    rfl
  | insertTransaction _ | notePlanApplied _ _ =>
    obtain rfl := Option.some.inj happly
    rfl
  | _ => cases h

theorem payStatus_applyAll (h : ∀ w ∈ ws, Harmless id w)
    (happly : store.applyAll ws d = some d') : payStatus d' id = payStatus d id :=
  store.applyAll_induction (P := fun d₁ => payStatus d₁ id = payStatus d id)
    (fun w hw _ _ hw₁ hd₁ => ((h w hw).payStatus_apply hw₁).trans hd₁) happly rfl

def EffectFree (id : Nat) {α : Type} (p : Action α) : Prop :=
  p.Confined (Harmless id) (fun _ => True) fun _ => True

theorem effectFree_compositional :
    Prog.Compositional fun α (p : Action α) => EffectFree id p := compositional_confined

theorem effectFree_emit (h : Harmless id w) : EffectFree id (Prog.emit w) :=
  confined_emit.mpr h

theorem effectFree_commit : EffectFree id commit := confined_commit

theorem effectFreeRules (id : Nat) : BillingRules fun α (p : Action α) => EffectFree id p where
  toCompositional := effectFree_compositional
  emit {w} h := by
    refine effectFree_emit ?_
    cases w with
    | updatePrepaid _ _ _ | updateCheckpoint _ _ _ | insertEvent _ | updateUser _ _ _ => rfl
    | _ => exact h.elim
  commit := effectFree_commit
  wallet _ _ := confined_getOrCreateWallet rfl trivial
  checkpoint _ _ := confined_getOrCreateCheckpoint fun _ => rfl

theorem effectFree_postTransaction (live : Option Int) (a : AdminId) (amount : Int)
    (reference : Option String) (htype : type ≠ .topup) :
    EffectFree id (postTransaction live a amount type reference) := by
  have hΦ := effectFreeRules id
  refine hΦ.bind (hΦ.wallet _ _) fun balance => hΦ.bind confined_freshKey fun key =>
    hΦ.bind (effectFree_emit ?_) fun _ => hΦ.bind (effectFree_emit rfl) fun _ =>
    hΦ.bind hΦ.commit fun _ => hΦ.pure _
  simp [Harmless, isEffect, htype]

theorem effectFree_creditParentCommission (a : AdminId) (amount : Int) (reference : String) :
    EffectFree id (creditParentCommission a amount reference) :=
  holds_creditParentCommission effectFree_compositional
    (fun _ _ _ _ => effectFree_postTransaction _ _ _ _ (by decide)) a amount reference

theorem effectFree_addTransaction (live : Option Int) (a : AdminId) (amount : Int)
    (reference : Option String) (skipCommission : Bool) (htype : type ≠ .topup) :
    EffectFree id (addTransaction live a amount type reference skipCommission) :=
  holds_addTransaction effectFree_compositional
    (fun _ _ _ _ => effectFree_postTransaction _ _ _ _ (by decide))
    (effectFree_postTransaction _ _ _ _ htype) skipCommission

theorem effectFree_prepareResellerTariffCharge (admin : Option (AdminId × Admin))
    (dataLimit durationDays : Option Int) (count : Nat) :
    EffectFree id (prepareResellerTariffCharge admin dataLimit durationDays count) := by
  have hΦ := effectFreeRules id
  refine hΦ.ite (hΦ.pure _) (hΦ.bind (hΦ.query _) fun quote => ?_)
  match quote with
  | .error refusal => exact hΦ.raise refusal
  | .ok none => exact hΦ.pure _
  | .ok (some (a, tariff, price)) =>
    exact hΦ.ite (hΦ.pure _) (hΦ.bind (hΦ.wallet _ _) fun balance =>
      hΦ.ite (hΦ.raise _) (hΦ.pure _))

theorem effectFree_chargeResellerTariff (a : AdminId) (admin : Admin) (tariff : ResellerPlanTariff)
    (unitPrice : Int) (usernames : List String) (event : TariffEvent) :
    EffectFree id (chargeResellerTariff a admin tariff unitPrice usernames event) := by
  have hΦ := effectFreeRules id
  cases usernames with
  | nil => exact hΦ.pure _
  | cons first rest =>
    exact hΦ.ite (hΦ.pure _) (hΦ.bind (effectFree_addTransaction _ _ _ _ _ (by decide)) fun tx =>
      hΦ.pure _)

theorem effectFree_markCharged (username : String) (tariff : ResellerPlanTariff) :
    EffectFree id (markCharged username tariff) := by
  have hΦ := effectFreeRules id
  refine hΦ.bind (hΦ.query _) fun found => ?_
  cases found with
  | none => exact hΦ.pure _
  | some row => exact hΦ.bind (hΦ.emit trivial) fun _ => hΦ.commit

theorem effectFree_chargeTariff (adminId : Option AdminId) (plan : Plan) (username : String)
    (event : TariffEvent) : EffectFree id (chargeTariff adminId plan username event) := by
  have hΦ := effectFreeRules id
  refine hΦ.tryCatch (hΦ.bind (hΦ.query _) fun found => ?_) fun e => ?_
  · cases found with
    | none => exact hΦ.pure _
    | some admin =>
      refine hΦ.ite (hΦ.pure _)
        (hΦ.bind (effectFree_prepareResellerTariffCharge _ _ _ _) fun charge => ?_)
      obtain ⟨tariff, unit⟩ := charge
      cases tariff with
      | none => exact hΦ.pure _
      | some tariff =>
        exact hΦ.bind (hΦ.ite (hΦ.bind (effectFree_chargeResellerTariff _ _ _ _ _ _) fun _ =>
          hΦ.pure _) (hΦ.pure _)) fun _ => effectFree_markCharged _ _
  · cases e <;> exact hΦ.raise _

theorem effectFree_createUserOrder (userId : Int) (planId : Nat) (plan : Plan) :
    EffectFree id (createUserOrder userId planId plan) := by
  have hΦ := effectFreeRules id
  exact hΦ.bind confined_freshKey fun key => hΦ.bind (effectFree_emit rfl) fun _ =>
    hΦ.bind hΦ.commit fun _ => hΦ.pure _

theorem effectFree_markOrderApplied (order : Nat) : EffectFree id (markOrderApplied order) := by
  have hΦ := effectFreeRules id
  exact hΦ.bind (effectFree_emit rfl) fun _ => hΦ.commit

theorem effectFree_afterCredit (now : Int) (a : AdminId) :
    EffectFree id (do
      let admin ← Prog.query fun d => d.admins.get? a
      (match admin with
      | some admin => do
        let _ ← billResellerUsage now a admin
      | none => pure ())
      let reactivated ← enforceResellerTrafficCaps now
      if reactivated = [] then pure () else commit : Action Unit) := by
  have hΦ := effectFreeRules id
  refine hΦ.bind (hΦ.query _) fun admin => hΦ.bind ?_ fun _ =>
    hΦ.bind (hΦ.enforceResellerTrafficCaps now) fun _ => hΦ.ite (hΦ.pure _) hΦ.commit
  cases admin with
  | none => exact hΦ.pure _
  | some admin =>
    exact hΦ.bind (hΦ.billResellerUsage
      (fun _ _ _ _ _ htype => effectFree_postTransaction _ _ _ _ htype) now a admin) fun _ =>
      hΦ.pure _

def Steady (id k : Nat) (status : Option PaymentStatus) (d : Database) (log : List Write) : Prop :=
  effects id log = k ∧ payStatus d id = status

def SteadyAt (id k : Nat) (status : Option PaymentStatus) (s : Exec Database Write) : Prop :=
  Steady id k status s.db s.log ∧ ∀ w ∈ s.pend, Harmless id w

variable {k : Nat} {status : Option PaymentStatus} {s : Exec Database Write} {α : Type}

theorem Steady.commit (h : Steady id k status d log) (hws : ∀ w ∈ ws, Harmless id w)
    (happly : store.applyAll ws d = some d') : Steady id k status d' (log ++ ws) := by
  refine ⟨?_, (payStatus_applyAll hws happly).trans h.2⟩
  rw [effects_append, h.1, effects_of_harmless hws, Nat.add_zero]

theorem EffectFree.alone {p : Action α} (hp : EffectFree id p) (hs : SteadyAt id k status s) :
    p.alone store (Steady id k status) s fun _ => SteadyAt id k status :=
  alone_of_confined (fun hws happly h => h.commit hws happly) hp hs.2 hs.1

theorem Steady.commit_effect {before after : List Write} (h : Steady id 0 status d log)
    (hw : isEffect id w = true) (hbefore : ∀ w ∈ before, Harmless id w)
    (hafter : ∀ w ∈ after, Harmless id w)
    (happly : store.applyAll (before ++ w :: after) d = some d') :
    Steady id 1 status d' (log ++ (before ++ w :: after)) := by
  rw [Store.applyAll_append] at happly
  obtain ⟨d₁, hd₁, happly⟩ := Option.bind_eq_some_iff.mp happly
  obtain ⟨d₂, hd₂, happly⟩ := Option.bind_eq_some_iff.mp happly
  constructor
  · rw [effects_append, effects_append, h.1, effects_of_harmless hbefore, ← List.singleton_append,
      effects_append, effects_of_harmless hafter]
    simp [effects, hw]
  · rw [payStatus_applyAll hafter happly, payStatus_apply_of_isEffect hw hd₂,
      payStatus_applyAll hbefore hd₁, h.2]

inductive Stage (id : Nat) (status : Option PaymentStatus) (d : Database) (log : List Write) : Prop
  | before (h : Steady id 0 status d log)
  | after (h : Steady id 1 status d log)
  | completed (h : Steady id 1 (status.map fun _ => .completed) d log)

def Effective (id : Nat) (status : Option PaymentStatus) (p : Action α) : Prop :=
  ∀ s, SteadyAt id 0 status s →
    p.alone store (Stage id status) s fun x s' => x.isOk → SteadyAt id 1 status s'

theorem EffectFree.then_effective {β : Type} {p : Action α} {f : α → Action β}
    (hp : EffectFree id p) (hf : ∀ a, Effective id status (f a)) :
    Effective id status (p >>= f) := by
  intro s hs
  refine alone_bind.mpr (alone_imp (fun _ _ => .before) ?_ (hp.alone hs))
  intro x s' hs'
  cases x with
  | error e => exact fun hok => nomatch hok
  | ok a => exact hf a s' hs'

theorem Effective.then_effectFree {β : Type} {p : Action α} {f : α → Action β}
    (hp : Effective id status p) (hf : ∀ a, EffectFree id (f a)) :
    Effective id status (p >>= f) := by
  intro s hs
  refine alone_then (hp s hs) ?_
  intro x s' hs'
  cases x with
  | error e => exact fun hok => nomatch hok
  | ok a =>
    rw [aloneThen_ok]
    refine alone_imp (fun _ _ => Stage.after) ?_ ((hf a).alone (hs' rfl))
    exact fun _ _ hs'' _ => hs''

theorem effective_raise (e : Error) : Effective id status (.raise e : Action α) :=
  fun _ _ hok => nomatch hok

theorem Effective.reraise {p : Action α} {h : Error → Action α} (hp : Effective id status p)
    (hh : ∀ e, ∃ e', h e = .raise e') : Effective id status (p.tryCatch h) := by
  intro s hs
  refine alone_tryCatch.mpr (alone_mono ?_ (hp s hs))
  intro x s' hs'
  cases x with
  | error e =>
    obtain ⟨e', he'⟩ := hh e
    rw [aloneElse_error, he']
    exact fun hok => nomatch hok
  | ok a => exact hs'

def LoadedAt (id : Nat) (status : Option PaymentStatus) (s : Exec Database Write) : Prop :=
  Steady id 0 status s.db s.log ∧ ∃ before w after, s.pend = before ++ w :: after ∧
    isEffect id w = true ∧ (∀ w ∈ before, Harmless id w) ∧ ∀ w ∈ after, Harmless id w

def Delivers (id : Nat) (status : Option PaymentStatus) (p : Action α) : Prop :=
  ∀ s, LoadedAt id status s →
    p.alone store (Stage id status) s fun x s' => x.isOk → SteadyAt id 1 status s'

theorem effective_emit (hw : isEffect id w = true)
    (hf : Delivers id status (f ())) : Effective id status (Prog.emit w >>= f) := by
  intro s hs
  refine alone_bind.mpr (alone_emit.mpr (hf (s.push w) ⟨hs.1, s.pend, w, [], rfl, hw, hs.2, ?_⟩))
  exact fun w hw => nomatch hw

theorem delivers_emit (hw : Harmless id w)
    (hf : Delivers id status (f ())) : Delivers id status (Prog.emit w >>= f) := by
  intro s hs
  obtain ⟨hsteady, before, w', after, hpend, heffect, hbefore, hafter⟩ := hs
  refine alone_bind.mpr (alone_emit.mpr (hf (s.push w)
    ⟨hsteady, before, w', after ++ [w], ?_, heffect, hbefore, fun v hv => ?_⟩))
  · rw [Exec.push_pend, hpend, List.append_assoc, List.cons_append]
  · rcases List.mem_append.mp hv with hv | hv
    · exact hafter v hv
    · exact List.mem_singleton.mp hv ▸ hw

theorem delivers_commit (hf : EffectFree id (f ())) :
    Delivers id status (commit >>= f) := by
  intro s hs
  obtain ⟨hsteady, before, w, after, hpend, heffect, hbefore, hafter⟩ := hs
  refine alone_bind.mpr (alone_commitOr (fun d happly => ?_) fun hok => nomatch hok)
  have hd : Steady id 1 status d (s.log ++ s.pend) := by
    rw [hpend] at happly ⊢
    exact hsteady.commit_effect heffect hbefore hafter happly
  have hcommitted : SteadyAt id 1 status (s.committed d) :=
    ⟨hd, fun _ hw => absurd hw List.not_mem_nil⟩
  refine ⟨.after hd, ?_⟩
  rw [aloneThen_ok]
  refine alone_imp (fun _ _ => Stage.after) ?_ (hf.alone hcommitted)
  exact fun _ _ hs'' _ => hs''

theorem effective_addTransaction (a : AdminId) (amount : Int) (skipCommission : Bool) :
    Effective id status
      (addTransaction none a amount .topup (some s!"payment:{id}") skipCommission) := by
  have hΦ := effectFreeRules id
  refine Effective.then_effectFree ?_ fun tx => hΦ.ite
    (hΦ.bind (effectFree_creditParentCommission _ _ _) fun _ => hΦ.pure _) (hΦ.pure _)
  refine EffectFree.then_effective (hΦ.wallet _ _) fun balance =>
    EffectFree.then_effective confined_freshKey fun key => ?_
  refine effective_emit ?_ (delivers_emit rfl (delivers_commit (hΦ.pure _)))
  simp [isEffect]

theorem effective_applyPlanToUser (now userId : Int) (user : User) (planId : Nat) (plan : Plan) :
    Effective id status (applyPlanToUser now userId user planId plan) := by
  have hΦ := effectFreeRules id
  have hupdate : ∀ (row : User) (locks : LimitLocks), Effective id status
      (if (locks.deviceLimit.or plan.deviceLimit).any (· < 0) then .raise .validation
        else do
          Prog.emit (.notePlanApplied userId planId)
          updateUser now userId row (renewalModify now user plan locks)) := by
    intro row locks
    split
    · exact effective_raise _
    · exact effective_emit rfl (delivers_emit rfl (delivers_commit (hΦ.query _)))
  unfold applyPlanToUser
  split
  · have hreset : EffectFree id (resetUserDataUsage userId user) :=
      confined_resetUserDataUsage rfl rfl
    exact hreset.then_effective fun row => (hΦ.query _).then_effective (hupdate row)
  · exact (hΦ.pure user).then_effective fun row => (hΦ.query _).then_effective (hupdate row)

theorem effective_createUser (user : UserCreate) (admin : Option (AdminId × Admin)) :
    Effective id status (createUser user admin) := by
  have hΦ := effectFreeRules id
  refine EffectFree.then_effective (hΦ.query _) fun refusal => ?_
  cases refusal with
  | some refusal => exact effective_raise _
  | none =>
    exact EffectFree.then_effective confined_freshKey fun key =>
      effective_emit rfl (delivers_commit (hΦ.pure _))

theorem effective_createAccountFromPlan (blueprint : User → UserCreate → Option String)
    (now ownerId : Int) (owner : User) (plan : Plan) (username : String) :
    Effective id status (createAccountFromPlan blueprint now ownerId owner plan username) := by
  have hΦ := effectFreeRules id
  refine EffectFree.then_effective (hΦ.query _) fun refusal => ?_
  cases refusal with
  | some refusal => exact effective_raise _
  | none =>
    refine EffectFree.then_effective (hΦ.query _) fun admin =>
      EffectFree.then_effective (hΦ.query _) fun locks => ?_
    dsimp only
    split
    · exact effective_raise _
    · refine Effective.then_effectFree (Effective.reraise (effective_createUser _ _) fun e => ?_)
        fun created => hΦ.bind (hΦ.emit trivial) fun _ => hΦ.bind hΦ.commit fun _ => hΦ.pure _
      cases e <;> exact ⟨_, rfl⟩

section Completion

variable {Payload : Type} (env : PaymentEnv Payload) (now : Int) (intent : PaymentIntent)

theorem effective_applyPayment : Effective id status (applyPayment env now id intent) := by
  have hΦ := effectFreeRules id
  unfold applyPayment
  split
  · exact Effective.then_effectFree (effective_addTransaction _ _ _) fun _ =>
      hΦ.tryCatch (effectFree_afterCredit now intent.adminId) fun _ => hΦ.pure _
  · refine EffectFree.then_effective (hΦ.query _) fun target => ?_
    split
    · exact EffectFree.then_effective (effectFree_createUserOrder _ _ _) fun order =>
        Effective.then_effectFree (effective_applyPlanToUser _ _ _ _ _) fun row =>
          hΦ.bind (effectFree_markOrderApplied _) fun _ => effectFree_chargeTariff _ _ _ _
    · exact effective_raise _
  · refine EffectFree.then_effective (hΦ.query _) fun target => ?_
    split
    · split
      · exact effective_raise _
      · exact EffectFree.then_effective (hΦ.query _) fun username =>
          Effective.then_effectFree (effective_createAccountFromPlan _ _ _ _ _ _) fun account =>
            hΦ.bind (effectFree_createUserOrder _ _ _) fun order =>
            hΦ.bind (effectFree_markOrderApplied _) fun _ =>
            hΦ.bind (effectFree_chargeTariff _ _ _ _) fun _ =>
            hΦ.bind (effectFree_emit rfl) fun _ => hΦ.bind (effectFree_emit rfl) fun _ => hΦ.commit
    · exact effective_raise _
  · exact effective_raise _

theorem Steady.commit_completed {ws : List Write} {d d' : Database} {log : List Write}
    (h : Steady id 1 status d log) (hws : ∀ w ∈ ws, Harmless id w)
    (happly : store.applyAll (ws ++ [.setIntentStatus id .completed]) d = some d') :
    Steady id 1 (status.map fun _ => .completed) d'
      (log ++ (ws ++ [.setIntentStatus id .completed])) := by
  rw [Store.applyAll_append] at happly
  obtain ⟨d₁, hd₁, happly⟩ := Option.bind_eq_some_iff.mp happly
  have hbefore := h.commit hws hd₁
  obtain rfl := Option.some.inj happly
  constructor
  · rw [← List.append_assoc, effects_append, hbefore.1]
    rfl
  · rw [← hbefore.2, payStatus, Dict.get?_modify, if_pos rfl, payStatus]
    cases d₁.intents.get? id <;> rfl

theorem alone_completePayment (payload : Payload) (hopen : isOpen intent.status)
    (hs : SteadyAt id 0 status s) :
    (completePayment env now id intent payload).alone store (Stage id status) s fun x s' =>
      x.isOk → Steady id 1 (status.map fun _ => .completed) s'.db s'.log ∧ s'.pend = [] := by
  unfold completePayment
  have hpending : intent.status ≠ .completed := by
    rintro heq
    rw [heq] at hopen
    cases hopen
  rw [if_neg hpending, if_neg (not_not.mpr hopen)]
  split
  · exact fun hok => nomatch hok
  · refine alone_then (effective_applyPayment env now intent s hs) ?_
    intro x s' hs'
    cases x with
    | error e => exact fun hok => nomatch hok
    | ok _ =>
      obtain ⟨hsteady, hpend⟩ := hs' rfl
      refine alone_bind.mpr (alone_emit.mpr
        (alone_commitOr (fun d happly => ?_) fun hok => nomatch hok))
      have hd := hsteady.commit_completed hpend happly
      exact ⟨.completed hd, fun _ => ⟨hd, rfl⟩⟩

end Completion

end Shahkar.Billing
