import Shahkar.Billing.Completion

/-!
# How often a payment takes effect

The requests on one intent run as sessions, any of which may die between two instructions. The
status is read when a request starts and written when it ends.
-/

namespace Shahkar.Billing

open Shahkar.Db Shahkar.Lib Shahkar.Portal
open Prog hiding commit

/-!
### Requests on one intent
-/

inductive IntentRequest (Payload : Type)
  | complete (now : Int) (payload : Payload)
  | approve (now : Int) (reviewer : AdminId × Admin)
  | reject (reviewer : AdminId × Admin)
  | expire (now : Int) (limit : Nat)

variable {Payload : Type} (env : PaymentEnv Payload) (id : Nat)

def withIntent (f : PaymentIntent → Action Unit) : Action Unit := do
  match ← Prog.query fun d => d.intents.get? id with
  | none => .raise (.http 404 "Payment not found")
  | some intent => f intent

namespace IntentRequest

def prog : IntentRequest Payload → Action Unit
  | .complete now payload => withIntent id fun intent => completePayment env now id intent payload
  | .approve now reviewer =>
    withIntent id fun intent => approvePortalPayment env now id intent reviewer
  | .reject reviewer => withIntent id fun intent => rejectPortalPayment id intent reviewer
  | .expire now limit => do
    let _ ← expireStalePortalPayments env now limit

/-- The request completes the payment and fails late. -/
def failsLate (d : Database) : IntentRequest Payload → Bool
  | .complete now payload =>
    (d.intents.get? id).any fun intent => Billing.failsLate env now d intent payload
  | .approve now _ =>
    (d.intents.get? id).any fun intent => Billing.failsLate env now d intent env.adminApproved
  | .reject _ | .expire _ _ => false

end IntentRequest

/-- A request starts when no other one is at work and does not fail late, and none dies while the
status does not tell of an effect. -/
def oneAtATime (s : Panel) : Lib.Act (IntentRequest Payload) → Bool
  | .spawn _ q => (s.sess.entries.all fun e => e.2.prog.finished) && !q.failsLate env id s.db
  | .run _ => true
  | .die _ => effects id s.log = 0 || payStatus s.db id = some .completed

/-!
### A request on its own
-/

def AtMostOnce (d : Database) (log : List Write) : Prop :=
  effects id log ≤ 1 ∧
    (payStatus d id = some .rejected ∨ payStatus d id = some .expired → effects id log = 0)

def Recorded (d : Database) (log : List Write) : Prop :=
  effects id log = 0 ∨ effects id log = 1 ∧ payStatus d id = some .completed

variable {id} {d : Database} {log : List Write} {s : Exec Database Write} {intent : PaymentIntent}

theorem Recorded.atMostOnce (h : Recorded id d log) : AtMostOnce id d log := by
  rcases h with h | ⟨h, hstatus⟩
  · exact ⟨by omega, fun _ => h⟩
  · refine ⟨by omega, fun hdown => ?_⟩
    rw [hstatus] at hdown
    rcases hdown with hdown | hdown <;> cases hdown

theorem AtMostOnce.recorded (h : AtMostOnce id d log)
    (hsafe : effects id log = 0 ∨ payStatus d id = some .completed) : Recorded id d log := by
  rcases hsafe with hsafe | hsafe
  · exact .inl hsafe
  · by_cases hnone : effects id log = 0
    · exact .inl hnone
    · have := h.1
      exact .inr ⟨by omega, hsafe⟩

theorem Recorded.none_of_open (h : Recorded id d log) (hget : d.intents.get? id = some intent)
    (hopen : isOpen intent.status) : Steady id 0 (some intent.status) d log := by
  have hstatus : payStatus d id = some intent.status := by rw [payStatus, hget, Option.map_some]
  rcases h with h | ⟨h, hcompleted⟩
  · exact ⟨h, hstatus⟩
  · rw [hstatus, Option.some.injEq] at hcompleted
    rw [hcompleted] at hopen
    cases hopen

theorem Stage.atMostOnce {status : PaymentStatus} (hopen : isOpen status)
    (h : Stage id (some status) d log) : AtMostOnce id d log := by
  cases h with
  | before h => exact ⟨by rw [h.1]; omega, fun _ => h.1⟩
  | after h =>
    refine ⟨by rw [h.1], fun hdown => ?_⟩
    rw [h.2, Option.some.injEq, Option.some.injEq] at hdown
    rcases hdown with rfl | rfl <;> cases hopen
  | completed h => exact Recorded.atMostOnce (.inr h)

def KeepsOnce {α : Type} (id : Nat) (s : Exec Database Write) (p : Action α) : Prop :=
  p.alone store (AtMostOnce id) s fun _ s' => Recorded id s'.db s'.log

theorem keepsOnce_completePayment (now : Int) (payload : Payload)
    (hget : s.db.intents.get? id = some intent) (hpend : s.pend = [])
    (hlate : failsLate env now s.db intent payload = false) (hs : Recorded id s.db s.log) :
    KeepsOnce id s (completePayment env now id intent payload) := by
  by_cases hopen : isOpen intent.status
  · have hstart : SteadyAt id 0 (some intent.status) s :=
      ⟨hs.none_of_open hget hopen, fun _ hw => absurd (hpend ▸ hw) List.not_mem_nil⟩
    refine alone_imp (fun _ _ => Stage.atMostOnce hopen) ?_
      (alone_exec (alone_completePayment env now intent payload hopen hstart))
    intro x s' hpost
    obtain ⟨hok, hexec⟩ := hpost
    cases x with
    | ok _ => exact .inr (hok rfl).1
    | error e =>
      -- refused before the first commit, since it does not fail late
      have hout := exec_of_alone (outcome_completePayment env now intent id payload hpend)
      rw [hexec, hlate] at hout
      cases hout with
      | refused _ hdb hlog =>
        rw [hdb, hlog]
        exact hs
      | late h => cases h
  · unfold KeepsOnce completePayment
    rw [if_pos hopen]
    split
    · exact hs
    · exact hs

theorem keepsOnce_approvePortalPayment (now : Int) (reviewer : AdminId × Admin)
    (hget : s.db.intents.get? id = some intent) (hpend : s.pend = [])
    (hlate : failsLate env now s.db intent env.adminApproved = false)
    (hs : Recorded id s.db s.log) :
    KeepsOnce id s (approvePortalPayment env now id intent reviewer) := by
  unfold KeepsOnce approvePortalPayment
  split
  · exact hs
  · split
    · exact hs
    · refine alone_bind.mpr (alone_query.mpr ?_)
      rw [aloneThen_ok]
      split
      · exact hs
      · exact keepsOnce_completePayment env now env.adminApproved hget hpend hlate hs

theorem Steady.commit_status {status : Option PaymentStatus} {new : PaymentStatus} {d' : Database}
    (h : Steady id 0 status d log)
    (happly : store.applyAll [.setIntentStatus id new] d = some d') :
    Steady id 0 (status.map fun _ => new) d' (log ++ [.setIntentStatus id new]) := by
  obtain rfl := Option.some.inj happly
  refine ⟨by rw [effects_append, h.1]; rfl, ?_⟩
  rw [← h.2, payStatus, Dict.get?_modify, if_pos rfl, payStatus]
  cases d.intents.get? id <;> rfl

theorem keepsOnce_rejectPortalPayment (reviewer : AdminId × Admin)
    (hget : s.db.intents.get? id = some intent) (hpend : s.pend = [])
    (hs : Recorded id s.db s.log) : KeepsOnce id s (rejectPortalPayment id intent reviewer) := by
  unfold KeepsOnce rejectPortalPayment
  cases hreview : reviewable intent with
  | some refusal => exact hs
  | none =>
    have hopen : isOpen intent.status := by
      unfold reviewable at hreview
      split at hreview
      · cases hreview
      · exact of_not_not fun hclosed => by
          rw [if_neg hclosed] at hreview
          cases hreview
    refine alone_bind.mpr (alone_query.mpr ?_)
    rw [aloneThen_ok]
    split
    · exact hs
    · refine alone_bind.mpr (alone_emit.mpr (alone_commitOr ?_ hs))
      intro d' happly
      rw [Exec.push_pend, hpend, List.nil_append] at happly
      have hd' : effects id (s.log ++ (s.pend ++ [.setIntentStatus id .rejected])) = 0 := by
        rw [hpend, List.nil_append]
        exact ((hs.none_of_open hget hopen).commit_status happly).1
      exact ⟨Recorded.atMostOnce (.inl hd'), .inl hd'⟩

theorem keepsOnce_of_confined {α : Type} {p : Action α}
    (hp : p.Confined (fun w => isEffect id w = false) (fun _ => True) fun _ => True)
    (hpend : s.pend = []) (hs : effects id s.log = 0) : KeepsOnce id s p := by
  refine alone_imp (I := fun _ log => effects id log = 0)
    (fun _ _ h => Recorded.atMostOnce (.inl h)) (fun _ _ h => .inl h.1)
    (alone_of_confined ?_ hp (by simp [hpend]) hs)
  intro ws _ _ log hws _ hlog
  rw [effects_append, hlog, effects, List.countP_eq_zero.mpr fun w hw => by simp [hws w hw]]

theorem keepsOnce_of_effectFree {α : Type} {p : Action α} (hp : EffectFree id p) (hpend : s.pend = [])
    (hs : effects id s.log = 1 ∧ payStatus s.db id = some .completed) : KeepsOnce id s p := by
  have hstart : SteadyAt id 1 (some .completed) s := ⟨hs, by simp [hpend]⟩
  exact alone_imp (fun _ _ h => Recorded.atMostOnce (.inr h)) (fun _ _ h => .inr h.1)
    (hp.alone hstart)

theorem confined_expire {P : Write → Prop} {A L : Row → Prop}
    {stale : List (Nat × PaymentIntent)} (hstatus : ∀ e ∈ stale, P (.setIntentStatus e.1 .expired))
    (hextra : ∀ key extra, P (.setIntentExtra key extra)) :
    (do
      let _ ← Prog.each (fun (e : Nat × PaymentIntent) => do
        Prog.emit (.setIntentStatus e.1 .expired)
        Prog.emit (.setIntentExtra e.1 { e.2.extra with
          expiresAt := e.2.extra.expiresAt.or
            (some (portalPaymentExpiresAt env e.2.createdAt)) })) stale
      if stale = [] then return 0
      else
        commit
        return stale.length : Action Nat).Confined P A L := by
  refine confined_bind (confined_each fun e he => ?_) fun _ => ?_
  · exact confined_bind (confined_emit.mpr (hstatus e he)) fun _ =>
      confined_emit.mpr (hextra _ _)
  · split
    · exact confined_pure _
    · exact confined_bind confined_commit fun _ => confined_pure _

theorem keepsOnce_expireStalePortalPayments (now : Int) (limit : Nat) (hpend : s.pend = [])
    (hs : Recorded id s.db s.log) :
    KeepsOnce id s (expireStalePortalPayments env now limit) := by
  refine alone_bind.mpr (alone_query.mpr ?_)
  rw [aloneThen_ok]
  rcases hs with hs | hs
  · exact keepsOnce_of_confined (confined_expire env (fun _ _ => rfl) fun _ _ => rfl) hpend hs
  · -- a completed payment is not pending
    refine keepsOnce_of_effectFree (confined_expire env (fun e he => ?_) fun _ _ => rfl) hpend hs
    rintro rfl
    have hmem := List.mem_of_mem_take (List.mem_of_mem_filter he)
    obtain ⟨hentry, hpending⟩ := List.mem_filter.mp hmem
    have hget := Dict.get?_eq_some_iff.mpr hentry
    have hcompleted := hs.2
    rw [payStatus, hget, Option.map_some, Option.some.injEq] at hcompleted
    simp [hcompleted] at hpending

theorem keepsOnce_prog (q : IntentRequest Payload) (hpend : s.pend = [])
    (hlate : q.failsLate env id s.db = false) (hs : Recorded id s.db s.log) :
    KeepsOnce id s (q.prog env id) := by
  have hload : ∀ {f : PaymentIntent → Action Unit},
      (∀ intent, s.db.intents.get? id = some intent → KeepsOnce id s (f intent)) →
      KeepsOnce id s (withIntent id f) := by
    intro f hf
    refine alone_bind.mpr (alone_query.mpr ?_)
    rw [aloneThen_ok]
    cases hget : s.db.intents.get? id with
    | none => exact hs
    | some intent => exact hf intent hget
  cases q with
  | complete now payload =>
    refine hload fun intent hget => ?_
    rw [IntentRequest.failsLate, hget, Option.any_some] at hlate
    exact keepsOnce_completePayment env now payload hget hpend hlate hs
  | approve now reviewer =>
    refine hload fun intent hget => ?_
    rw [IntentRequest.failsLate, hget, Option.any_some] at hlate
    exact keepsOnce_approvePortalPayment env now reviewer hget hpend hlate hs
  | reject reviewer =>
    exact hload fun intent hget => keepsOnce_rejectPortalPayment reviewer hget hpend hs
  | expire now limit =>
    refine alone_then (keepsOnce_expireStalePortalPayments env now limit hpend hs) ?_
    intro x s' hs'
    cases x with
    | ok _ => exact hs'
    | error _ => exact hs'

/-- **A payment has its effect at most once** in every run of orderly requests. -/
theorem payment_applied_at_most_once {Payload : Type} (env : PaymentEnv Payload) (id : Nat)
    (s₀ : Panel) (hsess : s₀.sess = .empty) (hnew : effects id s₀.log = 0) (s : Panel)
    (hrun : Run (Sys.step store (IntentRequest.prog env id))
      (fun s act => oneAtATime env id s act) s₀ s) :
    effects id s.log ≤ 1 ∧
      (payStatus s.db id = some .rejected ∨ payStatus s.db id = some .expired →
        effects id s.log = 0) := by
  refine Sys.inv_of_serial (I := AtMostOnce id) (J := Recorded id) ?_ ?_
    (fun _ _ => Recorded.atMostOnce) (.inl hnew) hsess hrun
  · intro s i q hok
    obtain ⟨hquiet, hlate⟩ := Bool.and_eq_true_iff.mp hok
    refine ⟨fun j t hj => ?_, fun hs => ?_⟩
    · exact List.all_eq_true.mp hquiet (j, t) (Dict.get?_eq_some_iff.mp hj)
    · exact keepsOnce_prog env q rfl (Bool.not_eq_true' _ ▸ hlate) hs
  · intro s i hok honce
    exact honce.recorded (by simpa [oneAtATime] using hok)

def topup : PaymentIntent :=
  { kind := .topup, adminId := 1, userId := none, planId := none, amount := 500
    provider := "card", createdAt := 0 }

def topupPanel : Panel where
  db := {
    admins := Dict.empty.set 1 { username := "reseller" }
    wallets := Dict.empty.set 1 0
    intents := Dict.empty.set 9 topup }
  next := 20
  log := []
  sess := .empty

def topupRun (phases : List (List (Lib.Act (IntentRequest Unit)))) : Option Panel :=
  execGuarded (Sys.step store (IntentRequest.prog plainEnv 9)) (fun _ _ => True) topupPanel
    phases.flatten

/-- **A payment credited twice**: overlapping, after a crash, next to a rejection. -/
theorem topup_credited_twice :
    ((topupRun [[.spawn 0 (.complete 1 ()), .spawn 1 (.complete 1 ()), .run 0, .run 1],
        .replicate 15 (.run 0), .replicate 15 (.run 1)]).map fun s =>
      (effects 9 s.log, s.db.balance 1)) = some (2, 1000) ∧
    ((topupRun [[.spawn 0 (.complete 1 ())], .replicate 6 (.run 0),
        [.die 0, .spawn 1 (.complete 2 ())], .replicate 16 (.run 1)]).map fun s =>
      (effects 9 s.log, s.db.balance 1)) = some (2, 1000) ∧
    ((topupRun [[.spawn 0 (.complete 1 ()), .run 0,
        .spawn 1 (.reject (2, { username := "root", isSudo := true }))],
        .replicate 4 (.run 1), .replicate 5 (.run 0), [.die 0]]).map fun s =>
      (effects 9 s.log, payStatus s.db 9)) = some (1, some .rejected) := by
  decide +kernel

theorem topup_completed_again :
    ∃ s, Run (Sys.step store (IntentRequest.prog plainEnv 9))
        (fun s act => oneAtATime plainEnv 9 s act) topupPanel s ∧
      (s.sess.entries.all fun e => e.2.prog.finished) = true ∧ s.db.balance 1 = 500 ∧
      effects 9 s.log ≤ 1 := by
  have hrun : (execGuarded (Sys.step store (IntentRequest.prog plainEnv 9))
      (fun s act => oneAtATime plainEnv 9 s act) topupPanel
      (.flatten [[.spawn 0 (.complete 1 ())], .replicate 16 (.run 0),
        [.spawn 1 (.complete 2 ()), .run 1]])).any (fun s =>
        (s.sess.entries.all fun e => e.2.prog.finished) && s.db.balance 1 = 500) := by
    decide +kernel
  obtain ⟨s, hs, hend⟩ := (Option.any_eq_true _ _).mp hrun
  obtain ⟨hfinished, hbalance⟩ := Bool.and_eq_true_iff.mp hend
  have horderly := Run.of_execGuarded _ hs
  exact ⟨s, horderly, hfinished, of_decide_eq_true hbalance,
    (payment_applied_at_most_once plainEnv 9 topupPanel rfl rfl s horderly).1⟩

end Shahkar.Billing
