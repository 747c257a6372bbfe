import Shahkar.Lifecycle.DeadAccounts

/-!
# The clock of an on-hold package

An account on hold has a duration and no expiry; its time starts when `review` activates it. Every
other way to `active` leaves it without an end.
-/

namespace Shahkar.Lifecycle

open Shahkar.Db Shahkar.Lib Shahkar.Usage Shahkar.Billing Shahkar.Services

/-!
### Histories of a package
-/

/-- What can happen to the account. -/
inductive PackageStep
  | markOnline (seenAt : Int)
  | addUsage (value : Int)
  | reviewActive (now : Int)
  | reviewOnHold (now : Int)
  | reviewLimited
  | updateUser (now : Int) (modify : UserModify)
  | resetUserDataUsage
  | applyBulkResetUsage
  | resetAllUsersDataUsage (admin : Option AdminId)
  | disableAllActiveUsers (admin : Option AdminId)
  | activateAllDisabledUsers (admin : Option AdminId)
  | applyBulkStatus (now : Int) (action : BulkStatusAction)
  | enforceResellerTrafficCaps (blocked others : Bool)
  | limitUserQuota

def Account.firesNextPlan (now : Int) (a : Account) : Bool :=
  let limited := a.dataLimit.any fun limit => limit ≠ 0 ∧ limit ≤ a.usedTraffic
  let expired := a.expire.any fun e => e ≠ 0 ∧ e ≤ now
  a.status = .active ∧ a.dead now ∧ a.nextPlan.any fun plan =>
    (limited ∨ expired) ∧ (plan.fireOnEither ∨ (limited ∧ expired)) ∧
      (nextPlanUser now plan a.toUser).isSome

def Account.startsClock (now : Int) (a : Account) : Bool :=
  a.status = .onHold ∧ a.onHoldExpireDuration.isSome ∧
    (a.onlineAt.any (a.editAt.getD a.createdAt ≤ ·) ∨ a.onHoldTimeout.any (· ≤ now))

namespace PackageStep

def run (a : Account) : PackageStep → Account
  | .markOnline seenAt => a.markOnline seenAt
  | .addUsage value => a.onUser (Usage.addUsage value)
  | .reviewActive now => a.reviewActive now
  | .reviewOnHold now => a.reviewOnHold now
  | .reviewLimited => a.reviewLimited
  | .updateUser now modify => a.updateUser now modify
  | .resetUserDataUsage => a.resetUserDataUsage
  | .applyBulkResetUsage => a.applyBulkResetUsage
  | .resetAllUsersDataUsage admin => a.resetAllUsersDataUsage admin
  | .disableAllActiveUsers admin => a.disableAllActiveUsers admin
  | .activateAllDisabledUsers admin => a.activateAllDisabledUsers admin
  | .applyBulkStatus now action => a.applyBulkStatus now action
  | .enforceResellerTrafficCaps blocked others => a.enforceResellerTrafficCaps blocked others
  | .limitUserQuota => a.limitUserQuota

def named : PackageStep → Bool
  | .updateUser _ modify => modify.status.isSome ∨ modify.expire.join.isSome
  | _ => false

def started (a : Account) : PackageStep → Option Int
  | .reviewOnHold now => if a.startsClock now then some now else none
  | _ => none

def renewed (a : Account) : PackageStep → Bool
  | .reviewActive now => a.firesNextPlan now
  | _ => false

def duration : PackageStep → Option Int
  | .updateUser _ modify => modify.onHoldExpireDuration
  | _ => none

end PackageStep

/-- An account that was created on hold, and its history. -/
structure Package where
  account : Account
  duration : Int
  activation : Option Int := none
  named : Bool := false
  renewed : Bool := false

namespace Package

def step (s : Package) (step : PackageStep) : Option Package := some {
  account := step.run s.account
  duration := if s.activation.isSome then s.duration else step.duration.getD s.duration
  activation := (step.started s.account).or s.activation
  named := s.named || step.named
  renewed := s.renewed || step.renewed s.account }

def waits (s : Package) : Bool := s.activation.isNone ∧ ¬ s.named

def keepsWaiting (a : Account) : PackageStep → Bool
  | .updateUser _ modify => modify.status.isSome ∨ modify.expire.join.isSome ∨
      a.status ≠ .onHold ∨ modify.dataLimit.join.all fun limit => headroom limit a.toUser
  | .resetUserDataUsage => a.status ≠ .onHold
  | .applyBulkResetUsage => a.status ≠ .onHold ∨ (a.usedTraffic = 0 ∧ ¬ a.hasNodeUsages)
  | .activateAllDisabledUsers admin =>
    ¬ a.ownedBy admin ∨ a.status ≠ .disabled ∨ a.onlineAt = none
  | .applyBulkStatus _ action => action = .disable ∨ a.status ≠ .disabled
  | _ => true

/-- A package that waits is only given steps that keep it waiting. -/
def undisturbed (s : Package) (step : PackageStep) : Bool :=
  ¬ s.waits ∨ keepsWaiting s.account step

/-- An active account has an operator's word for it, or its clock was started and has the expiry
that came of it, up to a next plan. -/
def Clocked (s : Package) : Prop :=
  s.account.status = .active → s.named ∨ ∃ t, s.activation = some t ∧
    (s.renewed ∨ s.account.expire = some (t + s.duration))

structure Waiting (duration : Int) (a : Account) : Prop where
  status : a.status = .onHold ∨ a.status = .disabled
  duration : a.onHoldExpireDuration = some duration
  expire : a.expire = none
  uncapped : a.cappedByReseller = false

structure Running (expire : Int) (a : Account) : Prop where
  status : a.status ≠ .onHold
  expire : a.expire = some expire

structure Tracks (s : Package) : Prop where
  waiting : s.named = false → s.activation = none → Waiting s.duration s.account
  running : s.named = false → ∀ t, s.activation = some t →
    s.renewed = true ∨ Running (t + s.duration) s.account

section Waiting

variable {d : Int} {a : Account}

theorem Waiting.congr (h : Waiting d a) {a' : Account} (hstatus : a'.status = a.status)
    (hduration : a'.onHoldExpireDuration = a.onHoldExpireDuration) (hexpire : a'.expire = a.expire)
    (huncapped : a'.cappedByReseller = a.cappedByReseller) : Waiting d a' :=
  ⟨hstatus ▸ h.status, hduration.trans h.duration, hexpire.trans h.expire,
    huncapped.trans h.uncapped⟩

theorem Waiting.ne (h : Waiting d a) {status : UserStatus} (hhold : status ≠ .onHold)
    (hdisabled : status ≠ .disabled) : a.status ≠ status := by
  intro heq
  rcases h.status with hstatus | hstatus
  · exact hhold (heq.symm.trans hstatus)
  · exact hdisabled (heq.symm.trans hstatus)

theorem Waiting.markOnline (h : Waiting d a) (seenAt : Int) : Waiting d (a.markOnline seenAt) := by
  unfold Account.markOnline
  split
  · exact h.congr rfl rfl rfl rfl
  · exact h

theorem Waiting.addUsage (h : Waiting d a) (value : Int) :
    Waiting d (a.onUser (Usage.addUsage value)) := by
  unfold Account.onUser Usage.addUsage
  split
  · exact h.congr rfl rfl rfl rfl
  · exact h.congr rfl rfl rfl rfl

theorem Waiting.enforceUsageCap (h : Waiting d a) :
    Waiting d (a.onUser Usage.enforceUsageCap) := by
  unfold Account.onUser Usage.enforceUsageCap
  split
  · exact h
  · exact h.congr rfl rfl rfl rfl

theorem Waiting.reviewActive (h : Waiting d a) (now : Int) : a.reviewActive now = a := by
  exact if_pos (.inl (h.ne (by decide) (by decide)))

theorem Waiting.reviewLimited (h : Waiting d a) : a.reviewLimited = a := by
  exact if_pos (h.ne (by decide) (by decide))

theorem Waiting.reviewOnHold (h : Waiting d a) {now : Int} (hstarts : a.startsClock now = false) :
    a.reviewOnHold now = a := by
  refine if_neg fun hdue => ?_
  have hsome : a.onHoldExpireDuration.isSome = true := by rw [h.duration]; rfl
  exact of_decide_eq_false hstarts ⟨hdue.1, hsome, hdue.2⟩

theorem Waiting.running (h : Waiting d a) {now : Int} (hstarts : a.startsClock now) :
    Running (now + d) (a.reviewOnHold now) := by
  obtain ⟨hhold, -, hdue⟩ := of_decide_eq_true hstarts
  have hclock : a.reviewOnHold now = { a.updateUserStatus .active with
      expire := some (now + d), onHoldExpireDuration := none, onHoldTimeout := none } := by
    have hduration : (a.updateUserStatus .active).onHoldExpireDuration = some d := h.duration
    unfold Account.reviewOnHold Account.startUserExpire
    rw [if_pos ⟨hhold, hdue⟩, hduration]
    rfl
  rw [hclock]
  exact ⟨by simp [Account.updateUserStatus], rfl⟩

theorem Waiting.updateUser (h : Waiting d a) (now : Int) {modify : UserModify}
    (hstatus : modify.status = none) (hexpire : modify.expire.join = none)
    (hlimit : a.status = .onHold → ∀ limit, modify.dataLimit.join = some limit →
      headroom limit a.toUser) :
    Waiting (modify.onHoldExpireDuration.getD d) (a.updateUser now modify) := by
  have hedited := edited_updatedUser now hstatus a.toUser
  -- the limit leaves both statuses as they are
  have hkept : (applyDataLimit modify a.toUser).status = a.status := by
    cases hnew : modify.dataLimit.join with
    | none => rw [applyDataLimit_of_none hnew]
    | some limit =>
      rw [applyDataLimit_of_some hstatus hnew]
      rcases h.status with hhold | hdisabled
      · simp [hhold, hlimit hhold limit hnew]
      · simp [hdisabled]
  refine ⟨?_, ?_, ?_, ?_⟩
  · show (updatedUser now modify a.toUser).status = _ ∨ (updatedUser now modify a.toUser).status = _
    rw [hedited.status, hkept, settled_of_kept _ _ _ h.status.symm]
    exact h.status
  · show (updatedUser now modify a.toUser).onHoldExpireDuration = _
    rw [onHoldExpireDuration_updatedUser now modify _ hstatus, h.duration]
    cases modify.onHoldExpireDuration <;> rfl
  · show (updatedUser now modify a.toUser).expire = none
    rw [hedited.expire, nextLimit, hexpire]
    exact h.expire
  · exact (cappedByReseller_updatedUser now modify a.toUser).trans h.uncapped

theorem Waiting.resetUserDataUsage (h : Waiting d a) (hhold : a.status ≠ .onHold) :
    Waiting d a.resetUserDataUsage := by
  have hdisabled : a.status = .disabled := h.status.resolve_left hhold
  exact h.congr (if_pos (.inr hdisabled)) rfl rfl rfl

theorem Waiting.applyBulkResetUsage (h : Waiting d a)
    (hok : a.status ≠ .onHold ∨ (a.usedTraffic = 0 ∧ ¬ a.hasNodeUsages)) :
    Waiting d a.applyBulkResetUsage := by
  unfold Account.applyBulkResetUsage
  split
  · exact h
  · next hused => exact h.resetUserDataUsage (hok.resolve_right hused)

theorem Waiting.resetAllUsersDataUsage (h : Waiting d a) (admin : Option AdminId) :
    Waiting d (a.resetAllUsersDataUsage admin) := by
  unfold Account.resetAllUsersDataUsage
  split
  · exact h
  · refine h.congr (if_pos ?_) rfl rfl rfl
    exact h.status.imp_right .inr

theorem Waiting.disableAllActiveUsers (h : Waiting d a) (admin : Option AdminId) :
    Waiting d (a.disableAllActiveUsers admin) := by
  unfold Account.disableAllActiveUsers
  split
  · exact ⟨.inr rfl, h.duration, h.expire, h.uncapped⟩
  · exact h

theorem Waiting.activateAllDisabledUsers (h : Waiting d a) {admin : Option AdminId}
    (hok : ¬ a.ownedBy admin ∨ a.status ≠ .disabled ∨ a.onlineAt = none) :
    Waiting d (a.activateAllDisabledUsers admin) := by
  unfold Account.activateAllDisabledUsers
  split
  · exact h
  split
  · exact ⟨.inl rfl, h.duration, h.expire, h.uncapped⟩
  split
  · next howned hheld hdisabled =>
      have hoffline : a.onlineAt = none :=
        (hok.resolve_left howned).resolve_left fun hne => hne hdisabled
      refine absurd (decide_eq_true ⟨hdisabled, h.expire, ?_, hoffline⟩) hheld
      rw [h.duration]
      exact Option.some_ne_none d
  · exact h

theorem Waiting.applyBulkStatus (h : Waiting d a) {now : Int} {action : BulkStatusAction}
    (hok : action = .disable ∨ a.status ≠ .disabled) :
    Waiting d (a.applyBulkStatus now action) := by
  unfold Account.applyBulkStatus bulkStatus
  cases action with
  | disable =>
    by_cases hdisabled : a.status = .disabled
    · simpa [hdisabled] using h
    · simp only [hdisabled, if_false]
      exact ⟨.inr rfl, h.duration, h.expire, h.uncapped⟩
  | enable =>
    have hne : a.status ≠ .disabled := hok.resolve_left (by decide)
    simpa [hne] using h

theorem Waiting.enforceResellerTrafficCaps (h : Waiting d a) (blocked others : Bool) :
    a.enforceResellerTrafficCaps blocked others = a := by
  have hactive : a.status ≠ .active := h.ne (by decide) (by decide)
  unfold Account.enforceResellerTrafficCaps Account.onUser enforcedUser
  simp [hactive, h.uncapped]

theorem Waiting.limitUserQuota (h : Waiting d a) : Waiting d a.limitUserQuota := by
  have hcap := h.enforceUsageCap
  have hstays : staysActive (a.onUser Usage.enforceUsageCap).toUser = true :=
    decide_eq_true (.inl (hcap.ne (by decide) (by decide)))
  unfold Account.limitUserQuota
  rw [if_pos hstays]
  exact hcap

end Waiting

section Running

variable {e : Int} {a : Account}

theorem Running.markOnline (h : Running e a) (seenAt : Int) : Running e (a.markOnline seenAt) := by
  unfold Account.markOnline
  split
  · exact ⟨h.status, h.expire⟩
  · exact h

theorem Running.addUsage (h : Running e a) (value : Int) :
    Running e (a.onUser (Usage.addUsage value)) := by
  unfold Account.onUser Usage.addUsage
  split
  · exact ⟨h.status, h.expire⟩
  · exact ⟨h.status, h.expire⟩

theorem Running.enforceUsageCap (h : Running e a) :
    Running e (a.onUser Usage.enforceUsageCap) := by
  unfold Account.onUser Usage.enforceUsageCap
  split
  · exact h
  · exact ⟨h.status, h.expire⟩

theorem Running.updateUserStatus (h : Running e a) {status : UserStatus} (hne : status ≠ .onHold) :
    Running e (a.updateUserStatus status) := ⟨hne, h.expire⟩

theorem Running.limitUserQuota (h : Running e a) : Running e a.limitUserQuota := by
  unfold Account.limitUserQuota
  dsimp only
  split
  · exact h.enforceUsageCap
  · exact h.enforceUsageCap.updateUserStatus (by decide)

theorem Running.reviewActive (h : Running e a) {now : Int} (hkept : a.firesNextPlan now = false) :
    Running e (a.reviewActive now) := by
  unfold Account.reviewActive
  split
  · exact h
  · next hdue =>
      simp only [not_or, not_not] at hdue
      dsimp only
      split
      · next plan hplan =>
          split
          · next u hu =>
              obtain ⟨hnext, hfires⟩ := Option.filter_eq_some_iff.mp hplan
              refine absurd (decide_eq_true ⟨hdue.1, hdue.2, ?_⟩) (Bool.eq_false_iff.mp hkept)
              rw [hnext, Option.any_some, decide_eq_true_iff]
              have hboth := of_decide_eq_true hfires
              exact ⟨hboth.1, hboth.2, by rw [hu]; rfl⟩
          · exact h
      · split_ifs
        · exact h.limitUserQuota
        · exact h.updateUserStatus (by decide)
        · exact h

theorem Running.reviewOnHold (h : Running e a) (now : Int) : a.reviewOnHold now = a := by
  exact if_neg fun hdue => h.status hdue.1

theorem Running.reviewLimited (h : Running e a) : Running e a.reviewLimited := by
  unfold Account.reviewLimited
  split_ifs
  · exact h
  · exact h.enforceUsageCap
  · unfold Account.onUser
    rw [reactivateIfQuotaAvailable_eq]
    refine ⟨?_, h.expire⟩
    dsimp only
    split
    · decide
    · exact h.status

theorem Running.updateUser (h : Running e a) (now : Int) {modify : UserModify}
    (hstatus : modify.status = none) (hexpire : modify.expire.join = none) :
    Running e (a.updateUser now modify) := by
  have hedited := edited_updatedUser now hstatus a.toUser
  have hkept : (applyDataLimit modify a.toUser).status ≠ .onHold := by
    cases hnew : modify.dataLimit.join with
    | none =>
      rw [applyDataLimit_of_none hnew]
      exact h.status
    | some limit =>
      rw [applyDataLimit_of_some hstatus hnew]
      dsimp only
      split_ifs with hdone hroom hheld
      · exact h.status
      · exact absurd hheld h.status
      · decide
      · decide
  refine ⟨?_, ?_⟩
  · show (updatedUser now modify a.toUser).status ≠ .onHold
    rw [hedited.status, hexpire, settled]
    split
    · decide
    · exact hkept
  · show (updatedUser now modify a.toUser).expire = some e
    rw [hedited.expire, nextLimit, hexpire]
    exact h.expire

theorem Running.resetUserDataUsage (h : Running e a) : Running e a.resetUserDataUsage := by
  refine ⟨?_, h.expire⟩
  show (resetUser a.toUser).status ≠ .onHold
  unfold resetUser
  dsimp only
  split
  · exact h.status
  · decide

theorem Running.applyBulkResetUsage (h : Running e a) : Running e a.applyBulkResetUsage := by
  unfold Account.applyBulkResetUsage
  split
  · exact h
  · exact h.resetUserDataUsage

theorem Running.resetAllUsersDataUsage (h : Running e a) (admin : Option AdminId) :
    Running e (a.resetAllUsersDataUsage admin) := by
  unfold Account.resetAllUsersDataUsage
  split
  · exact h
  · refine ⟨?_, h.expire⟩
    dsimp only
    split
    · exact h.status
    · decide

theorem Running.disableAllActiveUsers (h : Running e a) (admin : Option AdminId) :
    Running e (a.disableAllActiveUsers admin) := by
  unfold Account.disableAllActiveUsers
  split
  · exact ⟨by simp, h.expire⟩
  · exact h

theorem Running.activateAllDisabledUsers (h : Running e a) (admin : Option AdminId) :
    Running e (a.activateAllDisabledUsers admin) := by
  unfold Account.activateAllDisabledUsers
  split
  · exact h
  split
  · next hheld =>
      have hnone : a.expire = none := (of_decide_eq_true hheld).2.1
      rw [h.expire] at hnone
      cases hnone
  split
  · exact ⟨by simp, h.expire⟩
  · exact h

theorem reactivatedStatus_ne_onHold (now : Int) (u : User) : reactivatedStatus now u ≠ .onHold := by
  unfold reactivatedStatus
  split_ifs <;> decide

theorem Running.applyBulkStatus (h : Running e a) (now : Int) (action : BulkStatusAction) :
    Running e (a.applyBulkStatus now action) := by
  unfold Account.applyBulkStatus
  split
  · exact h
  · next status hstatus =>
      refine ⟨?_, h.expire⟩
      show status ≠ .onHold
      cases action with
      | disable =>
        obtain ⟨-, hdisabled⟩ := Option.ite_none_left_eq_some.mp hstatus
        rw [← Option.some.inj hdisabled]
        decide
      | enable =>
        obtain ⟨-, henabled⟩ := Option.ite_none_left_eq_some.mp hstatus
        rw [← Option.some.inj henabled]
        exact reactivatedStatus_ne_onHold now a.toUser

theorem Running.enforceResellerTrafficCaps (h : Running e a) (blocked others : Bool) :
    Running e (a.enforceResellerTrafficCaps blocked others) := by
  unfold Account.enforceResellerTrafficCaps Account.onUser enforcedUser
  split_ifs
  · exact h
  · exact ⟨by simp [suspendedUser], h.expire⟩
  · exact h
  · refine ⟨?_, h.expire⟩
    unfold restoredUser
    dsimp only
    split <;> decide
  · exact h

end Running

section Runs

variable {a : Account} {step : PackageStep}

theorem Waiting.run {d : Int} (h : Waiting d a) (hok : keepsWaiting a step)
    (hnamed : step.named = false) (hstarted : step.started a = none) :
    Waiting (step.duration.getD d) (step.run a) := by
  cases step with
  | markOnline seenAt => exact h.markOnline seenAt
  | addUsage value => exact h.addUsage value
  | reviewActive now =>
    rw [PackageStep.run, h.reviewActive]
    exact h
  | reviewOnHold now =>
    have hwaits : a.startsClock now = false := by
      by_contra hstarts
      rw [Bool.not_eq_false] at hstarts
      rw [PackageStep.started, if_pos hstarts] at hstarted
      cases hstarted
    rw [PackageStep.run, h.reviewOnHold hwaits]
    exact h
  | reviewLimited =>
    rw [PackageStep.run, h.reviewLimited]
    exact h
  | updateUser now modify =>
    obtain ⟨hstatus, hexpire⟩ := not_or.mp (of_decide_eq_false hnamed)
    refine h.updateUser now (Option.not_isSome_iff_eq_none.mp hstatus)
      (Option.not_isSome_iff_eq_none.mp hexpire) ?_
    intro hhold limit hlimit
    have hroom := (((of_decide_eq_true hok).resolve_left hstatus).resolve_left hexpire).resolve_left
      fun hne => hne hhold
    rw [hlimit] at hroom
    exact hroom
  | resetUserDataUsage => exact h.resetUserDataUsage (of_decide_eq_true hok)
  | applyBulkResetUsage => exact h.applyBulkResetUsage (of_decide_eq_true hok)
  | resetAllUsersDataUsage admin => exact h.resetAllUsersDataUsage admin
  | disableAllActiveUsers admin => exact h.disableAllActiveUsers admin
  | activateAllDisabledUsers admin => exact h.activateAllDisabledUsers (of_decide_eq_true hok)
  | applyBulkStatus now action => exact h.applyBulkStatus (of_decide_eq_true hok)
  | enforceResellerTrafficCaps blocked others =>
    rw [PackageStep.run, h.enforceResellerTrafficCaps]
    exact h
  | limitUserQuota => exact h.limitUserQuota

theorem Running.run {e : Int} (h : Running e a) (hnamed : step.named = false)
    (hrenewed : step.renewed a = false) :
    Running e (step.run a) := by
  cases step with
  | markOnline seenAt => exact h.markOnline seenAt
  | addUsage value => exact h.addUsage value
  | reviewActive now => exact h.reviewActive hrenewed
  | reviewOnHold now =>
    rw [PackageStep.run, h.reviewOnHold]
    exact h
  | reviewLimited => exact h.reviewLimited
  | updateUser now modify =>
    obtain ⟨hstatus, hexpire⟩ := not_or.mp (of_decide_eq_false hnamed)
    exact h.updateUser now (Option.not_isSome_iff_eq_none.mp hstatus)
      (Option.not_isSome_iff_eq_none.mp hexpire)
  | resetUserDataUsage => exact h.resetUserDataUsage
  | applyBulkResetUsage => exact h.applyBulkResetUsage
  | resetAllUsersDataUsage admin => exact h.resetAllUsersDataUsage admin
  | disableAllActiveUsers admin => exact h.disableAllActiveUsers admin
  | activateAllDisabledUsers admin => exact h.activateAllDisabledUsers admin
  | applyBulkStatus now action => exact h.applyBulkStatus now action
  | enforceResellerTrafficCaps blocked others =>
    exact h.enforceResellerTrafficCaps blocked others
  | limitUserQuota => exact h.limitUserQuota

theorem started_eq_some_iff {t : Int} :
    step.started a = some t ↔ step = .reviewOnHold t ∧ a.startsClock t := by
  cases step with
  | reviewOnHold now =>
    rw [PackageStep.started, Option.ite_none_right_eq_some, PackageStep.reviewOnHold.injEq,
      Option.some.injEq]
    constructor
    · rintro ⟨hstarts, rfl⟩
      exact ⟨rfl, hstarts⟩
    · rintro ⟨rfl, hstarts⟩
      exact ⟨hstarts, rfl⟩
  | _ => simp [PackageStep.started]

theorem Running.started {e : Int} (h : Running e a) (step : PackageStep) :
    step.started a = none := by
  rw [Option.eq_none_iff_forall_ne_some]
  intro t hstarted
  obtain ⟨-, hstarts⟩ := started_eq_some_iff.mp hstarted
  exact h.status (of_decide_eq_true hstarts).1

theorem tracks_step {s s' : Package} (h : s.Tracks) (hok : s.undisturbed step)
    (hstep : s.step step = some s') : s'.Tracks := by
  cases hstep
  refine ⟨?_, ?_⟩
  · intro hnamed hactivation
    obtain ⟨hwas, hstepNamed⟩ := Bool.or_eq_false_iff.mp hnamed
    obtain ⟨hstarted, hbefore⟩ := Option.or_eq_none_iff.mp hactivation
    have hwaits : s.waits = true := decide_eq_true ⟨by simp [hbefore], by simp [hwas]⟩
    have hkeeps := (of_decide_eq_true hok).resolve_left fun hnot => hnot hwaits
    have hafter := (h.waiting hwas hbefore).run hkeeps hstepNamed hstarted
    simpa [hbefore] using hafter
  · intro hnamed t hactivation
    obtain ⟨hwas, hstepNamed⟩ := Bool.or_eq_false_iff.mp hnamed
    cases hbefore : s.activation with
    | none =>
      -- the clock starts with this step
      have hstarted : step.started s.account = some t := by simpa [hbefore] using hactivation
      obtain ⟨rfl, hstarts⟩ := started_eq_some_iff.mp hstarted
      exact .inr ((h.waiting hwas hbefore).running hstarts)
    | some t₀ =>
      rcases h.running hwas t₀ hbefore with hrenewed | hrunning
      · exact .inl (by simp [hrenewed])
      · have ht : t₀ = t := by simpa [hbefore, hrunning.started] using hactivation
        subst ht
        cases hrenews : step.renewed s.account with
        | true => exact .inl (by simp)
        | false => exact .inr (by simpa using hrunning.run hstepNamed hrenews)

theorem Tracks.clocked {s : Package} (h : s.Tracks) : s.Clocked := by
  intro hactive
  cases hnamed : s.named with
  | true => exact .inl rfl
  | false =>
    right
    cases hactivation : s.activation with
    | none => exact absurd hactive ((h.waiting hnamed hactivation).ne (by decide) (by decide))
    | some t =>
      refine ⟨t, rfl, ?_⟩
      exact (h.running hnamed t hactivation).imp_right fun hrunning => hrunning.expire

def created (user : UserCreate) (admin : Option AdminId) (createdAt d : Int) : Package where
  account := { toUser := newUser user admin, createdAt := createdAt }
  duration := d

theorem tracks_created {user : UserCreate} (admin : Option AdminId) (createdAt : Int) {d : Int}
    (hstatus : user.status = .onHold) (hduration : user.onHoldExpireDuration = some d)
    (hpos : 0 < d) (hexpire : orNone user.expire = none) :
    (created user admin createdAt d).Tracks := by
  refine ⟨fun _ _ => ⟨.inl hstatus, ?_, hexpire, rfl⟩, fun _ t ht => by cases ht⟩
  show orNone user.onHoldExpireDuration = some d
  rw [hduration]
  exact Option.filter_eq_some_iff.mpr ⟨rfl, decide_eq_true (by omega)⟩

end Runs

end Package

/-- **An undisturbed package keeps its clock.** -/
theorem active_package_has_clock (user : UserCreate) (admin : Option AdminId) (createdAt d : Int)
    (hstatus : user.status = .onHold) (hduration : user.onHoldExpireDuration = some d)
    (hpos : 0 < d) (hexpire : orNone user.expire = none) (s : Package)
    (hrun : Run Package.step (fun s step => s.undisturbed step)
      (Package.created user admin createdAt d) s) : s.Clocked := by
  have h := hrun.invariant Package.Tracks
    (Package.tracks_created admin createdAt hstatus hduration hpos hexpire) Package.tracks_step
  exact h.clocked

def monthly : UserCreate where
  username := "user"
  status := .onHold
  dataLimit := some 100
  onHoldExpireDuration := some 2592000

def Package.after (ok : Package → PackageStep → Prop) [∀ s step, Decidable (ok s step)]
    (steps : List PackageStep) : Option Package :=
  execGuarded Package.step ok (Package.created monthly (some 1) 0 2592000) steps

theorem held_package_is_clocked :
    ∃ s, Package.after (fun s step => s.undisturbed step) [.disableAllActiveUsers none,
        .activateAllDisabledUsers none, .markOnline 10, .reviewOnHold 20] = some s ∧
      s.account.status = .active ∧ s.account.expire = some 2592020 ∧ s.Clocked := by
  refine ⟨_, rfl, rfl, rfl, ?_⟩
  exact active_package_has_clock monthly (some 1) 0 2592000 rfl rfl (by decide) rfl _
    (Run.of_execGuarded [.disableAllActiveUsers none, .activateAllDisabledUsers none,
      .markOnline 10, .reviewOnHold 20] rfl)

/-- The ways to an active account without a clock. -/
theorem package_loses_clock : ([[.resetUserDataUsage],
      [.addUsage 10, .applyBulkResetUsage],
      [.disableAllActiveUsers none, .applyBulkStatus 5 .enable],
      [.applyBulkStatus 5 .disable, .applyBulkStatus 6 .enable],
      [.markOnline 5, .disableAllActiveUsers none, .activateAllDisabledUsers none],
      [.addUsage 50, .updateUser 5 { dataLimit := some (some 50) },
        .updateUser 6 { dataLimit := some (some 100) }]] : List (List PackageStep)).all
      (fun steps => (Package.after (fun _ _ => True) steps).any fun s =>
        s.account.status = .active ∧ s.account.expire = none ∧ s.activation = none ∧
          ¬ s.named) = true := by
  decide

end Shahkar.Lifecycle
