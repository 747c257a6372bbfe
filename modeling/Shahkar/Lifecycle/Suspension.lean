import Shahkar.Lifecycle.DeadAccounts

/-!
# Suspension with the reseller as an overlay

Only the flag `capped_by_reseller` tells that the reseller's debts are the reason why an account is
`disabled`. The operators' actions leave the flag alone, so the restore overwrites what they
decided.
-/

namespace Shahkar.Lifecycle

open Shahkar.Db Shahkar.Lib Shahkar.Usage Shahkar.Billing Shahkar.Services
open Prog hiding commit

/-!
### Histories of a suspended account
-/

/-- An account, and the last decision an operator made about it since it was suspended. -/
structure Overlay where
  account : Account
  decision : Option UserStatus := none

structure StatusEdit where
  modify : UserModify
  status : UserStatus
  explicit : modify.status = some status

inductive OverlayStep
  | updateUser (now : Int) (edit : StatusEdit)
  | applyBulkStatus (now : Int) (action : BulkStatusAction)
  | enforce (now : Int) (blocked others : Bool)

namespace Overlay

/-- An edit decides on the status it names, a bulk action on the status it leaves. -/
def step (s : Overlay) : OverlayStep → Option Overlay
  | .updateUser now edit => some ⟨s.account.updateUser now edit.modify, some edit.status⟩
  | .applyBulkStatus now action =>
    let account := s.account.applyBulkStatus now action
    some ⟨account, some account.status⟩
  | .enforce _ blocked others =>
    some { s with account := s.account.enforceResellerTrafficCaps blocked others }

/-- Operators leave a suspended account alone, and a call that finds the reseller no longer blocked
finds a status that the restore knows. -/
def undisturbed (s : Overlay) : OverlayStep → Bool
  | .updateUser _ edit => ¬ s.account.cappedByReseller ∧
      (edit.status = .limited → edit.modify.dataLimit.join = none)
  | .applyBulkStatus _ _ => ¬ s.account.cappedByReseller
  | .enforce now blocked others => blocked ∨
      if s.decision.isNone then ¬ s.account.expired now ∧
        (s.account.cappedByReseller ∧ quotaExhausted s.account.toUser → others)
      else s.account.cappedByReseller → ¬ quotaExhausted s.account.toUser

structure Tracks (s : Overlay) : Prop where
  owned : s.account.adminId ≠ none
  capped : s.account.cappedByReseller = true →
    s.account.status = .disabled ∧ (s.decision = none ∨ s.decision = some .active)
  uncapped : s.account.cappedByReseller = false →
    s.account.status =
      s.decision.getD (if quotaExhausted s.account.toUser then .limited else .active)

end Overlay

/-!
### Operators
-/

section Operators

variable (now : Int) (a : Account)

theorem status_updatedUser (edit : StatusEdit) (u : User)
    (hlimited : edit.status = .limited → edit.modify.dataLimit.join = none) :
    (updatedUser now edit.modify u).status = edit.status := by
  have hsome : edit.modify.status.isSome = true := by rw [edit.explicit]; rfl
  have hstatus : (applyStatus edit.modify u).status = edit.status := by
    unfold applyStatus
    rw [edit.explicit]
    dsimp only
    split_ifs <;> rfl
  have hlimit : ∀ v, (applyDataLimit edit.modify v).status = v.status := by
    intro v
    cases h : edit.modify.dataLimit.join with
    | none => rw [applyDataLimit_of_none h]
    | some limit => rw [applyDataLimit_eq h, if_pos (.inl hsome), recharged_status]
  have hexpire : ∀ v, (applyExpire now edit.modify v).status = v.status := by
    intro v
    unfold applyExpire
    split
    · rfl
    · dsimp only
      rw [if_pos (.inl hsome)]
  have hleft := (hexpire _).trans ((hlimit _).trans hstatus)
  unfold updatedUser
  split
  · next hreactivates =>
      rw [reactivateIfQuotaAvailable_eq]
      refine (if_neg fun h => ?_).trans hleft
      -- only a new data limit lets a named `limited` be undone
      have hnamed : edit.status = .limited := hleft.symm.trans h.1
      rw [edit.explicit, hnamed, hlimited hnamed] at hreactivates
      simp at hreactivates
  · exact hleft

@[simp] theorem adminId_applyBulkStatus (action : BulkStatusAction) :
    (a.applyBulkStatus now action).adminId = a.adminId := by
  unfold Account.applyBulkStatus
  split <;> rfl

@[simp] theorem cappedByReseller_applyBulkStatus (action : BulkStatusAction) :
    (a.applyBulkStatus now action).cappedByReseller = a.cappedByReseller := by
  unfold Account.applyBulkStatus
  split <;> rfl

end Operators

section Enforcement

variable {others : Bool} {u : User}

theorem enforcedUser_blocked (hadmin : u.adminId ≠ none) :
    enforcedUser true others u = if u.status = .active then suspendedUser u else u := by
  simp [enforcedUser, hadmin]

theorem enforcedUser_unblocked (hadmin : u.adminId ≠ none) :
    enforcedUser false others u =
      if u.cappedByReseller ∧ (others ∨ ¬ quotaExhausted u) then restoredUser u else u := by
  simp [enforcedUser, hadmin]

theorem reactivatedStatus_of_not_expired {now : Int} {a : Account} (h : a.expired now = false) :
    reactivatedStatus now a.toUser =
      if quotaExhausted a.toUser then .limited else .active := by
  rw [quotaExhausted_eq]
  exact if_neg (Bool.eq_false_iff.mp h)

end Enforcement

section Session

variable (blocked : AdminId → Bool)

def changes (u : User) : Bool := u.adminId.any fun a =>
  if blocked a then u.status = .active else u.cappedByReseller ∧ ¬ quotaExhausted u

def othersChange (users : Dict Int User) (id : Int) : Bool :=
  users.entries.any fun e => e.1 ≠ id ∧ changes blocked e.2

def enforcedIn (users : Dict Int User) (id : Int) (u : User) : User :=
  enforcedUser (u.adminId.any blocked) (othersChange blocked users id) u

def suspends (u : User) : Bool := u.status = .active ∧ u.adminId.any blocked

def restores (u : User) : Bool := u.cappedByReseller ∧ u.adminId.any fun a => ¬ blocked a

def enforcementWrites (users : Dict Int User) : List Write :=
  ((users.entries.filter fun e => suspends blocked e.2).map fun e =>
      .updateUser e.1 e.2 (suspendedUser e.2)) ++
    (users.entries.filter fun e => restores blocked e.2).map fun e =>
      .updateUser e.1 e.2 (restoredUser e.2)

theorem not_restores_of_suspends {u : User} (h : suspends blocked u) : ¬ restores blocked u := by
  unfold suspends at h
  unfold restores
  cases hadmin : u.adminId with
  | none => simp
  | some a =>
    rw [hadmin] at h
    have hblocked : blocked a = true := (of_decide_eq_true h).2
    simp [hblocked]

theorem applyAll_enforcementWrites (d : Database) :
    ∃ d', store.applyAll (enforcementWrites blocked d.users) d = some d' ∧
      ∀ id u, d.users.get? id = some u → d'.users.get? id = some
        (if suspends blocked u then suspendedUser u
        else if restores blocked u then restoredUser u else u) := by
  unfold enforcementWrites
  rw [Store.applyAll_append, applyAll_updateUser, Option.bind_some, applyAll_updateUser]
  refine ⟨_, rfl, ?_⟩
  intro id u hu
  rw [Dict.get?_foldl_modify (fun (e : User) => User.written e (restoredUser e)),
    Dict.get?_foldl_modify (fun (e : User) => User.written e (suspendedUser e)), hu,
    Dict.onKey_filter _ hu, Dict.onKey_filter _ hu]
  by_cases hsuspends : suspends blocked u
  · simp [hsuspends, not_restores_of_suspends blocked hsuspends]
  · by_cases hrestores : restores blocked u <;> simp [hsuspends, hrestores]

def commits (users : Dict Int User) : Bool := users.entries.any fun e => changes blocked e.2

section Rows

variable {blocked} {users : Dict Int User} {id : Int} {u : User}

theorem changes_eq : changes blocked u =
    (suspends blocked u || (restores blocked u && !quotaExhausted u)) := by
  unfold changes suspends restores
  cases u.adminId with
  | none => simp
  | some a => cases hblocked : blocked a <;> simp [hblocked]

theorem enforcedIn_eq : enforcedIn blocked users id u =
    if suspends blocked u then suspendedUser u
    else if restores blocked u ∧ (othersChange blocked users id ∨ ¬ quotaExhausted u) then
      restoredUser u
    else u := by
  unfold enforcedIn enforcedUser suspends restores
  cases u.adminId with
  | none => simp
  | some a => cases hblocked : blocked a <;> simp [hblocked]

theorem enforcedIn_of_not_commits (h : commits blocked users = false) (hu : users.get? id = some u) :
    enforcedIn blocked users id u = u := by
  have hnone : ∀ e ∈ users.entries, changes blocked e.2 = false := by
    simpa [commits] using h
  have hself := hnone _ (Dict.get?_eq_some_iff.mp hu)
  have hothers : othersChange blocked users id = false := by
    rw [othersChange, List.any_eq_false]
    intro e he
    simp [hnone e he]
  rw [changes_eq, Bool.or_eq_false_iff] at hself
  rw [enforcedIn_eq, hothers, hself.1]
  by_cases hrestores : restores blocked u
  · have hexhausted : quotaExhausted u = true := by simpa [hrestores] using hself.2
    simp [hexhausted]
  · simp [hrestores]

theorem enforcedIn_of_commits (h : commits blocked users) (hu : users.get? id = some u) :
    enforcedIn blocked users id u =
      if suspends blocked u then suspendedUser u
      else if restores blocked u then restoredUser u else u := by
  rw [enforcedIn_eq]
  by_cases hsuspends : suspends blocked u
  · simp [hsuspends]
  by_cases hexhausted : quotaExhausted u
  · -- another row is the reason for the commit
    have hself : changes blocked u = false := by simp [changes_eq, hsuspends, hexhausted]
    obtain ⟨e, he, hchanges⟩ := List.any_eq_true.mp h
    have hother : e.1 ≠ id := by
      intro hid
      have hget : users.get? id = some e.2 := Dict.get?_eq_some_iff.mpr (hid ▸ he)
      rw [Option.some.inj (hget.symm.trans hu), hself] at hchanges
      cases hchanges
    have hothers : othersChange blocked users id = true :=
      List.any_eq_true.mpr ⟨e, he, decide_eq_true ⟨hother, hchanges⟩⟩
    simp [hothers]
  · simp [hexhausted]

theorem commits_eq_false_iff : commits blocked users = false ↔
    (users.entries.filter fun e => suspends blocked e.2).length +
      ((users.entries.filter fun e => restores blocked e.2).filter fun e =>
        ¬ quotaExhausted e.2).length = 0 := by
  unfold commits
  simp only [changes_eq, List.any_eq_false, Nat.add_eq_zero_iff, List.length_eq_zero_iff,
    List.filter_eq_nil_iff, List.mem_filter]
  refine ⟨fun h => ⟨?_, ?_⟩, fun h e he => ?_⟩
  · intro e he hsuspends
    exact h e he (by simp [hsuspends])
  · intro e he hexhausted
    exact h e he.1 (by simp [he.2, of_decide_eq_true hexhausted])
  · have hsuspends := h.1 e he
    have hrestores := h.2 e
    simp_all

end Rows

def SameUsers (users : Dict Int User) (s : Exec Database Write) : Prop :=
  s.db.users = users ∧ s.pend = []

theorem maintains_insert {α : Type} {users : Dict Int User} {w : Write} {k : Action α}
    (hw : ∀ d d', w.apply d = some d' → d'.users = d.users)
    (hk : k.Maintains store (fun _ _ => True) (SameUsers users)) :
    (do Prog.emit w; commit; k : Action α).Maintains store (fun _ _ => True)
      (SameUsers users) := by
  intro s hs
  refine alone_bind.mpr (alone_emit.mpr (alone_bind.mpr ?_))
  refine alone_commitOr (fun d happly => ⟨trivial, hk _ ⟨?_, rfl⟩⟩) ⟨hs.1, rfl⟩
  rw [Exec.push_pend, hs.2] at happly
  obtain ⟨d₁, hone, hnil⟩ := Option.bind_eq_some_iff.mp happly
  cases hnil
  exact (hw _ _ hone).trans hs.1

theorem maintains_resellersWithUnpaidUsage (users : Dict Int User) (now : Int) :
    (resellersWithUnpaidUsage now).Maintains store (fun _ _ => True) (SameUsers users) := by
  refine holds_resellersWithUnpaidUsage compositional_maintains ?_ ?_ now
  · intro now a
    refine Prog.Maintains.bind (maintains_query _) fun found => ?_
    cases found with
    | some row => exact maintains_pure row
    | none =>
      refine Prog.Maintains.bind (maintains_query _) fun row => ?_
      refine maintains_insert ?_ (maintains_query _)
      intro d d' happly
      rw [← (eq_of_ite_none happly).2]
  · intro live a
    cases live with
    | some balance => exact maintains_pure balance
    | none =>
      refine Prog.Maintains.bind (fun _ h => h) fun found => ?_
      cases found with
      | some balance => exact maintains_pure balance
      | none =>
        refine maintains_insert ?_ fun _ h => h
        intro d d' happly
        rw [← (eq_of_ite_none happly).2]

theorem alone_enforceResellerTrafficCaps (now : Int) {s : Exec Database Write}
    (hpend : s.pend = []) :
    (Billing.enforceResellerTrafficCaps now).alone store (fun _ _ => True) s fun _ s' =>
      ∃ blocked : AdminId → Bool, ∀ id u, s.db.users.get? id = some u →
        s'.db.users.get? id = some (enforcedIn blocked s.db.users id u) := by
  have hreads := maintains_resellersWithUnpaidUsage s.db.users now
  refine alone_bind.mpr (alone_query.mpr ?_)
  refine alone_then (hreads.alone_swallow [] ⟨rfl, hpend⟩) ?_
  intro x s' hpost
  obtain ⟨⟨walletBlocked, rfl⟩, husers, hpend'⟩ := hpost
  refine alone_bind.mpr (alone_query.mpr ?_)
  refine alone_bind.mpr (alone_each_emit.mpr ?_)
  refine alone_bind.mpr (alone_query.mpr ?_)
  refine alone_bind.mpr (alone_each_emit.mpr ?_)
  generalize ((_ : List AdminId) ++ walletBlocked) = suspended
  -- the reads saw the rows of `s`, and the buffer was empty
  dsimp only [aloneThen_ok]
  rw [hpend', List.nil_append, husers]
  let blocked : AdminId → Bool := fun a => a ∈ suspended
  have hunblocked : (fun a => decide (¬ a ∈ suspended)) = fun a => decide (¬ blocked a) := by
    simp [blocked]
  rw [hunblocked, List.length_map, List.length_map]
  split
  · next hnone =>
      have hcommits : commits blocked s.db.users = false := commits_eq_false_iff.mpr hnone
      refine ⟨blocked, fun id u hu => ?_⟩
      rw [enforcedIn_of_not_commits hcommits hu]
      exact husers ▸ hu
  · next hsome =>
      have hcommits : commits blocked s.db.users = true := by
        rw [← Bool.not_eq_false, commits_eq_false_iff]
        exact hsome
      obtain ⟨d', happly, hrows⟩ := applyAll_enforcementWrites blocked s'.db
      rw [husers] at happly hrows
      refine alone_bind.mpr ((alone_commitOr_of_some happly).mpr ⟨trivial, ?_⟩)
      refine ⟨blocked, fun id u hu => ?_⟩
      rw [enforcedIn_of_commits hcommits hu]
      exact hrows id u hu

end Session

namespace Overlay

variable {s : Overlay} {now : Int} {others : Bool}

theorem tracks_updateUser (h : s.Tracks) {edit : StatusEdit}
    (hok : s.undisturbed (.updateUser now edit)) :
    Tracks ⟨s.account.updateUser now edit.modify, some edit.status⟩ := by
  obtain ⟨hcapped, hlimited⟩ := of_decide_eq_true hok
  have hflag := cappedByReseller_updatedUser now edit.modify s.account.toUser
  refine ⟨?_, ?_, ?_⟩
  · show (updatedUser now edit.modify s.account.toUser).adminId ≠ none
    rw [(relimited_updatedUser now edit.modify s.account.toUser).adminId]
    exact h.owned
  · intro hset
    exact absurd (hflag.symm.trans hset) hcapped
  · intro _
    exact status_updatedUser now edit s.account.toUser hlimited

theorem tracks_applyBulkStatus (h : s.Tracks) {action : BulkStatusAction}
    (hok : s.undisturbed (.applyBulkStatus now action)) :
    Tracks ⟨s.account.applyBulkStatus now action,
      some (s.account.applyBulkStatus now action).status⟩ := by
  have hcapped : ¬ s.account.cappedByReseller := of_decide_eq_true hok
  refine ⟨?_, ?_, fun _ => rfl⟩
  · rw [adminId_applyBulkStatus]
    exact h.owned
  · intro hset
    rw [cappedByReseller_applyBulkStatus] at hset
    exact absurd hset hcapped

theorem tracks_blocked (h : s.Tracks) :
    Tracks { s with account := s.account.enforceResellerTrafficCaps true others } := by
  unfold Account.enforceResellerTrafficCaps Account.onUser
  rw [enforcedUser_blocked h.owned]
  split
  · next hactive =>
      refine ⟨h.owned, fun _ => ⟨rfl, ?_⟩, fun hset => Bool.noConfusion hset⟩
      cases hcapped : s.account.cappedByReseller with
      | true => exact (h.capped hcapped).2
      | false =>
        have hstatus := hactive.symm.trans (h.uncapped hcapped)
        cases hdecision : s.decision with
        | none => exact .inl rfl
        | some status =>
          rw [hdecision] at hstatus
          exact .inr (congrArg some hstatus.symm)
  · exact h

theorem restored_status (h : s.Tracks) (hcapped : s.account.cappedByReseller = true)
    (hok : s.undisturbed (.enforce now false others)) :
    (others ∨ ¬ quotaExhausted s.account.toUser) ∧
      (restoredUser s.account.toUser).status =
        s.decision.getD (if quotaExhausted s.account.toUser then .limited else .active) := by
  have hguard := of_decide_eq_true hok
  simp only [Bool.false_eq_true, false_or] at hguard
  rcases (h.capped hcapped).2 with hdecision | hdecision
  · rw [hdecision] at hguard ⊢
    refine ⟨?_, rfl⟩
    by_cases hexhausted : quotaExhausted s.account.toUser
    · exact .inl (hguard.2 ⟨hcapped, hexhausted⟩)
    · exact .inr hexhausted
  · rw [hdecision] at hguard ⊢
    have hexhausted : ¬ quotaExhausted s.account.toUser := hguard hcapped
    exact ⟨.inr hexhausted, if_neg hexhausted⟩

theorem status_unblocked (h : s.Tracks) (hok : s.undisturbed (.enforce now false others)) :
    (s.account.enforceResellerTrafficCaps false others).status =
      s.decision.getD (if quotaExhausted s.account.toUser then .limited else .active) := by
  unfold Account.enforceResellerTrafficCaps Account.onUser
  rw [enforcedUser_unblocked h.owned]
  cases hcapped : s.account.cappedByReseller with
  | true =>
    obtain ⟨hrestores, hstatus⟩ := restored_status h hcapped hok
    simpa only [true_and, if_pos hrestores] using hstatus
  | false => simpa using h.uncapped hcapped

theorem tracks_unblocked (h : s.Tracks) (hok : s.undisturbed (.enforce now false others)) :
    Tracks { s with account := s.account.enforceResellerTrafficCaps false others } := by
  unfold Account.enforceResellerTrafficCaps Account.onUser
  rw [enforcedUser_unblocked h.owned]
  split
  · next hrestores =>
      refine ⟨h.owned, fun hset => Bool.noConfusion hset, fun _ => ?_⟩
      exact (restored_status h hrestores.1 hok).2
  · exact h

theorem tracks_step {s' : Overlay} {step : OverlayStep} (h : s.Tracks)
    (hok : s.undisturbed step) (hstep : s.step step = some s') : s'.Tracks := by
  cases step with
  | updateUser now edit =>
    cases hstep
    exact tracks_updateUser h hok
  | applyBulkStatus now action =>
    cases hstep
    exact tracks_applyBulkStatus h hok
  | enforce now blocked others =>
    cases hstep
    cases blocked with
    | true => exact tracks_blocked h
    | false => exact tracks_unblocked h hok

theorem tracks_suspended {a : Account} (hactive : a.status = .active) (hadmin : a.adminId ≠ none) :
    Tracks ⟨a.enforceResellerTrafficCaps true others, none⟩ := by
  unfold Account.enforceResellerTrafficCaps Account.onUser
  rw [enforcedUser_blocked hadmin, if_pos hactive]
  exact ⟨hadmin, fun _ => ⟨rfl, .inl rfl⟩, fun hset => Bool.noConfusion hset⟩

abbrev Undisturbed (a : Account) (others : Bool) : Overlay → Prop :=
  Run step (fun s step => s.undisturbed step) ⟨a.enforceResellerTrafficCaps true others, none⟩

end Overlay

/-- **An undisturbed suspension is an overlay.** -/
theorem suspension_is_overlay (a : Account) (hactive : a.status = .active)
    (hadmin : a.adminId ≠ none) (others₀ : Bool) (s : Overlay)
    (hrun : Overlay.Undisturbed a others₀ s) (now : Int) (others : Bool)
    (hlast : s.undisturbed (.enforce now false others)) :
    (s.account.enforceResellerTrafficCaps false others).status =
      s.decision.getD (reactivatedStatus now s.account.toUser) := by
  have h : s.Tracks :=
    hrun.invariant Overlay.Tracks (Overlay.tracks_suspended hactive hadmin) Overlay.tracks_step
  rw [Overlay.status_unblocked h hlast]
  cases hdecision : s.decision with
  | none =>
    have hguard := of_decide_eq_true hlast
    rw [hdecision] at hguard
    have hexpired : ¬ s.account.expired now := (hguard.resolve_left (by simp)).1
    exact (reactivatedStatus_of_not_expired (Bool.eq_false_iff.mpr hexpired)).symm
  | some status => rfl

def resold : Account where
  username := "user"
  status := .active
  usedTraffic := 50
  dataLimit := some 100
  adminId := some 1

theorem decision_after_restore_lasts :
    ∃ s, Overlay.Undisturbed resold false s ∧ s.decision = some .disabled ∧
      (s.account.enforceResellerTrafficCaps false false).status = .disabled := by
  have hrun : ∃ s, execGuarded Overlay.step (fun s step => s.undisturbed step)
      ⟨resold.enforceResellerTrafficCaps true false, none⟩
      [.enforce 0 false false, .applyBulkStatus 0 .disable, .enforce 0 true false] = some s ∧
      s.decision = some .disabled ∧ s.undisturbed (.enforce 0 false false) := ⟨_, rfl, rfl, rfl⟩
  obtain ⟨s, hexec, hdecision, hlast⟩ := hrun
  have h := Run.of_execGuarded _ hexec
  refine ⟨s, h, hdecision, ?_⟩
  rw [suspension_is_overlay resold rfl (by decide) false s h 0 false hlast, hdecision]
  rfl

def afterSuspension (a : Account) (steps : List OverlayStep) :
    Option (UserStatus × Option UserStatus × UserStatus) :=
  (execGuarded Overlay.step (fun _ _ => True) ⟨a.enforceResellerTrafficCaps true false, none⟩
    steps).map fun s => ((s.account.enforceResellerTrafficCaps false false).status, s.decision,
      reactivatedStatus 20 s.account.toUser)

def disabling : StatusEdit := ⟨{ status := some .disabled }, .disabled, rfl⟩

/-- A restore makes disabled and expired accounts active, and leaves one out of quota disabled. -/
theorem restore_is_not_an_overlay :
    afterSuspension resold [.updateUser 5 disabling] = some (.active, some .disabled, .active) ∧
      afterSuspension resold [.applyBulkStatus 5 .enable, .applyBulkStatus 6 .disable] =
        some (.active, some .disabled, .active) ∧
      afterSuspension { resold with expire := some 10 } [] = some (.active, none, .expired) ∧
      afterSuspension { resold with usedTraffic := 100 } [] = some (.disabled, none, .limited) :=
  ⟨rfl, rfl, rfl, rfl⟩

end Shahkar.Lifecycle
