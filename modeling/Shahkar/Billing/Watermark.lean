import Shahkar.Billing.PrepaidCover

/-!
# Every metered byte of a reseller is paid for or still pending, as far as that is true

`bill_reseller_usage` moves the watermark over the bytes it has settled, and bytes that do not make
up a charge unit are to stay above it.
-/

namespace Shahkar.Billing

open Shahkar.Db Shahkar.Lib
open Prog hiding commit

/-!
### Splits
-/

theorem aggregateResellerUsage_nonneg (d : Database) (a : AdminId) (tenantId : Option Nat)
    (since until_ : Int) :
    0 ≤ (aggregateResellerUsage d a tenantId since until_).ownedBytes ∧
      0 ≤ (aggregateResellerUsage d a tenantId since until_).foreignBytes := by
  constructor
  all_goals
    refine List.sum_nonneg fun v hv => ?_
    simp only [List.mem_map, List.mem_filter, decide_eq_true_eq] at hv
    obtain ⟨r, ⟨⟨-, -, -, -, hpos⟩, -⟩, rfl⟩ := hv
    exact hpos.le

theorem ownershipRatioSplit_spec (d : Database) (now : Int) (a : AdminId) (tenantId : Option Nat)
    {delta : Int} (hdelta : 0 ≤ delta) :
    let split := ownershipRatioSplit d now a tenantId delta
    0 ≤ split.ownedBytes ∧ 0 ≤ split.foreignBytes ∧ split.totalBytes = delta := by
  unfold ownershipRatioSplit
  rw [max_eq_right hdelta]
  dsimp only
  split_ifs with hzero htotal
  · exact ⟨le_refl _, le_refl _, (le_antisymm hzero hdelta).symm⟩
  · exact ⟨le_refl _, hdelta, zero_add delta⟩
  · obtain ⟨howned, hforeign⟩ :=
      aggregateResellerUsage_nonneg d a tenantId (now - 24 * 3600) now
    generalize aggregateResellerUsage d a tenantId (now - 24 * 3600) now = ratio at *
    rw [UsageSplit.totalBytes, not_le] at htotal
    have hle : delta * ratio.ownedBytes / ratio.totalBytes ≤ delta :=
      Int.ediv_le_of_le_mul htotal (Int.mul_le_mul_of_nonneg_left (by
        rw [UsageSplit.totalBytes]
        omega) hdelta)
    have hnonneg : 0 ≤ delta * ratio.ownedBytes / ratio.totalBytes :=
      Int.ediv_nonneg (mul_nonneg hdelta howned) htotal.le
    refine ⟨hnonneg, by dsimp only; omega, ?_⟩
    simp [UsageSplit.totalBytes]

/-!
### The meter of a reseller
-/

@[ext] structure Meter where
  admin : Option (Int × Int)
  watermark : Option Int
  debits : Nat
  deriving DecidableEq

def meter (a : AdminId) (d : Database) : Meter where
  admin := (d.admins.get? a).map fun r => (r.usersUsage, r.prepaidTrafficRemaining)
  watermark := (d.checkpoints.get? a).map UsageBillingCheckpoint.lastBilledUsersUsage
  debits := (d.transactions.filter fun tx => tx.adminId = a ∧ tx.type = .usageBilling).length

def onMeter (a : AdminId) (w : Write) (m : Meter) : Meter :=
  match w with
  | .updatePrepaid b loaded assigned =>
    if b = a then { m with admin := m.admin.map fun r => (r.1, written loaded assigned r.2) }
    else m
  | .chargeAdmin b value =>
    if b = a then { m with admin := m.admin.map fun r => (r.1 + value, r.2) } else m
  | .insertCheckpoint b c =>
    if b = a then { m with watermark := some c.lastBilledUsersUsage } else m
  | .updateCheckpoint b loaded assigned =>
    let move := written loaded.lastBilledUsersUsage assigned.lastBilledUsersUsage
    if b = a then { m with watermark := m.watermark.map move } else m
  | .insertTransaction tx =>
    if tx.adminId = a ∧ tx.type = .usageBilling then { m with debits := m.debits + 1 } else m
  | _ => m

variable {a : AdminId} {d d' : Database} {ws : List Write}

theorem meter_apply {w : Write} (h : w.apply d = some d') :
    meter a d' = onMeter a w (meter a d) := by
  cases w with
  | updatePrepaid b _ _ | chargeAdmin b _ =>
    obtain rfl := Option.some.inj h
    simp only [meter, onMeter, Dict.get?_modify, eq_comm (a := a)]
    split
    · cases d.admins.get? a <;> rfl
    · rfl
  | updateCheckpoint b loaded assigned =>
    obtain rfl := Option.some.inj h
    simp only [meter, onMeter, Dict.get?_modify, eq_comm (a := a)]
    split
    · cases d.checkpoints.get? a <;> rfl
    · rfl
  | insertCheckpoint b c =>
    obtain ⟨-, rfl⟩ := eq_of_ite_none h
    simp only [meter, onMeter, Dict.get?_set, eq_comm (a := a)]
    split <;> rfl
  | insertTransaction tx =>
    obtain rfl := Option.some.inj h
    by_cases htx : tx.adminId = a ∧ tx.type = .usageBilling
    · simp [meter, onMeter, htx]
    · simp [meter, onMeter, htx]
  | insertWallet _ | insertUser _ _ =>
    obtain ⟨-, rfl⟩ := eq_of_ite_none h
    rfl
  | _ =>
    obtain rfl := Option.some.inj h
    rfl

theorem meter_applyAll (h : store.applyAll ws d = some d') :
    meter a d' = ws.foldl (fun m w => onMeter a w m) (meter a d) :=
  store.view_applyAll (meter a) (onMeter a) meter_apply h

def Unmetered (a : AdminId) (w : Write) : Prop := ∀ m, onMeter a w m = m

theorem unmetered_insertTransaction {tx : Transaction}
    (h : tx.type ≠ .usageBilling) : Unmetered a (.insertTransaction tx) :=
  fun _ => if_neg fun hw => h hw.2

theorem unmetered_updateCheckpoint {a b : AdminId} {c c' : UsageBillingCheckpoint}
    (h : c.lastBilledUsersUsage = c'.lastBilledUsersUsage) :
    Unmetered a (.updateCheckpoint b c c') := by
  intro m
  simp [onMeter, funext fun w : Int => written_same c.lastBilledUsersUsage w, ← h]

theorem foldl_onMeter_of_unmetered (h : ∀ w ∈ ws, Unmetered a w)
    (m : Meter) : ws.foldl (fun m w => onMeter a w m) m = m := by
  induction ws with
  | nil => rfl
  | cons w rest ih =>
    rw [List.foldl_cons, h w List.mem_cons_self]
    exact ih fun w' hw' => h w' (List.mem_cons_of_mem _ hw')

section Call

variable {a : AdminId} {s : Exec Database Write}

theorem alone_unmetered {α : Type} {p : Action α}
    (hp : p.Confined (Unmetered a) (fun _ => True) fun _ => True)
    (hpend : ∀ w ∈ s.pend, Unmetered a w) :
    p.alone store (fun _ _ => True) s fun _ s' =>
      meter a s'.db = meter a s.db ∧ ∀ w ∈ s'.pend, Unmetered a w := by
  refine alone_imp (fun _ _ _ => trivial) (fun _ _ h => h) (alone_of_confined
    (I := fun d _ => meter a d = meter a s.db) ?_ hp hpend rfl)
  intro ws d d' l hws happly hd
  rw [meter_applyAll happly, foldl_onMeter_of_unmetered hws, hd]

theorem alone_commit_meter :
    (commit : Action Unit).alone store (fun _ _ => True) s fun x s' => s'.pend = [] ∧
      meter a s'.db = if x.isOk then s.pend.foldl (fun m w => onMeter a w m) (meter a s.db)
        else meter a s.db := by
  refine alone_commitOr (fun d happly => ⟨trivial, rfl, ?_⟩) ⟨rfl, rfl⟩
  exact meter_applyAll happly

theorem unmetered_logLowBalanceEvent (now needed balance : Int) (b : AdminId) :
    (logLowBalanceEvent now b needed balance).Confined (Unmetered a) (fun _ => True)
      fun _ => True := by
  refine confined_bind (confined_query _) fun logged => ?_
  refine compositional_confined.ite (confined_pure _) ?_
  exact confined_bind (confined_emit.mpr fun _ => rfl) fun _ => confined_commit

theorem unmetered_getOrCreateWallet (live : Option Int) (b : AdminId) :
    (getOrCreateWallet live b).Confined (Unmetered a) (fun _ => True) fun _ => True :=
  confined_getOrCreateWallet (fun _ => rfl) trivial

theorem unmetered_creditParentCommission (b : AdminId) (debitAmount : Int) (reference : String) :
    (creditParentCommission b debitAmount reference).Confined (Unmetered a) (fun _ => True)
      fun _ => True := by
  refine holds_creditParentCommission compositional_confined (fun live b amount r => ?_) _ _ _
  refine confined_bind (unmetered_getOrCreateWallet live b) fun balance =>
    confined_bind confined_freshKey fun id =>
    confined_bind (confined_emit.mpr ?_) fun _ =>
    confined_bind (confined_emit.mpr fun _ => rfl) fun _ =>
    confined_bind confined_commit fun _ => confined_pure _
  exact unmetered_insertTransaction (by simp)

variable {reference : Option String} {prepaid watermark : Int}

theorem alone_postUsage {balance amount : Int} :
    (addTransaction (some balance) a amount .usageBilling reference false).alone store
      (fun _ _ => True) s fun _ s' => (∀ w ∈ s'.pend, Unmetered a w) ∧
        (meter a s'.db = meter a s.db ∨
          meter a s'.db =
            let m := s.pend.foldl (fun m w => onMeter a w m) (meter a s.db)
            { m with debits := m.debits + 1 }) := by
  unfold addTransaction postTransaction getOrCreateWallet
  simp only [alone_bind, alone_pure, aloneThen_ok, alone_freshKey,
    alone_emit]
  refine alone_mono ?_ (alone_commit_meter (a := a))
  intro x s₁ hpost
  obtain ⟨hpend, hmeter⟩ := hpost
  cases x with
  | error e => exact ⟨by simp [hpend], .inl hmeter⟩
  | ok _ =>
    simp only [Exec.push_pend, Exec.advanced_pend, List.foldl_append, List.foldl_cons,
      List.foldl_nil, onMeter, Exec.push_db, Exec.advanced_db, and_self, if_true,
      Except.isOk, Except.toBool] at hmeter
    split
    · refine alone_then (alone_unmetered (a := a)
        (unmetered_creditParentCommission a amount _) (by simp [hpend])) ?_
      intro x s₂ hpost
      obtain ⟨hmeter₂, hpend₂⟩ := hpost
      cases x <;> exact ⟨hpend₂, .inr (hmeter₂.trans hmeter)⟩
    · exact ⟨by simp [hpend], .inr hmeter⟩

def Meter.settled (m : Meter) (covered current : Int) (debits : Nat) : Meter where
  admin := m.admin.map fun r => (r.1, r.2 - covered)
  watermark := some current
  debits := m.debits + debits

theorem Meter.settled_debits (m : Meter) (covered current : Int) (debits : Nat) :
    (m.settled covered current debits).debits = m.debits + debits := rfl

structure Priced (a : AdminId) (s : Exec Database Write) (usage prepaid watermark : Int)
    (m : Meter) : Prop where
  meter : meter a s.db = m
  admin : m.admin = some (usage, prepaid)
  watermark : m.watermark = some watermark
  pend : ∀ w ∈ s.pend, Unmetered a w ∧ Routine w

variable {usage covered current last cost : Int} {admin : Admin}
  {checkpoint : UsageBillingCheckpoint} {split : UsageSplit} {m : Meter}

theorem Priced.foldl_pend (h : Priced a s usage prepaid watermark m) :
    s.pend.foldl (fun m w => onMeter a w m) (Billing.meter a s.db) = m := by
  rw [foldl_onMeter_of_unmetered (fun w hw => (h.pend w hw).1), h.meter]

theorem Priced.alone_exit (h : Priced a s usage prepaid watermark m) {α : Type} (r : α)
    {ws : List Write} (hws : ∀ w ∈ ws, Routine w) (s' : Exec Database Write) (hdb : s'.db = s.db)
    (hpend : s'.pend = s.pend ++ ws) :
    (do commit; return r : Action α).alone store (fun _ _ => True) s' fun _ s'' =>
      Billing.meter a s''.db = ws.foldl (fun m w => onMeter a w m) m := by
  have hroutine : ∀ w ∈ s'.pend, Routine w := by
    intro w hw
    rcases List.mem_append.mp (hpend ▸ hw) with hw | hw
    · exact (h.pend w hw).2
    · exact hws w hw
  obtain ⟨d, happly⟩ := Option.isSome_iff_exists.mp
    (store.isSome_applyAll (fun w hw => (hroutine w hw).isSome_apply) s'.db)
  rw [alone_bind]
  refine (alone_commitOr_of_some happly).mpr ⟨trivial, ?_⟩
  change Billing.meter a d = _
  rw [meter_applyAll happly, hpend, hdb, List.foldl_append, h.foldl_pend]

theorem alone_chargeUsage_free {now : Int}
    (h : Priced a s usage admin.prepaidTrafficRemaining checkpoint.lastBilledUsersUsage m)
    (hcost : cost ≤ 0) (hcovered : 0 < covered → covered ≤ admin.prepaidTrafficRemaining) :
    (chargeUsage now a admin checkpoint split current last covered cost).alone store
      (fun _ _ => True) s fun _ s' => meter a s'.db =
        if 0 < covered then m.settled covered current 0
        else if split.totalBytes ≤ 0 then m.settled 0 current 0 else m := by
  unfold chargeUsage
  rw [if_pos hcost]
  split_ifs with hcov htotal
  · have hmax : max 0 (admin.prepaidTrafficRemaining - covered) =
        admin.prepaidTrafficRemaining - covered := max_eq_right (by have := hcovered hcov; omega)
    refine alone_mono (fun _ _ hs' => hs'.trans ?_)
      (h.alone_exit _ (by simp [Routine]) ((s.push _).push _) rfl (List.append_assoc _ _ _))
    simp [onMeter, Meter.settled, h.admin, h.watermark, hmax]
  · refine alone_mono (fun _ _ hs' => hs'.trans ?_)
      (h.alone_exit _ (by simp [Routine]) (s.push _) rfl rfl)
    simp [onMeter, Meter.settled, h.admin, h.watermark]
  · refine alone_mono (fun _ _ hs' => hs'.trans ?_)
      (h.alone_exit _ (by simp [Routine]) (s.push _) rfl rfl)
    exact unmetered_updateCheckpoint rfl m

theorem alone_postUsage_settled {amount balance : Int}
    (hmeter : meter a s.db = m) (hwatermark : m.watermark = some checkpoint.lastBilledUsersUsage)
    (hpend : s.pend.foldl (fun m w => onMeter a w m) m =
      { m with admin := m.admin.map fun r => (r.1, r.2 - covered) })
    (billed : UsageBillingCheckpoint) :
    (addTransaction (some balance) a amount .usageBilling reference false).alone store
      (fun _ _ => True) (s.push (.updateCheckpoint a checkpoint billed)) fun _ s' =>
        (∀ w ∈ s'.pend, Unmetered a w) ∧ (meter a s'.db = m ∨
          meter a s'.db = m.settled covered billed.lastBilledUsersUsage 1) := by
  refine alone_mono ?_ (alone_postUsage (a := a))
  intro x s' hpost
  obtain ⟨hpend', hmeter'⟩ := hpost
  refine ⟨hpend', hmeter'.imp (fun hs' => hs'.trans hmeter) fun hs' => hs'.trans ?_⟩
  simp only [Exec.push_pend, Exec.push_db, hmeter, List.foldl_append, hpend, List.foldl_cons,
    List.foldl_nil]
  simp [onMeter, Meter.settled, hwatermark]

theorem alone_chargeUsage_paid {now : Int}
    (h : Priced a s usage admin.prepaidTrafficRemaining checkpoint.lastBilledUsersUsage m)
    (hcost : ¬ cost ≤ 0) (hnonneg : 0 ≤ covered)
    (hcovered : 0 < covered → covered ≤ admin.prepaidTrafficRemaining) :
    (chargeUsage now a admin checkpoint split current last covered cost).alone store
      (fun _ _ => True) s fun _ s' =>
        meter a s'.db = m ∨ meter a s'.db = m.settled covered current 1 := by
  unfold chargeUsage
  rw [if_neg hcost]
  refine alone_then (alone_unmetered (unmetered_getOrCreateWallet none a)
    fun w hw => (h.pend w hw).1) ?_
  intro x s₁ hpost
  obtain ⟨hmeter, hpend⟩ := hpost
  replace hmeter := hmeter.trans h.meter
  cases x with
  | error e => exact .inl hmeter
  | ok balance =>
    rw [aloneThen_ok]
    split
    · -- the charge is held back
      refine alone_mono (fun _ _ hs₂ => .inl (hs₂.1.trans hmeter)) (alone_unmetered
        (a := a) ?_ hpend)
      exact confined_bind (unmetered_logLowBalanceEvent _ _ _ _) fun _ =>
        confined_bind confined_commit fun _ => confined_pure _
    · rw [alone_bind]
      refine alone_mono (?_ : ∀ x s₂, meter a s₂.db = m ∧
        s₂.pend.foldl (fun m w => onMeter a w m) m = { m with
          admin := m.admin.map fun r => (r.1, r.2 - covered) } → _) ?_
      · intro x s₂ hpost
        obtain ⟨hmeter₂, hfold⟩ := hpost
        cases x with
        | error e => exact .inl hmeter₂
        | ok _ =>
          simp only [aloneThen_ok, alone_bind, alone_emit]
          refine alone_mono ?_ (alone_postUsage_settled hmeter₂ h.watermark hfold _)
          intro x s₃ hpost
          obtain ⟨hpend₃, hmeter₃⟩ := hpost
          cases x with
          | error e => exact hmeter₃
          | ok tx =>
            rw [aloneThen_ok, alone_query_bind]
            split
            · refine alone_mono (fun _ s₄ hs₄ => ?_) (alone_unmetered (a := a)
                (confined_bind (unmetered_logLowBalanceEvent _ _ _ _)
                  fun _ => confined_pure _) hpend₃)
              rwa [hs₄.1]
            · exact hmeter₃
      · have hfold := foldl_onMeter_of_unmetered hpend m
        split
        · next hcov =>
            have hmax : max 0 (admin.prepaidTrafficRemaining - covered) =
                admin.prepaidTrafficRemaining - covered :=
              max_eq_right (by have := hcovered hcov; omega)
            refine ⟨hmeter, ?_⟩
            rw [Exec.push_pend, List.foldl_append, hfold]
            simp [onMeter, h.admin, hmax]
        · next hcov =>
            obtain rfl : covered = 0 := le_antisymm (not_lt.mp hcov) hnonneg
            exact ⟨hmeter, hfold.trans (by simp)⟩

end Call

def watermarkFor (a : AdminId) (d : Database) (r : Admin) : Int :=
  ((d.checkpoints.get? a).map UsageBillingCheckpoint.lastBilledUsersUsage).getD r.usersUsage

def unbilled (now : Int) (a : AdminId) (d : Database) (r : Admin) : UsageSplit :=
  ownershipRatioSplit d now a r.tenantId (r.usersUsage - watermarkFor a d r)

def overflow (now : Int) (a : AdminId) (d : Database) (r : Admin) : UsageSplit :=
  (applyPrepaidCover (unbilled now a d r) r.prepaidTrafficRemaining).1

def roundsAway (now : Int) (a : AdminId) (dbadmin : Admin) (d : Database) : Bool :=
  (d.admins.get? a).any fun r =>
    ¬ dbadmin.isSudo ∧ 0 < effectiveUsageRatePerGb d dbadmin ∧
      0 < r.prepaidTrafficRemaining ∧
      r.prepaidTrafficRemaining < r.usersUsage - watermarkFor a d r ∧
      computeCharge (overflow now a d r) (effectiveUsageRatePerGb d dbadmin)
        (resolveDiscountPercent d r) ≤ 0

section Books

variable {a : AdminId} {d : Database} {r : Admin}

theorem alone_getOrCreateCheckpoint {now : Int} {s : Exec Database Write} (hpend : s.pend = [])
    (hadmin : s.db.admins.get? a = some r) :
    (getOrCreateCheckpoint now a).alone store (fun _ _ => True) s fun x s' =>
      s'.pend = [] ∧ ∃ c, x = .ok c ∧ c.lastBilledUsersUsage = watermarkFor a s.db r ∧
        s'.db.checkpoints.get? a = some c ∧
        s'.db = { s.db with checkpoints := s'.db.checkpoints } := by
  unfold getOrCreateCheckpoint
  simp only [alone_bind, alone_query, aloneThen_ok]
  cases hget : s.db.checkpoints.get? a with
  | some c => exact ⟨hpend, c, rfl, by simp [watermarkFor, hget], hget, rfl⟩
  | none =>
    simp only [alone_bind, alone_query, alone_emit, aloneThen_ok, hadmin,
      Option.map_some, Option.getD_some]
    generalize hc : ({ lastBilledAt := _, lastBilledUsersUsage := r.usersUsage } :
      UsageBillingCheckpoint) = c
    have happly : store.applyAll (s.push (.insertCheckpoint a c)).pend s.db =
        some { s.db with checkpoints := s.db.checkpoints.set a c } := by
      simp [hpend, Write.apply, hget]
    refine (alone_commitOr_of_some happly).mpr ⟨trivial, rfl, c, ?_, ?_, ?_, rfl⟩
    · simp [Dict.get?_set]
    · simp [watermarkFor, hget, ← hc]
    · simp [Dict.get?_set]

def marked (a : AdminId) (d : Database) (r : Admin) : Meter :=
  { meter a d with watermark := some (watermarkFor a d r) }

theorem marked_debits (a : AdminId) (d : Database) (r : Admin) :
    (marked a d r).debits = (meter a d).debits := rfl

def covered (now : Int) (a : AdminId) (d : Database) (r : Admin) : Int :=
  (applyPrepaidCover (unbilled now a d r) r.prepaidTrafficRemaining).2

inductive Billed (now : Int) (a : AdminId) (dbadmin : Admin) (d : Database) (r : Admin) :
    Meter → Prop
  | skipped : roundsAway now a dbadmin d = false → Billed now a dbadmin d r (meter a d)
  | held : roundsAway now a dbadmin d = false → Billed now a dbadmin d r (marked a d r)
  | covered : (roundsAway now a dbadmin d = false → (overflow now a d r).totalBytes = 0) →
      Billed now a dbadmin d r
        ((marked a d r).settled (covered now a d r) r.usersUsage 0)
  | charged : roundsAway now a dbadmin d = false → Billed now a dbadmin d r
        ((marked a d r).settled (covered now a d r) r.usersUsage 1)

theorem unbilled_spec (now : Int) (hmark : watermarkFor a d r ≤ r.usersUsage) :
    0 ≤ (unbilled now a d r).ownedBytes ∧ 0 ≤ (unbilled now a d r).foreignBytes ∧
      (unbilled now a d r).totalBytes = r.usersUsage - watermarkFor a d r :=
  ownershipRatioSplit_spec d now a r.tenantId (by omega)

theorem covered_spec (now : Int) (hmark : watermarkFor a d r ≤ r.usersUsage) :
    covered now a d r = min (r.usersUsage - watermarkFor a d r) (max 0 r.prepaidTrafficRemaining) ∧
      (overflow now a d r).totalBytes =
        r.usersUsage - watermarkFor a d r - covered now a d r := by
  obtain ⟨howned, hforeign, htotal⟩ := unbilled_spec now hmark
  have hspec := (applyPrepaidCover_spec ⟨howned, hforeign⟩ r.prepaidTrafficRemaining).2
  rwa [htotal] at hspec

theorem alone_billResellerUsage {now : Int} {dbadmin : Admin} {n : Nat}
    (hadmin : d.admins.get? a = some r) (hmark : watermarkFor a d r ≤ r.usersUsage) :
    (billResellerUsage now a dbadmin).alone store (fun _ _ => True) { db := d, next := n }
      fun _ s' => Billed now a dbadmin d r (meter a s'.db) := by
  unfold billResellerUsage
  rw [alone_query_bind]
  dsimp only
  split
  · next hskip =>
      refine .skipped ?_
      simp only [roundsAway, hadmin, Option.any_some, decide_eq_false_iff_not]
      rintro ⟨hsudo, hrate, -⟩
      exact hskip.elim hsudo (by omega)
  next hbill =>
  refine alone_then (alone_getOrCreateCheckpoint rfl hadmin) ?_
  rintro x s₁ ⟨hpend, c, rfl, hmark_c, hget, hdb⟩
  have hadmin₁ : s₁.db.admins.get? a = some r := by rw [hdb]; exact hadmin
  have hlast : min r.usersUsage c.lastBilledUsersUsage = watermarkFor a d r := by
    rw [hmark_c]
    exact min_eq_right hmark
  have hsplit : ownershipRatioSplit s₁.db now a r.tenantId
      (max 0 (r.usersUsage - watermarkFor a d r)) = unbilled now a d r := by
    rw [hdb, max_eq_right (by omega)]
    rfl
  have hdiscount : resolveDiscountPercent s₁.db r = resolveDiscountPercent d r := by
    rw [hdb]
    rfl
  simp only [aloneThen_ok, alone_bind, alone_query, unbilledUsageSplit,
    alone_pure, alone_emit, hadmin₁, Option.getD_some, hlast, hsplit, Exec.push_db,
    hdiscount]
  have hrestarted : ({ c with lastBilledUsersUsage := watermarkFor a d r } :
      UsageBillingCheckpoint) = c := by
    rw [← hmark_c]
  rw [hrestarted]
  have hpriced : Priced a (s₁.push (.updateCheckpoint a c c)) r.usersUsage
      r.prepaidTrafficRemaining c.lastBilledUsersUsage (marked a d r) := by
    refine ⟨?_, by simp [marked, meter, hadmin], by rw [hmark_c]; rfl, ?_⟩
    · rw [Exec.push_db, hdb]
      simp [meter, marked, hget, hmark_c]
    · simp [hpend, unmetered_updateCheckpoint, Routine]
  obtain ⟨hcovered, hoverflow⟩ := covered_spec now hmark
  change Prog.alone store _ (chargeUsage now a r c (unbilled now a d r) r.usersUsage
    (watermarkFor a d r) (covered now a d r) (computeCharge (overflow now a d r) _ _)) _ _
  by_cases hcost : computeCharge (overflow now a d r) (effectiveUsageRatePerGb d dbadmin)
      (resolveDiscountPercent d r) ≤ 0
  · refine alone_mono ?_ (alone_chargeUsage_free hpriced hcost (by omega))
    intro x s' hs'
    rw [hs']
    obtain ⟨-, -, htotal⟩ := unbilled_spec now hmark
    have haway : roundsAway now a dbadmin d = false ↔ ¬ (0 < r.prepaidTrafficRemaining ∧
        r.prepaidTrafficRemaining < r.usersUsage - watermarkFor a d r) := by
      simp only [roundsAway, hadmin, Option.any_some, decide_eq_false_iff_not]
      refine not_congr ⟨fun h => ⟨h.2.2.1, h.2.2.2.1⟩, fun h => ⟨?_, ?_, h.1, h.2, hcost⟩⟩
      · exact fun hsudo => hbill (.inl hsudo)
      · exact not_le.mp fun hrate => hbill (.inr hrate)
    split_ifs with hcov hzero
    · refine .covered fun h => ?_
      have := haway.mp h
      omega
    · have hnone : covered now a d r = 0 := by omega
      rw [← hnone]
      exact .covered fun _ => by omega
    · exact .held (haway.mpr (by omega))
  · refine alone_mono ?_ (alone_chargeUsage_paid hpriced hcost (by omega) (by omega))
    have haway : roundsAway now a dbadmin d = false := by
      simp only [roundsAway, hadmin, Option.any_some, decide_eq_false_iff_not]
      exact fun h => hcost h.2.2.2.2
    intro x s' hs'
    rcases hs' with hs' | hs'
    · exact hs' ▸ .held haway
    · exact hs' ▸ .charged haway

end Books

/-- The database, with the books of a reseller's metered bytes. -/
structure Books where
  db : Database
  next : Nat := 1
  start : Option Int := none
  fromPrepaid : Int := 0
  charged : Int := 0

/-- A call of `bill_reseller_usage` with an admin row the caller holds, or whatever happens between
two calls. -/
inductive BooksAct
  | bill (now : Int) (dbadmin : Admin)
  | change (db : Database) (next : Nat)

def grows (a : AdminId) (d d' : Database) : Bool :=
  d'.checkpoints.get? a = d.checkpoints.get? a &&
    match d.admins.get? a, d'.admins.get? a with
    | some r, some r' => r.usersUsage ≤ r'.usersUsage ∧
        r.prepaidTrafficRemaining ≤ r'.prepaidTrafficRemaining
    | _, _ => false

def Meter.prepaid (m : Meter) : Int := (m.admin.map Prod.snd).getD 0

def Books.bill (a : AdminId) (now : Int) (dbadmin : Admin) (b : Books) : Books :=
  let s' := ((billResellerUsage now a dbadmin).exec store { db := b.db, next := b.next }).2
  let before := meter a b.db
  let after := meter a s'.db
  { db := s'.db
    next := s'.next
    start := b.start.or after.watermark
    fromPrepaid := b.fromPrepaid + (before.prepaid - after.prepaid)
    charged := b.charged + if before.debits < after.debits then
      ((b.db.admins.get? a).map fun r => (overflow now a b.db r).totalBytes).getD 0 else 0 }

def Books.step (a : AdminId) (b : Books) : BooksAct → Option Books
  | .bill now dbadmin => some (b.bill a now dbadmin)
  | .change db next => if grows a b.db db then some { b with db, next } else none

/-- Bytes taken from the prepaid volume, bytes in posted debits and bytes above the watermark are
all the bytes since the first checkpoint. -/
def Books.Accounted (a : AdminId) (b : Books) : Prop :=
  ∀ w₀, b.start = some w₀ → ∃ r c, b.db.admins.get? a = some r ∧
    b.db.checkpoints.get? a = some c ∧ 0 ≤ b.fromPrepaid ∧ 0 ≤ b.charged ∧
    c.lastBilledUsersUsage ≤ r.usersUsage ∧
    r.usersUsage - w₀ = b.fromPrepaid + b.charged + (r.usersUsage - c.lastBilledUsersUsage)

/-- The call does not move the watermark over bytes that cost less than a unit. -/
def keepsRest (a : AdminId) (b : Books) : BooksAct → Bool
  | .bill now dbadmin => ¬ roundsAway now a dbadmin b.db
  | .change _ _ => true

section Run

variable {a : AdminId}

structure Books.Kept (a : AdminId) (b : Books) (lost : Int) : Prop where
  admin : ∃ r, b.db.admins.get? a = some r ∧ watermarkFor a b.db r ≤ r.usersUsage
  fromPrepaid : 0 ≤ b.fromPrepaid
  charged : 0 ≤ b.charged
  start : b.start = none → (meter a b.db).watermark = none ∧ b.fromPrepaid = 0 ∧ b.charged = 0 ∧
    lost = 0
  watermark : ∀ w₀, b.start = some w₀ →
    (meter a b.db).watermark = some (w₀ + b.fromPrepaid + b.charged + lost)

variable {r : Admin} {lost : Int} {b : Books} {d : Database}

theorem watermarkFor_eq :
    watermarkFor a d r = (meter a d).watermark.getD r.usersUsage := rfl

theorem Books.Kept.accounted_iff (h : b.Kept a lost) :
    b.Accounted a ↔ lost = 0 := by
  obtain ⟨r, hr, hmark⟩ := h.admin
  constructor
  · intro haccounted
    cases hstart : b.start with
    | none => exact (h.start hstart).2.2.2
    | some w₀ =>
      obtain ⟨r', c, -, hc, -, -, -, hsum⟩ := haccounted w₀ hstart
      have hw := h.watermark w₀ hstart
      simp only [meter, hc, Option.map_some, Option.some.injEq] at hw
      omega
  · rintro rfl w₀ hstart
    have hw := h.watermark w₀ hstart
    obtain ⟨c, hc, hlast⟩ := Option.map_eq_some_iff.mp hw
    rw [watermarkFor_eq, hw] at hmark
    refine ⟨r, c, hr, hc, h.fromPrepaid, h.charged, ?_, ?_⟩
    all_goals
      simp only [Option.getD_some] at hmark
      omega

theorem overflow_pos_of_roundsAway {now : Int} {dbadmin r : Admin} (hr : d.admins.get? a = some r)
    (hmark : watermarkFor a d r ≤ r.usersUsage)
    (h : roundsAway now a dbadmin d) : 0 < (overflow now a d r).totalBytes := by
  simp only [roundsAway, hr, Option.any_some, decide_eq_true_eq] at h
  obtain ⟨hcovered, hoverflow⟩ := covered_spec now hmark
  omega

theorem Books.kept_of_meter (usage prepaid w₀ : Int) (debits : Nat) (hmeter : meter a b.db =
      ⟨some (usage, prepaid), some (w₀ + b.fromPrepaid + b.charged + lost), debits⟩)
    (hstart : b.start = some w₀) (hprepaid : 0 ≤ b.fromPrepaid) (hcharged : 0 ≤ b.charged)
    (hmark : w₀ + b.fromPrepaid + b.charged + lost ≤ usage) : b.Kept a lost := by
  obtain ⟨r, hr, husage⟩ := Option.map_eq_some_iff.mp (congrArg Meter.admin hmeter)
  refine ⟨⟨r, hr, ?_⟩, hprepaid, hcharged, by simp [hstart], ?_⟩
  · obtain ⟨rfl, -⟩ := Prod.mk.inj husage
    rw [watermarkFor_eq, hmeter]
    exact hmark
  · intro w₁ hw₁
    rw [hmeter, Option.some.inj (hstart.symm.trans hw₁)]

theorem Books.Kept.origin (h : b.Kept a lost) :
    ∃ w₀, watermarkFor a b.db r = w₀ + b.fromPrepaid + b.charged + lost ∧
      (b.start = some w₀ ∨ b.start = none ∧ watermarkFor a b.db r = r.usersUsage ∧
        w₀ = r.usersUsage) := by
  cases hstart : b.start with
  | none =>
    obtain ⟨hw, hprepaid, hcharged, hlost⟩ := h.start hstart
    have hmark : watermarkFor a b.db r = r.usersUsage := by rw [watermarkFor_eq, hw]; rfl
    exact ⟨r.usersUsage, by omega, .inr ⟨rfl, hmark, rfl⟩⟩
  | some w₀ => exact ⟨w₀, by rw [watermarkFor_eq, h.watermark w₀ hstart]; rfl, .inl rfl⟩

theorem Books.Kept.of_settled {b b' : Books} {lost lost' : Int} {k : Nat}
    {covered current : Int} (h : b.Kept a lost) (hr : b.db.admins.get? a = some r)
    (hmeter : meter a b'.db = (marked a b.db r).settled covered current k)
    (hstart : b'.start = b.start.or (meter a b'.db).watermark)
    (hprepaid : b'.fromPrepaid =
      b.fromPrepaid + ((meter a b.db).prepaid - (meter a b'.db).prepaid))
    (hcovered : 0 ≤ covered) (hcharged : b.charged ≤ b'.charged)
    (hle : current ≤ r.usersUsage)
    (hfirst : watermarkFor a b.db r = r.usersUsage → current = r.usersUsage)
    (hsum : current - watermarkFor a b.db r = covered + (b'.charged - b.charged) + (lost' - lost)) :
    b'.Kept a lost' := by
  obtain ⟨w₀, hw₀, horigin⟩ := h.origin (r := r)
  have hadmin : (meter a b.db).admin = some (r.usersUsage, r.prepaidTrafficRemaining) := by
    simp [meter, hr]
  have hnonneg := And.intro h.fromPrepaid h.charged
  have hprepaid' : b'.fromPrepaid = b.fromPrepaid + covered := by
    rw [hprepaid, hmeter]
    simp [Meter.prepaid, Meter.settled, marked, hadmin]
  refine kept_of_meter r.usersUsage (r.prepaidTrafficRemaining - covered) w₀
    ((meter a b.db).debits + k) ?_ ?_ (by omega) (by omega) (by omega)
  · rw [hmeter, show w₀ + b'.fromPrepaid + b'.charged + lost' = current by omega]
    simp [Meter.settled, marked, hadmin]
  · rw [hstart, hmeter]
    rcases horigin with hstart₀ | ⟨hstart₀, hmark, rfl⟩
    · rw [hstart₀]
      rfl
    · rw [hstart₀, hfirst hmark]
      rfl

theorem marked_eq_settled :
    marked a d r = (marked a d r).settled 0 (watermarkFor a d r) 0 := by
  simp [Meter.settled, marked]

theorem Books.Kept.of_skipped {b b' : Books} (h : b.Kept a lost) (hr : b.db.admins.get? a = some r)
    (hmark : watermarkFor a b.db r ≤ r.usersUsage) (hmeter : meter a b'.db = meter a b.db)
    (hstart : b'.start = b.start.or (meter a b'.db).watermark)
    (hprepaid : b'.fromPrepaid = b.fromPrepaid) (hcharged : b'.charged = b.charged) :
    b'.Kept a lost := by
  have hstart' : b'.start = b.start := by
    rw [hstart, hmeter]
    cases hb : b.start with
    | none => exact (h.start hb).1
    | some w₀ => rfl
  have hadmin : (meter a b'.db).admin = some (r.usersUsage, r.prepaidTrafficRemaining) := by
    rw [hmeter]
    simp [meter, hr]
  obtain ⟨r', hr', husage⟩ := Option.map_eq_some_iff.mp hadmin
  refine ⟨⟨r', hr', ?_⟩, ?_, ?_, ?_, ?_⟩
  · rw [watermarkFor_eq, hmeter, (Prod.mk.inj husage).1]
    exact hmark
  · exact hprepaid ▸ h.fromPrepaid
  · exact hcharged ▸ h.charged
  · rw [hstart', hmeter, hprepaid, hcharged]
    exact h.start
  · rw [hstart', hmeter, hprepaid, hcharged]
    exact h.watermark

theorem Books.Kept.bill (h : b.Kept a lost) (now : Int) (dbadmin : Admin)
    (hr : b.db.admins.get? a = some r) (hmark : watermarkFor a b.db r ≤ r.usersUsage) :
    (b.bill a now dbadmin).Kept a (lost + if roundsAway now a dbadmin b.db then
      (overflow now a b.db r).totalBytes else 0) := by
  have hbilled : Billed now a dbadmin b.db r (meter a (b.bill a now dbadmin).db) :=
    exec_of_alone (alone_billResellerUsage hr hmark)
  have hcharged : (b.bill a now dbadmin).charged = b.charged +
      if (meter a b.db).debits < (meter a (b.bill a now dbadmin).db).debits then
        (overflow now a b.db r).totalBytes else 0 := by
    simp [Books.bill, hr]
  obtain ⟨hcovered, hoverflow⟩ := covered_spec now hmark
  generalize hm' : meter a (b.bill a now dbadmin).db = m' at hbilled hcharged
  cases hbilled with
  | skipped haway =>
    rw [if_neg (by simp [haway]), add_zero]
    refine h.of_skipped hr hmark hm' rfl ?_ (hcharged.trans ?_)
    · exact (congrArg (fun m => b.fromPrepaid + ((meter a b.db).prepaid - Meter.prepaid m))
        hm').trans (by simp)
    · simp
  | held haway =>
    rw [if_neg (by simp [haway]), add_zero]
    rw [marked_debits, if_neg (lt_irrefl _)] at hcharged
    exact h.of_settled hr (hm'.trans marked_eq_settled) rfl rfl (le_refl _) (by omega) hmark id
      (by omega)
  | covered hall =>
    rw [Meter.settled_debits, marked_debits, add_zero, if_neg (lt_irrefl _)] at hcharged
    refine h.of_settled hr hm' rfl rfl (by omega) (by omega) (le_refl _) (fun _ => rfl) ?_
    split_ifs with haway
    · omega
    · have := hall (by simpa using haway)
      omega
  | charged haway =>
    rw [if_neg (by simp [haway]), add_zero]
    rw [Meter.settled_debits, marked_debits, if_pos (Nat.lt_succ_self _)] at hcharged
    exact h.of_settled hr hm' rfl rfl (by omega) (by omega) (le_refl _) (fun _ => rfl) (by omega)

theorem Books.Kept.change {db : Database} {next : Nat} (h : b.Kept a lost)
    (hgrows : grows a b.db db) : { b with db, next }.Kept a lost := by
  obtain ⟨r, hr, hmark⟩ := h.admin
  simp only [grows, hr, Bool.and_eq_true, decide_eq_true_eq] at hgrows
  obtain ⟨hcheckpoint, hadmin⟩ := hgrows
  cases hr' : db.admins.get? a with
  | none => rw [hr'] at hadmin; cases hadmin
  | some r' =>
    simp only [hr', decide_eq_true_eq] at hadmin
    have hw : (meter a db).watermark = (meter a b.db).watermark := by
      simp [meter, hcheckpoint]
    refine ⟨⟨r', hr', ?_⟩, h.fromPrepaid, h.charged, ?_, ?_⟩
    · rw [watermarkFor_eq] at hmark ⊢
      rw [hw]
      cases hb : (meter a b.db).watermark with
      | none => exact le_refl _
      | some w =>
        rw [hb] at hmark
        exact hmark.trans hadmin.1
    · exact fun hstart => hw ▸ h.start hstart
    · exact fun w₀ hstart => hw ▸ h.watermark w₀ hstart

theorem Books.Kept.run {acts : List BooksAct} {b₀ b : Books} {lost₀ : Int} (h : b₀.Kept a lost₀)
    (hrun : execGuarded (Books.step a) (fun _ _ => True) b₀ acts = some b) :
    ∃ lost, lost₀ ≤ lost ∧ b.Kept a lost ∧ (lost = lost₀ ↔
      execGuarded (Books.step a) (fun b act => keepsRest a b act) b₀ acts = some b) := by
  induction acts generalizing b₀ lost₀ with
  | nil => exact ⟨lost₀, le_refl _, Option.some.inj hrun ▸ h, by simpa [execGuarded] using hrun⟩
  | cons act rest ih =>
    rw [execGuarded, if_pos trivial] at hrun
    obtain ⟨b₁, hstep, hrest⟩ := Option.bind_eq_some_iff.mp hrun
    rw [execGuarded, hstep, Option.bind_some]
    cases act with
    | change db next =>
      simp only [Books.step, Option.ite_none_right_eq_some, Option.some.injEq] at hstep
      obtain ⟨hgrows, rfl⟩ := hstep
      simpa [keepsRest] using ih (h.change hgrows) hrest
    | bill now dbadmin =>
      obtain rfl := Option.some.inj hstep
      obtain ⟨r, hr, hmark⟩ := h.admin
      obtain ⟨lost, hle, hkept, hiff⟩ := ih (h.bill now dbadmin hr hmark)
        hrest
      cases haway : roundsAway now a dbadmin b₀.db with
      | false =>
        simp only [haway, Bool.false_eq_true, if_false, add_zero] at hle hiff
        exact ⟨lost, hle, hkept, by simpa [keepsRest, haway] using hiff⟩
      | true =>
        have hpos := overflow_pos_of_roundsAway hr hmark haway
        rw [haway, if_pos rfl] at hle
        refine ⟨lost, by omega, hkept, ?_⟩
        simp only [keepsRest, haway, not_true, decide_false, Bool.false_eq_true, if_false,
          reduceCtorEq, iff_false]
        omega

end Run

/-- **Metered bytes are accounted for** exactly if no call rounds away the rest of a covered part.
-/
theorem metered_bytes_accounted_iff (a : AdminId) (d₀ : Database) (n : Nat)
    (hadmin : (d₀.admins.get? a).isSome) (hfresh : d₀.checkpoints.get? a = none)
    (acts : List BooksAct) (b : Books)
    (hrun : execGuarded (Books.step a) (fun _ _ => True) { db := d₀, next := n } acts = some b) :
    b.Accounted a ↔ execGuarded (Books.step a) (fun b act => keepsRest a b act)
      { db := d₀, next := n } acts = some b := by
  obtain ⟨r, hr⟩ := Option.isSome_iff_exists.mp hadmin
  have hkept : Books.Kept a { db := d₀, next := n } 0 := by
    refine ⟨⟨r, hr, ?_⟩, le_refl _, le_refl _, fun _ => ⟨?_, rfl, rfl, rfl⟩, by simp⟩
    · simp [watermarkFor, hfresh]
    · simp [meter, hfresh]
  obtain ⟨lost, -, hkept', hiff⟩ := hkept.run hrun
  rw [hkept'.accounted_iff, hiff]

def meteredReseller (usage prepaid : Int) : Admin :=
  { username := "reseller"
    usersUsage := usage
    prepaidTrafficRemaining := prepaid
    usageRatePerGb := some 1000 }

def meteredDatabase (usage prepaid balance : Int) (watermark : Option Int) : Database where
  admins := Dict.empty.set 1 (meteredReseller usage prepaid)
  wallets := Dict.empty.set 1 balance
  checkpoints := (watermark.map fun w => Dict.empty.set 1 ⟨60, w⟩).getD .empty

def secondBill (usage prepaid balance : Int) : List BooksAct :=
  [.bill 60 (meteredReseller 0 prepaid), .change (meteredDatabase usage prepaid balance (some 0)) 1,
    .bill 120 (meteredReseller usage prepaid)]

/-- **Bytes are lost**: the watermark moves over 500 that cost less than one unit. -/
theorem rest_of_covered_part_is_lost :
    ∃ b, execGuarded (Books.step 1) (fun _ _ => True) { db := meteredDatabase 0 1000 0 none }
        (secondBill 1500 1000 0) = some b ∧ b.start = some 0 ∧ b.fromPrepaid = 1000 ∧
      b.charged = 0 ∧ (meter 1 b.db).watermark = some 1500 ∧ ¬ b.Accounted 1 := by
  refine ⟨_, rfl, by decide, by decide, by decide, by decide, ?_⟩
  intro haccounted
  obtain ⟨r, c, hr, hc, -, -, -, hsum⟩ := haccounted 0 rfl
  obtain rfl := Option.some.inj hr
  obtain rfl := Option.some.inj hc
  revert hsum
  decide

theorem whole_units_are_charged :
    ∃ b : Books, b.fromPrepaid = gb ∧ b.charged = 2 * gb ∧ b.Accounted 1 := by
  refine ⟨_, ?_, ?_, (metered_bytes_accounted_iff 1 (meteredDatabase 0 gb 5000 none) 1 rfl rfl
    (secondBill (3 * gb) gb 5000) _ rfl).mpr rfl⟩
  · decide
  · decide

end Shahkar.Billing
