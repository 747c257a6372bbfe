import Shahkar.Services.UserBulk
import Shahkar.Usage.RecordSession

/-!
# Used traffic and the data limit

Billing, edits, resets, plans and bulk extensions all write `used_traffic` and `data_limit`, and
keep the usage within the limit as seen from the row they have loaded.
-/

namespace Shahkar.Services

open Shahkar.Db Shahkar.Lib Shahkar.Usage Shahkar.Portal Shahkar.Billing
open Prog hiding commit

def WithinLimit (u : User) : Prop :=
  ∀ l, u.finiteLimit = some l → 0 ≤ u.usedTraffic ∧ u.usedTraffic ≤ l

/-!
### Rows
-/

section Rows

variable {u v : User}

theorem WithinLimit.congr (h : WithinLimit u) (hused : v.usedTraffic = u.usedTraffic)
    (hlimit : v.dataLimit = u.dataLimit) : WithinLimit v := by
  intro l hl
  rw [hused]
  refine h l ?_
  rw [User.finiteLimit, ← hlimit]
  exact hl

theorem withinLimit_of_unused (hused : u.usedTraffic = 0) : WithinLimit u := by
  intro l hl
  have hpos := (finiteLimit_eq_some_iff.mp hl).2
  rw [hused]
  exact ⟨le_refl 0, hpos.le⟩

theorem withinLimit_addUsage {value : Int} (hvalue : 0 ≤ value) (h : WithinLimit u) :
    WithinLimit (addUsage value u) := by
  intro l hl
  cases hlimit : u.finiteLimit with
  | none =>
    rw [addUsage_of_unlimited hlimit] at hl
    rw [show u.finiteLimit = some l from hl] at hlimit
    cases hlimit
  | some l' =>
    obtain ⟨hnonneg, -⟩ := h l' hlimit
    have hpos := (finiteLimit_eq_some_iff.mp hlimit).2
    rw [addUsage_of_limit hlimit] at hl ⊢
    obtain rfl : l' = l := Option.some.inj (hlimit.symm.trans hl)
    dsimp only
    omega

theorem withinLimit_enforceUsageCap (h : WithinLimit u) : WithinLimit (enforceUsageCap u) := by
  unfold enforceUsageCap
  split
  · exact h
  · next limit hlimit =>
      intro l hl
      obtain rfl : limit = l := Option.some.inj (hlimit.symm.trans hl)
      obtain ⟨hnonneg, -⟩ := h limit hlimit
      have hpos := (finiteLimit_eq_some_iff.mp hlimit).2
      dsimp only
      omega

theorem withinLimit_applyStatus (modify : UserModify) (h : WithinLimit u) :
    WithinLimit (applyStatus modify u) := by
  rw [applyStatus_eq]
  exact h.congr rfl rfl

theorem withinLimit_applyExpire (now : Int) (modify : UserModify) (h : WithinLimit u) :
    WithinLimit (applyExpire now modify u) := by
  obtain ⟨status, hrow⟩ := applyExpire_row now modify u
  rw [hrow]
  exact h.congr rfl rfl

theorem withinLimit_reactivateIfQuotaAvailable (h : WithinLimit u) :
    WithinLimit (reactivateIfQuotaAvailable u) := by
  unfold reactivateIfQuotaAvailable
  split
  · exact h
  · exact h.congr rfl rfl

theorem usedTraffic_applyOverageOnRecharge_nonneg {limit : Int} (hlimit : 0 < limit)
    (hused : 0 ≤ u.usedTraffic) : 0 ≤ (applyOverageOnRecharge limit u).usedTraffic := by
  unfold applyOverageOnRecharge
  split_ifs
  · exact hused
  · dsimp only
    omega
  · dsimp only
    omega

theorem withinLimit_applyDataLimit (modify : UserModify) (hused : 0 ≤ u.usedTraffic)
    (h : WithinLimit u) : WithinLimit (applyDataLimit modify u) := by
  obtain ⟨status, used, overage, hrow⟩ := applyDataLimit_row modify u
  intro l hl
  obtain ⟨hdata, hpos⟩ := finiteLimit_eq_some_iff.mp hl
  rw [hrow] at hdata
  change nextLimit modify.dataLimit u.dataLimit = some l at hdata
  unfold nextLimit at hdata
  unfold applyDataLimit
  cases hmodify : modify.dataLimit.join with
  | none =>
    rw [hmodify] at hdata
    exact h l (finiteLimit_eq_some_iff.mpr ⟨hdata, hpos⟩)
  | some limit =>
    rw [hmodify] at hdata
    obtain rfl : limit = l := by
      have := (Option.filter_eq_some_iff.mp hdata).1
      exact Option.some.inj this
    have hnonneg := usedTraffic_applyOverageOnRecharge_nonneg
      (u := { u with dataLimit := orNone (some limit) }) hpos hused
    dsimp only
    generalize applyOverageOnRecharge limit _ = v at hnonneg ⊢
    have hcap : 0 ≤ (if limit ≠ 0 ∧ limit < v.usedTraffic then { v with usedTraffic := limit }
        else v).usedTraffic ∧ (if limit ≠ 0 ∧ limit < v.usedTraffic then
        { v with usedTraffic := limit } else v).usedTraffic ≤ limit := by
      split_ifs with hover
      · exact ⟨hpos.le, le_refl limit⟩
      · exact ⟨hnonneg, by omega⟩
    generalize (if limit ≠ 0 ∧ limit < v.usedTraffic then _ else v) = w at hcap ⊢
    split_ifs <;> exact hcap

theorem withinLimit_updatedUser (now : Int) (modify : UserModify) (hused : 0 ≤ u.usedTraffic)
    (h : WithinLimit u) : WithinLimit (updatedUser now modify u) := by
  have hstatus : 0 ≤ (applyStatus modify u).usedTraffic := by
    unfold applyStatus
    split
    · exact hused
    · split <;> exact hused
  have hlimits := withinLimit_applyExpire now modify
    (withinLimit_applyDataLimit modify hstatus (withinLimit_applyStatus modify h))
  unfold updatedUser
  split_ifs
  · exact withinLimit_reactivateIfQuotaAvailable (hlimits.congr rfl rfl)
  · exact hlimits.congr rfl rfl

theorem withinLimit_nextPlanUser {now : Int} {plan : NextPlan}
    (h : nextPlanUser now plan u = some v) : WithinLimit v := by
  obtain ⟨limit, -, rfl⟩ := Option.map_eq_some_iff.mp h
  exact withinLimit_of_unused rfl

theorem withinLimit_extendedLimits (now : Int) (body : BulkExtendRequest) (h : WithinLimit u) :
    WithinLimit (extendedLimits now body u) := by
  intro l hl
  obtain ⟨hdata, hpos⟩ := finiteLimit_eq_some_iff.mp hl
  obtain ⟨limit, hlimit, hnew⟩ := Option.map_eq_some_iff.mp hdata
  have hold : 0 < limit := by
    by_contra hneg
    rw [if_neg hneg] at hnew
    omega
  rw [if_pos hold] at hnew
  obtain ⟨hnonneg, hle⟩ := h limit (finiteLimit_eq_some_iff.mpr ⟨hlimit, hold⟩)
  refine ⟨hnonneg, ?_⟩
  show u.usedTraffic ≤ l
  omega

theorem withinLimit_extendedUser (now : Int) (body : BulkExtendRequest) (h : WithinLimit u) :
    WithinLimit (extendedUser now body u) := by
  have hlimits := withinLimit_extendedLimits now body h
  unfold extendedUser
  dsimp only
  split_ifs <;> exact hlimits.congr rfl rfl

end Rows

def AllWithin (d : Database) : Prop := ∀ id u, d.users.get? id = some u → WithinLimit u

def KeepsLimit : Write → Prop
  | .updateUser _ loaded assigned =>
    0 ≤ loaded.usedTraffic → WithinLimit loaded → WithinLimit assigned
  | .billUsage _ value => 0 ≤ value
  | .insertUser _ user => WithinLimit user
  | _ => True

def limitsCurrent (d : Database) : Write → Bool
  | .updateUser id loaded assigned =>
    (loaded.usedTraffic = assigned.usedTraffic ∧ loaded.dataLimit = assigned.dataLimit) ∨
      (d.users.get? id).all fun u =>
        0 ≤ u.usedTraffic ∧ u.usedTraffic = loaded.usedTraffic ∧ u.dataLimit = loaded.dataLimit
  | _ => true

def bufferCurrent : List Write → Database → Bool
  | [], _ => true
  | w :: rest, d => limitsCurrent d w && (w.apply d).all (bufferCurrent rest)

theorem withinLimit_written {loaded assigned u : User}
    (hassigned : 0 ≤ loaded.usedTraffic → WithinLimit loaded → WithinLimit assigned)
    (hcurrent : (loaded.usedTraffic = assigned.usedTraffic ∧
      loaded.dataLimit = assigned.dataLimit) ∨ (0 ≤ u.usedTraffic ∧
        u.usedTraffic = loaded.usedTraffic ∧ u.dataLimit = loaded.dataLimit))
    (hu : WithinLimit u) : WithinLimit (User.written loaded assigned u) := by
  rcases hcurrent with ⟨hused, hlimit⟩ | ⟨hnonneg, hused, hlimit⟩
  · refine hu.congr ?_ ?_
    · simp [User.written, hused]
    · simp [User.written, hlimit]
  · refine (hassigned (hused ▸ hnonneg) (hu.congr hused.symm hlimit.symm)).congr ?_ ?_
    · simp [User.written, hused]
    · simp [User.written, hlimit]

theorem KeepsLimit.apply {w : Write} {d d' : Database} (hw : KeepsLimit w)
    (hcurrent : limitsCurrent d w) (h : w.apply d = some d') (hd : AllWithin d) : AllWithin d' := by
  cases w with
  | updateUser id loaded assigned =>
    obtain rfl := Option.some.inj h
    simp only [limitsCurrent, decide_eq_true_eq, Bool.decide_or, Bool.or_eq_true,
      Option.all_eq_true] at hcurrent
    refine fun _ _ => Dict.of_get?_modify hd fun u hu => ?_
    exact withinLimit_written hw (hcurrent.imp_right fun h => h u hu) (hd id u hu)
  | billUsage id value =>
    obtain rfl := Option.some.inj h
    exact fun _ _ => Dict.of_get?_modify hd fun u hu => withinLimit_addUsage hw (hd id u hu)
  | billSplit id up down =>
    obtain rfl := Option.some.inj h
    exact fun _ _ => Dict.of_get?_modify hd fun u hu => (hd id u hu).congr rfl rfl
  | insertUser id user =>
    obtain ⟨-, rfl⟩ := eq_of_ite_none h
    exact fun _ _ => Dict.of_get?_set hd hw
  | insertWallet _ | insertCheckpoint _ _ =>
    obtain ⟨-, rfl⟩ := eq_of_ite_none h
    exact hd
  | _ =>
    obtain rfl := Option.some.inj h
    exact hd

theorem allWithin_applyAll {ws : List Write} {d d' : Database} (hws : ∀ w ∈ ws, KeepsLimit w)
    (hcurrent : bufferCurrent ws d) (h : store.applyAll ws d = some d') (hd : AllWithin d) :
    AllWithin d' := by
  induction ws generalizing d with
  | nil =>
    obtain rfl := Option.some.inj h
    exact hd
  | cons w rest ih =>
    obtain ⟨d₁, hw, hrest⟩ := Option.bind_eq_some_iff.mp h
    rw [bufferCurrent, Bool.and_eq_true, show w.apply d = some d₁ from hw] at hcurrent
    refine ih (fun w' hw' => hws w' (List.mem_cons_of_mem _ hw')) hcurrent.2 hrest ?_
    exact (hws w List.mem_cons_self).apply hcurrent.1 hw hd

section Programs

variable {A L : Row → Prop}

theorem confined_limitUserQuotaOf (id : Int) (dbuser : User) :
    (limitUserQuotaOf id dbuser).Confined KeepsLimit A L := by
  have hreached : ∀ row, (limitReached id row).Confined KeepsLimit A L := by
    intro row
    unfold limitReached
    split
    · exact confined_pure _
    · refine confined_bind (confined_emit.mpr ?_) fun _ =>
        confined_bind confined_commit fun _ => confined_pure _
      exact fun _ h => h.congr rfl rfl
  unfold limitUserQuotaOf
  dsimp only
  split
  · exact hreached dbuser
  · exact confined_bind (confined_emit.mpr fun _ => withinLimit_enforceUsageCap) fun _ =>
      confined_bind confined_commit fun _ => confined_bind (confined_query _) hreached

theorem billedEntries_pos {parse : String → Int} {t : UsageTick} {db : UsageDb} {e : Int × Int}
    (he : e ∈ (billedEntries parse t db).1) : 0 < e.2 := by
  obtain ⟨entry, -, hentry⟩ := List.mem_filterMap.mp he
  split at hentry
  · next hpos =>
      rw [← Option.some.inj hentry]
      exact hpos
  · cases hentry

theorem confined_limitHit (id : Int) : (limitHit id).Confined KeepsLimit A L := by
  refine confined_bind (confined_query _) fun found => ?_
  cases found with
  | none => exact confined_pure _
  | some dbuser => exact confined_limitUserQuotaOf id dbuser

theorem confined_written {α : Type} {w : α → Write} {l : List α} (hw : ∀ a, KeepsLimit (w a)) :
    (do let _ ← Prog.each (fun a => Prog.emit (w a)) l; Db.commit : Action Unit).Confined
      KeepsLimit A L :=
  confined_bind (confined_each fun a _ => confined_emit.mpr (hw a)) fun _ => confined_commit

theorem confined_recordUserStats (parse : String → Int) (stats : Stats) (params : List Param)
    (node : NodeId) (factor : ℚ) :
    (recordUserStats parse stats params node factor).Confined KeepsLimit A L := by
  have hplain : (plainRecord parse stats params node factor).Confined KeepsLimit A L := by
    refine confined_bind (confined_query _) fun missing => confined_bind ?_ fun _ =>
      confined_written fun _ => trivial
    unfold insertMissing
    split
    · exact confined_pure _
    · exact confined_written fun _ => trivial
  unfold recordUserStats
  split
  · exact confined_pure _
  refine confined_tryCatch ?_ fun _ => hplain
  unfold upsertNodeUserUsage
  dsimp only
  split_ifs
  · exact confined_pure _
  · exact confined_raise _
  · refine confined_bind (confined_each fun chunk _ => ?_) fun _ => confined_commit
    unfold insertOnConflict
    split
    · exact confined_bind (confined_each fun _ _ => confined_emit.mpr trivial) fun _ =>
        confined_pure _
    · exact confined_raise _

theorem confined_recordUsages (parse : String → Int) (stats : Stats) (t : UsageTick) :
    (recordUsages parse stats t).Confined KeepsLimit A L := by
  refine confined_query_bind fun d => ?_
  dsimp only
  have hbilled : ∀ e ∈ (billedEntries parse t ⟨d.users, d.admins⟩).1, 0 < e.2 := fun _ =>
    billedEntries_pos
  generalize (billedEntries parse t ⟨d.users, d.admins⟩).1 = usersUsage at hbilled ⊢
  split
  · exact confined_pure _
  have hrest : ∀ (charged : Dict AdminId Int) (split : List (Int × Int × Int))
      (nodes : List (NodeId × List Param)) (hit : List Int), (do
        let _ ← Prog.each limitHit hit
        chargeResellers charged
        writeSplit split
        recordStats parse stats t nodes : Action Unit).Confined KeepsLimit A L := by
    intro charged split nodes hit
    refine confined_bind (confined_each fun id _ => confined_limitHit id) fun _ =>
      confined_bind ?_ fun _ => confined_bind ?_ fun _ => ?_
    · refine confined_bind (confined_each fun e _ => confined_emit.mpr trivial) fun _ => ?_
      split_ifs
      exacts [confined_pure _, confined_commit]
    · refine confined_bind (confined_each fun r _ => confined_emit.mpr trivial) fun _ => ?_
      split_ifs
      exacts [confined_pure _, confined_commit]
    · unfold recordStats
      split
      · exact confined_bind (confined_each fun e _ => confined_recordUserStats ..) fun _ =>
          confined_pure _
      · exact confined_pure _
  refine confined_bind (confined_each fun chunk hchunk => ?_) fun _ => ?_
  · refine confined_bind (confined_each fun e he => confined_emit.mpr ?_) fun _ => confined_commit
    have hmem := (Text.mem_chunks_iff (by decide)).mp ⟨chunk, hchunk, he⟩
    rw [List.mem_insertionSort] at hmem
    exact (hbilled e hmem).le
  · split
    · exact hrest ..
    · exact confined_bind (confined_query _) fun _ => hrest ..

theorem confined_updateUser_keepsLimit (now id : Int) (dbuser : User) (modify : UserModify) :
    (updateUser now id dbuser modify).Confined KeepsLimit A L :=
  confined_updateUser (withinLimit_updatedUser now modify)

theorem confined_resetUserDataUsage_keepsLimit (id : Int) (dbuser : User) :
    (resetUserDataUsage id dbuser).Confined KeepsLimit A L :=
  confined_resetUserDataUsage (fun _ _ => withinLimit_of_unused rfl) trivial

theorem confined_resetUserByNext_keepsLimit (now id : Int) (dbuser : User) :
    (resetUserByNext now id dbuser).Confined KeepsLimit A L :=
  confined_resetUserByNext (fun _ _ hrow _ _ => withinLimit_nextPlanUser hrow) trivial

theorem confined_applyPlanToUser (now id : Int) (user : User) (planId : Nat) (plan : Plan) :
    (applyPlanToUser now id user planId plan).Confined KeepsLimit A L := by
  have hupdate : ∀ (row : User) (locks : LimitLocks),
      (if (locks.deviceLimit.or plan.deviceLimit).any (· < 0) then .raise .validation
        else do
          Prog.emit (.notePlanApplied id planId)
          updateUser now id row (renewalModify now user plan locks) :
        Action User).Confined KeepsLimit A L := by
    intro row locks
    split
    · exact confined_raise _
    · exact confined_bind (confined_emit.mpr trivial) fun _ =>
        confined_updateUser_keepsLimit now id row _
  unfold applyPlanToUser
  split
  · exact confined_bind (confined_resetUserDataUsage_keepsLimit id user) fun row =>
      confined_bind (confined_query _) (hupdate row)
  · exact confined_bind (confined_pure _) fun row =>
      confined_bind (confined_query _) (hupdate row)

theorem confined_bulkEdit {P : Write → Prop} {caller : Caller} {select : Int × User → Bool}
    {edit : Database → Int → User → List Write} (hP : ∀ d id u, ∀ w ∈ edit d id u, P w) :
    (bulkEdit caller select edit).Confined P A L := by
  refine confined_query_bind fun d => ?_
  refine confined_bind (confined_each fun w hw => confined_emit.mpr ?_) fun _ => ?_
  · obtain ⟨ws, hws, hw⟩ := List.mem_flatten.mp hw
    obtain ⟨e, -, rfl⟩ := List.mem_map.mp hws
    exact hP d e.1 e.2 w hw
  · split
    · exact confined_pure _
    · exact confined_bind confined_commit fun _ => confined_pure _

theorem confined_applyBulkExtend (now : Int) (caller : Caller) (select : Int × User → Bool)
    (body : BulkExtendRequest) :
    (applyBulkExtend now caller select body).Confined KeepsLimit A L := by
  refine confined_bulkEdit fun _ id u w hw => ?_
  split at hw
  · cases hw
  · obtain rfl := List.mem_singleton.mp hw
    exact fun _ => withinLimit_extendedUser now body

end Programs

/-- The calls that change the usage or the limit of accounts. Those that work on one account load it
first. -/
inductive LimitRequest
  | record (parse : String → Int) (stats : Stats) (tick : UsageTick)
  | update (now id : Int) (modify : UserModify)
  | reset (id : Int)
  | resetByNext (now id : Int)
  | applyPlan (now id : Int) (planId : Nat)
  | bulkExtend (now : Int) (caller : Caller) (select : Int × User → Bool)
    (body : BulkExtendRequest)

def withUser {α : Type} (id : Int) (f : User → Action α) : Action Unit := do
  match ← Prog.query fun d => d.users.get? id with
  | none => return ()
  | some dbuser => do let _ ← f dbuser

def LimitRequest.prog : LimitRequest → Action Unit
  | .record parse stats tick => recordUsages parse stats tick
  | .update now id modify => withUser id fun dbuser => updateUser now id dbuser modify
  | .reset id => withUser id (resetUserDataUsage id)
  | .resetByNext now id => withUser id (resetUserByNext now id)
  | .applyPlan now id planId => do
    match ← Prog.query fun d => d.plans.get? planId with
    | none => return ()
    | some plan => withUser id fun dbuser => applyPlanToUser now id dbuser planId plan
  | .bulkExtend now caller select body => do let _ ← applyBulkExtend now caller select body

theorem confined_withUser {α : Type} {P : Write → Prop} {A L : Row → Prop} {id : Int}
    {f : User → Action α} (hf : ∀ u, (f u).Confined P A L) : (withUser id f).Confined P A L := by
  refine confined_bind (confined_query _) fun found => ?_
  cases found with
  | none => exact confined_pure _
  | some dbuser => exact confined_bind (hf dbuser) fun _ => confined_pure _

theorem confined_prog {A L : Row → Prop} (q : LimitRequest) :
    q.prog.Confined KeepsLimit A L := by
  cases q with
  | record parse stats tick => exact confined_recordUsages parse stats tick
  | update now id modify =>
    exact confined_withUser fun u => confined_updateUser_keepsLimit now id u modify
  | reset id => exact confined_withUser (confined_resetUserDataUsage_keepsLimit id)
  | resetByNext now id => exact confined_withUser (confined_resetUserByNext_keepsLimit now id)
  | applyPlan now id planId =>
    refine confined_bind (confined_query _) fun found => ?_
    cases found with
    | none => exact confined_pure _
    | some plan =>
      exact confined_withUser fun u => confined_applyPlanToUser now id u planId plan
  | bulkExtend now caller select body =>
    exact confined_bind (confined_applyBulkExtend now caller select body) fun _ =>
      confined_pure _

def limitContract : Contract Database Row (Option Int) Write where
  inv := AllWithin
  okRead _ _ _ := True
  okCommit t d := bufferCurrent t.pend d

/-- The step does not commit a usage or a limit that was computed from an outdated row. -/
def limitsUpToDate (s : Panel) : Lib.Act LimitRequest → Bool
  | .run i =>
    match s.sess.get? i with
    | some ⟨.commit _ _, t⟩ => bufferCurrent t.pend s.db
    | _ => true
  | _ => true

theorem meetsAct_of_limitsUpToDate {s : Panel} {act : Lib.Act LimitRequest}
    (h : limitsUpToDate s act) : limitContract.MeetsAct s act := by
  cases act with
  | spawn i q => trivial
  | die i => trivial
  | run i =>
    intro t hi
    obtain ⟨p, t⟩ := t
    cases p with
    | commit failed k =>
      simp only [limitsUpToDate, hi] at h
      exact h
    | _ => simp [Contract.Meets, limitContract]

/-- **No usage beyond the limit**, if no session commits from an outdated row. -/
theorem used_within_limit (s₀ : Panel) (hsess : s₀.sess = .empty)
    (hdb : ∀ id u l, s₀.db.users.get? id = some u → u.finiteLimit = some l →
      0 ≤ u.usedTraffic ∧ u.usedTraffic ≤ l) (s : Panel)
    (hrun : Run (Sys.step store LimitRequest.prog) (fun s act => limitsUpToDate s act) s₀ s)
    (id : Int) (u : User) (l : Int) (hu : s.db.users.get? id = some u)
    (hl : u.finiteLimit = some l) : 0 ≤ u.usedTraffic ∧ u.usedTraffic ≤ l := by
  refine Contract.inv_of_run (C := limitContract) (fun q => ?_)
    (fun id u hu l hl => hdb id u l hu hl) hsess
    (hrun.mono fun _ _ => meetsAct_of_limitsUpToDate) id u hu l hl
  have hpreserves := Contract.preserves_pend_of_confined (C := limitContract) (S := store)
    (fun hpend hd hok happly => allWithin_applyAll hpend hok happly hd)
    (confined_prog (A := fun _ => True) (L := fun _ => True) q)
  exact hpreserves.wp (t := {}) (by simp) fun _ _ _ => trivial

def halfUsedUser : User := { username := "user", usedTraffic := 50, dataLimit := some 100 }

def halfUsed : Panel :=
  { db := { users := Dict.empty.set 1 halfUsedUser }, next := 1, log := [], sess := .empty }

/-- `DISABLE_RECORDING_NODE_USAGE` is set. -/
def unrecorded : Stats := { plainStats with recording := false }

def forty : UsageTick where
  apiParams := Dict.empty.set none [{ uid := .int 1, value := 40, up := 0, down := 0 }]
  usageCoefficient := .empty

def toSixty : UserModify := { dataLimit := some (some 60) }

/-- **Usage beyond the limit**: an edit lowers it while 40 more are billed. -/
theorem edit_overtakes_billing :
    ∃ s, Run (Sys.step store LimitRequest.prog) (fun _ _ => True) halfUsed s ∧
      (s.sess.entries.all fun e => e.2.prog.finished) = true ∧
      ((s.db.users.get? 1).map fun u => (u.usedTraffic, u.dataLimit)) = some (90, some 60) := by
  refine ⟨_, Run.of_execGuarded
    ([.spawn 0 (.update 0 1 toSixty), .spawn 1 (.record (fun _ => 0) unrecorded forty), .run 0] ++
      List.replicate 6 (.run 1) ++ List.replicate 3 (.run 0)) rfl, ?_⟩
  decide

def cappedUser : User :=
  { halfUsedUser with
    status := .limited, usedTraffic := 60, usedTrafficDown := 40, dataLimit := some 60 }

theorem edit_after_billing_caps_usage :
    ∃ s : Panel, s.db.users.get? 1 = some cappedUser ∧
      0 ≤ cappedUser.usedTraffic ∧ cappedUser.usedTraffic ≤ 60 := by
  have hrun : ∃ s, execGuarded (Sys.step store LimitRequest.prog)
      (fun s act => limitsUpToDate s act) halfUsed
      ([.spawn 0 (.record (fun _ => 0) unrecorded forty), .spawn 1 (.update 0 1 toSixty)] ++
        List.replicate 6 (.run 0) ++ List.replicate 4 (.run 1)) = some s ∧
      s.db.users.get? 1 = some cappedUser := ⟨_, rfl, rfl⟩
  obtain ⟨s, hs, hu⟩ := hrun
  refine ⟨s, hu, used_within_limit halfUsed rfl ?_ s (Run.of_execGuarded _ hs) 1 cappedUser 60 hu
    rfl⟩
  intro id u l hu hl
  rw [halfUsed, Dict.get?_set] at hu
  split at hu
  · obtain rfl := Option.some.inj hu
    obtain rfl : 100 = l := Option.some.inj hl
    decide
  · cases hu

end Shahkar.Services
