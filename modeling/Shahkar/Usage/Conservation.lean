import Shahkar.Usage.Record

/-!
# Where the bytes of a tick go

What fits under the limit should go to `used_traffic` and the excess to `overage_traffic`;
`Admin.users_usage` should grow with the `used_traffic` of the admin's capped users.
-/

namespace Shahkar.Usage

open Shahkar.Db Shahkar.Lib

variable (parse : String → Int)

/-!
### Conservation across the limit
-/

/-- The bytes `v` of a tick arrive: up to the limit as used traffic, beyond it as overage. -/
def Conserved (u u' : User) (v : Int) : Prop :=
  match u.finiteLimit with
  | none => u'.usedTraffic = u.usedTraffic + v ∧ u'.overageTraffic = u.overageTraffic
  | some l => u'.usedTraffic = min (u.usedTraffic + v) l ∧
      u'.overageTraffic = u.overageTraffic + max 0 (u.usedTraffic + v - l)

/-- The tick stays clear of the limit; only a user on hold may reach it exactly. -/
def ClearOfLimit (u : User) (v : Int) : Prop :=
  match u.finiteLimit with
  | none => True
  | some l => v = 0 ∨ u.usedTraffic + v < l ∨ (u.status = .onHold ∧ u.usedTraffic + v ≤ l)

/-- **A tick conserves bytes exactly if it stays clear of the limit.** -/
theorem conserves_iff (t : UsageTick) (db : UsageDb) (id : Int) (u : User)
    (hrow : db.billableRow id = some u)
    (hused : ∀ l, u.finiteLimit = some l → u.usedTraffic ≤ l)
    (hnonneg : ∀ k ∈ keyTotals parse t id, 0 ≤ k) :
    (∃ u', (billPhase parse t db).users.get? id = some u' ∧
        Conserved u u' (userTotal parse t id)) ↔
      ClearOfLimit u (userTotal parse t id) := by
  have hbillable := (billableRow_eq_some_iff.mp hrow).2
  have hsum : (positives (keyTotals parse t id)).sum = userTotal parse t id :=
    (positives_sum_eq_iff.mpr hnonneg).trans (sum_keyTotals parse t id)
  have hv : 0 ≤ userTotal parse t id := hsum ▸ positives_sum_nonneg _
  unfold Conserved ClearOfLimit billPhase
  cases hl : u.finiteLimit with
  | none =>
    obtain ⟨u₁, hget, hbilled⟩ := recorded_unlimited parse (t := t) hrow hl
    have hover := overage_row parse (t := t) hget
    rw [hbilled.status, hbillable, if_pos rfl] at hover
    simp only [iff_true]
    refine ⟨_, hover, ?_, ?_⟩
    · exact hbilled.used.trans (by rw [hsum])
    · exact (add_zero _).trans hbilled.overage
  | some l =>
    obtain ⟨u₁, hget, hbilled⟩ := recorded_limited parse (t := t) hrow hl
    have hover := overage_row parse (t := t) hget
    rw [hsum] at hbilled hover
    have hle := hused l hl
    rw [hover]
    simp only [Option.some.injEq, exists_eq_left', addOverage, hbilled.used, hbilled.overage,
      hbilled.status]
    have hfits : u.usedTraffic + min (userTotal parse t id) (max 0 (l - u.usedTraffic)) =
        min (u.usedTraffic + userTotal parse t id) l := by omega
    by_cases hcond : u.status = .active ∧ u.usedTraffic < l ∧
        l - u.usedTraffic ≤ userTotal parse t id
    · -- the recorder has just limited the user, so the whole tick becomes overage
      have hstatus : u.status ≠ .onHold := by
        rw [hcond.1]
        decide
      rw [if_pos hcond, if_neg (by decide)]
      simp only [hstatus, false_and, or_false]
      omega
    · -- the status is what it was, so there is no overage
      rw [if_neg hcond, hbillable, if_pos rfl]
      cases hstatus : u.status with
      | onHold =>
        simp only [true_and]
        omega
      | active =>
        simp only [hstatus, true_and, reduceCtorEq, false_and, or_false] at hcond ⊢
        omega
      | disabled => simp [hstatus, UserStatus.billable] at hbillable
      | limited => simp [hstatus, UserStatus.billable] at hbillable
      | expired => simp [hstatus, UserStatus.billable] at hbillable

def user7 : User :=
  { username := "u7", usedTraffic := 40, dataLimit := some 100, adminId := some 1 }

def oneUser : UsageDb := ⟨⟨[(7, user7)], by simp⟩, ⟨[(1, { username := "r" })], by simp⟩⟩

def tickOf7 (params : List (Uid × Int)) : UsageTick where
  apiParams := ⟨[(none, params.map fun e => ⟨e.1, e.2, 0, 0⟩)], by simp⟩
  usageCoefficient := ⟨[(none, 1)], by simp⟩

/-- 80 bytes for a user with 60 left: 60 are billed, and 80 become overage. -/
theorem limit_crossing_counts_twice :
    oneUser.billableRow 7 = some user7 ∧ userTotal (fun _ => 7) (tickOf7 [(.int 7, 80)]) 7 = 80 ∧
      ∃ u', (billPhase (fun _ => 7) (tickOf7 [(.int 7, 80)]) oneUser).users.get? 7 = some u' ∧
        u'.usedTraffic = 100 ∧ u'.overageTraffic = 80 := by
  refine ⟨rfl, rfl, { user7 with
    status := .limited, usedTraffic := 100, overageTraffic := 80, usedTrafficDown := 80 }, ?_⟩
  decide

theorem clear_tick_conserves :
    ∃ u', (billPhase (fun _ => 7) (tickOf7 [(.int 7, 50)]) oneUser).users.get? 7 = some u' ∧
      Conserved user7 u' (userTotal (fun _ => 7) (tickOf7 [(.int 7, 50)]) 7) := by
  refine (conserves_iff (fun _ => 7) (tickOf7 [(.int 7, 50)]) oneUser 7 user7 rfl ?_ ?_).mpr ?_
  · rintro l hl
    obtain rfl : 100 = l := Option.some.inj hl
    decide
  · decide
  · exact .inr (.inl (by decide))

section InStep

variable (t : UsageTick) (db : UsageDb)

def increment (id : Int) : Int :=
  (((recordAggregatedUserUsages parse t db).users.get? id).map User.usedTraffic).getD 0 -
    ((db.users.get? id).map User.usedTraffic).getD 0

def cappedIncrements (admin : AdminId) : Int :=
  ((db.users.entries.filter fun e => e.2.adminId = some admin ∧ e.2.finiteLimit.isSome).map
    fun e => increment parse t db e.1).sum

/-- Every capped billable user is billed for their weighted rows up to what is left of the limit,
and every admin for what was billed to these users. -/
def InStep : Prop :=
  (∀ id u l, db.billableRow id = some u → u.finiteLimit = some l →
    increment parse t db id = min (userTotal parse t id) (max 0 (l - u.usedTraffic))) ∧
  ∀ admin row, db.admins.get? admin = some row →
    (recordAggregatedUserUsages parse t db).admins.get? admin =
      some { row with usersUsage := row.usersUsage + cappedIncrements parse t db admin }

/-- No negative key total takes from a sum that would have fitted, and, if an admin is charged, no
two positive ones exceed together what is left of the limit. -/
def KeysFit : Prop :=
  ∀ id u l, db.billableRow id = some u → u.finiteLimit = some l →
    ((∀ k ∈ keyTotals parse t id, 0 ≤ k) ∨ max 0 (l - u.usedTraffic) ≤ userTotal parse t id) ∧
    (∀ admin, u.adminId = some admin → (db.admins.get? admin).isSome →
      max 0 (l - u.usedTraffic) = 0 ∨
      (positives (keyTotals parse t id)).sum ≤ max 0 (l - u.usedTraffic) ∨
      (positives (keyTotals parse t id)).length ≤ 1)

variable {t db} {id l : Int} {u : User}

theorem increment_of_limit (hrow : db.billableRow id = some u) (hl : u.finiteLimit = some l) :
    increment parse t db id =
      min (positives (keyTotals parse t id)).sum (max 0 (l - u.usedTraffic)) := by
  obtain ⟨u', hget, hbilled⟩ := recorded_limited parse (t := t) hrow hl
  rw [increment, hget, (billableRow_eq_some_iff.mp hrow).1, Option.map_some, Option.map_some,
    Option.getD_some, Option.getD_some, hbilled.used, add_sub_cancel_left]

theorem increment_of_unbillable (h : db.users.get? id = some u)
    (hb : u.status.billable = false) : increment parse t db id = 0 := by
  obtain ⟨u', hget, hbilled⟩ := recorded_unbillable parse (t := t) h hb
  rw [increment, hget, h, Option.map_some, Option.map_some, Option.getD_some, Option.getD_some,
    hbilled.used, add_zero, sub_self]

theorem recorded_admin {admin : AdminId} {row : Admin} (h : db.admins.get? admin = some row) :
    (recordAggregatedUserUsages parse t db).admins.get? admin =
      some { row with usersUsage := row.usersUsage +
        ((adminUsage (billedEntries parse t db).1 db.billableRow).get? admin).getD 0 } := by
  unfold recordAggregatedUserUsages
  dsimp only
  split_ifs with hempty
  · rw [h, hempty.1]
    exact congrArg some (by rw [adminUsage]; simp)
  · generalize adminUsage (billedEntries parse t db).1 db.billableRow = usage
    rw [chargeAdmins, Dict.get?_foldl_modify (fun v (a : Admin) =>
      { a with usersUsage := a.usersUsage + v }), h, Dict.onKey_entries]
    cases usage.get? admin with
    | none => simp
    | some v => rfl

theorem adminUsage_get? (entries : List (Int × Int)) (row : Int → Option User)
    (admin : AdminId) : ((adminUsage entries row).get? admin).getD 0 =
      ((entries.filter fun e => chargedAdmin (row e.1) = some admin).map Prod.snd).sum := by
  have hfold : adminUsage entries row =
      (entries.filterMap fun e => (chargedAdmin (row e.1)).map fun a => (a, e.2)).foldl
        (fun d e => d.bump e.1 e.2) Dict.empty := by
    rw [List.foldl_filterMap, adminUsage]
    congr 1
    funext acc e
    cases chargedAdmin (row e.1) with
    | none => rfl
    | some a => rfl
  rw [hfold, Dict.getD_foldl_bump, Dict.get?_empty, Option.getD_none, zero_add]
  clear hfold
  induction entries with
  | nil => rfl
  | cons e rest ih =>
    cases hcharged : chargedAdmin (row e.1) with
    | none =>
      rw [List.filterMap_cons_none (by rw [hcharged]; rfl), ih,
        List.filter_cons_of_neg (by simp [hcharged])]
    | some a =>
      rw [List.filterMap_cons_some (by rw [hcharged]; rfl), posted_cons, ih]
      by_cases ha : a = admin
      · rw [if_pos ha, List.filter_cons_of_pos (by simp [hcharged, ha]), List.map_cons,
          List.sum_cons]
      · rw [if_neg ha, zero_add, List.filter_cons_of_neg (by simp [hcharged, ha])]

theorem adminCharge_eq (admin : AdminId) :
    ((adminUsage (billedEntries parse t db).1 db.billableRow).get? admin).getD 0 =
      ((db.users.entries.filter fun e => e.2.adminId = some admin ∧ e.2.finiteLimit.isSome).map
        fun e => posted e.1 (billedEntries parse t db).1).sum := by
  have hnodup : ((db.users.entries.filter fun e =>
      e.2.adminId = some admin ∧ e.2.finiteLimit.isSome).map Prod.fst).Nodup :=
    db.users.nodup.sublist (List.filter_sublist.map _)
  rw [adminUsage_get?, sum_eq_sum_posted hnodup, List.map_map]
  · congr 1
    refine List.map_congr_left fun e he => ?_
    obtain ⟨hmem, hcapped⟩ := List.mem_filter.mp he
    have hget := Dict.get?_eq_some_iff.mpr hmem
    rw [decide_eq_true_iff] at hcapped
    dsimp only [Function.comp]
    cases hrow : db.billableRow e.1 with
    | none =>
      -- a user who is not billable has no entry at all
      have hnil := billedEntries_of_not_billable parse (t := t) hrow
      rw [posted_eq_zero hnil, posted_eq_zero]
      rw [onKey_eq_nil_iff] at hnil ⊢
      exact fun e' he' => hnil e' (List.mem_filter.mp he').1
    | some u =>
      -- all entries of a billable capped user of the admin are charged
      obtain rfl : e.2 = u := Option.some.inj
        (hget.symm.trans (billableRow_eq_some_iff.mp hrow).1)
      refine posted_congr ?_
      unfold onKey
      rw [List.filter_filter]
      refine List.filter_congr fun e' _ => ?_
      by_cases hid : e'.1 = e.1
      · simp [hid, hrow, chargedAdmin, hcapped]
      · simp [hid]
  · intro e he
    obtain ⟨-, hcharged⟩ := List.mem_filter.mp he
    rw [decide_eq_true_iff, chargedAdmin, Option.bind_eq_some_iff] at hcharged
    obtain ⟨u, hrow, hu⟩ := hcharged
    have hget := (billableRow_eq_some_iff.mp hrow).1
    split at hu
    · rename_i hcapped
      exact List.mem_map.mpr ⟨(e.1, u), List.mem_filter.mpr
        ⟨Dict.get?_eq_some_iff.mp hget, by simp [hu, hcapped]⟩, rfl⟩
    · cases hu

theorem increment_eq_iff (hrow : db.billableRow id = some u) (hl : u.finiteLimit = some l) :
    increment parse t db id = min (userTotal parse t id) (max 0 (l - u.usedTraffic)) ↔
      (∀ k ∈ keyTotals parse t id, 0 ≤ k) ∨
        max 0 (l - u.usedTraffic) ≤ userTotal parse t id := by
  have hle := sum_le_positives_sum (keyTotals parse t id)
  rw [increment_of_limit parse hrow hl, ← positives_sum_eq_iff, sum_keyTotals] at *
  omega

theorem recorded_admin_iff {admin : AdminId} {row : Admin}
    (h : db.admins.get? admin = some row) :
    (recordAggregatedUserUsages parse t db).admins.get? admin =
        some { row with usersUsage := row.usersUsage + cappedIncrements parse t db admin } ↔
      ∀ id u l, db.billableRow id = some u → u.finiteLimit = some l → u.adminId = some admin →
        max 0 (l - u.usedTraffic) = 0 ∨
        (positives (keyTotals parse t id)).sum ≤ max 0 (l - u.usedTraffic) ∨
        (positives (keyTotals parse t id)).length ≤ 1 := by
  -- what is charged for a user is never less than what the user is billed
  have hcharge : ∀ id u l, db.billableRow id = some u → u.finiteLimit = some l →
      increment parse t db id ≤ posted id (billedEntries parse t db).1 ∧
      (posted id (billedEntries parse t db).1 = increment parse t db id ↔
        max 0 (l - u.usedTraffic) = 0 ∨
        (positives (keyTotals parse t id)).sum ≤ max 0 (l - u.usedTraffic) ∨
        (positives (keyTotals parse t id)).length ≤ 1) := by
    intro id u l hrow hl
    have hrem : 0 ≤ max 0 (l - u.usedTraffic) := le_max_left _ _
    rw [increment_of_limit parse hrow hl, billed_sum_of_limit parse hrow hl]
    exact ⟨min_positives_le_cappedSum hrem _, cappedSum_eq_iff hrem⟩
  have hnone : ∀ id u, db.users.get? id = some u → db.billableRow id = none →
      posted id (billedEntries parse t db).1 = increment parse t db id := by
    intro id u hget hrow
    have hb : u.status.billable = false := by
      by_contra hb
      rw [billableRow_eq_some_iff.mpr ⟨hget, by simpa using hb⟩] at hrow
      cases hrow
    rw [posted_eq_zero (billedEntries_of_not_billable parse hrow),
      increment_of_unbillable parse hget hb]
  have hsums : (recordAggregatedUserUsages parse t db).admins.get? admin =
        some { row with usersUsage := row.usersUsage + cappedIncrements parse t db admin } ↔
      ∀ e ∈ db.users.entries.filter (fun e => e.2.adminId = some admin ∧ e.2.finiteLimit.isSome),
        posted e.1 (billedEntries parse t db).1 = increment parse t db e.1 := by
    rw [recorded_admin parse h, adminCharge_eq, cappedIncrements, ← sum_map_eq_iff]
    · simp
    · intro e he
      obtain ⟨hmem, hcapped⟩ := List.mem_filter.mp he
      rw [decide_eq_true_iff] at hcapped
      obtain ⟨l, hl⟩ := Option.isSome_iff_exists.mp hcapped.2
      have hget := Dict.get?_eq_some_iff.mpr hmem
      cases hrow : db.billableRow e.1 with
      | none => exact (hnone e.1 e.2 hget hrow).ge
      | some u =>
        obtain rfl : e.2 = u := Option.some.inj
          (hget.symm.trans (billableRow_eq_some_iff.mp hrow).1)
        exact (hcharge e.1 e.2 l hrow hl).1
  rw [hsums]
  constructor
  · intro hall id u l hrow hl hadmin
    have hget := (billableRow_eq_some_iff.mp hrow).1
    refine (hcharge id u l hrow hl).2.mp (hall (id, u) (List.mem_filter.mpr ?_))
    exact ⟨Dict.get?_eq_some_iff.mp hget, by simp [hadmin, hl]⟩
  · intro hall e he
    obtain ⟨hmem, hcapped⟩ := List.mem_filter.mp he
    rw [decide_eq_true_iff] at hcapped
    obtain ⟨l, hl⟩ := Option.isSome_iff_exists.mp hcapped.2
    have hget := Dict.get?_eq_some_iff.mpr hmem
    cases hrow : db.billableRow e.1 with
    | none => exact hnone e.1 e.2 hget hrow
    | some u =>
      obtain rfl : e.2 = u := Option.some.inj
        (hget.symm.trans (billableRow_eq_some_iff.mp hrow).1)
      exact (hcharge e.1 e.2 l hrow hl).2.mpr (hall e.1 e.2 l hrow hl hcapped.1)

end InStep

/-- **A tick bills users and resellers in step exactly if the key totals fit.** -/
theorem inStep_iff (t : UsageTick) (db : UsageDb) :
    InStep parse t db ↔ KeysFit parse t db := by
  constructor
  · rintro ⟨husers, hadmins⟩ id u l hrow hl
    refine ⟨(increment_eq_iff parse hrow hl).mp (husers id u l hrow hl), ?_⟩
    intro admin hadmin hsome
    obtain ⟨row, hget⟩ := Option.isSome_iff_exists.mp hsome
    exact (recorded_admin_iff parse hget).mp (hadmins admin row hget) id u l hrow hl hadmin
  · intro hfit
    refine ⟨fun id u l hrow hl => (increment_eq_iff parse hrow hl).mpr (hfit id u l hrow hl).1, ?_⟩
    intro admin row hget
    refine (recorded_admin_iff parse hget).mpr fun id u l hrow hl hadmin => ?_
    exact (hfit id u l hrow hl).2 admin hadmin (by rw [hget]; rfl)

/-- Two sources of 50 for a user with 60 left: the admin is billed 100. -/
theorem mixed_sources_overcharge_admin :
    increment (fun _ => 7) (tickOf7 [(.str "7", 50), (.int 7, 50)]) oneUser 7 = 60 ∧
      cappedIncrements (fun _ => 7) (tickOf7 [(.str "7", 50), (.int 7, 50)]) oneUser 1 = 60 ∧
      ((recordAggregatedUserUsages (fun _ => 7) (tickOf7 [(.str "7", 50), (.int 7, 50)])
        oneUser).admins.get? 1).map Admin.usersUsage = some 100 := by
  decide

end Shahkar.Usage
