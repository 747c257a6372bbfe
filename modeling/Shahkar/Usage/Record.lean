import Mathlib.Data.List.Sort
import Mathlib.Data.Rat.Defs
import Shahkar.Lib.CappedSum
import Shahkar.Lib.Dict
import Shahkar.Usage.Quota

/-!
The bill phase of a usage tick (`app/jobs/record_usages.py`), as one function on the rows of users
and admins: merging, clamping, billing and limiting, and then the overage.
-/

namespace Shahkar.Usage

open Shahkar.Db Shahkar.Lib

abbrev NodeId := Option Nat

inductive Uid
  | str (text : String)
  | int (id : Int)
  deriving Repr, DecidableEq

def Uid.toInt (parse : String → Int) : Uid → Int
  | .str text => parse text
  | .int id => id

structure Param where
  uid : Uid
  value : Int
  up : Int
  down : Int
  deriving Repr, DecidableEq

structure UsageTick where
  apiParams : Dict NodeId (List Param)
  usageCoefficient : Dict NodeId ℚ

def weigh (value : Int) (coefficient : ℚ) : Int := (value * coefficient.num).tdiv coefficient.den

def UsageTick.coefficient (t : UsageTick) (node : NodeId) : ℚ :=
  (t.usageCoefficient.get? node).getD 1

def aggregateUserUsage (t : UsageTick) : Dict Uid Int :=
  t.apiParams.entries.foldl (fun usersUsage e =>
    e.2.foldl (fun usersUsage p =>
      usersUsage.bump p.uid (weigh p.value (t.coefficient e.1))) usersUsage) Dict.empty

def aggregateUserSplit (t : UsageTick) : Dict Uid Int × Dict Uid Int :=
  t.apiParams.entries.foldl (fun acc e =>
    e.2.foldl (fun acc p =>
      let up := weigh p.up (t.coefficient e.1)
      let down := weigh p.down (t.coefficient e.1)
      let down := if up = 0 ∧ down = 0 then weigh p.value (t.coefficient e.1) else down
      (acc.1.bump p.uid up, acc.2.bump p.uid down)) acc) (Dict.empty, Dict.empty)

structure UsageDb where
  users : Dict Int User
  admins : Dict AdminId Admin

def UsageDb.billableRow (db : UsageDb) (id : Int) : Option User :=
  (db.users.get? id).filter fun u => u.status.billable

section Recorders

variable (parse : String → Int)

def clampValue (row : Int → Option User) (e : Uid × Int) : Int :=
  clampUsageDelta (((row (e.1.toInt parse)).map User.usedTraffic).getD 0)
    ((row (e.1.toInt parse)).bind User.dataLimit) e.2

def hitsLimit (row : Int → Option User) (e : Uid × Int) : Bool :=
  ((row (e.1.toInt parse)).bind User.dataLimit).any fun limit =>
    limit ≠ 0 ∧ 0 < clampValue parse row e ∧
      limit ≤ ((row (e.1.toInt parse)).map User.usedTraffic).getD 0 + clampValue parse row e

def clampUsageEntries (usersUsage : List (Uid × Int)) (row : Int → Option User) :
    List (Int × Int) × List Int :=
  (usersUsage.filterMap fun e =>
      if 0 < clampValue parse row e then some (e.1.toInt parse, clampValue parse row e) else none,
    (usersUsage.filter (hitsLimit parse row)).map fun e => e.1.toInt parse)

def chargedAdmin (row : Option User) : Option AdminId :=
  row.bind fun u => if u.finiteLimit.isSome then u.adminId else none

def adminUsage (entries : List (Int × Int)) (row : Int → Option User) : Dict AdminId Int :=
  entries.foldl (fun acc e =>
    match chargedAdmin (row e.1) with
    | none => acc
    | some admin => acc.bump admin e.2) Dict.empty

def hitLimitUids (users : Dict Int User) (billed : List Int) : List Int :=
  (users.entries.filter fun e => e.1 ∈ billed ∧
    (e.2.finiteLimit.any fun l => l ≤ e.2.usedTraffic) ∧ e.2.status = .active).map Prod.fst

def splitRows (t : UsageTick) (db : UsageDb) : List (Int × Int × Int) :=
  let ups := (aggregateUserSplit t).1
  let downs := (aggregateUserSplit t).2
  let rows := ups.entries.filterMap fun e =>
    let up := e.2
    let down := (downs.get? e.1).getD 0
    if (db.billableRow (e.1.toInt parse)).isSome ∧ (up ≠ 0 ∨ down ≠ 0)
      then some (e.1.toInt parse, up, down) else none
  rows.insertionSort fun a b => a.1 ≤ b.1

def recordSplit (rows : List (Int × Int × Int)) (users : Dict Int User) : Dict Int User :=
  rows.foldl (fun users r => users.modify r.1 (addSplit r.2.1 r.2.2)) users

def billedEntries (t : UsageTick) (db : UsageDb) : List (Int × Int) × List Int :=
  clampUsageEntries parse ((aggregateUserUsage t).entries.filter fun e =>
    (db.billableRow (e.1.toInt parse)).isSome) db.billableRow

def addUsages (entries : List (Int × Int)) (users : Dict Int User) : Dict Int User :=
  entries.foldl (fun users e => users.modify e.1 (addUsage e.2)) users

def limitUsers (hit : List Int) (users : Dict Int User) : Dict Int User :=
  hit.foldl (fun users uid => users.modify uid limitUserQuota) users

def chargeAdmins (usage : Dict AdminId Int) (admins : Dict AdminId Admin) : Dict AdminId Admin :=
  usage.entries.foldl (fun admins e => admins.modify e.1 fun a =>
    { a with usersUsage := a.usersUsage + e.2 }) admins

def recordAggregatedUserUsages (t : UsageTick) (db : UsageDb) : UsageDb :=
  let usersUsage := (billedEntries parse t db).1
  if usersUsage = [] ∧ (billedEntries parse t db).2 = [] then db
  else
    let sorted := usersUsage.insertionSort fun a b => a.1 ≤ b.1
    let users := addUsages sorted db.users
    let users := limitUsers (hitLimitUids users (sorted.map Prod.fst)) users
    { users := recordSplit (splitRows parse t db) users
      admins := chargeAdmins (adminUsage usersUsage db.billableRow) db.admins }

def overageUsage (t : UsageTick) (db : UsageDb) : List (Uid × Int) :=
  (aggregateUserUsage t).entries.filter fun e =>
    ((db.users.get? (e.1.toInt parse)).any fun u => !u.status.billable) ∧ 0 < e.2

def addOverage (value : Int) (u : User) : User :=
  { u with overageTraffic := u.overageTraffic + value }

def recordOverageUsages (t : UsageTick) (db : UsageDb) : UsageDb :=
  { db with
    users := (overageUsage parse t db).foldl (fun users e =>
      users.modify (e.1.toInt parse) (addOverage e.2)) db.users }

def billPhase (t : UsageTick) (db : UsageDb) : UsageDb :=
  recordOverageUsages parse t (recordAggregatedUserUsages parse t db)

def weighted (t : UsageTick) : List (Uid × Int) :=
  t.apiParams.entries.flatMap fun e =>
    e.2.map fun p => (p.uid, weigh p.value (t.coefficient e.1))

def userTotal (t : UsageTick) (id : Int) : Int :=
  (((weighted t).filter fun e => e.1.toInt parse = id).map Prod.snd).sum

def keyTotals (t : UsageTick) (id : Int) : List Int :=
  ((aggregateUserUsage t).entries.filter fun e => e.1.toInt parse = id).map Prod.snd

theorem aggregateUserUsage_eq (t : UsageTick) :
    aggregateUserUsage t = (weighted t).foldl (fun d e => d.bump e.1 e.2) Dict.empty := by
  unfold aggregateUserUsage weighted
  rw [List.foldl_flatMap]
  simp only [List.foldl_map]

theorem sum_keyTotals (t : UsageTick) (id : Int) :
    (keyTotals parse t id).sum = userTotal parse t id := by
  have hnodup : (((aggregateUserUsage t).entries.filter fun e =>
      e.1.toInt parse = id).map Prod.fst).Nodup :=
    (aggregateUserUsage t).nodup.sublist (List.filter_sublist.map _)
  rw [userTotal, sum_eq_sum_posted hnodup, keyTotals, List.map_map]
  · congr 1
    refine List.map_congr_left fun e he => ?_
    obtain ⟨hmem, hid⟩ := List.mem_filter.mp he
    -- the aggregated value of a raw uid is the sum of its rows, all of them this user's
    have hget : ((aggregateUserUsage t).get? e.1).getD 0 = posted e.1 (weighted t) := by
      rw [aggregateUserUsage_eq, Dict.getD_foldl_bump, Dict.get?_empty, Option.getD_none, zero_add]
    rw [Dict.get?_eq_some_iff.mpr hmem, Option.getD_some] at hget
    rw [hget]
    refine posted_congr ?_
    unfold onKey
    rw [List.filter_filter]
    refine List.filter_congr fun e' _ => ?_
    by_cases he' : e'.1 = e.1
    · simpa [he'] using hid
    · simp [he']
  · intro e he
    obtain ⟨hmem, hid⟩ := List.mem_filter.mp he
    have hkey : e.1 ∈ (aggregateUserUsage t).keys := by
      rw [aggregateUserUsage_eq, Dict.mem_keys_foldl_bump]
      exact .inr (List.mem_map_of_mem hmem)
    obtain ⟨e', he', heq⟩ := List.mem_map.mp hkey
    exact List.mem_map.mpr ⟨e', List.mem_filter.mpr ⟨he', by rw [heq]; exact hid⟩, heq⟩

variable {id : Int} {u : User} {db : UsageDb} {t : UsageTick} {users : Dict Int User}

theorem billed_values (hrow : db.billableRow id = some u) :
    (onKey id (billedEntries parse t db).1).map Prod.snd =
      ((keyTotals parse t id).map (clampUsageDelta u.usedTraffic u.dataLimit)).filter
        fun v => 0 < v := by
  unfold billedEntries clampUsageEntries keyTotals
  rw [onKey_filterMap (g := fun e : Uid × Int => e.1.toInt parse), List.filter_filter]
  · -- all of the user's entries are billable, and clamped against the user's row
    have hfilter : ((aggregateUserUsage t).entries.filter fun e =>
          decide (e.1.toInt parse = id) && (db.billableRow (e.1.toInt parse)).isSome) =
        (aggregateUserUsage t).entries.filter fun e => e.1.toInt parse = id := by
      refine List.filter_congr fun e _ => ?_
      by_cases hid : e.1.toInt parse = id
      · simp [hid, hrow]
      · simp [hid]
    rw [hfilter]
    generalize hl : (aggregateUserUsage t).entries.filter (fun e => e.1.toInt parse = id) = l
    have hid : ∀ e ∈ l, e.1.toInt parse = id := by
      intro e he
      rw [← hl, List.mem_filter] at he
      simpa using he.2
    clear hl hfilter
    induction l with
    | nil => rfl
    | cons e rest ih =>
      have hvalue : clampValue parse db.billableRow e =
          clampUsageDelta u.usedTraffic u.dataLimit e.2 := by
        rw [clampValue, hid e List.mem_cons_self, hrow]
        rfl
      rw [List.filterMap_cons, List.map_cons, List.map_cons, List.filter_cons, hvalue,
        ← ih fun e' he' => hid e' (List.mem_cons_of_mem _ he')]
      by_cases hpos : 0 < clampUsageDelta u.usedTraffic u.dataLimit e.2
      · rw [if_pos hpos, if_pos (by simpa using hpos)]
        rfl
      · rw [if_neg hpos, if_neg (by simpa using hpos)]
  · intro e e' he
    split at he
    · rw [← Option.some.inj he]
    · cases he

theorem billedEntries_of_not_billable
    (hrow : db.billableRow id = none) : onKey id (billedEntries parse t db).1 = [] := by
  refine onKey_eq_nil_iff.mpr fun e he => ?_
  obtain ⟨a, ha, hsome⟩ := List.mem_filterMap.mp he
  split at hsome
  · rw [← Option.some.inj hsome]
    intro hid
    have hbill := (List.mem_filter.mp ha).2
    rw [show a.1.toInt parse = id from hid, hrow] at hbill
    cases hbill
  · cases hsome

theorem billed_sum (hrow : db.billableRow id = some u) :
    posted id (billedEntries parse t db).1 =
      ((keyTotals parse t id).map (clampUsageDelta u.usedTraffic u.dataLimit)).sum := by
  rw [posted, billed_values parse hrow]
  change (positives _).sum = _
  refine positives_sum_eq_iff.mpr fun v hv => ?_
  obtain ⟨k, -, rfl⟩ := List.mem_map.mp hv
  exact clampUsageDelta_nonneg _ _ _

theorem billed_sum_of_limit {id l : Int} (hrow : db.billableRow id = some u)
    (hl : u.finiteLimit = some l) :
    posted id (billedEntries parse t db).1 =
      cappedSum (max 0 (l - u.usedTraffic)) (keyTotals parse t id) := by
  obtain ⟨hd, hpos⟩ := finiteLimit_eq_some_iff.mp hl
  rw [billed_sum parse hrow, hd, cappedSum]
  congr 1
  exact List.map_congr_left fun k _ => clampUsageDelta_of_limit hpos

theorem billed_sum_of_unlimited (hrow : db.billableRow id = some u) (hl : u.finiteLimit = none) :
    posted id (billedEntries parse t db).1 = (positives (keyTotals parse t id)).sum := by
  rw [billed_sum parse hrow, List.map_congr_left fun k _ => clampUsageDelta_of_unlimited hl k]
  induction keyTotals parse t id with
  | nil => rfl
  | cons k ks ih =>
    rw [List.map_cons, List.sum_cons, ih]
    rcases lt_or_ge 0 k with hk | hk
    · rw [positives_cons_of_pos hk, List.sum_cons, max_eq_right hk.le]
    · rw [positives_cons_of_nonpos hk, max_eq_left hk, zero_add]

def billRow (values : List Int) (u : User) : User :=
  let u := values.foldl (fun u v => addUsage v u) u
  if values ≠ [] ∧ (u.finiteLimit.any fun l => l ≤ u.usedTraffic) ∧ u.status = .active
    then limitUserQuota u else u

theorem get?_recordSplit (rows : List (Int × Int × Int)) (h : users.get? id = some u) :
    ∃ up down, (recordSplit rows users).get? id =
      some { u with usedTrafficUp := up, usedTrafficDown := down } := by
  unfold recordSplit
  induction rows generalizing users u with
  | nil => exact ⟨u.usedTrafficUp, u.usedTrafficDown, h⟩
  | cons r rest ih =>
    rw [List.foldl_cons]
    by_cases hid : id = r.1
    · exact ih (u := { u with
          usedTrafficUp := u.usedTrafficUp + r.2.1
          usedTrafficDown := u.usedTrafficDown + r.2.2 })
        (by rw [Dict.get?_modify, if_pos hid, h]; rfl)
    · exact ih (by rw [Dict.get?_modify, if_neg hid, h])

theorem nodup_hitLimitUids (users : Dict Int User) (billed : List Int) :
    (hitLimitUids users billed).Nodup :=
  users.nodup.sublist (List.filter_sublist.map _)

theorem mem_hitLimitUids {billed : List Int}
    (h : users.get? id = some u) : id ∈ hitLimitUids users billed ↔
      id ∈ billed ∧ (u.finiteLimit.any fun l => l ≤ u.usedTraffic) ∧ u.status = .active := by
  unfold hitLimitUids
  rw [List.mem_map]
  constructor
  · rintro ⟨e, he, rfl⟩
    obtain ⟨hmem, hcond⟩ := List.mem_filter.mp he
    have hu := Dict.get?_eq_some_iff.mpr hmem
    rw [h, Option.some_inj] at hu
    subst hu
    simpa using hcond
  · intro hcond
    exact ⟨(id, u), List.mem_filter.mpr ⟨Dict.get?_eq_some_iff.mp h, by simpa using hcond⟩, rfl⟩

theorem recorded_row (h : db.users.get? id = some u) :
    ∃ values up down, values.Perm ((onKey id (billedEntries parse t db).1).map Prod.snd) ∧
      (recordAggregatedUserUsages parse t db).users.get? id =
        some { billRow values u with usedTrafficUp := up, usedTrafficDown := down } := by
  unfold recordAggregatedUserUsages
  generalize (billedEntries parse t db).1 = entries
  dsimp only
  split_ifs with hempty
  · rw [hempty.1]
    exact ⟨[], u.usedTrafficUp, u.usedTrafficDown, .nil, h⟩
  · generalize hsorted : entries.insertionSort (fun a b => a.1 ≤ b.1) = sorted
    have hperm : sorted.Perm entries := hsorted ▸ List.perm_insertionSort _ entries
    refine ⟨(onKey id sorted).map Prod.snd, ?_⟩
    have hadded : (addUsages sorted db.users).get? id =
        some (((onKey id sorted).map Prod.snd).foldl (fun u v => addUsage v u) u) := by
      rw [addUsages, Dict.get?_foldl_modify, h, List.foldl_map]
      rfl
    have hbilled : id ∈ sorted.map Prod.fst ↔ (onKey id sorted).map Prod.snd ≠ [] := by
      rw [Ne, List.map_eq_nil_iff, onKey_eq_nil_iff]
      simp
    have hlimited : (limitUsers (hitLimitUids (addUsages sorted db.users)
        (sorted.map Prod.fst)) (addUsages sorted db.users)).get? id =
          some (billRow ((onKey id sorted).map Prod.snd) u) := by
      rw [limitUsers, Dict.get?_foldl_modify_keys _ (nodup_hitLimitUids _ _), hadded,
        Option.map_some, billRow]
      simp only [mem_hitLimitUids hadded, hbilled]
    obtain ⟨up, down, hsplit⟩ := get?_recordSplit (splitRows parse t db) hlimited
    exact ⟨up, down, (hperm.filter _).map _, hsplit⟩

structure Billed (u u' : User) (increment : Int) (status : UserStatus) : Prop where
  used : u'.usedTraffic = u.usedTraffic + increment
  status : u'.status = status
  overage : u'.overageTraffic = u.overageTraffic
  limit : u'.dataLimit = u.dataLimit
  admin : u'.adminId = u.adminId

theorem billableRow_eq_some_iff :
    db.billableRow id = some u ↔ db.users.get? id = some u ∧ u.status.billable = true := by
  rw [UsageDb.billableRow, Option.filter_eq_some_iff]

theorem ne_nil_iff_sum_pos {values : List Int} (h : ∀ v ∈ values, 0 < v) :
    values ≠ [] ↔ 0 < values.sum := by
  cases values with
  | nil => simp
  | cons v rest =>
    have hv := h v List.mem_cons_self
    have hrest : 0 ≤ rest.sum :=
      List.sum_nonneg fun v hv => (h v (List.mem_cons_of_mem _ hv)).le
    rw [List.sum_cons]
    simp only [ne_eq, reduceCtorEq, not_false_eq_true, true_iff]
    omega

section Rows

variable {t : UsageTick} {db : UsageDb} {id l : Int} {u : User}

theorem recorded_unbillable (h : db.users.get? id = some u) (hb : u.status.billable = false) :
    ∃ u', (recordAggregatedUserUsages parse t db).users.get? id = some u' ∧
      Billed u u' 0 u.status := by
  obtain ⟨values, up, down, hperm, hget⟩ := recorded_row parse (t := t) h
  have hrow : db.billableRow id = none := by
    rw [UsageDb.billableRow, h, Option.filter_some, hb]
    rfl
  rw [billedEntries_of_not_billable parse hrow, List.map_nil, List.perm_nil] at hperm
  subst hperm
  exact ⟨_, hget, (add_zero _).symm, rfl, rfl, rfl, rfl⟩

theorem billed_pos {values : List Int} (hrow : db.billableRow id = some u)
    (hperm : values.Perm ((onKey id (billedEntries parse t db).1).map Prod.snd)) :
    ∀ v ∈ values, 0 < v := by
  intro v hv
  rw [hperm.mem_iff, billed_values parse hrow, List.mem_filter] at hv
  simpa using hv.2

theorem recorded_unlimited (hrow : db.billableRow id = some u) (hl : u.finiteLimit = none) :
    ∃ u', (recordAggregatedUserUsages parse t db).users.get? id = some u' ∧
      Billed u u' (positives (keyTotals parse t id)).sum u.status := by
  obtain ⟨values, up, down, hperm, hget⟩ :=
    recorded_row parse (t := t) (billableRow_eq_some_iff.mp hrow).1
  have hsum : values.sum = (positives (keyTotals parse t id)).sum :=
    hperm.sum_eq.trans (billed_sum_of_unlimited parse hrow hl)
  have hbill : billRow values u = { u with usedTraffic := u.usedTraffic + values.sum } := by
    rw [billRow, foldl_addUsage_of_unlimited hl]
    refine if_neg fun hcond => ?_
    rw [show User.finiteLimit { u with usedTraffic := u.usedTraffic + values.sum } = none from hl]
      at hcond
    cases hcond.2.1
  rw [hbill, hsum] at hget
  exact ⟨_, hget, rfl, rfl, rfl, rfl, rfl⟩

theorem recorded_limited (hrow : db.billableRow id = some u) (hl : u.finiteLimit = some l) :
    ∃ u', (recordAggregatedUserUsages parse t db).users.get? id = some u' ∧
      Billed u u' (min (positives (keyTotals parse t id)).sum (max 0 (l - u.usedTraffic)))
        (if u.status = .active ∧ u.usedTraffic < l ∧
            l - u.usedTraffic ≤ (positives (keyTotals parse t id)).sum
          then .limited else u.status) := by
  obtain ⟨values, up, down, hperm, hget⟩ :=
    recorded_row parse (t := t) (billableRow_eq_some_iff.mp hrow).1
  have hpos := billed_pos parse hrow hperm
  have hsum : values.sum = cappedSum (max 0 (l - u.usedTraffic)) (keyTotals parse t id) :=
    hperm.sum_eq.trans (billed_sum_of_limit parse hrow hl)
  have hcap := min_cappedSum (le_max_left 0 (l - u.usedTraffic)) (keyTotals parse t id)
  have hnonneg := positives_sum_nonneg (keyTotals parse t id)
  rw [← hsum] at hcap
  have hne := ne_nil_iff_sum_pos hpos
  have hzero : l ≤ u.usedTraffic → values.sum = 0 := by
    intro hle
    rw [hsum, max_eq_left (by omega), cappedSum_zero]
  by_cases hle : u.usedTraffic ≤ l
  · have hlimit : User.finiteLimit { u with
        usedTraffic := min (u.usedTraffic + values.sum) l } = some l := hl
    rw [billRow, foldl_addUsage_of_limit hl hle fun v hv => (hpos v hv).le, hlimit] at hget
    by_cases hcond : u.status = .active ∧ u.usedTraffic < l ∧
        l - u.usedTraffic ≤ (positives (keyTotals parse t id)).sum
    · -- the limit is reached now
      have hfull : min (u.usedTraffic + values.sum) l = l := by omega
      rw [if_pos ⟨hne.mpr (by omega), by simp [hfull], hcond.1⟩,
        limitUserQuota_of_reached hlimit hfull hcond.1] at hget
      rw [if_pos hcond]
      exact ⟨_, hget, by dsimp only; omega, rfl, rfl, rfl, rfl⟩
    · have hnot : ¬ (values ≠ [] ∧
          ((some l).any fun l' => l' ≤ min (u.usedTraffic + values.sum) l) ∧
          u.status = .active) := by
        rintro ⟨hvalues, hreached, hactive⟩
        have hvpos := hne.mp hvalues
        have hle' : l ≤ min (u.usedTraffic + values.sum) l := by simpa using hreached
        refine hcond ⟨hactive, ?_, ?_⟩
        · by_contra hge
          have := hzero (not_lt.mp hge)
          omega
        · omega
      rw [if_neg hnot] at hget
      rw [if_neg hcond]
      exact ⟨_, hget, by dsimp only; omega, rfl, rfl, rfl, rfl⟩
  · -- already past the limit: nothing is billed any more
    have hnil : values = [] := by
      by_contra hvalues
      have := hne.mp hvalues
      omega
    subst hnil
    rw [if_neg fun hcond => by omega]
    exact ⟨_, hget, by rw [max_eq_left (by omega), min_eq_right hnonneg, add_zero]; rfl,
      rfl, rfl, rfl, rfl⟩

theorem onKey_overageUsage (h : db.users.get? id = some u) :
    (onKey id ((overageUsage parse t db).map fun e => (e.1.toInt parse, e.2))).map Prod.snd =
      if u.status.billable then [] else positives (keyTotals parse t id) := by
  unfold onKey overageUsage keyTotals positives
  rw [List.filter_map, List.map_map, List.filter_filter, List.filter_map, List.filter_filter]
  split_ifs with hb
  · rw [List.map_eq_nil_iff, List.filter_eq_nil_iff]
    intro e _
    by_cases hid : e.1.toInt parse = id
    · simp [hid, h, hb]
    · simp [hid]
  · congr 1
    refine List.filter_congr fun e _ => ?_
    by_cases hid : e.1.toInt parse = id
    · simp [hid, h, hb]
    · simp [hid]

theorem foldl_addOverage (values : List Int) (u : User) :
    values.foldl (fun u v => addOverage v u) u = addOverage values.sum u := by
  induction values generalizing u with
  | nil => simp [addOverage]
  | cons v rest ih =>
    rw [List.foldl_cons, ih, List.sum_cons]
    simp only [addOverage, add_assoc]

theorem overage_row (h : db.users.get? id = some u) :
    (recordOverageUsages parse t db).users.get? id =
      some (addOverage (if u.status.billable then 0
        else (positives (keyTotals parse t id)).sum) u) := by
  have hmap := Dict.get?_foldl_modify addOverage
    ((overageUsage parse t db).map fun e => (e.1.toInt parse, e.2)) db.users id
  rw [List.foldl_map, h, Option.map_some] at hmap
  refine hmap.trans (congrArg some ?_)
  rw [← List.foldl_map (f := Prod.snd) (g := fun u v => addOverage v u),
    onKey_overageUsage parse h, foldl_addOverage]
  split_ifs <;> rfl

end Rows

end Recorders

end Shahkar.Usage
