import Shahkar.Billing.Edits
import Shahkar.Billing.Sales
import Shahkar.Services.UserBulk

/-!
# What extending accounts in bulk costs, next to editing them one by one

The bulk operation touches no wallet, so it is cheaper as soon as one of the edits is due. It also
gives an end to the accounts that had none, those on hold among them (`bulk_extend_keeps_time_iff`).
-/

namespace Shahkar.Services

open Shahkar.Db Shahkar.Lib Shahkar.Billing Shahkar.Portal
open Prog hiding commit

def extendPayload (now : Int) (body : BulkExtendRequest) (u : User) : UserModify where
  expire := some (extendedLimits now body u).expire
  dataLimit := some (extendedLimits now body u).dataLimit

def editEach (now : Int) (caller : Caller) : List (Int × UserModify) → Action Unit
  | [] => pure ()
  | (id, payload) :: rest => do
    modifyUser now caller id payload
    editEach now caller rest

/-- The edit of an account has a price: a tariff covers its new limits, and a charge is asked for.
-/
def editDue (d : Database) (now : Int) (username : String) (u : User) (payload : UserModify) :
    Bool :=
  let shape := pricedShape payload u
  (chargeable d (d.adminByName username)).any fun reseller =>
    (matchTariffForModify d now shape.1 u.expire shape.2).any fun t =>
      shouldChargeResellerModify now u t shape.1 shape.2 &&
        0 < effectiveTariffPrice d reseller.1 t

/-!
### The single edits
-/

section Edits

variable {d : Database} {now : Int} {caller : Caller} {a : AdminId}

theorem verdict_price {need : ResellerPlanTariff → Int → Int → String} {count : Nat}
    {quote : Except Error (Option (AdminId × ResellerPlanTariff × Int))}
    {tariff : Option ResellerPlanTariff} {price : Int}
    (h : verdict d need count quote = .ok (tariff, price)) : price = unitPriceOf quote := by
  rcases verdict_eq_ok h with ⟨rfl, -, rfl⟩ | ⟨b, t, p, rfl, -, rfl, -⟩
  · rfl
  · rfl

theorem unitPriceOf_eq_zero_iff {username : String} {u : User} {payload : UserModify}
    {quoted : Option (AdminId × ResellerPlanTariff × Int)}
    (h : editQuote d now username u payload = .ok quoted) :
    unitPriceOf (editQuote d now username u payload) = 0 ↔
      editDue d now username u payload = false := by
  unfold editQuote modifyQuote at h ⊢
  unfold editDue
  cases hreseller : chargeable d (d.adminByName username) with
  | none => simp [unitPriceOf]
  | some reseller =>
    simp only [hreseller] at h ⊢
    cases hshape : modifyShapeRefusal d now u.dataLimit u.expire (pricedShape payload u).1
        (pricedShape payload u).2 with
    | some refusal =>
      rw [hshape] at h
      cases h
    | none =>
      cases htariff : matchTariffForModify d now (pricedShape payload u).1 u.expire
          (pricedShape payload u).2 with
      | none => simp [unitPriceOf]
      | some t =>
        cases hcharge : shouldChargeResellerModify now u t (pricedShape payload u).1
            (pricedShape payload u).2 with
        | false => simp [unitPriceOf, hcharge]
        | true => simp [unitPriceOf, hcharge]

theorem alone_editEach (now : Int) (hsudo : caller.isSudo = false)
    (hself : d.adminIdOf caller.username = some a) (payload : User → UserModify)
    {targets : List (Int × User)} {s : Exec Database Write} (hdb : SalesOnly d s.db)
    (hpend : s.pend = []) (hids : (targets.map Prod.fst).Nodup)
    (husers : ∀ e ∈ targets, s.db.users.get? e.1 = some e.2) :
    (editEach now caller (targets.map fun e => (e.1, payload e.2))).alone store (fun _ _ => True) s
      fun x s' => x = .ok () →
        (∀ e ∈ targets, ∃ quoted, editQuote d now caller.username e.2 (payload e.2) = .ok quoted) ∧
        debited a s'.db = debited a s.db + (targets.map fun e =>
          unitPriceOf (editQuote d now caller.username e.2 (payload e.2))).sum := by
  induction targets generalizing s with
  | nil => exact fun _ => ⟨by simp, by simp⟩
  | cons e rest ih =>
    obtain ⟨id, u⟩ := e
    rw [List.map_cons, List.nodup_cons] at hids
    obtain ⟨hnew, hids⟩ := hids
    have hquote : editQuote s.db now caller.username u (payload u) =
        editQuote d now caller.username u (payload u) := by
      rw [hdb]
      rfl
    have hself' : s.db.adminIdOf caller.username = some a := by
      rw [hdb]
      exact hself
    rw [List.map_cons, editEach, alone_bind]
    refine alone_mono ?_ (settled_modifyUser now (payload u) hsudo
      (husers (id, u) List.mem_cons_self) hpend)
    intro x s₁ hedited
    rw [hquote] at hedited
    cases hverdict : verdict s.db modifyNeed 1
        (editQuote d now caller.username u (payload u)) with
    | error e =>
      rw [hverdict] at hedited
      rw [hedited.1]
      intro hok
      cases hok
    | ok result =>
      obtain ⟨tariff, price⟩ := result
      rw [hverdict] at hedited
      obtain ⟨rfl, hsettled⟩ := hedited
      rw [aloneThen_ok]
      refine alone_mono ?_ (ih (hdb.trans hsettled.db) hsettled.pend hids ?_)
      · intro x s' hrest hok
        obtain ⟨haccepted, hsum⟩ := hrest hok
        constructor
        · intro e he
          rcases List.mem_cons.mp he with rfl | he
          · rcases verdict_eq_ok hverdict with ⟨hq, -⟩ | ⟨b, t, p, hq, -⟩
            · exact ⟨_, hq⟩
            · exact ⟨_, hq⟩
          · exact haccepted e he
        · rw [hsum, hsettled.debited, owed_editPosts _ _ _ (verdict_price_nonneg hverdict),
            if_pos hself', verdict_price hverdict, List.map_cons, List.sum_cons, add_assoc]
      · intro e he
        rw [hsettled.users, if_neg ?_]
        · exact husers e (List.mem_cons_of_mem _ he)
        · rintro rfl
          exact hnew (List.mem_map.mpr ⟨e, he, rfl⟩)

end Edits

section Bulk

variable (now : Int) (caller : Caller) (select : Int × User → Bool) (body : BulkExtendRequest)

def extendTargets (d : Database) : List (Int × User) :=
  (targetUsers d caller select).filter fun e => extendedLimits now body e.2 ≠ e.2

theorem alone_applyBulkExtend {s : Exec Database Write} (hpend : s.pend = []) :
    (applyBulkExtend now caller select body).alone store (fun _ _ => True) s fun _ s' =>
      s'.db = { s.db with
        users := (extendTargets now caller select body s.db).foldl (fun us e =>
          us.modify e.1 (User.written e.2 (extendedUser now body e.2))) s.db.users } := by
  have hwrites : ∀ l : List (Int × User), (l.map fun e =>
      if extendedLimits now body e.2 = e.2 then []
      else [Write.updateUser e.1 e.2 (extendedUser now body e.2)]).flatten =
      (l.filter fun e => extendedLimits now body e.2 ≠ e.2).map fun e =>
        .updateUser e.1 e.2 (extendedUser now body e.2) := by
    intro l
    induction l with
    | nil => rfl
    | cons e rest ih =>
      by_cases hsame : extendedLimits now body e.2 = e.2
      · simpa [hsame] using ih
      · simpa [hsame] using ih
  unfold applyBulkExtend bulkEdit
  rw [alone_query_bind, alone_bind,
    alone_each_emit, aloneThen_ok, hpend, List.nil_append, alone_bind, hwrites,
    List.map_id']
  split
  · next hnone =>
      have hnil : extendTargets now caller select body s.db = [] := by
        simpa [extendTargets, List.filter_eq_nil_iff] using hnone
      rw [hnil]
      rfl
  · exact (alone_commitOr_of_some (applyAll_updateUser _ _ _)).mpr ⟨trivial, rfl⟩

end Bulk

/-- **Extending in bulk is not cheaper** exactly if none of the single edits is due. -/
theorem bulk_extend_not_cheaper_iff (now : Int) (caller : Caller) (hsudo : caller.isSudo = false)
    (d : Database) (n : Nat) (a : AdminId) (hself : d.adminIdOf caller.username = some a)
    (select : Int × User → Bool) (body : BulkExtendRequest) (s' : Exec Database Write)
    (hexec : (editEach now caller ((targetUsers d caller select).map fun e =>
      (e.1, extendPayload now body e.2))).exec store { db := d, next := n } = (.ok (), s')) :
    debited a s'.db ≤ debited a
        ((applyBulkExtend now caller select body).exec store { db := d, next := n }).2.db ↔
      ∀ e ∈ targetUsers d caller select,
        editDue d now caller.username e.2 (extendPayload now body e.2) = false := by
  have hids : ((targetUsers d caller select).map Prod.fst).Nodup :=
    (List.filter_sublist.map Prod.fst).nodup d.users.nodup
  have hrows : ∀ e ∈ targetUsers d caller select, d.users.get? e.1 = some e.2 := fun e he =>
    Dict.get?_eq_some_iff.mpr (List.mem_of_mem_filter he)
  have hsingles := exec_of_alone (alone_editEach now hsudo hself (extendPayload now body)
    (s := { db := d, next := n }) rfl rfl hids hrows)
  rw [hexec] at hsingles
  obtain ⟨haccepted, hsum⟩ := hsingles rfl
  have hbulk : debited a ((applyBulkExtend now caller select body).exec store
      { db := d, next := n }).2.db = debited a d := by
    rw [exec_of_alone (alone_applyBulkExtend now caller select body
      (s := { db := d, next := n }) rfl)]
    rfl
  have hnonneg : ∀ price ∈ (targetUsers d caller select).map fun e =>
      unitPriceOf (editQuote d now caller.username e.2 (extendPayload now body e.2)),
      0 ≤ price := by
    intro price hprice
    obtain ⟨e, -, rfl⟩ := List.mem_map.mp hprice
    exact unitPriceOf_nonneg _
  have hzero : ∀ e ∈ targetUsers d caller select,
      (unitPriceOf (editQuote d now caller.username e.2 (extendPayload now body e.2)) = 0 ↔
        editDue d now caller.username e.2 (extendPayload now body e.2) = false) := by
    intro e he
    obtain ⟨quoted, hquoted⟩ := haccepted e he
    exact unitPriceOf_eq_zero_iff hquoted
  rw [hbulk, hsum]
  constructor
  · intro hle e he
    refine (hzero e he).mp (List.all_zero_of_le_zero_le_of_sum_eq_zero hnonneg ?_
      (List.mem_map.mpr ⟨e, he, rfl⟩))
    have := List.sum_nonneg hnonneg
    dsimp only at hle
    omega
  · intro hfree
    have hsum0 : ((targetUsers d caller select).map fun e => unitPriceOf
        (editQuote d now caller.username e.2 (extendPayload now body e.2))).sum = 0 := by
      refine List.sum_eq_zero fun price hprice => ?_
      obtain ⟨e, he, rfl⟩ := List.mem_map.mp hprice
      exact (hzero e he).mpr (hfree e he)
    rw [hsum0, add_zero]

def thirtyDays : BulkExtendRequest := ⟨30, 0, by decide, by decide⟩

def extendable (tariffs : List ResellerPlanTariff) : Database where
  admins := Dict.empty.set 1 { username := "reseller" }
  wallets := Dict.empty.set 1 500
  users := Dict.empty.set 7
    { username := "alice", adminId := some 1, expire := some (30 * 86400) }
  tariffs := tariffs

theorem bulk_extend_is_free :
    let start : Exec Database Write :=
      { db := extendable [{ id := 3, name := "monthly", price := 100, durationDays := some 30 }]
        next := 1 }
    let bulk := (applyBulkExtend 0 editor (fun _ => true) thirtyDays).exec store start
    let single := (modifyUser 0 editor 7 { expire := some (some (60 * 86400)) }).exec store start
    bulk.1 = .ok ⟨1, 0⟩ ∧ single.1 = .ok () ∧
      (bulk.2.db.users.get? 7).map User.expire = some (some (60 * 86400)) ∧
      (single.2.db.users.get? 7).map User.expire = some (some (60 * 86400)) ∧
      debited 1 bulk.2.db = 0 ∧ debited 1 single.2.db = 100 := by
  decide +kernel

def monthFree : List ResellerPlanTariff :=
  [{ id := 3, name := "monthly", durationDays := some 30 },
    { id := 4, name := "quarterly", price := 250, durationDays := some 90 }]

/-- The tariff that sells the thirty days costs nothing, so the single edit is free as well. -/
theorem free_month_not_cheaper :
    debited 1 ((modifyUser 0 editor 7 { expire := some (some (60 * 86400)) }).exec store
        { db := extendable monthFree, next := 1 }).2.db ≤
      debited 1 ((applyBulkExtend 0 editor (fun _ => true) thirtyDays).exec store
        { db := extendable monthFree, next := 1 }).2.db := by
  refine (bulk_extend_not_cheaper_iff 0 editor rfl (extendable monthFree) 1 1 rfl
    (fun _ => true) thirtyDays _ (Prod.ext ?_ rfl)).mpr ?_
  · decide +kernel
  · decide +kernel

/-- More days take no time away: an account without an end gets none, and a package on hold is not
started. -/
structure KeepsTime (now : Int) (days : Nat) (u v : User) : Prop where
  noEarlier : ∀ e', orNone v.expire = some e' → ∃ e, orNone u.expire = some e ∧ e ≤ e'
  moved : ∀ e, orNone u.expire = some e → now < e → v.expire = some (e + days * 86400)
  onHold : u.status = .onHold → v.status = .onHold ∧
    v.onHoldExpireDuration = u.onHoldExpireDuration ∧ v.onHoldTimeout = u.onHoldTimeout

section Time

variable {now : Int} {body : BulkExtendRequest} {u v : User}

theorem keepsTime_iff (hdays : 0 < body.days)
    (hexpire : v.expire = (extendedLimits now body u).expire)
    (hheld : u.status = .onHold → v.status = .onHold ∧
      v.onHoldExpireDuration = u.onHoldExpireDuration ∧ v.onHoldTimeout = u.onHoldTimeout) :
    KeepsTime now body.days u v ↔ (orNone u.expire).isSome ∨ now + body.days * 86400 = 0 := by
  rw [extendedLimits, if_neg hdays.ne', getD_filter_later] at hexpire
  cases hold : orNone u.expire with
  | none =>
    have hnew : v.expire = some (now + body.days * 86400) := by rwa [hold] at hexpire
    constructor
    · intro h
      refine .inr (not_not.mp fun hne => ?_)
      obtain ⟨e, he, -⟩ := h.noEarlier (now + body.days * 86400)
        (by simp [orNone, hnew, Option.filter_some, hne])
      rw [hold] at he
      cases he
    · intro h
      have hzero : now + body.days * 86400 = 0 := by simpa using h
      refine ⟨fun e' he' => ?_, fun e he => ?_, hheld⟩
      · simp [orNone, hnew, hzero, Option.filter_some] at he'
      · rw [hold] at he
        cases he
  | some e =>
    have hnew : v.expire = some (max now e + body.days * 86400) := by rwa [hold] at hexpire
    refine iff_of_true ⟨fun e' he' => ⟨e, hold, ?_⟩, fun e' he' hlater => ?_, hheld⟩ (.inl rfl)
    · rw [orNone, hnew] at he'
      have hsum := Option.some.inj (Option.filter_eq_some_iff.mp he').1
      omega
    · obtain rfl := Option.some.inj (hold.symm.trans he')
      rw [hnew, max_eq_right hlater.le]

theorem extendedUser_spec : (extendedUser now body u).expire = (extendedLimits now body u).expire ∧
    (u.status = .onHold → extendedUser now body u = extendedLimits now body u) := by
  unfold extendedUser
  refine ⟨?_, fun hs => ?_⟩
  · dsimp only
    split_ifs <;> rfl
  · have hheld : (extendedLimits now body u).status = .onHold := hs
    simp [hheld]

end Time

/-- **More days take no time away** exactly if every target has an end. -/
theorem bulk_extend_keeps_time_iff (now : Int) (caller : Caller) (select : Int × User → Bool)
    (body : BulkExtendRequest) (hdays : 0 < body.days) (d : Database) (n : Nat) :
    (∀ id u, d.users.get? id = some u → ∃ v,
      ((applyBulkExtend now caller select body).exec store
        { db := d, next := n }).2.db.users.get? id = some v ∧
      if (id, u) ∈ targetUsers d caller select then KeepsTime now body.days u v else v = u) ↔
      ∀ e ∈ targetUsers d caller select,
        (orNone e.2.expire).isSome ∨ now + body.days * 86400 = 0 := by
  have hrows : ∀ id u, d.users.get? id = some u → ((applyBulkExtend now caller select body).exec
      store { db := d, next := n }).2.db.users.get? id = some
        (if (id, u) ∈ extendTargets now caller select body d then extendedUser now body u
          else u) := by
    intro id u hu
    rw [exec_of_alone (alone_applyBulkExtend now caller select body
      (s := { db := d, next := n }) rfl)]
    obtain ⟨p, hp⟩ : ∃ p, extendTargets now caller select body d = d.users.entries.filter p :=
      ⟨_, List.filter_filter⟩
    have hentry := Dict.get?_eq_some_iff.mp hu
    rw [Dict.get?_foldl_modify (fun e : User => User.written e (extendedUser now body e)), hu, hp,
      Dict.onKey_filter _ hu]
    by_cases hselect : p (id, u) <;> simp [hselect, hentry]
  have hkeeps : ∀ e ∈ targetUsers d caller select, KeepsTime now body.days e.2
      (if e ∈ extendTargets now caller select body d then extendedUser now body e.2 else e.2) ↔
      (orNone e.2.expire).isSome ∨ now + body.days * 86400 = 0 := by
    intro e he
    by_cases hsame : extendedLimits now body e.2 = e.2
    · rw [if_neg (by simp [extendTargets, hsame])]
      exact keepsTime_iff hdays (by rw [hsame]) fun hs => ⟨hs, rfl, rfl⟩
    · rw [if_pos (by simp [extendTargets, hsame, he])]
      refine keepsTime_iff hdays extendedUser_spec.1 fun hs => ?_
      rw [extendedUser_spec.2 hs]
      exact ⟨hs, rfl, rfl⟩
  constructor
  · rintro h ⟨id, u⟩ he
    obtain ⟨v, hv, hkept⟩ := h id u (Dict.get?_eq_some_iff.mpr (List.mem_of_mem_filter he))
    rw [if_pos he] at hkept
    rw [hrows id u (Dict.get?_eq_some_iff.mpr (List.mem_of_mem_filter he))] at hv
    exact (hkeeps _ he).mp (Option.some.inj hv ▸ hkept)
  · intro h id u hu
    refine ⟨_, hrows id u hu, ?_⟩
    split
    · next he => exact (hkeeps _ he).mpr (h _ he)
    · next he => exact if_neg fun hw => he (List.mem_of_mem_filter hw)

def endless : Database where
  users := (Dict.empty.set 7 { username := "alice", dataLimit := some 100 }).set 8
    { username := "bob", status := .onHold, onHoldExpireDuration := some 2592000 }

/-- **Thirty more days end what had no end.** -/
theorem bulk_extend_starts_clocks :
    let after := ((applyBulkExtend 1000 { editor with isSudo := true } (fun _ => true)
      thirtyDays).exec store { db := endless, next := 1 }).2.db.users
    (after.get? 7).map User.expire = some (some 2593000) ∧
      (after.get? 8).map (fun v => (v.status, v.expire, v.onHoldExpireDuration)) =
        some (.onHold, some 2593000, some 2592000) := by
  decide +kernel

theorem bulk_extend_adds_month :
    ∃ v, ((applyBulkExtend 1000 { editor with isSudo := true } (fun _ => true)
        thirtyDays).exec store { db := extendable [], next := 1 }).2.db.users.get? 7 = some v ∧
      KeepsTime 1000 30 { username := "alice", adminId := some 1, expire := some (30 * 86400) } v :=
  (bulk_extend_keeps_time_iff 1000 { editor with isSudo := true } (fun _ => true) thirtyDays
    (by decide) (extendable []) 1).mpr (by decide +kernel) 7
      { username := "alice", adminId := some 1, expire := some (30 * 86400) } (by decide +kernel)

end Shahkar.Services
