import Shahkar.Billing.Edits

/-!
# Edits that should be free

An edit that leaves the volume and the expiry of an account should cost nothing. An account whose
expiry has passed is charged all the same, and an explicit null is priced as a new volume.
-/

namespace Shahkar.Billing

open Shahkar.Db Shahkar.Lib

section Quote

variable {d : Database} {now : Int} {dbuser : User} {dataLimit expire : Option Int}
  {t : ResellerPlanTariff}

/-!
### The tariff of an unchanged expiry
-/

theorem roundDays_nonpos {secs : Int} (h : secs ≤ 0) : roundDays secs ≤ 0 := by
  unfold roundDays
  dsimp only
  split_ifs <;> omega

theorem durationDaysFromExpire_eq {e : Int} (he : normExpire expire = some e) :
    durationDaysFromExpire now expire = (some (roundDays (e - now))).filter (0 < ·) := by
  unfold durationDaysFromExpire
  rw [he, Option.bind_some]
  split
  · next hpast =>
      rw [Option.filter_some, if_neg]
      simpa using roundDays_nonpos hpast
  · rfl

variable {oldExpire newExpire : Option Int} {admin : Option (AdminId × Admin)}

theorem matchTariffForModify_of_same (hsame : normExpire oldExpire = normExpire newExpire) :
    matchTariffForModify d now dataLimit oldExpire newExpire =
      matchTariff d dataLimit (durationDaysFromExpire now newExpire) := by
  unfold matchTariffForModify billableDurationCandidates
  cases he : normExpire newExpire with
  | none => simp [hsame, he]
  | some e =>
    have hadded : (some e : Option Int).filter (fun old => now < old ∧ old + 3600 < e) = none := by
      simp
    simp only [hsame, he, hadded, durationDaysFromExpire_eq he, Option.bind_none,
      Option.toList_none, List.append_nil]
    cases (some (roundDays (e - now))).filter (0 < ·) with
    | none => simp
    | some days => cases h : matchTariff d dataLimit (some days) <;> simp [h]

theorem matchTariffForModify_of_cleared (hold : normExpire oldExpire ≠ none)
    (hnew : normExpire newExpire = none) :
    matchTariffForModify d now dataLimit oldExpire newExpire = none := by
  unfold matchTariffForModify billableDurationCandidates
  cases h : normExpire oldExpire with
  | none => exact absurd h hold
  | some old => simp [hnew]

theorem modifyShapeRefusal_of_same (hsame : normExpire dbuser.expire = normExpire expire)
    (hmatch : matchTariffForModify d now dataLimit dbuser.expire expire = some t) :
    modifyShapeRefusal d now dbuser.dataLimit dbuser.expire dataLimit expire = none := by
  unfold modifyShapeRefusal
  simp only [hmatch, hsame]
  cases normExpire expire <;> simp

/-!
### What is charged
-/

def Covered (u : User) (e : Int) : Prop :=
  u.resellerTariffChargedId ≠ none ∧
    ∃ paid, normExpire u.resellerTariffChargedExpire = some paid ∧ e ≤ paid + 3600

def Lapsed (now : Int) (u : User) : Prop := ∃ e, normExpire u.expire = some e ∧ e ≤ now

def Bought (now : Int) (u : User) (dataLimit : Option Int) (t : ResellerPlanTariff) : Prop :=
  (∃ e, normExpire u.expire = some e ∧ e ≤ now ∧ ¬ Covered u e) ∨
    (¬ Lapsed now u ∧ normalizeDataLimit u.dataLimit ≠ normalizeDataLimit dataLimit ∧
      u.resellerTariffChargedId ≠ some t.id)

theorem shouldChargeResellerModify_iff_of_same
    (hsame : normExpire dbuser.expire = normExpire expire) :
    shouldChargeResellerModify now dbuser t dataLimit expire ↔ Bought now dbuser dataLimit t := by
  unfold shouldChargeResellerModify Bought Lapsed Covered
  rw [← hsame]
  cases normExpire dbuser.expire with
  | none => cases dbuser.resellerTariffChargedId <;> simp
  | some e =>
    by_cases hlapsed : e ≤ now
    · cases dbuser.resellerTariffChargedId with
      | none => simp [hlapsed]
      | some paidId => cases normExpire dbuser.resellerTariffChargedExpire <;> simp [hlapsed]
    · cases dbuser.resellerTariffChargedId <;> simp [hlapsed]

theorem modifyQuote_eq_some_iff_of_same {a : AdminId} {price : Int}
    (hsame : normExpire dbuser.expire = normExpire expire) :
    modifyQuote d now admin dbuser dataLimit expire = .ok (some (a, t, price)) ↔
      (∃ r, chargeable d admin = some (a, r)) ∧
        matchTariff d dataLimit (durationDaysFromExpire now dbuser.expire) = some t ∧
        Bought now dbuser dataLimit t ∧ price = effectiveTariffPrice d a t := by
  have hdays : durationDaysFromExpire now dbuser.expire = durationDaysFromExpire now expire := by
    unfold durationDaysFromExpire
    rw [hsame]
  rw [hdays, ← matchTariffForModify_of_same hsame]
  unfold modifyQuote
  cases chargeable d admin with
  | none => simp
  | some payer =>
    cases hmatch : matchTariffForModify d now dataLimit dbuser.expire expire with
    | none => cases modifyShapeRefusal d now dbuser.dataLimit dbuser.expire dataLimit expire <;> simp
    | some matched =>
      simp only [modifyShapeRefusal_of_same hsame hmatch]
      by_cases hcharge : shouldChargeResellerModify now dbuser matched dataLimit expire
      · have hbought := (shouldChargeResellerModify_iff_of_same hsame).mp hcharge
        simp only [if_pos hcharge, Except.ok.injEq, Option.some.injEq, Prod.mk.injEq]
        constructor
        · intro h
          obtain ⟨rfl, rfl, rfl⟩ := h
          exact ⟨⟨payer.2, rfl⟩, rfl, hbought, rfl⟩
        · intro h
          obtain ⟨⟨r, rfl⟩, rfl, -, rfl⟩ := h
          exact ⟨rfl, rfl, rfl⟩
      · have hfree := mt (shouldChargeResellerModify_iff_of_same hsame).mpr hcharge
        simp only [if_neg hcharge, Except.ok.injEq, reduceCtorEq, Option.some.injEq, false_iff]
        intro h
        obtain ⟨-, rfl, hbought, -⟩ := h
        exact hfree hbought

theorem modifyQuote_ne_some_of_cleared {a : AdminId} {price : Int}
    (hold : normExpire dbuser.expire ≠ none) (hnew : normExpire expire = none) :
    modifyQuote d now admin dbuser dataLimit expire ≠ .ok (some (a, t, price)) := by
  unfold modifyQuote
  rw [matchTariffForModify_of_cleared hold hnew]
  cases chargeable d admin with
  | none => simp
  | some payer =>
    cases modifyShapeRefusal d now dbuser.dataLimit dbuser.expire dataLimit expire <;> simp

end Quote

/-- The edit leaves the volume and the expiry of the account as they are. -/
structure LeavesLimits (u : User) (payload : UserModify) : Prop where
  dataLimit : nextLimit payload.dataLimit u.dataLimit = u.dataLimit
  expire : nextLimit payload.expire u.expire = u.expire

/-- A tariff has a price that the wallet covers, and the edit counts as a renewal or as another
volume. -/
structure ChargedForNothing (d : Database) (now : Int) (username : String) (u : User)
    (payload : UserModify) (a : AdminId) (t : ResellerPlanTariff) : Prop where
  payer : ∃ admin, d.adminByName username = some (a, admin) ∧ admin.isSudo = false
  billing : d.settings.billingEnabled
  expiry : payload.expire = some none → normExpire u.expire = none
  tariff : matchTariff d (payload.dataLimit.getD u.dataLimit)
    (durationDaysFromExpire now u.expire) = some t
  bought : Bought now u (payload.dataLimit.getD u.dataLimit) t
  price : 0 < effectiveTariffPrice d a t
  funds : effectiveTariffPrice d a t ≤ d.balance a

theorem normExpire_orNone (e : Option Int) : normExpire (orNone e) = normExpire e := by
  unfold orNone normExpire
  rw [Option.filter_filter]
  congr 1
  funext v
  by_cases hv : 0 < v
  · simp [hv, hv.ne']
  · simp [hv]

variable {payload : UserModify} {d : Database}

theorem priced_expiry {u : User} (h : LeavesLimits u payload) :
    normExpire u.expire = normExpire (payload.expire.getD u.expire) ∨
      (payload.expire = some none ∧ normExpire u.expire ≠ none) := by
  rcases hfield : payload.expire with - | - | value
  · exact .inl rfl
  · by_cases hnone : normExpire u.expire = none
    · exact .inl hnone
    · exact .inr ⟨rfl, hnone⟩
  · refine .inl ?_
    rw [← h.expire, hfield]
    exact normExpire_orNone (some value)

theorem leavesLimits_editedUser (d : Database) (now : Int) (username : String) (u : User)
    (payload : UserModify) (tariff : Option ResellerPlanTariff) :
    LeavesLimits (editedUser d now username u payload tariff) payload := by
  obtain ⟨hlimit, hexpire⟩ := limits_editedUser d now username u payload tariff
  have hidem : ∀ field stored, nextLimit field (nextLimit field stored) = nextLimit field stored := by
    intro field stored
    unfold nextLimit
    cases field.join <;> rfl
  exact ⟨by rw [hlimit, hidem], by rw [hexpire, hidem]⟩

theorem chargedForNothing_iff {now : Int} {username : String} {u : User} {a : AdminId}
    {t : ResellerPlanTariff} (h : LeavesLimits u payload) :
    ChargedForNothing d now username u payload a t ↔
      ∃ price, editQuote d now username u payload = .ok (some (a, t, price)) ∧ 0 < price ∧
        price ≤ d.balance a := by
  have hpayer : (∃ r, chargeable d (d.adminByName username) = some (a, r)) ↔
      (∃ admin, d.adminByName username = some (a, admin) ∧ admin.isSudo = false) ∧
        d.settings.billingEnabled := by
    simp only [chargeable, Option.filter_eq_some_iff, decide_eq_true_eq, Bool.not_eq_true]
    simp only [← and_assoc, exists_and_right]
  rcases priced_expiry h with hsame | ⟨hnull, hstored⟩
  · constructor
    · intro hcharged
      exact ⟨_, (modifyQuote_eq_some_iff_of_same hsame).mpr ⟨hpayer.mpr ⟨hcharged.payer,
        hcharged.billing⟩, hcharged.tariff, hcharged.bought, rfl⟩, hcharged.price, hcharged.funds⟩
    · intro hquote
      obtain ⟨price, hquote, hpos, hfunds⟩ := hquote
      obtain ⟨hpays, htariff, hbought, rfl⟩ := (modifyQuote_eq_some_iff_of_same hsame).mp hquote
      refine ⟨(hpayer.mp hpays).1, (hpayer.mp hpays).2, fun hnull => ?_, htariff, hbought, hpos, hfunds⟩
      rw [hsame, hnull]
      rfl
  · refine iff_of_false (fun hcharged => hstored (hcharged.expiry hnull)) ?_
    intro hquote
    obtain ⟨price, hquote, -⟩ := hquote
    refine modifyQuote_ne_some_of_cleared hstored ?_ hquote
    simp [pricedShape, hnull, normExpire]

theorem verdict_pays_iff (need : ResellerPlanTariff → Int → Int → String)
    {quote : Except Error (Option (AdminId × ResellerPlanTariff × Int))} :
    (∃ result, verdict d need 1 quote = .ok result ∧ 0 < result.2) ↔
      ∃ a t price, quote = .ok (some (a, t, price)) ∧ 0 < price ∧ price ≤ d.balance a := by
  match quote with
  | .error refusal => simp [verdict]
  | .ok none => simp [verdict]
  | .ok (some (a, t, price)) =>
    by_cases hfree : price ≤ 0
    · simp [verdict, hfree]
    · by_cases hpoor : d.balance a < price
      · simp [verdict, hfree, hpoor]
      · simp [verdict, hfree, hpoor, not_le.mp hfree, not_lt.mp hpoor]

theorem debits_nothing_iff {now : Int} {caller : Caller} {id : Int} {u : User}
    {s s' : Exec Database Write} {x : Except Error Unit} (hsudo : caller.isSudo = false)
    (huser : s.db.users.get? id = some u) (hpend : s.pend = []) (hleaves : LeavesLimits u payload)
    (hexec : (modifyUser now caller id payload).exec store s = (x, s')) :
    (∀ a, debited a s'.db = debited a s.db) ↔
      ¬ ∃ a t, ChargedForNothing s.db now caller.username u payload a t := by
  have hsettled := Prog.exec_of_alone (settled_modifyUser now payload hsudo huser hpend)
  rw [hexec] at hsettled
  simp only [chargedForNothing_iff hleaves]
  rw [← verdict_pays_iff modifyNeed]
  cases hverdict : verdict s.db modifyNeed 1 (editQuote s.db now caller.username u payload) with
  | error e =>
    rw [hverdict] at hsettled
    refine iff_of_true (fun a => ?_) (by simp)
    rw [hsettled.2.debited, owed_nil, add_zero]
  | ok result =>
    obtain ⟨tariff, price⟩ := result
    rw [hverdict] at hsettled
    have hpays : 0 < price → ∃ a, s.db.adminIdOf caller.username = some a := by
      intro hpos
      obtain ⟨a, t, p, hquote, -⟩ := (verdict_pays_iff modifyNeed).mp ⟨_, hverdict, hpos⟩
      obtain ⟨r, hadmin, -⟩ := modifyQuote_payer hquote
      exact ⟨a, by simp [Database.adminIdOf, hadmin]⟩
    have hnonneg : 0 ≤ price := by
      rcases verdict_eq_ok hverdict with ⟨-, -, rfl⟩ | ⟨a, t, p, -, -, rfl, -⟩
      · exact le_rfl
      · exact le_max_left 0 p
    have hdebits : (∀ a, debited a s'.db = debited a s.db) ↔ ¬ 0 < price := by
      simp only [hsettled.2.debited, owed_editPosts s.db caller.username _ hnonneg,
        add_eq_left, not_lt]
      constructor
      · intro hzero
        by_contra hpos
        obtain ⟨a, ha⟩ := hpays (not_le.mp hpos)
        have hza := hzero a
        rw [if_pos ha] at hza
        exact hpos hza.le
      · intro hzero a
        rw [le_antisymm hzero hnonneg, ite_self]
    rw [hdebits]
    simp

/-- **An edit that buys nothing is free** exactly if it is not charged as a renewal or a volume. -/
theorem unchanged_edit_free_iff (caller : Caller) (hsudo : caller.isSudo = false) (id : Int)
    (payload : UserModify) (s : Exec Database Write) (hpend : s.pend = []) (u : User)
    (huser : s.db.users.get? id = some u) (now : Int) (x : Except Error Unit)
    (s' : Exec Database Write)
    (hexec : (modifyUser now caller id payload).exec store s = (x, s')) :
    (LeavesLimits u payload → ((∀ a, debited a s'.db = debited a s.db) ↔
      ¬ ∃ a t, ChargedForNothing s.db now caller.username u payload a t)) ∧
    (x = .ok () → ∃ u', s'.db.users.get? id = some u' ∧ ∀ (now' : Int) (x' : Except Error Unit)
      (s'' : Exec Database Write),
      (modifyUser now' caller id payload).exec store s' = (x', s'') →
        ((∀ a, debited a s''.db = debited a s'.db) ↔
          ¬ ∃ a t, ChargedForNothing s'.db now' caller.username u' payload a t)) := by
  refine ⟨fun hleaves => debits_nothing_iff hsudo huser hpend hleaves hexec, fun haccepted => ?_⟩
  have hsettled := Prog.exec_of_alone (settled_modifyUser now payload hsudo huser hpend)
  rw [hexec] at hsettled
  cases hverdict : verdict s.db modifyNeed 1 (editQuote s.db now caller.username u payload) with
  | error e =>
    rw [hverdict, haccepted] at hsettled
    cases hsettled.1
  | ok result =>
    rw [hverdict] at hsettled
    have huser' := hsettled.2.users id
    rw [if_pos rfl] at huser'
    exact ⟨_, huser', fun now' x' s'' hexec' => debits_nothing_iff hsudo huser' hsettled.2.pend
      (leavesLimits_editedUser s.db now caller.username u payload result.1) hexec'⟩

def unlimitedAccount (expire : Int) : Database where
  settings := { billingEnabled := true }
  admins := Dict.empty.set 1 { username := "reseller" }
  users := Dict.empty.set 7 { alice with dataLimit := none, expire := some expire }
  wallets := Dict.empty.set 1 100
  tariffs := [{ id := 1, name := "open-ended", price := 30 }]

/-- **An edit of the note renews an expired account.** -/
theorem expired_account_charged_for_nothing :
    (∃ s', (modifyUser 2000 editor 7 {}).exec store { db := unlimitedAccount 1000, next := 1 } =
        (.ok (), s') ∧ debited 1 s'.db = 30) ∧
      ∃ s' s'', (modifyUser 2000 editor 7 { expire := some (some 1500) }).exec store
          { db := unlimitedAccount 9000, next := 1 } = (.ok (), s') ∧
        debited 1 s'.db = 0 ∧
        (modifyUser 2000 editor 7 { expire := some (some 1500) }).exec store s' = (.ok (), s'') ∧
        debited 1 s''.db = 30 := by
  refine ⟨⟨_, rfl, by decide⟩, _, _, rfl, by decide, rfl, by decide⟩

theorem running_account_edited_free :
    debited 1 ((modifyUser 500 editor 7 {}).exec store
      { db := unlimitedAccount 1000, next := 1 }).2.db = debited 1 (unlimitedAccount 1000) := by
  refine ((unchanged_edit_free_iff editor rfl 7 {} { db := unlimitedAccount 1000, next := 1 } rfl
    { alice with dataLimit := none, expire := some 1000 } rfl 500 _ _ rfl).1 ⟨rfl, rfl⟩).mpr ?_ 1
  intro h
  obtain ⟨a, t, hcharged⟩ := h
  rcases hcharged.bought with ⟨e, he, hpast, -⟩ | ⟨-, hvolume, -⟩
  · obtain rfl := Option.some.inj he
    exact absurd hpast (by decide)
  · exact hvolume rfl

end Shahkar.Billing
