import Shahkar.Billing.Edits
import Shahkar.Billing.Minting

/-!
# Paid time for free

An edit is free if it stays within an hour of the expiry that was paid for, but whether it extends
the account is decided against the expiry the last edit left.
-/

namespace Shahkar.Billing

open Shahkar.Db Shahkar.Lib

structure ExpireEdit where
  now : Int
  expire : Option (Option Int)
  deriving Repr, DecidableEq

def ExpireEdit.payload (e : ExpireEdit) : UserModify := { expire := e.expire }

def Server.edit (caller : Caller) (id : Int) (s : Server) (e : ExpireEdit) : Option Server :=
  let s' := ((modifyUser e.now caller id e.payload).exec store { db := s.db, next := s.next }).2
  some { db := s'.db, next := s'.next }

/-!
### Which edits are covered
-/

def withinPaid (u : User) (expire : Option Int) : Bool :=
  u.resellerTariffChargedId.isSome && expire.all fun n =>
    n ≠ 0 && (normExpire u.resellerTariffChargedExpire).any fun paid => n ≤ paid + 3600

def pricedExtension (d : Database) (now : Int) (a : AdminId) (u : User) (n : Int) : Bool :=
  0 < n && ((normExpire u.expire).all fun old => old ≤ now ∨ old + 3600 < n) &&
    ((normExpire u.resellerTariffChargedExpire).all fun paid => paid + 3600 < n) &&
    (matchTariffForModify d now u.dataLimit u.expire (some n)).any fun t =>
      0 < effectiveTariffPrice d a t

/-- The edit is refused for its shape, or stays within what was paid for, or has a price. -/
def coveredEdit (caller : Caller) (id : Int) (s : Server) (e : ExpireEdit) : Bool :=
  (s.db.users.get? id).all fun u =>
    withinPaid u e.expire.join ||
      (chargeable s.db (s.db.adminByName caller.username)).any fun a =>
        (modifyShapeRefusal s.db e.now u.dataLimit u.expire u.dataLimit
          (e.expire.getD u.expire)).isSome ||
        e.expire.join.any fun n => pricedExtension s.db e.now a.1 u n

section Edit

variable {d : Database} {now : Int} {u : User} {admin : Option (AdminId × Admin)}

theorem shouldCharge_of_within {paidId : Nat} {paid : Int} {t : ResellerPlanTariff}
    {expire : Option Int} (hid : u.resellerTariffChargedId = some paidId)
    (hpaid : normExpire u.resellerTariffChargedExpire = some paid)
    (hexpire : ∀ n, normExpire expire = some n → n ≤ paid + 3600) :
    shouldChargeResellerModify now u t u.dataLimit expire = false := by
  have hwindow : ((normExpire expire).any fun n => paid + 3600 < n) = false := by
    cases h : normExpire expire with
    | none => rfl
    | some n => simpa using hexpire n h
  simp [shouldChargeResellerModify, hid, hpaid, hwindow]

theorem modifyQuote_of_within {paidId : Nat} {paid : Int} {expire : Option Int}
    (hid : u.resellerTariffChargedId = some paidId)
    (hpaid : normExpire u.resellerTariffChargedExpire = some paid)
    (hexpire : ∀ n, normExpire expire = some n → n ≤ paid + 3600) {a : AdminId}
    {t : ResellerPlanTariff} {p : Int} :
    modifyQuote d now admin u u.dataLimit expire ≠ .ok (some (a, t, p)) := by
  intro hquote
  unfold modifyQuote at hquote
  split at hquote
  · cases hquote
  split at hquote
  · cases hquote
  split at hquote
  · cases hquote
  rw [shouldCharge_of_within hid hpaid hexpire] at hquote
  cases hquote

theorem modifyQuote_of_priced {a : AdminId} {r : Admin} {n : Int}
    (hcharge : chargeable d admin = some (a, r)) (hpriced : pricedExtension d now a u n)
    (hshape : modifyShapeRefusal d now u.dataLimit u.expire u.dataLimit (some n) = none) :
    ∃ t p, 0 < p ∧ modifyQuote d now admin u u.dataLimit (some n) = .ok (some (a, t, p)) := by
  simp only [pricedExtension, Bool.and_eq_true, decide_eq_true_eq] at hpriced
  obtain ⟨⟨⟨hpos, hextends⟩, hpast⟩, hmatch⟩ := hpriced
  have hnew : normExpire (some n) = some n := by simp [normExpire, hpos]
  cases htariff : matchTariffForModify d now u.dataLimit u.expire (some n) with
  | none => simp [htariff] at hmatch
  | some t =>
    have hcharged : shouldChargeResellerModify now u t u.dataLimit (some n) = true := by
      cases hold : normExpire u.expire <;>
        cases hid : u.resellerTariffChargedId <;>
        cases hpaid : normExpire u.resellerTariffChargedExpire <;>
        simp_all [shouldChargeResellerModify]
    refine ⟨t, effectiveTariffPrice d a t, by simpa [htariff] using hmatch, ?_⟩
    simp [modifyQuote, hcharge, hshape, htariff, hcharged]

end Edit

section Run

variable {caller : Caller} {id : Int} {a : AdminId} {paid : Int}

def WithinWindow (id : Int) (paid : Int) (d : Database) : Prop :=
  ∃ u e, d.users.get? id = some u ∧ u.resellerTariffChargedExpire = some paid ∧
    u.expire = some e ∧ e ≤ paid + 3600

variable {expire : Option (Option Int)} {tariff : Option ResellerPlanTariff}
  {s' : Exec Database Write}

theorem withinWindow_of_withinPaid (hpos : 0 < paid) {d : Database} {u : User} {old : Int}
    {now : Int} {username : String}
    (hpaid : u.resellerTariffChargedExpire = some paid) (hold : u.expire = some old)
    (hle : old ≤ paid + 3600) (hwithin : withinPaid u expire.join)
    {price : Int}
    (hverdict : verdict d modifyNeed 1 (editQuote d now username u { expire }) =
      .ok (tariff, price)) :
    price = 0 ∧ ∃ n, n ≤ paid + 3600 ∧
      (editedUser d now username u { expire } tariff).resellerTariffChargedExpire = some paid ∧
      (editedUser d now username u { expire } tariff).expire = some n := by
  simp only [withinPaid, Bool.and_eq_true] at hwithin
  obtain ⟨hid, hnew⟩ := hwithin
  obtain ⟨paidId, hid⟩ := Option.isSome_iff_exists.mp hid
  have hnorm : normExpire u.resellerTariffChargedExpire = some paid := by
    simp [hpaid, normExpire, hpos]
  -- the expiry the edit is priced for, and the one it leaves
  have hexpire : (∀ n, normExpire (expire.getD u.expire) = some n → n ≤ paid + 3600) ∧
      ∃ n, n ≤ paid + 3600 ∧ nextLimit expire u.expire = some n := by
    rcases expire with - | - | n
    · refine ⟨fun n hn => ?_, old, hle, hold⟩
      simp only [Option.getD_none, hold, normExpire, Option.filter_eq_some_iff] at hn
      obtain rfl := Option.some.inj hn.1
      exact hle
    · exact ⟨by simp [normExpire], old, hle, hold⟩
    · simp only [Option.join_some, Option.all_some, hnorm, Option.any_some, Bool.and_eq_true,
        decide_eq_true_eq] at hnew
      refine ⟨fun m hm => ?_, n, hnew.2, by simp [nextLimit, orNone, hnew.1]⟩
      simp only [Option.getD_some, normExpire, Option.filter_eq_some_iff] at hm
      obtain rfl := Option.some.inj hm.1
      exact hnew.2
  rcases verdict_eq_ok hverdict with ⟨-, rfl, rfl⟩ | ⟨b, t, p, hquote, -⟩
  · obtain ⟨n, hn, hnext⟩ := hexpire.2
    have h : Relimited u _ _ (editedUser d now username u { expire } none) :=
      relimited_editedUser ..
    exact ⟨rfl, n, hn, h.chargedExpire.trans hpaid, h.expire.trans hnext⟩
  · exact absurd hquote (modifyQuote_of_within hid hnorm hexpire.1)

theorem pos_of_covered {d : Database} {u : User} {now : Int} {username : String}
    (hcovered : (chargeable d (d.adminByName username)).any fun a =>
      (modifyShapeRefusal d now u.dataLimit u.expire u.dataLimit (expire.getD u.expire)).isSome ||
        expire.join.any fun n => pricedExtension d now a.1 u n)
    {price : Int}
    (hverdict : verdict d modifyNeed 1 (editQuote d now username u { expire }) =
      .ok (tariff, price)) : 0 < price := by
  cases hcharge : chargeable d (d.adminByName username) with
  | none => simp [hcharge] at hcovered
  | some r =>
    cases hshape : modifyShapeRefusal d now u.dataLimit u.expire u.dataLimit
        (expire.getD u.expire) with
    | some refusal =>
      have hquote : editQuote d now username u { expire } = .error refusal := by
        simp [editQuote, pricedShape, modifyQuote, hcharge, hshape]
      simp [hquote, verdict] at hverdict
    | none =>
      rw [hcharge, hshape] at hcovered
      rcases expire with - | - | n
      · simp at hcovered
      · simp at hcovered
      · obtain ⟨t, p, hp, hquote⟩ := modifyQuote_of_priced hcharge (by simpa using hcovered)
          hshape
        rcases verdict_eq_ok hverdict with ⟨hnone, -⟩ | ⟨b, t', p', hsome, -, rfl, -⟩
        · cases hquote.symm.trans hnone
        · cases hquote.symm.trans hsome
          omega

theorem withinWindow_edit (hsudo : caller.isSudo = false) (hpos : 0 < paid) {s : Server}
    (hself : s.db.adminIdOf caller.username = some a) (hwindow : WithinWindow id paid s.db)
    {e : ExpireEdit} (hcovered : coveredEdit caller id s e)
    (hexec : ((modifyUser e.now caller id e.payload).exec store
      { db := s.db, next := s.next }).2 = s') :
    debited a s.db < debited a s'.db ∨
      debited a s'.db = debited a s.db ∧ WithinWindow id paid s'.db := by
  obtain ⟨u, old, hu, hpaid, hold, hle⟩ := hwindow
  have hsettled := Prog.exec_of_alone (settled_modifyUser
    (s := { db := s.db, next := s.next }) e.now e.payload hsudo hu rfl)
  rw [hexec] at hsettled
  split at hsettled
  · -- refused
    obtain ⟨-, hcharged⟩ := hsettled
    refine .inr ⟨by simpa using hcharged.debited a, u, old, ?_, hpaid, hold, hle⟩
    rw [hcharged.money]
    exact hu
  next tariff price hverdict =>
  obtain ⟨-, hsettled⟩ := hsettled
  have hdebited := hsettled.debited a
  rw [owed_editPosts s.db _ a (verdict_price_nonneg hverdict), if_pos hself] at hdebited
  dsimp only at hdebited
  simp only [coveredEdit, hu, Option.all_some, Bool.or_eq_true] at hcovered
  rcases hcovered with hwithin | hcovered
  · obtain ⟨rfl, n, hn, hpaid', hexpire⟩ :=
      withinWindow_of_withinPaid hpos hpaid hold hle hwithin hverdict
    exact .inr ⟨by omega, _, n, (hsettled.users id).trans (if_pos rfl), hpaid', hexpire, hn⟩
  · have := pos_of_covered hcovered hverdict
    exact .inl (by omega)

theorem debited_le_edit (hsudo : caller.isSudo = false) (a : AdminId) (id : Int) (s : Server)
    (e : ExpireEdit)
    (hexec : ((modifyUser e.now caller id e.payload).exec store
      { db := s.db, next := s.next }).2 = s') :
    debited a s.db ≤ debited a s'.db ∧ s'.db.adminIdOf = s.db.adminIdOf := by
  cases hu : s.db.users.get? id with
  | none =>
    have hmissing : (modifyUser e.now caller id e.payload).alone store (fun _ _ => True)
        { db := s.db, next := s.next } fun _ s' => s'.db = s.db := by
      rw [modifyUser_eq hsudo, Prog.alone_query_bind]
      simp only [hu, Prog.alone_raise]
    have hdb : s'.db = s.db := hexec ▸ Prog.exec_of_alone hmissing
    rw [hdb]
    exact ⟨le_refl _, rfl⟩
  | some u =>
    have hsettled := Prog.exec_of_alone (settled_modifyUser
      (s := { db := s.db, next := s.next }) e.now e.payload hsudo hu rfl)
    rw [hexec] at hsettled
    split at hsettled
    · obtain ⟨-, hcharged⟩ := hsettled
      refine ⟨by simpa using (hcharged.debited a).ge, ?_⟩
      rw [hcharged.money]
      rfl
    · next tariff price hverdict =>
        obtain ⟨-, hsettled⟩ := hsettled
        have hprice := verdict_price_nonneg hverdict
        refine ⟨?_, ?_⟩
        · rw [hsettled.debited, owed_editPosts s.db _ a hprice]
          split <;> simp [hprice]
        · rw [hsettled.db]
          rfl

end Run

/-- **No free time**: covered edits that debit nothing move the expiry by at most an hour. -/
theorem expire_le_paid (caller : Caller) (hsudo : caller.isSudo = false) (a : AdminId) (id : Int)
    (s₀ : Server) (hself : s₀.db.adminIdOf caller.username = some a) (u₀ : User) (expire : Int)
    (huser : s₀.db.users.get? id = some u₀) (hexpire : u₀.expire = some expire)
    (hpaid : u₀.resellerTariffChargedExpire = some expire) (hpos : 0 < expire) (s : Server)
    (hrun : Run (Server.edit caller id) (fun s e => coveredEdit caller id s e) s₀ s)
    (hdebited : debited a s.db = debited a s₀.db) :
    ∃ u e, s.db.users.get? id = some u ∧ u.expire = some e ∧ e ≤ expire + 3600 := by
  have hinv := hrun.invariant (fun s => s.db.adminIdOf caller.username = some a ∧
    (debited a s₀.db < debited a s.db ∨
      debited a s.db = debited a s₀.db ∧ WithinWindow id expire s.db)) ?_ ?_
  · rcases hinv.2 with hlt | ⟨-, u, e, hu, -, he, hle⟩
    · omega
    · exact ⟨u, e, hu, he, hle⟩
  · exact ⟨hself, .inr ⟨rfl, u₀, expire, huser, hpaid, hexpire, by omega⟩⟩
  · intro s s' e hinv hcovered hstep
    obtain ⟨hself', hinv⟩ := hinv
    obtain rfl := Option.some.inj hstep
    obtain ⟨hle, hadmins⟩ := debited_le_edit hsudo a id s e rfl
    refine ⟨(congrFun hadmins _).trans hself', ?_⟩
    rcases hinv with hlt | ⟨heq, hwindow⟩
    · exact .inl (hlt.trans_le hle)
    · rcases withinWindow_edit hsudo hpos hself' hwindow hcovered rfl with hlt | ⟨heq', hwindow'⟩
      · exact .inl (heq ▸ hlt)
      · exact .inr ⟨heq'.trans heq, hwindow'⟩

def paidAccount : Server where
  db := { admins := Dict.empty.set 1 { username := "reseller" }
          wallets := Dict.empty.set 1 500
          users := Dict.empty.set 7
            { username := "alice", adminId := some 1, expire := some (30 * 86400)
              resellerTariffChargedId := some 3
              resellerTariffChargedExpire := some (30 * 86400) }
          tariffs := [{ id := 3, name := "monthly", price := 100, durationDays := some 30 }] }

/-- **Creeping**: two edits by an hour each are free. -/
theorem hourly_edits_creep :
    ∃ s, Run (Server.edit reseller 7) (fun _ _ => True) paidAccount s ∧
      debited 1 s.db = debited 1 paidAccount.db ∧
      (s.db.users.get? 7).map User.expire = some (some (30 * 86400 + 7200)) := by
  refine ⟨_, Run.of_execGuarded [⟨60, some (some (30 * 86400 + 3600))⟩,
    ⟨120, some (some (30 * 86400 + 7200))⟩] rfl, ?_⟩
  decide

theorem first_hour_is_free :
    ∃ s : Server, debited 1 s.db = debited 1 paidAccount.db ∧
      ∃ u e, s.db.users.get? 7 = some u ∧ u.expire = some e ∧ e ≤ 30 * 86400 + 3600 := by
  refine ⟨_, ?_, expire_le_paid reseller rfl 1 7 paidAccount (by decide) _ (30 * 86400) rfl rfl rfl
    (by decide) _ (Run.of_execGuarded [⟨60, some (some (30 * 86400 + 3600))⟩] rfl) ?_⟩
  · decide
  · decide

end Shahkar.Billing
