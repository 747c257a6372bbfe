import Shahkar.Billing.Charges
import Shahkar.Billing.Routes

/-!
# What a sale changes, and when a tariff lets it through

The lemmas that the routes which create or renew an account share: the writes of a sale, the
verdict of a tariff on a wallet, and the price of one account under it.
-/

namespace Shahkar.Billing

open Shahkar.Db Shahkar.Lib
open Prog hiding commit

variable {s : Exec Database Write} {a : AdminId} {r : Admin} {usernames : List String}
  {admin : Option (AdminId × Admin)} {e : Error} {tariff : ResellerPlanTariff} {d : Database}
  {dataLimit durationDays : Option Int} {unitPrice : Int}

theorem applyAll_insertUser {u : User} (hpend : s.pend = [])
    (hfree : s.db.userByName u.username = none) :
    store.applyAll (s.advanced.push (.insertUser s.next u)).pend s.db =
      some { s.db with users := s.db.users.set s.next u } := by
  simp [hpend, Write.apply, hfree]

def SalesOnly (d d' : Database) : Prop :=
  d' = { d with users := d'.users, wallets := d'.wallets, transactions := d'.transactions }

theorem SalesOnly.trans {d₁ d₂ d₃ : Database} (h₁ : SalesOnly d₁ d₂) (h₂ : SalesOnly d₂ d₃) :
    SalesOnly d₁ d₃ := by
  unfold SalesOnly at *
  rw [h₂, h₁]

theorem charged_chargePositive {event : TariffEvent} (hsudo : r.isSudo = false)
    (hpend : s.pend = []) :
    (if 0 < unitPrice then do
      let _ ← chargeResellerTariff a r tariff unitPrice usernames event
    else pure () : Action Unit).alone store (fun _ _ => True) s fun x s' =>
      x = .ok () ∧ Charged (salePosts s.db a (unitPrice * usernames.length)) s s' := by
  split
  · refine alone_then (charged_chargeResellerTariff hsudo hpend) ?_
    intro x s₁ hpost
    obtain ⟨hok, hcharged⟩ := hpost
    cases x with
    | error e => cases hok
    | ok _ => exact ⟨rfl, hcharged⟩
  · next hfree =>
      have hnonpos : unitPrice * usernames.length ≤ 0 :=
        Int.mul_nonpos_of_nonpos_of_nonneg (not_lt.mp hfree) (Int.natCast_nonneg _)
      rw [salePosts, if_pos hnonpos]
      exact ⟨rfl, .refl hpend⟩

def Affords (balance : Int) (count : Nat) :
    Except Error (Option (AdminId × ResellerPlanTariff × Int)) → Prop
  | .error _ => False
  | .ok none => True
  | .ok (some (_, _, price)) => price ≤ 0 ∨ price * count ≤ balance

def unitPriceOf : Except Error (Option (AdminId × ResellerPlanTariff × Int)) → Int
  | .ok (some (_, _, price)) => max 0 price
  | _ => 0

theorem unitPriceOf_nonneg (quote : Except Error (Option (AdminId × ResellerPlanTariff × Int))) :
    0 ≤ unitPriceOf quote := by
  unfold unitPriceOf
  split
  · exact le_max_left _ _
  · exact le_refl 0

theorem shapeRefusal_status
    (h : shapeRefusal d dataLimit durationDays = some e) : ∃ m, e = .resellerTariff m 400 := by
  unfold shapeRefusal at h
  dsimp only at h
  split_ifs at h
  all_goals exact ⟨_, (Option.some.inj h).symm⟩

theorem tariffQuote_error (h : tariffQuote d admin dataLimit durationDays = .error e) :
    ∃ m, e = .resellerTariff m 400 := by
  unfold tariffQuote at h
  split at h
  · cases h
  split at h
  · split at h
    · next hrefusal =>
        cases h
        exact shapeRefusal_status hrefusal
    · cases h
  · cases h

theorem tariffQuote_admin {admin : Admin} {quoted : AdminId × ResellerPlanTariff × Int}
    (h : tariffQuote d (some (a, admin)) dataLimit durationDays = .ok (some quoted)) :
    quoted.1 = a := by
  obtain ⟨b, t, p⟩ := quoted
  obtain ⟨r, hr, -⟩ := tariffQuote_payer h
  cases hr
  rfl

theorem verdict_of_affords (need : ResellerPlanTariff → Int → Int → String) {count : Nat}
    (h : Affords (d.balance a) count (tariffQuote d (some (a, r)) dataLimit durationDays)) :
    ∃ t, verdict d need count (tariffQuote d (some (a, r)) dataLimit durationDays) =
        .ok (t, unitPriceOf (tariffQuote d (some (a, r)) dataLimit durationDays)) ∧
      (t = none → unitPriceOf (tariffQuote d (some (a, r)) dataLimit durationDays) = 0) := by
  match hquote : tariffQuote d (some (a, r)) dataLimit durationDays with
  | .error e =>
    rw [hquote] at h
    exact h.elim
  | .ok none => exact ⟨none, rfl, fun _ => rfl⟩
  | .ok (some (b, t, p)) =>
    obtain rfl : b = a := tariffQuote_admin hquote
    rw [hquote] at h
    refine ⟨some t, ?_, by simp⟩
    simp only [verdict, unitPriceOf]
    by_cases hfree : p ≤ 0
    · rw [if_pos hfree, max_eq_left hfree]
    · rw [if_neg hfree, if_neg (not_lt.mpr (h.resolve_left hfree)),
        max_eq_right (not_le.mp hfree).le]

theorem verdict_of_not_affords (need : ResellerPlanTariff → Int → Int → String) {count : Nat}
    (h : ¬ Affords (d.balance a) count (tariffQuote d (some (a, r)) dataLimit durationDays)) :
    ∃ m status, verdict d need count (tariffQuote d (some (a, r)) dataLimit durationDays) =
      .error (.resellerTariff m status) ∧ (status = 400 ∨ status = 402) := by
  match hquote : tariffQuote d (some (a, r)) dataLimit durationDays with
  | .error e =>
    obtain ⟨m, rfl⟩ := tariffQuote_error hquote
    exact ⟨m, 400, rfl, .inl rfl⟩
  | .ok none =>
    rw [hquote] at h
    exact absurd trivial h
  | .ok (some (b, t, p)) =>
    obtain rfl : b = a := tariffQuote_admin hquote
    rw [hquote] at h
    obtain ⟨hprice, hlow⟩ := not_or.mp h
    refine ⟨need t p (d.balance b), 402, ?_, .inr rfl⟩
    rw [verdict, if_neg hprice, if_pos (not_le.mp hlow)]

end Shahkar.Billing
