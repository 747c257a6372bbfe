import Shahkar.Billing.Charges
import Shahkar.Billing.Routes

/-!
# What a reseller's edit of an account does

The quote it is priced by, the row it leaves and the amount it debits, when it is alone with the
database.
-/

namespace Shahkar.Billing

open Shahkar.Db Shahkar.Lib
open Prog hiding commit

/-!
### The edit
-/

def pricedShape (payload : UserModify) (dbuser : User) : Option Int × Option Int :=
  (payload.dataLimit.getD dbuser.dataLimit, payload.expire.getD dbuser.expire)

def lockedPayload (d : Database) (now : Int) (admin : Option Admin) (dbuser : User)
    (payload : UserModify) : UserModify :=
  let shape := pricedShape payload dbuser
  let locks := resolveLockedLimitsForAdmin d admin shape.1
    (durationDaysFromExpire now shape.2) {}
  { payload with
    deviceLimit := (locks.deviceLimit.map some).or payload.deviceLimit
    speedLimitUp := (locks.speedLimitUp.map some).or payload.speedLimitUp
    speedLimitDown := (locks.speedLimitDown.map some).or payload.speedLimitDown }

def editQuote (d : Database) (now : Int) (username : String) (dbuser : User)
    (payload : UserModify) : Except Error (Option (AdminId × ResellerPlanTariff × Int)) :=
  let shape := pricedShape payload dbuser
  modifyQuote d now (d.adminByName username) dbuser shape.1 shape.2

def editedUser (d : Database) (now : Int) (username : String) (dbuser : User)
    (payload : UserModify) (tariff : Option ResellerPlanTariff) : User :=
  let row := updatedUser now
    (lockedPayload d now ((d.adminByName username).map Prod.snd) dbuser payload) dbuser
  (tariff.map (markedUser row)).getD row

/-!
### Lone edits
-/

structure Edited (id : Int) (row : User) (s s' : Exec Database Write) : Prop where
  db : s'.db = { s.db with users := s'.db.users }
  users : ∀ k, s'.db.users.get? k = if k = id then some row else s.db.users.get? k
  pend : s'.pend = []

section Lone

variable {s : Exec Database Write} {now id : Int} {dbuser : User}

theorem edited_emit_commit (row : User) (huser : s.db.users.get? id = some dbuser)
    (hpend : s.pend = []) :
    (do Prog.emit (.updateUser id dbuser row); commit : Action Unit).alone store
      (fun _ _ => True) s fun x s' => x = .ok () ∧ Edited id row s s' := by
  have happly : store.applyAll (s.push (.updateUser id dbuser row)).pend s.db =
      some { s.db with users := s.db.users.modify id (User.written dbuser row) } := by
    simp [hpend, Write.apply]
  simp only [alone_bind, alone_emit, aloneThen_ok]
  refine (alone_commitOr_of_some happly).mpr ⟨trivial, rfl, rfl, fun k => ?_, rfl⟩
  simp only [Exec.committed_db, Dict.get?_modify]
  split
  · next h => simp [h, huser]
  · rfl

theorem edited_updateUser {modify : UserModify} (huser : s.db.users.get? id = some dbuser)
    (hpend : s.pend = []) :
    (updateUser now id dbuser modify).alone store (fun _ _ => True) s fun x s' =>
      x = .ok (updatedUser now modify dbuser) ∧
        Edited id (updatedUser now modify dbuser) s s' := by
  have hedit := edited_emit_commit (updatedUser now modify dbuser) huser hpend
  unfold updateUser
  simp only [alone_bind, alone_emit, aloneThen_ok]
  refine alone_mono ?_ hedit
  rintro x s₁ ⟨rfl, hedited⟩
  rw [aloneThen_ok, alone_query, hedited.users, if_pos rfl]
  exact ⟨rfl, hedited⟩

def settleEdit (username : String) (id : Int) (row : User) (unitPrice : Int) :
    Option ResellerPlanTariff → Action Unit
  | none => pure ()
  | some tariff => do
    let dbadmin ← Prog.query fun d => d.adminByName username
    (match dbadmin with
    | some (adminId, admin) =>
      if 0 < unitPrice then do
        let _ ← chargeResellerTariff adminId admin tariff unitPrice [row.username] .modify
      else pure ()
    | none => pure ())
    Prog.emit (.updateUser id row (markedUser row tariff))
    commit

theorem modifyUser_eq {caller : Caller} {payload : UserModify} (hsudo : caller.isSudo = false) :
    modifyUser now caller id payload = (do
      match ← Prog.query fun d => d.users.get? id with
      | none => .raise (.http 404 "User not found")
      | some dbuser =>
        let dbadmin ← Prog.query fun d => d.adminByName caller.username
        let locked ← Prog.query fun d =>
          lockedPayload d now (dbadmin.map Prod.snd) dbuser payload
        let (tariff, unitPrice) ← (prepareResellerModifyCharge now dbadmin dbuser
          (pricedShape payload dbuser).1 (pricedShape payload dbuser).2).tryCatch
            fun e => .raise (tariffError e)
        let row ← updateUser now id dbuser locked
        settleEdit caller.username id row unitPrice tariff) := by
  unfold modifyUser
  rw [hsudo]
  rfl

def editPosts (d : Database) (username : String) (price : Int) : List (AdminId × Int) :=
  match d.adminIdOf username with
  | some a => salePosts d a price
  | none => []

theorem owed_editPosts (d : Database) (username : String) (a : AdminId) {price : Int}
    (hprice : 0 ≤ price) :
    owed a (editPosts d username price) =
      if d.adminIdOf username = some a then price else 0 := by
  unfold editPosts
  cases d.adminIdOf username with
  | none => simp
  | some b => simp [owed_salePosts d b a hprice]

structure Settled (id : Int) (row : User) (posts : List (AdminId × Int))
    (s s' : Exec Database Write) : Prop where
  db : s'.db = { s.db with
    users := s'.db.users, wallets := s'.db.wallets, transactions := s'.db.transactions }
  users : ∀ k, s'.db.users.get? k = if k = id then some row else s.db.users.get? k
  entries : entries s'.db = entries s.db ++ posts
  balance : ∀ a, s'.db.balance a = s.db.balance a + posted a posts
  pend : s'.pend = []

theorem Charged.edited {row : User} {posts : List (AdminId × Int)} {s₁ s' : Exec Database Write}
    (h : Charged posts s s₁) (h' : Edited id row s₁ s') : Settled id row posts s s' where
  db := by rw [h'.db, h.money]
  users k := by rw [h'.users, h.money]
  entries := by rw [h'.db]; exact h.entries
  balance a := by rw [h'.db]; exact h.balance a
  pend := h'.pend

namespace Settled

theorem trans {row row' : User} {posts posts' : List (AdminId × Int)}
    {s₁ s' : Exec Database Write} (h : Settled id row posts s s₁)
    (h' : Settled id row' posts' s₁ s') : Settled id row' (posts ++ posts') s s' where
  db := by rw [h'.db, h.db]
  users k := by
    rw [h'.users, h.users]
    split <;> rfl
  entries := by rw [h'.entries, h.entries, List.append_assoc]
  balance a := by rw [h'.balance, h.balance, posted_append, add_assoc]
  pend := h'.pend

theorem debited {row : User} {posts : List (AdminId × Int)} {s' : Exec Database Write}
    (h : Settled id row posts s s') (a : AdminId) :
    debited a s'.db = debited a s.db + owed a posts := by
  rw [Billing.debited, h.entries, owed_append, Billing.debited]

end Settled

theorem settled_settleEdit {username : String} {row : User} {unitPrice : Int}
    {tariff : ResellerPlanTariff} {a : AdminId} {admin : Admin}
    (hadmin : s.db.adminByName username = some (a, admin)) (hsudo : admin.isSudo = false)
    (huser : s.db.users.get? id = some row) (hpend : s.pend = []) :
    (settleEdit username id row unitPrice (some tariff)).alone store (fun _ _ => True) s
      fun x s' => x = .ok () ∧
        Settled id (markedUser row tariff) (salePosts s.db a unitPrice) s s' := by
  unfold settleEdit
  simp only [alone_bind, alone_query, aloneThen_ok, hadmin]
  have hcharge : (if 0 < unitPrice then do
      let _ ← chargeResellerTariff a admin tariff unitPrice [row.username] .modify
      else pure () : Action Unit).alone store (fun _ _ => True) s fun x s' =>
        x = .ok () ∧ Charged (salePosts s.db a unitPrice) s s' := by
    split
    · refine alone_then (charged_chargeResellerTariff hsudo hpend) ?_
      intro x s₁ hpost
      obtain ⟨hok, hcharged⟩ := hpost
      cases x with
      | error e => cases hok
      | ok _ => exact ⟨rfl, by simpa using hcharged⟩
    · next hfree =>
        rw [salePosts, if_pos (not_lt.mp hfree)]
        exact ⟨rfl, .refl hpend⟩
  refine alone_mono ?_ hcharge
  rintro x s₁ ⟨rfl, hcharged⟩
  rw [aloneThen_ok]
  have huser₁ : s₁.db.users.get? id = some row := by rw [hcharged.money]; exact huser
  refine alone_mono ?_ (edited_emit_commit _ huser₁ hcharged.pend)
  rintro x s₂ ⟨rfl, hedited⟩
  exact ⟨rfl, hcharged.edited hedited⟩

theorem settled_modifyUser {caller : Caller} (now : Int) (payload : UserModify)
    (hsudo : caller.isSudo = false) (huser : s.db.users.get? id = some dbuser)
    (hpend : s.pend = []) :
    (modifyUser now caller id payload).alone store (fun _ _ => True) s fun x s' =>
        match verdict s.db modifyNeed 1 (editQuote s.db now caller.username dbuser payload) with
        | .error e => x = .error (tariffError e) ∧ Charged [] s s'
        | .ok (tariff, price) => x = .ok () ∧
            Settled id (editedUser s.db now caller.username dbuser payload tariff)
              (editPosts s.db caller.username price) s s' := by
  rw [modifyUser_eq hsudo, alone_query_bind]
  simp only [huser, alone_bind, alone_query, aloneThen_ok, alone_tryCatch]
  refine alone_mono ?_ (charged_prepareResellerModifyCharge hpend)
  rintro x s₁ ⟨hcharged, rfl⟩
  change aloneElse _ _ _ _ (verdict s.db modifyNeed 1
    (editQuote s.db now caller.username dbuser payload)) s₁
  cases hverdict : verdict s.db modifyNeed 1 (editQuote s.db now caller.username dbuser payload) with
  | error e => exact ⟨rfl, hcharged⟩
  | ok result =>
    obtain ⟨tariff, price⟩ := result
    have huser₁ : s₁.db.users.get? id = some dbuser := by rw [hcharged.money]; exact huser
    rw [aloneElse_ok, aloneThen_ok]
    refine alone_then (edited_updateUser huser₁ hcharged.pend) ?_
    rintro x s₂ ⟨rfl, hedited⟩
    rw [aloneThen_ok]
    have hsettled := hcharged.edited hedited
    rcases verdict_eq_ok hverdict with ⟨-, rfl, rfl⟩ | ⟨a, t, p, hquote, rfl, rfl, -⟩
    · refine ⟨rfl, ?_⟩
      have hnone : editPosts s.db caller.username 0 = [] := by
        unfold editPosts
        split <;> rfl
      rw [hnone]
      exact hsettled
    · obtain ⟨admin, hadmin, hreseller⟩ := modifyQuote_payer hquote
      have hadmin₂ : s₂.db.adminByName caller.username = some (a, admin) := by
        rw [hsettled.db]
        exact hadmin
      have hposts : editPosts s.db caller.username (max 0 p) = salePosts s₂.db a (max 0 p) := by
        simp only [editPosts, Database.adminIdOf, hadmin, Option.map_some]
        refine (salePosts_congr ?_ ?_ a _).symm
        · rw [hsettled.db]
        · rw [hsettled.db]
      refine alone_mono ?_ (settled_settleEdit hadmin₂ hreseller
        (by rw [hsettled.users, if_pos rfl]) hsettled.pend)
      rintro x s₃ ⟨rfl, hsettled'⟩
      refine ⟨rfl, ?_⟩
      rw [hposts]
      exact hsettled.trans hsettled'

end Lone

section Priced

variable (d : Database) (now : Int) (username : String) (dbuser : User) (payload : UserModify)

theorem relimited_editedUser : Relimited dbuser (nextLimit payload.dataLimit dbuser.dataLimit)
    (nextLimit payload.expire dbuser.expire) (editedUser d now username dbuser payload none) :=
  relimited_updatedUser now
    (lockedPayload d now ((d.adminByName username).map Prod.snd) dbuser payload) dbuser

theorem limits_editedUser (tariff : Option ResellerPlanTariff) :
    (editedUser d now username dbuser payload tariff).dataLimit =
        nextLimit payload.dataLimit dbuser.dataLimit ∧
      (editedUser d now username dbuser payload tariff).expire =
        nextLimit payload.expire dbuser.expire := by
  have h : Relimited dbuser _ _ (editedUser d now username dbuser payload none) :=
    relimited_editedUser d now username dbuser payload
  cases tariff with
  | none => exact ⟨h.dataLimit, h.expire⟩
  | some t => exact ⟨h.dataLimit, h.expire⟩

theorem orNone_next_eq_iff (field : Option (Option Int)) (stored : Option Int) :
    orNone (nextLimit field stored) = orNone (field.getD stored) ↔
      (field = some none → orNone stored = none) := by
  rcases field with - | - | value
  · simp [nextLimit]
  · simp [nextLimit, orNone]
  · simp [nextLimit, orNone]

end Priced

/-- **The edit is priced for its result** exactly if no null is sent for a field with a value. -/
theorem priced_for_result_iff (now : Int) (caller : Caller) (hsudo : caller.isSudo = false)
    (d : Database) (n : Nat) (id : Int) (dbuser : User) (huser : d.users.get? id = some dbuser)
    (payload : UserModify) (s' : Exec Database Write)
    (hexec : (modifyUser now caller id payload).exec store { db := d, next := n } = (.ok (), s')) :
    (∃ u, s'.db.users.get? id = some u ∧
      orNone u.dataLimit = orNone (pricedShape payload dbuser).1 ∧
      orNone u.expire = orNone (pricedShape payload dbuser).2) ↔
      (payload.dataLimit = some none → orNone dbuser.dataLimit = none) ∧
        (payload.expire = some none → orNone dbuser.expire = none) := by
  have hsettled := exec_of_alone (settled_modifyUser
    (s := { db := d, next := n }) now payload hsudo huser rfl)
  rw [hexec] at hsettled
  split at hsettled
  · cases hsettled.1
  · next tariff price _ =>
      rw [hsettled.2.users, if_pos rfl]
      obtain ⟨hlimit, hexpire⟩ := limits_editedUser d now caller.username dbuser payload tariff
      simp only [Option.some.injEq, exists_eq_left', hlimit, hexpire, pricedShape,
        orNone_next_eq_iff]

def alice : User :=
  { username := "alice", dataLimit := some 10, expire := some 1000, adminId := some 1 }

def editable : Database where
  admins := Dict.empty.set 1 { username := "reseller" }
  users := Dict.empty.set 7 alice

def editor : Caller :=
  { username := "reseller", isSudo := false, canRead := true, canWrite := true }

/-- **A null is priced as unlimited**, and the account keeps its volume. -/
theorem null_limit_priced_as_unlimited :
    ∃ s', (modifyUser 0 editor 7 { dataLimit := some none }).exec store
        { db := editable, next := 1 } = (.ok (), s') ∧
      (pricedShape { dataLimit := some none } alice).1 = none ∧
      (s'.db.users.get? 7).map User.dataLimit = some (some 10) := by
  refine ⟨_, rfl, rfl, ?_⟩
  decide

theorem value_priced_as_stored :
    ∃ u : User, u.expire = some 2000 ∧
      orNone u.expire = orNone (pricedShape { expire := some (some 2000) } alice).2 := by
  obtain ⟨u, hu, -, hexpire⟩ := (priced_for_result_iff 0 editor rfl editable 1 7 alice rfl
    { expire := some (some 2000) } _ rfl).mpr ⟨by decide, by decide⟩
  refine ⟨u, ?_, hexpire⟩
  obtain rfl := Option.some.inj hu
  decide

end Shahkar.Billing
