import Shahkar.Billing.Routes
import Shahkar.Portal.Plans

/-!
Operations on many accounts at once (`app/services/user_bulk.py`): extending them, and the status
that enabling or disabling gives one. Subscription panels and live cores are left out.
-/

namespace Shahkar.Services

open Shahkar.Db Shahkar.Lib Shahkar.Billing Shahkar.Portal

structure BulkUserActionResult where
  applied : Nat
  skipped : Nat
  deriving Repr, DecidableEq

def targetUsers (d : Database) (caller : Caller) (select : Int × User → Bool) :
    List (Int × User) :=
  d.users.entries.filter fun e =>
    (caller.isSudo ∨ (e.2.adminId.bind d.admins.get?).any fun r => r.username = caller.username) ∧
      select e

def bulkEdit (caller : Caller) (select : Int × User → Bool)
    (edit : Database → Int → User → List Write) : Action BulkUserActionResult := do
  let edits ← Prog.query fun d => (targetUsers d caller select).map fun e => edit d e.1 e.2
  let _ ← Prog.each Prog.emit edits.flatten
  (if edits.all List.isEmpty then pure () else commit)
  return { applied := (edits.filter fun ws => ¬ ws.isEmpty).length
           skipped := (edits.filter List.isEmpty).length }

structure BulkExtendRequest where
  days : Nat
  addDataBytes : Nat
  days_le : days ≤ 3650
  change : days ≠ 0 ∨ addDataBytes ≠ 0

def extendedLimits (now : Int) (body : BulkExtendRequest) (u : User) : User :=
  let base := (u.expire.filter fun e => e ≠ 0 ∧ now < e).getD now
  { u with
    expire := if body.days = 0 then u.expire else some (base + body.days * 86400)
    dataLimit := u.dataLimit.map fun l => if 0 < l then l + body.addDataBytes else l }

def extendedUser (now : Int) (body : BulkExtendRequest) (u : User) : User :=
  let u := extendedLimits now body u
  let u := if u.status = .expired ∧ u.expire.any fun e => e ≠ 0 ∧ now < e then
      { u with status := .active }
    else u
  if u.status = .limited ∧ (orNone u.dataLimit).all fun limit => u.usedTraffic < limit then
    { u with status := .active }
  else u

def applyBulkExtend (now : Int) (caller : Caller) (select : Int × User → Bool)
    (body : BulkExtendRequest) : Action BulkUserActionResult :=
  bulkEdit caller select fun _ id u =>
    if extendedLimits now body u = u then [] else [.updateUser id u (extendedUser now body u)]

inductive BulkStatusAction
  | enable
  | disable
  deriving Repr, DecidableEq

def reactivatedStatus (now : Int) (u : User) : UserStatus :=
  if u.expire.any fun e => 0 < e ∧ e ≤ now then .expired
  else if u.dataLimit.any fun limit => 0 < limit ∧ limit ≤ u.usedTraffic then .limited
  else .active

def bulkStatus (now : Int) (action : BulkStatusAction) (u : User) : Option UserStatus :=
  match action with
  | .disable => if u.status = .disabled then none else some .disabled
  | .enable => if u.status ≠ .disabled then none else some (reactivatedStatus now u)

end Shahkar.Services
