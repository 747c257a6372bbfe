import Shahkar.FamilyGuard.Schedule
import Shahkar.Xray.Registry

/-!
# Family Guard and the main core

The `enforce_family_guard` job beside the reconciles of the main core: whom a tick denies access, what
it writes to the family column, and what it asks of the core.
-/

namespace Shahkar.FamilyGuard

open Shahkar.Lib Shahkar.Xray

/-!
### Disconnecting and restoring
-/

/-- What callers pass to `disconnect_users_everywhere`, which takes rows. -/
inductive UserArg
  | row (user : DbUser)
  | id (id : Nat)

def UserArg.email : UserArg → Except Raised Email
  | row user => .ok user.email
  | id _ => .error .noAttribute

def startHotDisconnect (p : Panel) (args : List UserArg) (alive : Bool) : Task :=
  if args.isEmpty then .returned (.ok true)
  else if ¬ p.serving.core.started ∨ ¬ alive then .returned (.ok false)
  else
    match args.mapM UserArg.email with
    | .ok emails => .disconnecting emails
    | .error e => .returned (.error e)

def disconnectUsersEverywhere (p : Panel) (args : List UserArg) (alive : Bool) : Panel :=
  if args.isEmpty then p
  else { p with tasks := p.tasks ++ [startHotDisconnect p args alive] }

def restoreUsersEverywhere (p : Panel) (users : List DbUser) (alive : Bool) : Panel :=
  { p with tasks := p.tasks ++
      (users.filter fun u => u.status.billable).map fun u => p.startSync u alive }

/-!
### The job
-/

def jobIntervalSec : Int := 60

def onlineFreshSec : Int := 180

structure Family where
  controls : Option Controls
  onlineAt : Option Int := none

def isOnline (family : Family) (now : Int) : Bool :=
  family.onlineAt.any fun t => now - t ≤ onlineFreshSec

structure Judged where
  updated : Controls
  allowed : Bool
  wasBlocked : Bool

def judge (now : Int) (clocks : Clock × Clock) (family : Family) : Option Judged :=
  (family.controls.filter fun c => c.enabled).map fun controls =>
    let ticked := tickUsage clocks.1 controls (isOnline family now) jobIntervalSec
    let access := evaluateAccess clocks.2 ticked
    { updated := setBlockState ticked (!access.1) access.2
      allowed := access.1
      wasBlocked := controls.runtime.scheduleBlocked }

/-- The panel with the family column; `denied` are those whom the last tick denied access. -/
structure Guard where
  panel : Panel
  family : Dict Nat Family
  denied : List Email

inductive GuardStep
  | serve (a : ServingStep)
  | write (family : Dict Nat Family)
  | tick (now : Int) (clocks : Nat → Clock × Clock) (alive : Bool)

namespace Guard

def start (panel : Panel) (family : Dict Nat Family) : Guard := ⟨panel, family, []⟩

def judged (g : Guard) (now : Int) (clocks : Nat → Clock × Clock) : List (DbUser × Judged) :=
  (g.panel.users.rows.filter fun u => u.status.billable).filterMap fun u =>
    (g.family.get? u.id).bind fun family =>
      (judge now (clocks u.id) family).map fun j => (u, j)

def enforceFamilyGuard (g : Guard) (now : Int) (clocks : Nat → Clock × Clock) (alive : Bool) :
    Guard :=
  let judged := g.judged now clocks
  let toDisconnect := (judged.filter fun e => !e.2.allowed && !e.2.wasBlocked).map
    fun e => UserArg.id e.1.id
  let toRestore := (judged.filter fun e => e.2.allowed && e.2.wasBlocked).map Prod.fst
  { panel := restoreUsersEverywhere (disconnectUsersEverywhere g.panel toDisconnect alive)
      toRestore alive
    family := judged.foldl (fun d e => d.modify e.1.id fun family =>
      { family with controls := some e.2.updated }) g.family
    denied := (judged.filter fun e => !e.2.allowed).map fun e => e.1.email }

def step (g : Guard) : GuardStep → Option Guard
  | .serve a => (g.panel.step a).map fun panel => { g with panel }
  | .write family => some { g with family }
  | .tick now clocks alive => some (g.enforceFamilyGuard now clocks alive)

end Guard

variable {email : Email} {s : Serving} {replies : List Reply}

namespace Guard

variable {g g' : Guard}

end Guard

end Shahkar.FamilyGuard
