import Shahkar.Lib.Dict

/-!
When Family Guard lets an account connect (`app/family_guard/schedule.py`, with `is_enabled` and
`is_pause_active` of `policy.py`).
-/

namespace Shahkar.FamilyGuard

open Shahkar.Lib

/-!
### Controls
-/

structure Hm where
  hour : Nat
  minute : Nat
  deriving Repr, DecidableEq

def Hm.minutes (t : Hm) : Nat := t.hour * 60 + t.minute

inductive BlockReason
  | outsideSchedule
  | dailyLimit
  deriving Repr, DecidableEq

structure Schedule where
  tz : String := "Asia/Tehran"
  windows : Dict Nat (List (Option (Hm × Hm))) := .empty
  dailyMinutes : Option Int := none

structure Runtime where
  day : Option String := none
  usedSeconds : Int := 0
  scheduleBlocked : Bool := false
  blockReason : Option BlockReason := none
  deriving Repr, DecidableEq

structure Controls where
  enabled : Bool
  schedule : Schedule := {}
  pauseUntil : Option Int := none
  runtime : Runtime := {}

structure LocalTime where
  isoWeekday : Nat
  hour : Nat
  minute : Nat
  day : String
  deriving Repr, DecidableEq

structure Clock where
  utc : Int
  localTime : String → LocalTime

/-!
### Access
-/

def isPauseActive (clock : Clock) (controls : Controls) : Bool :=
  controls.pauseUntil.any fun t => t ≠ 0 ∧ clock.utc < t

def inWindow (minutes : Nat) : Option (Hm × Hm) → Bool
  | none => false
  | some (a, b) =>
    if a.minutes = b.minutes then false
    else if a.minutes < b.minutes then a.minutes ≤ minutes ∧ minutes < b.minutes
    else a.minutes ≤ minutes ∨ minutes < b.minutes

def withinWindows (now : LocalTime) (windows : List (Option (Hm × Hm))) : Bool :=
  windows.isEmpty || windows.any (inWindow (now.hour * 60 + now.minute))

def evaluateAccess (clock : Clock) (controls : Controls) : Bool × Option BlockReason :=
  let now := clock.localTime controls.schedule.tz
  let windows := (controls.schedule.windows.get? now.isoWeekday).getD []
  let anyWindows := controls.schedule.windows.entries.any fun e => ¬ e.2.isEmpty
  if ¬ controls.enabled then (true, none)
  else if isPauseActive clock controls then (true, none)
  else if anyWindows ∧ ¬ withinWindows now windows then (false, some .outsideSchedule)
  else if controls.schedule.dailyMinutes.any (fun daily => 0 < daily ∧
      controls.runtime.day = some now.day ∧ daily * 60 ≤ controls.runtime.usedSeconds) then
    (false, some .dailyLimit)
  else (true, none)

def tickUsage (clock : Clock) (controls : Controls) (online : Bool) (intervalSeconds : Int) :
    Controls :=
  let day := (clock.localTime controls.schedule.tz).day
  let used := if controls.runtime.day = some day then controls.runtime.usedSeconds else 0
  let counts := online && controls.enabled && !isPauseActive clock controls
  { controls with runtime := { controls.runtime with
      day := some day
      usedSeconds := if counts then used + max 0 intervalSeconds else used } }

def setBlockState (controls : Controls) (blocked : Bool) (reason : Option BlockReason) :
    Controls :=
  { controls with runtime := { controls.runtime with
      scheduleBlocked := blocked
      blockReason := if blocked then reason else none } }

end Shahkar.FamilyGuard
