import Shahkar.Usage.Hourly

/-!
`record_aggregated_user_usages` as the sessions it runs: the queries, the chunks of the billing with
a commit each, the limits, the resellers' counters, the split and the hourly rows.
-/

namespace Shahkar.Usage

open Shahkar.Db Shahkar.Lib
open Prog hiding commit

def billChunk (entries : List (Int × Int)) : Action Unit := do
  let _ ← Prog.each (fun e => Prog.emit (.billUsage e.1 e.2)) entries
  commit

def staysActive (row : User) : Bool :=
  row.status ≠ .active ∨ (orNone row.dataLimit).all fun limit => row.usedTraffic < limit

def limitReached (id : Int) (row : User) : Action Bool :=
  if staysActive row then return false
  else do
    Prog.emit (.updateUser id row { row with status := .limited })
    commit
    return true

def limitUserQuotaOf (id : Int) (dbuser : User) : Action Bool := do
  let capped := enforceUsageCap dbuser
  let row ← if capped.usedTraffic = dbuser.usedTraffic then pure dbuser else do
    Prog.emit (.updateUser id dbuser capped)
    commit
    Prog.query fun d => (d.users.get? id).getD capped
  limitReached id row

def limitHit (id : Int) : Action Bool := do
  match ← Prog.query fun d => d.users.get? id with
  | none => return false
  | some dbuser => limitUserQuotaOf id dbuser

def chargeResellers (usage : Dict AdminId Int) : Action Unit := do
  let _ ← Prog.each (fun e => Prog.emit (.chargeAdmin e.1 e.2)) usage.entries
  if usage.entries = [] then return () else commit

def writeSplit (split : List (Int × Int × Int)) : Action Unit := do
  let _ ← Prog.each (fun r => Prog.emit (.billSplit r.1 r.2.1 r.2.2)) split
  if split = [] then return () else commit

section Recorder

variable (parse : String → Int) (stats : Stats) (t : UsageTick)

/-- The params of the accounts that were billable when the job read them. -/
def billableParams (db : UsageDb) : List (NodeId × List Param) :=
  t.apiParams.entries.map fun e =>
    (e.1, e.2.filter fun p => (db.billableRow (p.uid.toInt parse)).isSome)

def recordStats (nodes : List (NodeId × List Param)) : Action Unit :=
  if stats.recording then do
    let _ ← Prog.each (fun e => recordUserStats parse stats e.2 e.1 (t.coefficient e.1)) nodes
  else return ()

def recordUsages : Action Unit := do
  let (usersUsage, hit, charged, split, nodes) ← Prog.query fun d =>
    let db : UsageDb := ⟨d.users, d.admins⟩
    ((billedEntries parse t db).1, (billedEntries parse t db).2,
      adminUsage (billedEntries parse t db).1 db.billableRow, splitRows parse t db,
      billableParams parse t db)
  if usersUsage = [] ∧ hit = [] then return ()
  else do
    let sorted := usersUsage.insertionSort fun a b => a.1 ≤ b.1
    let _ ← Prog.each billChunk (Text.chunks 80 sorted)
    let hit ← if usersUsage = [] then pure hit
      else Prog.query fun d => hitLimitUids d.users (sorted.map Prod.fst)
    let _ ← Prog.each limitHit hit
    chargeResellers charged
    writeSplit split
    recordStats parse stats t nodes

end Recorder

section Alone

variable {d : Database} {s : Exec Database Write}

variable {id : Int} {users : Dict Int User}

theorem Raised.trans {rows rows' : List (UsageKey × Int)} {usages : List NodeUserUsage}
    (h : ∀ k, hourly k usages = hourly k d.nodeUserUsages + posted k rows)
    (h' : Raised { d with nodeUserUsages := usages } rows' s) : Raised d (rows ++ rows') s := by
  obtain ⟨usages', hleft, hhourly⟩ := h'
  exact ⟨usages', hleft, fun k => by rw [hhourly, h, posted_append, add_assoc]⟩

end Alone

end Shahkar.Usage
