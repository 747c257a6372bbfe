import Shahkar.Db.Crud
import Shahkar.Lib.FirstMatch
import Shahkar.Lib.Text
import Shahkar.Usage.Record

/-!
`record_user_stats`: the hourly rows, by the upsert of `app/db/usage_upsert.py` and without it.
-/

namespace Shahkar.Usage

open Shahkar.Db Shahkar.Lib
open Prog hiding commit

/-- What the hourly rows depend on besides the params: `DISABLE_RECORDING_NODE_USAGE`, the dialect,
the hour in which the rows of a node are written, and what the column keeps of a product. -/
structure Stats where
  recording : Bool
  postgres : Bool
  hour : NodeId → Int
  rounded : Int → ℚ → Int
  rounded_whole : ∀ value n : Int, rounded value n = value * n

def coalesceRows (rows : List (UsageKey × Int)) : Dict UsageKey Int :=
  rows.foldl (fun merged row => merged.bump row.1 row.2) .empty

/-- One `INSERT ... ON CONFLICT DO UPDATE`; PostgreSQL refuses a statement with one key twice. -/
def insertOnConflict (chunk : List (UsageKey × Int)) : Action Unit :=
  if (chunk.map Prod.fst).Nodup then do
    let _ ← Prog.each (fun row => Prog.emit (.upsertNodeUsage row.1 row.2)) chunk
  else .raise .integrity

def pgUpsert (rows : List (UsageKey × Int)) : Action Unit := do
  let _ ← Prog.each insertOnConflict (Text.chunks 400 (coalesceRows rows).entries)
  commit

section Record

variable (parse : String → Int) (stats : Stats) (params : List Param) (node : NodeId) (factor : ℚ)

def usageKey (p : Param) : UsageKey := (stats.hour node, p.uid.toInt parse, node)

def upsertRows : List (UsageKey × Int) :=
  (params.filter fun p => 0 < p.value).map fun p =>
    (usageKey parse stats node p, weigh p.value factor)

def plainRows : List (UsageKey × Int) :=
  params.map fun p => (usageKey parse stats node p, stats.rounded p.value factor)

def upsertNodeUserUsage : Action Unit :=
  let rows := upsertRows parse stats params node factor
  if rows = [] then return ()
  else if node.isNone ∨ ¬ stats.postgres then .raise (.value "handled by caller")
  else pgUpsert rows

def insertMissing (missing : List UsageKey) : Action Unit :=
  if missing = [] then return ()
  else do
    let _ ← Prog.each (fun key => Prog.emit (.insertNodeUsage key)) missing
    commit

/-- Rows that are missing are inserted first, and then all are updated. -/
def plainRecord : Action Unit := do
  let rows := plainRows parse stats params node factor
  let missing ← Prog.query fun d =>
    dedupe ((rows.map Prod.fst).filter fun key => ¬ hasHourly d.nodeUserUsages key)
  insertMissing missing
  let _ ← Prog.each (fun row => Prog.emit (.addNodeUsage row.1 row.2)) rows
  commit

def recordUserStats : Action Unit :=
  if params = [] then return ()
  else Prog.tryCatch (upsertNodeUserUsage parse stats params node factor) fun _ =>
    .rollback (plainRecord parse stats params node factor)

/-- What the rows are raised by: the sums of the path that is taken. -/
def recorded : List (UsageKey × Int) :=
  let rows := upsertRows parse stats params node factor
  if rows = [] then []
  else if node.isNone ∨ ¬ stats.postgres then plainRows parse stats params node factor
  else rows

end Record

/-!
### The table
-/

section Table

variable {rows : List NodeUserUsage} {key k : UsageKey}

/-- The traffic of an hour, a user and a node. -/
def hourly (k : UsageKey) (rows : List NodeUserUsage) : Int :=
  ((rows.find? (·.key = k)).map NodeUserUsage.usedTraffic).getD 0

end Table

/-!
### The session
-/

/-- The session has committed everything, and the database is `d`. -/
structure Left (d : Database) (s : Exec Database Write) : Prop where
  db : s.db = d
  pend : s.pend = []

/-- The database with the hourly rows raised by `rows`. -/
def Raised (d : Database) (rows : List (UsageKey × Int)) (s : Exec Database Write) : Prop :=
  ∃ usages, Left { d with nodeUserUsages := usages } s ∧
    ∀ k, hourly k usages = hourly k d.nodeUserUsages + posted k rows

section Alone

variable {d d' : Database} {s : Exec Database Write} {parse : String → Int} {stats : Stats}
  {params : List Param} {node : NodeId} {factor : ℚ}

theorem Left.commit (h : Left d s) {ws : List Write}
    {post : Except Error Unit → Exec Database Write → Prop}
    (happly : store.applyAll ws d = some d') (hpost : ∀ s', Left d' s' → post (.ok ()) s') :
    (Db.commit : Action Unit).alone store (fun _ _ => True)
      { s with pend := s.pend ++ ws } post := by
  refine (alone_commitOr_of_some (d := d') ?_).mpr ⟨trivial, hpost _ ⟨rfl, rfl⟩⟩
  rw [h.pend, h.db]
  exact happly

theorem Raised.nil (h : Left d s) : Raised d [] s :=
  ⟨d.nodeUserUsages, h, fun k => by rw [posted_nil, add_zero]⟩

def plainStats : Stats where
  recording := true
  postgres := true
  hour _ := 0
  rounded value factor := weigh value factor
  rounded_whole value n := by simp [weigh]

end Alone

end Shahkar.Usage
