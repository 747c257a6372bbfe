import Shahkar.Lib.Dict
import Shahkar.Lib.Transition

/-!
# The fleet-apply queue (`app/sync/outbox.py`)

API calls commit a change of the database and leave a row behind; drain workers claim rows, apply
them to the live cores and record the outcome. Every commit is a step of its own, and so is every
read whose result is used later.
-/

namespace Shahkar.Sync

open Shahkar.Lib

/-!
### Rows
-/

inductive SyncAction
  | add
  | disable
  | delete
  | quotaCap
  | protocolChange
  deriving Repr, DecidableEq

inductive OutboxStatus
  | pending
  | running
  | failed
  | done
  | dead
  deriving Repr, DecidableEq

def OutboxStatus.isFinal : OutboxStatus → Bool
  | .done | .dead => true
  | .pending | .running | .failed => false

structure OutboxKey where
  userId : Option Int
  action : SyncAction
  target : String := "all"
  nodeId : Option Int := none
  deriving Repr, DecidableEq

structure OutboxRow (P : Type) where
  key : OutboxKey
  payload : Option P
  status : OutboxStatus := .pending
  attempts : Nat := 0
  nextRetryAt : Option Int := none
  updatedAt : Int := 0
  deriving Repr, DecidableEq

def maxAttempts : Nat := 20

def staleRunningSec : Int := 45

namespace OutboxRow

variable {P : Type} (now : Int)

def new (key : OutboxKey) (payload : Option P) : OutboxRow P where
  key := key
  payload := payload
  nextRetryAt := some now
  updatedAt := now

def join (payload : Option P) (row : OutboxRow P) : OutboxRow P :=
  if payload.isSome then { row with payload := payload, updatedAt := now } else row

def joinable (key : OutboxKey) (row : OutboxRow P) : Bool :=
  row.key = key ∧ (row.status = .pending ∨ row.status = .running)

def claimable (row : OutboxRow P) : Bool :=
  (row.status = .pending ∨ row.status = .failed) ∧ row.nextRetryAt.all (· ≤ now) ∧
    row.attempts < maxAttempts

def claim (attempts : Nat) (row : OutboxRow P) : OutboxRow P :=
  { row with status := .running, attempts := attempts + 1, updatedAt := now }

def reclaim (row : OutboxRow P) : OutboxRow P :=
  if row.status = .running ∧ row.updatedAt < now - staleRunningSec then
    { row with status := .pending, updatedAt := now, nextRetryAt := some now }
  else row

def backoff (attempts : Nat) (jitter : Int) : Int := now + min 300 (2 ^ max 1 attempts) + jitter

def finish (ok : Bool) (jitter : Int) (row : OutboxRow P) : OutboxRow P :=
  if ok then { row with status := .done, updatedAt := now }
  else if maxAttempts ≤ row.attempts then { row with status := .dead, updatedAt := now }
  else { row with
    status := .failed
    updatedAt := now
    nextRetryAt := some (backoff now row.attempts jitter) }

end OutboxRow

abbrev Table (P : Type) := Dict Nat (OutboxRow P)

def urgent (a : SyncAction) : Bool := a = .disable ∨ a = .delete

namespace Table

variable {P : Type}

def select (now : Int) (locked : List Nat) (limit : Nat) (rows : Table P) : List (Nat × Nat) :=
  let due := rows.entries.filter fun e => e.2.claimable now ∧ e.1 ∉ locked
  let ordered := (due.filter fun e => urgent e.2.key.action) ++
    due.filter fun e => ¬ urgent e.2.key.action
  (ordered.take limit).map fun e => (e.1, e.2.attempts)

def claim (now : Int) (selected : List (Nat × Nat)) (rows : Table P) : Table P :=
  selected.foldl (fun rows e => rows.modify e.1 (OutboxRow.claim now e.2)) rows

def reclaim (now : Int) (rows : Table P) : Table P := rows.mapVal (OutboxRow.reclaim now)

end Table

inductive Caller (P : Type)
  | changed (key : OutboxKey) (payload : Option P)
  | found (key : OutboxKey) (payload : Option P) (existing : Option Nat)
  | returned

structure Task (P : Type) where
  id : Nat
  key : OutboxKey
  payload : Option P
  loadedAt : Nat

inductive Worker (P D : Type)
  | selected (rows : List (Nat × Nat))
  | between (ids : List Nat)
  | loaded (task : Task P) (rest : List Nat)
  | applying (task : Task P) (seen : D) (rest : List Nat)
  | applied (task : Task P) (rest : List Nat)
  | confirming (task : Task P) (seen : D) (rest : List Nat)
  | confirmed (task : Task P) (rest : List Nat)
  | gone

namespace Worker

variable {P D : Type}

def task? : Worker P D → Option (Task P)
  | .loaded task _ | .applying task _ _ | .applied task _ | .confirming task _ _
  | .confirmed task _ => some task
  | .selected _ | .between _ | .gone => none

def waiting : Worker P D → List Nat
  | .between ids => ids
  | .loaded _ rest | .applying _ _ rest | .applied _ rest | .confirming _ _ rest
  | .confirmed _ rest => rest
  | .selected _ | .gone => []

def held (w : Worker P D) : List Nat := (w.task?.map Task.id).toList ++ w.waiting

def hasRead : Worker P D → Bool
  | .applying _ _ _ | .applied _ _ | .confirming _ _ _ | .confirmed _ _ => true
  | _ => false

end Worker

/-- What `apply_action` and `confirm_action` do to the cores, given the row and what they have read
from the database. -/
structure Effects (P D C : Type) where
  apply : SyncAction → Option P → D → C → C
  confirm : SyncAction → Option P → D → C → C

/-- The queue, its surroundings and its history. -/
structure Outbox (P D C : Type) where
  rows : Table P
  nextId : Nat
  now : Int
  db : D
  core : C
  callers : List (Caller P)
  workers : List (Worker P D)
  events : Nat
  returns : List (OutboxKey × Nat)
  reads : List (OutboxKey × Nat)
  deaths : List (OutboxKey × Nat)

inductive OutboxStep (P D : Type)
  | tick (seconds : Nat)
  | change (db : D) (key : OutboxKey) (payload : Option P)
  | find (j : Nat) (first : Option Nat)
  | enqueue (j : Nat)
  | reclaimStale
  | claimPostgres (locked : List Nat) (limit : Nat)
  | selectGeneric (limit : Nat)
  | claimGeneric (i : Nat)
  | load (i : Nat)
  | readForApply (i : Nat)
  | apply (i : Nat) (reached : Bool)
  | readForConfirm (i : Nat)
  | confirm (i : Nat) (reached : Bool)
  | finish (i : Nat) (ok : Bool) (jitter : Int)
  | die (i : Nat)

namespace Outbox

variable {P D C : Type}

def init (now : Int) (db : D) (core : C) : Outbox P D C where
  rows := .empty
  nextId := 1
  now := now
  db := db
  core := core
  callers := []
  workers := []
  events := 0
  returns := []
  reads := []
  deaths := []

def enqueued (s : Outbox P D C) (j : Nat) (key : OutboxKey) (payload : Option P) :
    Option Nat → Outbox P D C
  | some id => { s with
      rows := s.rows.modify id (OutboxRow.join s.now payload)
      callers := s.callers.set j .returned
      returns := (key, s.events) :: s.returns }
  | none => { s with
      rows := s.rows.set s.nextId (OutboxRow.new s.now key payload)
      nextId := s.nextId + 1
      callers := s.callers.set j .returned
      returns := (key, s.events) :: s.returns }

def finished (s : Outbox P D C) (i : Nat) (task : Task P) (rest : List Nat) (ok : Bool)
    (jitter : Int) : Outbox P D C :=
  { s with
    rows := s.rows.modify task.id (OutboxRow.finish s.now ok jitter)
    workers := s.workers.set i (.between rest)
    deaths := if ¬ ok ∧ (s.rows.get? task.id).any fun row => maxAttempts ≤ row.attempts then
        (task.key, s.events) :: s.deaths
      else s.deaths }

def move (effects : Effects P D C) (s : Outbox P D C) : OutboxStep P D → Option (Outbox P D C)
  | .tick seconds => some { s with now := s.now + seconds }
  | .change db key payload =>
    some { s with db := db, callers := s.callers ++ [.changed key payload] }
  | .find j first =>
    match s.callers[j]? with
    | some (.changed key payload) =>
      -- the query returns any row that matches, and none only if there is none
      if first.all (fun id => (s.rows.get? id).any (OutboxRow.joinable key)) ∧
          (first.isSome ∨ ¬ s.rows.entries.any fun e => e.2.joinable key) then
        some { s with callers := s.callers.set j (.found key payload first) }
      else none
    | _ => none
  | .enqueue j =>
    match s.callers[j]? with
    | some (.found key payload existing) => some (s.enqueued j key payload existing)
    | _ => none
  | .reclaimStale => some { s with rows := s.rows.reclaim s.now }
  | .claimPostgres locked limit =>
    let selected := s.rows.select s.now locked limit
    some { s with
      rows := s.rows.claim s.now selected
      workers := s.workers ++ [.between (selected.map Prod.fst)] }
  | .selectGeneric limit =>
    some { s with workers := s.workers ++ [.selected (s.rows.select s.now [] limit)] }
  | .claimGeneric i =>
    match s.workers[i]? with
    | some (.selected selected) => some { s with
        rows := s.rows.claim s.now selected
        workers := s.workers.set i (.between (selected.map Prod.fst)) }
    | _ => none
  | .load i =>
    match s.workers[i]? with
    | some (.between (id :: rest)) =>
      match s.rows.get? id with
      | some row => some { s with
          workers := s.workers.set i (.loaded ⟨id, row.key, row.payload, s.events⟩ rest) }
      | none => some { s with workers := s.workers.set i (.between rest) }
    | _ => none
  | .readForApply i =>
    match s.workers[i]? with
    | some (.loaded task rest) => some { s with
        workers := s.workers.set i (.applying task s.db rest)
        reads := (task.key, task.loadedAt) :: s.reads }
    | _ => none
  | .apply i reached =>
    match s.workers[i]? with
    | some (.applying task seen rest) => some { s with
        workers := s.workers.set i (.applied task rest)
        core := if reached then effects.apply task.key.action task.payload seen s.core
          else s.core }
    | _ => none
  | .readForConfirm i =>
    match s.workers[i]? with
    | some (.applied task rest) =>
      some { s with workers := s.workers.set i (.confirming task s.db rest) }
    | _ => none
  | .confirm i reached =>
    match s.workers[i]? with
    | some (.confirming task seen rest) => some { s with
        workers := s.workers.set i (.confirmed task rest)
        core := if reached then effects.confirm task.key.action task.payload seen s.core
          else s.core }
    | _ => none
  | .finish i ok jitter =>
    match s.workers[i]? with
    | some (.confirmed task rest) => some (s.finished i task rest ok jitter)
    -- an exception
    | some (.loaded task rest) | some (.applying task _ rest) | some (.applied task rest)
    | some (.confirming task _ rest) =>
      if ok then none else some (s.finished i task rest false jitter)
    | _ => none
  | .die i =>
    if i < s.workers.length then some { s with workers := s.workers.set i .gone } else none

/-- One commit, or one read whose result is used later. -/
def step (effects : Effects P D C) (s : Outbox P D C) (step : OutboxStep P D) :
    Option (Outbox P D C) :=
  (s.move effects step).map fun s' => { s' with events := s.events + 1 }

inductive Works (s : Outbox P D C) (i : Nat) : OutboxStep P D → Worker P D → Worker P D → Prop
  | load {id : Nat} {row : OutboxRow P} {rest : List Nat} (hrow : s.rows.get? id = some row) :
      Works s i (.load i) (.between (id :: rest)) (.loaded ⟨id, row.key, row.payload, s.events⟩ rest)
  | skip {id : Nat} {rest : List Nat} (hrow : s.rows.get? id = none) :
      Works s i (.load i) (.between (id :: rest)) (.between rest)
  | readForApply {task : Task P} {rest : List Nat} :
      Works s i (.readForApply i) (.loaded task rest) (.applying task s.db rest)
  | apply {reached : Bool} {task : Task P} {seen : D} {rest : List Nat} :
      Works s i (.apply i reached) (.applying task seen rest) (.applied task rest)
  | readForConfirm {task : Task P} {rest : List Nat} :
      Works s i (.readForConfirm i) (.applied task rest) (.confirming task s.db rest)
  | confirm {reached : Bool} {task : Task P} {seen : D} {rest : List Nat} :
      Works s i (.confirm i reached) (.confirming task seen rest) (.confirmed task rest)

def readsAfter (s : Outbox P D C) : Worker P D → List (OutboxKey × Nat)
  | .applying task _ _ => (task.key, task.loadedAt) :: s.reads
  | _ => s.reads

def SoundCaller (s : Outbox P D C) : Caller P → Prop
  | .found key _ (some id) => ∃ row, s.rows.get? id = some row ∧ row.key = key
  | _ => True

/-- The rows that the query of a claim selects, with the attempts it reads. -/
def taken (s : Outbox P D C) : OutboxStep P D → List (Nat × Nat)
  | .claimPostgres locked limit => s.rows.select s.now locked limit
  | .selectGeneric limit => s.rows.select s.now [] limit
  | _ => []

inductive Moves (s : Outbox P D C) : OutboxStep P D → Outbox P D C → Prop
  | quiet {step : OutboxStep P D} (now : Int) (db : D) (callers : List (Caller P))
      (hcallers : ∀ c ∈ callers, c ∈ s.callers ∨ s.SoundCaller c) :
      Moves s step { s with now := now, db := db, callers := callers }
  | enqueue {j : Nat} {key : OutboxKey} {payload : Option P} {existing : Option Nat}
      (hcaller : s.callers[j]? = some (.found key payload existing)) :
      Moves s (.enqueue j) (s.enqueued j key payload existing)
  | reclaim : Moves s .reclaimStale { s with rows := s.rows.reclaim s.now }
  | claim {step : OutboxStep P D} (selected : List (Nat × Nat)) {workers : List (Worker P D)}
      (hrows : ∀ e ∈ selected, (∃ w ∈ s.workers, w = .selected selected) ∨ e ∈ s.taken step)
      (hworkers : workers = s.workers ++ [.between (selected.map Prod.fst)] ∨
        ∃ i, s.workers[i]? = some (.selected selected) ∧
          workers = s.workers.set i (.between (selected.map Prod.fst))) :
      Moves s step { s with rows := s.rows.claim s.now selected, workers := workers }
  | select (limit : Nat) :
      Moves s (.selectGeneric limit) { s with
        workers := s.workers ++ [.selected (s.rows.select s.now [] limit)] }
  | work {step : OutboxStep P D} {i : Nat} {w w' : Worker P D} (core : C)
      (hw : s.workers[i]? = some w) (hworks : s.Works i step w w') :
      Moves s step { s with
        workers := s.workers.set i w', core := core, reads := s.readsAfter w' }
  | finish {i : Nat} {w : Worker P D} {task : Task P} {ok : Bool} {jitter : Int}
      (hw : s.workers[i]? = some w) (htask : w.task? = some task)
      (hok : ok = true → ∃ rest, w = .confirmed task rest) :
      Moves s (.finish i ok jitter) (s.finished i task w.waiting ok jitter)
  | die {i : Nat} {w : Worker P D} (hw : s.workers[i]? = some w) :
      Moves s (.die i) { s with workers := s.workers.set i .gone }

theorem claimable_of_mem_select {now : Int} {locked : List Nat} {limit : Nat} {rows : Table P}
    {e : Nat × Nat} (h : e ∈ rows.select now locked limit) :
    (rows.get? e.1).any (OutboxRow.claimable now) := by
  obtain ⟨entry, hentry, rfl⟩ := List.mem_map.mp h
  have hdue : entry ∈ rows.entries ∧ entry.2.claimable now := by
    rcases List.mem_append.mp (List.mem_of_mem_take hentry) with hmem | hmem
    · have hfilter := List.mem_filter.mp (List.mem_filter.mp hmem).1
      exact ⟨hfilter.1, (of_decide_eq_true hfilter.2).1⟩
    · have hfilter := List.mem_filter.mp (List.mem_filter.mp hmem).1
      exact ⟨hfilter.1, (of_decide_eq_true hfilter.2).1⟩
  rw [Dict.get?_eq_some_iff.mpr hdue.1]
  exact hdue.2

theorem claimable_of_mem_taken {s : Outbox P D C} {step : OutboxStep P D} {e : Nat × Nat}
    (h : e ∈ s.taken step) : (s.rows.get? e.1).any (OutboxRow.claimable s.now) := by
  cases step with
  | claimPostgres | selectGeneric => exact claimable_of_mem_select h
  | _ => cases h

theorem soundCaller_found {s : Outbox P D C} {key : OutboxKey} {payload : Option P}
    {first : Option Nat}
    (h : first.all fun id => (s.rows.get? id).any (OutboxRow.joinable key)) :
    s.SoundCaller (.found key payload first) := by
  cases first with
  | none => trivial
  | some id =>
    obtain ⟨row, hrow, hjoinable⟩ := (Option.any_eq_true _ _).mp h
    exact ⟨row, hrow, (of_decide_eq_true hjoinable).1⟩

theorem finish_of_move {effects : Effects P D C} {s s' : Outbox P D C} {i : Nat} {ok : Bool}
    {jitter : Int} (h : s.move effects (.finish i ok jitter) = some s') :
    ∃ w task, s.workers[i]? = some w ∧ w.task? = some task ∧
      (ok = true → ∃ rest, w = .confirmed task rest) ∧
      s' = s.finished i task w.waiting ok jitter := by
  have hraised : ∀ {w task}, s.workers[i]? = some w → w.task? = some task →
      (if ok = true then none else some (s.finished i task w.waiting false jitter)) = some s' →
      ∃ w task, s.workers[i]? = some w ∧ w.task? = some task ∧
        (ok = true → ∃ rest, w = .confirmed task rest) ∧
        s' = s.finished i task w.waiting ok jitter := by
    intro w task hw htask hs'
    cases ok with
    | true => cases hs'
    | false =>
      refine ⟨w, task, hw, htask, fun hfalse => absurd hfalse Bool.false_ne_true, ?_⟩
      exact (Option.some.inj hs').symm
  cases hw : s.workers[i]? with
  | none =>
    rw [move, hw] at h
    cases h
  | some w =>
    simp only [move, hw] at h
    cases w with
    | confirmed task rest =>
      cases h
      exact ⟨_, task, rfl, rfl, fun _ => ⟨rest, rfl⟩, rfl⟩
    | loaded | applying | applied | confirming =>
      have hinv := hraised hw rfl h
      rw [hw] at hinv
      exact hinv
    | selected | between | gone => cases h

theorem moves_of_move {effects : Effects P D C} {s s' : Outbox P D C} {step : OutboxStep P D}
    (h : s.move effects step = some s') : s.Moves step s' := by
  cases step with
  | tick seconds =>
    cases h
    exact .quiet _ s.db s.callers fun c hc => .inl hc
  | change db key payload =>
    cases h
    refine .quiet s.now db _ fun c hc => ?_
    rcases List.mem_append.mp hc with hold | hnew
    · exact .inl hold
    · rw [List.mem_singleton.mp hnew]
      exact .inr trivial
  | find j first =>
    simp only [move] at h
    split at h
    · next key payload hcaller =>
        split at h
        · next hfirst =>
            cases h
            refine .quiet s.now s.db _ fun c hc => ?_
            rcases List.mem_or_eq_of_mem_set hc with hold | rfl
            · exact .inl hold
            · exact .inr (soundCaller_found hfirst.1)
        · cases h
    · cases h
  | enqueue j =>
    simp only [move] at h
    split at h
    · next hcaller =>
        cases h
        exact .enqueue hcaller
    · cases h
  | reclaimStale =>
    cases h
    exact .reclaim
  | claimPostgres locked limit =>
    cases h
    exact .claim _ (fun e he => .inr he) (.inl rfl)
  | selectGeneric limit =>
    cases h
    exact .select limit
  | claimGeneric i =>
    simp only [move] at h
    split at h
    · next selected hw =>
        cases h
        refine .claim selected (fun e _ => .inl ⟨_, List.mem_of_getElem? hw, rfl⟩) ?_
        exact .inr ⟨i, hw, rfl⟩
    · cases h
  | load i =>
    simp only [move] at h
    split at h
    · next id rest hw =>
        split at h
        · next row hrow =>
            cases h
            exact .work s.core hw (.load hrow)
        · next hrow =>
            cases h
            exact .work s.core hw (.skip hrow)
    · cases h
  | readForApply i =>
    simp only [move] at h
    split at h
    · next hw =>
        cases h
        exact .work s.core hw .readForApply
    · cases h
  | apply i reached =>
    simp only [move] at h
    split at h
    · next hw =>
        cases h
        exact .work _ hw .apply
    · cases h
  | readForConfirm i =>
    simp only [move] at h
    split at h
    · next hw =>
        cases h
        exact .work s.core hw .readForConfirm
    · cases h
  | confirm i reached =>
    simp only [move] at h
    split at h
    · next hw =>
        cases h
        exact .work _ hw .confirm
    · cases h
  | finish i ok jitter =>
    obtain ⟨w, task, hw, htask, hok, rfl⟩ := finish_of_move h
    exact .finish hw htask hok
  | die i =>
    simp only [move] at h
    split at h
    · next hi =>
        cases h
        exact .die (List.getElem?_eq_getElem hi)
    · cases h

end Outbox

end Shahkar.Sync
