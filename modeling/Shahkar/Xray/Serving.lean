import Shahkar.Lib.Transition
import Shahkar.Xray.Config

/-!
The panel's own core and what keeps it in line with the database (`app/xray/serving.py`). Since the
core's API cannot list users, a *registry* in memory records what has been pushed; it is rebuilt
whenever the core's generation has changed.
-/

namespace Shahkar.Xray

open Shahkar.Db Shahkar.Lib

/-!
### The core
-/

structure LiveUser where
  credentials : Credentials
  flow : XtlsFlow
  level : Nat
  deriving Repr, DecidableEq

def Account.live (a : Account) : LiveUser := ⟨a.credentials, a.flow.getD .none, a.level⟩

def Client.live (c : Client) : LiveUser := ⟨c.credentials, c.flow.getD .none, c.level.getD 0⟩

def Config.bootEntries (config : Config) : List ((Tag × Email) × LiveUser) :=
  config.inbounds.flatMap fun i =>
    (i.clients.filter fun c => c.email ≠ "").map fun c => ((i.tag, c.email), c.live)

def Config.bootUsers (config : Config) : Dict (Tag × Email) LiveUser :=
  config.bootEntries.foldl (fun d e => d.set e.1 e.2) .empty

structure Core where
  started : Bool
  generation : Nat
  lastConfig : Option Config
  users : Dict (Tag × Email) LiveUser

namespace Core

def init : Core := ⟨false, 0, none, .empty⟩

def boot (core : Core) (config : Config) : Core where
  started := true
  generation := core.generation + 1
  lastConfig := some config
  users := config.bootUsers

def stop (core : Core) : Core := { core with started := false, users := .empty }

def hasTag (core : Core) (tag : Tag) : Bool :=
  core.lastConfig.any fun config => (config.getInbound tag).isSome

end Core

/-!
### The registry
-/

/-- The state of the module: `xray.config`, the core, `_registered` as a set of pairs, and
`_registry_generation`. -/
structure Serving where
  config : Config
  core : Core
  registered : List (Tag × Email)
  registryGeneration : Option Nat

inductive ApiCall
  | add (tag : Tag) (account : Account)
  | remove (tag : Tag) (email : Email)
  deriving Repr, DecidableEq

def ApiCall.tag : ApiCall → Tag
  | .add tag _ | .remove tag _ => tag

def ApiCall.key : ApiCall → Tag × Email
  | .add tag account => (tag, account.email)
  | .remove tag email => (tag, email)

def ApiCall.result : ApiCall → Option LiveUser
  | .add _ account => some account.live
  | .remove _ _ => none

/-- What happens to a call: the core may have been replaced before it, and it is reached or there is
a connection error. -/
structure Reply where
  restart : Option Config := none
  reached : Bool := true

namespace Serving

variable (s : Serving)

def findInbound (tag : Tag) : Option Inbound :=
  (s.config.inboundsByTag tag).or (s.core.lastConfig.bind fun config => config.getInbound tag)

def supportsHotSync (tag : Tag) : Bool :=
  (s.findInbound tag).any fun i => i.protocol ≠ some .shadowsocks ∨ ¬ i.is2022

def requiresRestartOnChange (tag : Tag) : Bool :=
  (s.findInbound tag).any fun i => i.protocol = some .shadowsocks ∧ i.is2022

def ensureRegistryCurrent : Serving :=
  if s.registryGeneration = some s.core.generation then s else
    { s with
      registered := (s.core.lastConfig.map fun config => config.bootEntries.map Prod.fst).getD []
      registryGeneration := some s.core.generation }

def restart (booted : Config) : Serving := { s with core := s.core.boot booted }

def apiAddUser (tag : Tag) (account : Account) (reached : Bool) : Serving × Option Raised :=
  let key := (tag, account.email)
  let recorded := { s with registered := s.registered.insert key }
  if account.is2022 then (s, some .noMessage)
  else if ¬ reached then (recorded, none)
  else if ¬ s.core.hasTag tag then (s, some .tagNotFound)
  else if (s.core.users.get? key).isSome then (recorded, none)
  else ({ recorded with core := { s.core with users := s.core.users.set key account.live } }, none)

inductive Adds (s : Serving) (tag : Tag) (account : Account) (reached : Bool) :
    Serving × Option Raised → Prop
  | raises (e : Raised) : Adds s tag account reached (s, some e)
  | records (hsome : reached → (s.core.users.get? (tag, account.email)).isSome) :
      Adds s tag account reached
        ({ s with registered := s.registered.insert (tag, account.email) }, none)
  | adds (htag : s.core.hasTag tag) (hnone : s.core.users.get? (tag, account.email) = none) :
      Adds s tag account reached
        ({ s with
          registered := s.registered.insert (tag, account.email)
          core := { s.core with
            users := s.core.users.set (tag, account.email) account.live } }, none)

theorem adds_apiAddUser (tag : Tag) (account : Account) (reached : Bool) :
    Adds s tag account reached (s.apiAddUser tag account reached) := by
  unfold apiAddUser
  by_cases h2022 : account.is2022
  · rw [if_pos h2022]
    exact .raises _
  rw [if_neg h2022]
  by_cases hreached : reached
  · rw [if_neg (not_not_intro hreached)]
    by_cases htag : s.core.hasTag tag
    · rw [if_neg (not_not_intro htag)]
      by_cases hsome : (s.core.users.get? (tag, account.email)).isSome
      · rw [if_pos hsome]
        exact .records fun _ => hsome
      · rw [if_neg hsome]
        exact .adds htag (by simpa using hsome)
    · rw [if_pos htag]
      exact .raises _
  · rw [if_pos hreached]
    exact .records fun h => absurd h hreached

def apiRemoveUser (tag : Tag) (email : Email) (reached : Bool) : Serving :=
  let discarded := { s with registered := s.registered.filter fun k => k ≠ (tag, email) }
  if reached then
    { discarded with core := { s.core with users := s.core.users.erase (tag, email) } }
  else discarded

def send (call : ApiCall) (reached : Bool) : Serving × Option Raised :=
  if ¬ s.supportsHotSync call.tag then (s, none) else
  match call with
  | .add tag account => s.apiAddUser tag account (reached && s.core.started)
  | .remove tag email => (s.apiRemoveUser tag email (reached && s.core.started), none)

def attempt (call : ApiCall) (reply : Reply) : Serving × Option Raised :=
  match reply.restart with
  | some booted => (s.restart booted).send call reply.reached
  | none => s.send call reply.reached

def perform (s : Serving) : List ApiCall → List Reply → Serving × Option Raised
  | [], _ => (s, none)
  | call :: rest, replies =>
    match s.attempt call (replies.headD {}) with
    | (s', none) => s'.perform rest replies.tail
    | (s', some e) => (s', some e)

end Serving

structure Desired where
  accounts : Dict (Tag × Email) Account
  keyed : ∀ e ∈ accounts.entries, e.1.2 = e.2.email

namespace Desired

def empty : Desired := ⟨.empty, fun e he => by cases he⟩

def add (d : Desired) (entry : Tag × Account) : Desired where
  accounts := d.accounts.set (entry.1, entry.2.email) entry.2
  keyed := by
    intro e he
    rcases Dict.mem_entries_set he with rfl | hold
    · rfl
    · exact d.keyed e hold

def emails (d : Desired) : List Email := d.accounts.keys.map Prod.snd

end Desired

def desiredAccounts (config : Config) (u : DbUser) : List (Tag × Account) × Option Raised :=
  collect (((u.visits config).filter fun v => ¬ u.isXrayProxyHeld v.1).map fun v =>
    tagged v.2 (accountForInbound config u v.1 v.2))

theorem mem_desiredAccounts {config : Config} {u : DbUser} {e : Tag × Account}
    (h : e ∈ (desiredAccounts config u).1) :
    e.2.email = u.email ∧ e.2.level = if u.speedLimited then u.level else 0 := by
  obtain ⟨v, -, hv⟩ := List.mem_map.mp (mem_collect h)
  exact accountForInbound_eq_some (tagged_eq_ok_some hv).2

def Desired.addUsers (config : Config) (d : Desired) : List DbUser → Except Raised Desired
  | [] => .ok d
  | u :: rest =>
    match desiredAccounts config u with
    | (_, some e) => .error e
    | (accounts, none) => Desired.addUsers config (accounts.foldl Desired.add d) rest

namespace Serving

variable (s : Serving)

def hotAccounts (u : DbUser) : List (Tag × Account) × Option Raised :=
  collect (((u.visits s.config).filter fun v =>
      ¬ u.isXrayProxyHeld v.1 ∧ s.supportsHotSync v.2).map fun v =>
    tagged v.2 (accountForInbound s.config u v.1 v.2))

theorem mem_hotAccounts {s : Serving} {u : DbUser} {e : Tag × Account}
    (h : e ∈ (s.hotAccounts u).1) :
    e.2.email = u.email ∧ e.2.level = if u.speedLimited then u.level else 0 := by
  obtain ⟨v, -, hv⟩ := List.mem_map.mp (mem_collect h)
  exact accountForInbound_eq_some (tagged_eq_ok_some hv).2

def iterUserHotAccounts (u : DbUser) : List (Tag × Account) × Option Raised :=
  if u.status.billable then
    ((s.hotAccounts u).1.filter fun e => ¬ e.2.is2022, (s.hotAccounts u).2)
  else ([], none)

def coreUserDiffRequiresRestart (desired : Desired) : Bool :=
  (desired.accounts.keys.any fun k => s.requiresRestartOnChange k.1 ∧ k ∉ s.registered) ||
  (s.registered.any fun k => s.requiresRestartOnChange k.1 ∧ k ∉ desired.accounts.keys)

def hotSyncCalls (desired : Desired) : List ApiCall :=
  (desired.accounts.entries.filter fun e => e.1 ∉ s.registered).map
    (fun e => .add e.1.1 e.2) ++
  (s.registered.filter fun k => k ∉ desired.accounts.keys).map fun k => .remove k.1 k.2

def disconnectCalls (emails : List Email) : List ApiCall :=
  (s.registered.filter fun k => k.2 ∈ emails).map fun k => .remove k.1 k.2

def syncCalls (u : DbUser) : List ApiCall × Option Raised :=
  ((s.hotAccounts u).1.flatMap fun e => [.remove e.1 u.email, .add e.1 e.2], (s.hotAccounts u).2)

def hotSync (desired : Desired) (replies : List Reply) : Serving × Except Raised Bool :=
  let s := s.ensureRegistryCurrent
  if s.coreUserDiffRequiresRestart desired then (s, .ok false) else
  match s.perform (s.hotSyncCalls desired) replies with
  | (s', none) => (s', .ok true)
  | (s', some e) => (s', .error e)

def hotDisconnect (emails : List Email) (replies : List Reply) : Serving × Except Raised Bool :=
  let s := s.ensureRegistryCurrent
  match s.perform (s.disconnectCalls emails) replies with
  | (s', none) => (s', .ok true)
  | (s', some e) => (s', .error e)

def syncUser (u : DbUser) (replies : List Reply) : Serving × Except Raised Bool :=
  let s := s.ensureRegistryCurrent
  match s.perform (s.syncCalls u).1 replies with
  | (s', none) => (s', (s.syncCalls u).2.elim (.ok true) .error)
  | (s', some e) => (s', .error e)

end Serving

structure UserTable where
  rows : List DbUser
  sorted : rows.Pairwise fun u v => u.id < v.id

def batchSize : Nat := 500

def UserTable.batch (users : UserTable) (lastId : Nat) : List DbUser :=
  (users.rows.filter fun u => u.status.billable ∧ lastId < u.id).take batchSize

def UserTable.serves (users : UserTable) (email : Email) : Bool :=
  users.rows.any fun u => u.email = email ∧ u.status.billable

/-- A call in one of the panel's threads. -/
inductive Task
  | reading (desired : Desired) (lastId : Nat)
  | built (desired : Desired)
  | disconnecting (emails : List Email)
  | syncing (user : DbUser)
  | returned (result : Except Raised Bool)

def Task.desired? : Task → Option Desired
  | .reading desired _ | .built desired => some desired
  | _ => none

def Task.succeeded : Task → Bool
  | .returned (.ok b) => b
  | _ => false

/-- The database, the module's state and the calls that have been made. -/
structure Panel where
  users : UserTable
  serving : Serving
  tasks : List Task

inductive ServingStep
  | commit (users : UserTable)
  | configure (config : Config)
  | stop
  | restart (booted : Config)
  | hotSync (alive : Bool)
  | disconnect (users : List DbUser) (alive : Bool)
  | syncUser (user : DbUser) (alive : Bool)
  | read (t : Nat)
  | underLock (t : Nat) (replies : List Reply)

namespace Panel

def init (users : UserTable) (config : Config) : Panel where
  users := users
  serving := ⟨config, .init, [], none⟩
  tasks := []

def startDisconnect (p : Panel) (users : List DbUser) (alive : Bool) : Task :=
  if users.isEmpty then .returned (.ok true)
  else if ¬ p.serving.core.started ∨ ¬ alive then .returned (.ok false)
  else .disconnecting (users.map DbUser.email)

def startSync (p : Panel) (user : DbUser) (alive : Bool) : Task :=
  if ¬ user.status.billable then p.startDisconnect [user] alive
  else if ¬ p.serving.core.started then .returned (.ok true)
  else .syncing user

def readBatch (p : Panel) (desired : Desired) (lastId : Nat) : Task :=
  match (p.users.batch lastId).getLast? with
  | none => .built desired
  | some last =>
    match desired.addUsers p.serving.config (p.users.batch lastId) with
    | .ok desired' => .reading desired' last.id
    | .error e => .returned (.error e)

def runLocked (p : Panel) (replies : List Reply) : Task → Option (Serving × Except Raised Bool)
  | .built desired => some (p.serving.hotSync desired replies)
  | .disconnecting emails => some (p.serving.hotDisconnect emails replies)
  | .syncing user => some (p.serving.syncUser user replies)
  | .reading _ _ | .returned _ => none

/-- A commit, a boot, or one part of a call; what is done under `_hot_lock` is one step. -/
def step (p : Panel) : ServingStep → Option Panel
  | .commit users => some { p with users }
  | .configure config => some { p with serving := { p.serving with config } }
  | .stop => some { p with serving := { p.serving with core := p.serving.core.stop } }
  | .restart booted => some { p with serving := p.serving.restart booted }
  | .hotSync alive =>
    let task := if ¬ p.serving.core.started ∨ ¬ alive then .returned (.ok false)
      else .reading .empty 0
    some { p with tasks := p.tasks ++ [task] }
  | .disconnect users alive => some { p with tasks := p.tasks ++ [p.startDisconnect users alive] }
  | .syncUser user alive => some { p with tasks := p.tasks ++ [p.startSync user alive] }
  | .read t =>
    match p.tasks[t]? with
    | some (.reading desired lastId) =>
      some { p with tasks := p.tasks.set t (p.readBatch desired lastId) }
    | _ => none
  | .underLock t replies =>
    (p.tasks[t]?).bind fun task => (p.runLocked replies task).map fun result =>
      { p with serving := result.1, tasks := p.tasks.set t (.returned result.2) }

end Panel

def Task.calls (s : Serving) : Task → List ApiCall
  | .built desired => s.hotSyncCalls desired
  | .disconnecting emails => s.disconnectCalls emails
  | .syncing user => (s.syncCalls user).1
  | .reading _ _ | .returned _ => []

theorem Panel.runLocked_eq {p : Panel} {replies : List Reply} {task : Task}
    {result : Serving × Except Raised Bool} (h : p.runLocked replies task = some result) :
    ∃ calls, calls ⊆ task.calls p.serving.ensureRegistryCurrent ∧
      result.1 = (p.serving.ensureRegistryCurrent.perform calls replies).1 := by
  cases task with
  | reading desired lastId => cases h
  | returned r => cases h
  | built desired =>
    cases h
    unfold Serving.hotSync
    dsimp only
    split
    · exact ⟨[], List.nil_subset _, rfl⟩
    · refine ⟨p.serving.ensureRegistryCurrent.hotSyncCalls desired, List.Subset.refl _, ?_⟩
      split
      · next hperform => exact (congrArg Prod.fst hperform).symm
      · next hperform => exact (congrArg Prod.fst hperform).symm
  | disconnecting emails =>
    cases h
    unfold Serving.hotDisconnect
    refine ⟨p.serving.ensureRegistryCurrent.disconnectCalls emails, List.Subset.refl _, ?_⟩
    dsimp only
    split
    · next hperform => exact (congrArg Prod.fst hperform).symm
    · next hperform => exact (congrArg Prod.fst hperform).symm
  | syncing user =>
    cases h
    unfold Serving.syncUser
    refine ⟨(p.serving.ensureRegistryCurrent.syncCalls user).1, List.Subset.refl _, ?_⟩
    dsimp only
    split
    · next hperform => exact (congrArg Prod.fst hperform).symm
    · next hperform => exact (congrArg Prod.fst hperform).symm

theorem Serving.perform_invariant {s : Serving} {P : Serving → Prop} {Q : Reply → Prop}
    {calls : List ApiCall} {replies : List Reply} (hdefault : Q {})
    (hreplies : ∀ reply ∈ replies, Q reply)
    (hstep : ∀ s, ∀ call ∈ calls, ∀ reply, Q reply → P s → P (s.attempt call reply).1)
    (h : P s) : P (s.perform calls replies).1 := by
  induction calls generalizing s replies with
  | nil => exact h
  | cons call rest ih =>
    have hhead : Q (replies.headD {}) := by
      cases replies with
      | nil => exact hdefault
      | cons reply _ => exact hreplies reply List.mem_cons_self
    have hnext := hstep s call List.mem_cons_self _ hhead h
    rw [perform]
    split
    · next s₁ hattempt =>
        rw [hattempt] at hnext
        exact ih (fun reply hreply => hreplies reply (List.mem_of_mem_tail hreply))
          (fun s call hcall => hstep s call (List.mem_cons_of_mem _ hcall)) hnext
    · next s₁ e hattempt =>
        rw [hattempt] at hnext
        exact hnext

def exampleInbound : Inbound := { tag := "in", protocol := some .vless }

theorem get?_set_allStats :
    (Dict.empty.set 0 LevelPolicy.allStats).get? 0 = some LevelPolicy.allStats := rfl

def exampleConfig : Config where
  inbounds := [exampleInbound]
  levels := Dict.empty.set 0 .allStats
  tags_nodup := List.nodup_singleton _
  forced := get?_set_allStats

def exampleUser (id : Nat) (username : String) (status : UserStatus) : DbUser where
  username := username
  status := status
  id := id
  proxies := [⟨.vless "11111111-2222-4333-8444-555555555555" .none, []⟩]
  types_nodup := by decide

def exampleUsers (status : UserStatus) : UserTable where
  rows := [exampleUser 1 "ali" status, exampleUser 2 "sara" .active]
  sorted := by simp [exampleUser]

def limitedUser : DbUser := { exampleUser 1 "ali" .active with speedLimitDown := some 10 }

end Shahkar.Xray
