import Shahkar.Lib.Text
import Shahkar.Xray.Serving

/-!
# Policy levels of served accounts

The level of an account is made of the user's id wherever an account is built; the policy of a level
is written at boot only. In which histories every account of the core has a level it counts.
-/

namespace Shahkar.Xray

open Shahkar.Db Shahkar.Lib

/-!
### Emails
-/

theorem DbUser.id_of_email {u v : DbUser} (h : u.email = v.email) : u.id = v.id := by
  have hchars : ∀ w : DbUser, w.email.toList =
      (toString w.id).toList ++ '.' :: w.username.toList := by
    intro w
    change (toString w.id ++ "." ++ w.username).toList = _
    simp
  have hdot : Char.isDigit '.' = false := by decide
  exact (Text.decimal_append_inj hdot (by rw [← hchars u, ← hchars v, h])).1

/-!
### Levels
-/

def Config.meters (config : Config) (level : Nat) : Bool :=
  (config.levels.get? level).any fun policy => policy.statsUserUplink && policy.statsUserDownlink

theorem Config.meters_zero (config : Config) : config.meters 0 := by
  unfold Config.meters
  rw [config.forced]
  rfl

def OwnLevel (email : Email) (level : Nat) : Prop :=
  level = 0 ∨ ∃ u : DbUser, u.email = email ∧ level = u.level

/-- The level that a row with a speed limit gives to its account. -/
def LevelOf (rows : List DbUser) (email : Email) (level : Nat) : Prop :=
  level = 0 ∨ ∃ u ∈ rows, u.speedLimited ∧ u.email = email ∧ level = u.level

variable {rows : List DbUser} {u : DbUser} {email : Email} {level : Nat}

theorem LevelOf.own (h : LevelOf rows email level) : OwnLevel email level :=
  h.imp_right fun ⟨u, _, _, hemail, hlevel⟩ => ⟨u, hemail, hlevel⟩

theorem LevelOf.mono {rows' : List DbUser} (hsub : rows ⊆ rows') (h : LevelOf rows email level) :
    LevelOf rows' email level :=
  h.imp_right fun ⟨u, hu, hlimited⟩ => ⟨u, hsub hu, hlimited⟩

theorem levelOf_of_limited (hu : u ∈ rows) (hemail : email = u.email)
    (hlevel : level = if u.speedLimited then u.level else 0) : LevelOf rows email level := by
  cases hlimited : u.speedLimited with
  | false =>
    rw [hlimited] at hlevel
    exact .inl hlevel
  | true =>
    rw [hlimited] at hlevel
    exact .inr ⟨u, hu, hlimited, hemail.symm, hlevel⟩

/-!
### The configuration a core boots with
-/

theorem get?_levels_of_mem {users : List DbUser} {levels : Dict Nat LevelPolicy} {level : Nat}
    (h : (∃ u ∈ users, u.level = level) ∨ levels.get? level = some .allStats) :
    (users.foldl (fun d u => d.set u.level .allStats) levels).get? level = some .allStats := by
  induction users generalizing levels with
  | nil =>
    rcases h with ⟨u, hu, -⟩ | h
    · cases hu
    · exact h
  | cons u rest ih =>
    refine ih ?_
    rw [Dict.get?_set]
    by_cases hu : level = u.level
    · exact .inr (if_pos hu)
    · rw [if_neg hu]
      refine h.imp_left ?_
      rintro ⟨v, hv, hlevel⟩
      rcases List.mem_cons.mp hv with rfl | hrest
      · exact absurd hlevel.symm hu
      · exact ⟨v, hrest, hlevel⟩

theorem clientFor_eq_some {i : Inbound} {u : DbUser} {p : Proxy} {c : Client}
    (h : clientFor i u p = some c) :
    c.email = u.email ∧ c.level = if u.speedLimited then some u.level else none := by
  unfold clientFor at h
  split at h
  · cases h
  · split at h
    · cases h
    · obtain ⟨credentials, -, rfl⟩ := Option.map_eq_some_iff.mp h
      exact ⟨rfl, rfl⟩

theorem bootClient_eq_some {i : Inbound} {u : DbUser} {c : Client} (h : bootClient i u = some c) :
    (c.email = u.email ∧ c.level = if u.speedLimited then some u.level else none) ∧
      (u.speedLimited → hasLevel u) := by
  unfold bootClient at h
  split at h
  · cases h
  · cases h
  · next type _ _ =>
      split at h
      · next hserved =>
          obtain ⟨p, hp, hclient⟩ := Option.bind_eq_some_iff.mp h
          refine ⟨clientFor_eq_some hclient, fun hlimited => ?_⟩
          unfold hasLevel
          rw [hserved.2.1, hlimited]
          exact List.any_eq_true.mpr ⟨p, List.mem_of_find?_eq_some hp, rfl⟩
      · cases h

/-- A configuration made by `include_db_users`, whose own clients carry no level. -/
def FromDb (booted : Config) : Prop :=
  ∃ base users, booted = Config.includeDbUsers base users ∧
    ∀ i ∈ base.inbounds, ∀ c ∈ i.clients, c.level = none

/-- The table that the configuration was made of has the user with a speed limit. -/
def Config.Levels (booted : Config) (u : DbUser) : Prop :=
  ∃ base users, booted = Config.includeDbUsers base users ∧
    ∃ v ∈ users, v.id = u.id ∧ hasLevel v

theorem Config.Levels.meters {booted : Config} (h : booted.Levels u) : booted.meters u.level := by
  obtain ⟨base, users, rfl, v, hv, hid, hhas⟩ := h
  have hlevel : v.level = u.level := congrArg (fun id => id % 9000 + 100) hid
  have hget : (base.includeDbUsers users).levels.get? u.level = some .allStats :=
    get?_levels_of_mem (.inl ⟨v, List.mem_filter.mpr ⟨hv, hhas⟩, hlevel⟩)
  unfold Config.meters
  rw [hget]
  rfl

theorem meters_of_fromDb {booted : Config} (h : FromDb booted) {k : Tag × Email} {user : LiveUser}
    (hget : booted.bootUsers.get? k = some user) :
    OwnLevel k.2 user.level ∧ booted.meters user.level := by
  obtain ⟨base, users, rfl, hbase⟩ := h
  have hmem := (Dict.mem_of_get?_foldl_set hget).resolve_right (by simp)
  obtain ⟨i', hi', hentry⟩ := List.mem_flatMap.mp hmem
  obtain ⟨i, hi, rfl⟩ := List.mem_map.mp hi'
  obtain ⟨c, hc, hkey⟩ := List.mem_map.mp hentry
  cases hkey
  rcases List.mem_append.mp (List.mem_of_mem_filter hc) with hstatic | hclient
  · have hlevel : c.live.level = 0 := by
      unfold Client.live
      rw [hbase i hi c hstatic]
      rfl
    rw [hlevel]
    exact ⟨.inl rfl, Config.meters_zero _⟩
  · obtain ⟨u, hu, hboot⟩ := List.mem_filterMap.mp hclient
    obtain ⟨⟨hemail, hlevel⟩, hhas⟩ := bootClient_eq_some hboot
    have hlive : c.live.level = if u.speedLimited then u.level else 0 := by
      unfold Client.live
      rw [hlevel]
      cases u.speedLimited <;> rfl
    refine ⟨(levelOf_of_limited hu hemail hlive).own, ?_⟩
    cases hlimited : u.speedLimited with
    | false =>
      rw [hlive, hlimited]
      exact Config.meters_zero _
    | true =>
      rw [hlive, hlimited]
      exact Config.Levels.meters ⟨base, users, rfl, u, hu, rfl, hhas hlimited⟩

def DbUser.limits (u : DbUser) : Option Int × Option Int :=
  (u.speedLimitUp.filter (· ≠ 0), u.speedLimitDown.filter (· ≠ 0))

def UserTable.levelsApart (users : UserTable) : Bool :=
  users.rows.all fun u => users.rows.all fun v => u.level = v.level → u.limits = v.limits

def Serving.Metered (s : Serving) : Prop :=
  ∀ k user, s.core.users.get? k = some user → OwnLevel k.2 user.level ∧
    ∃ booted, s.core.lastConfig = some booted ∧ booted.meters user.level

def Desired.LevelledBy (rows : List DbUser) (d : Desired) : Prop :=
  ∀ e ∈ d.accounts.entries, LevelOf rows e.2.email e.2.level

theorem Desired.levelledBy_foldl_add {accounts : List (Tag × Account)} {d : Desired}
    (hd : d.LevelledBy rows) (haccounts : ∀ e ∈ accounts, LevelOf rows e.2.email e.2.level) :
    (accounts.foldl Desired.add d).LevelledBy rows := by
  induction accounts generalizing d with
  | nil => exact hd
  | cons e rest ih =>
    refine ih ?_ fun e' he' => haccounts e' (List.mem_cons_of_mem _ he')
    intro e' he'
    rcases Dict.mem_entries_set he' with rfl | hold
    · exact haccounts e List.mem_cons_self
    · exact hd e' hold

theorem Desired.levelledBy_addUsers {config : Config} {users : List DbUser} {d d' : Desired}
    (hd : d.LevelledBy rows) (husers : users ⊆ rows)
    (h : Desired.addUsers config d users = .ok d') : d'.LevelledBy rows := by
  induction users generalizing d with
  | nil =>
    cases h
    exact hd
  | cons u rest ih =>
    obtain ⟨hu, hrest⟩ := List.cons_subset.mp husers
    rw [addUsers] at h
    split at h
    · cases h
    · next accounts hacc =>
        refine ih (levelledBy_foldl_add hd fun e he => ?_) hrest h
        have hmem : e ∈ (desiredAccounts config u).1 := by
          rw [hacc]
          exact he
        obtain ⟨hemail, hlevel⟩ := mem_desiredAccounts hmem
        exact levelOf_of_limited hu hemail hlevel

/-- What a thread is about to add comes from rows it has read. -/
def Task.ReadFrom (rows : List DbUser) : Task → Prop
  | .reading desired _ | .built desired => desired.LevelledBy rows
  | .syncing user => user ∈ rows
  | .disconnecting _ | .returned _ => True

theorem Task.ReadFrom.mono {rows' : List DbUser} (hsub : rows ⊆ rows') {task : Task}
    (h : task.ReadFrom rows) : task.ReadFrom rows' := by
  cases task with
  | reading desired _ | built desired => exact fun e he => (h e he).mono hsub
  | syncing user => exact hsub h
  | disconnecting | returned => trivial

def ApiCall.added? : ApiCall → Option Account
  | .add _ account => some account
  | .remove _ _ => none

theorem levelOf_of_added {s : Serving} {task : Task} {call : ApiCall} {account : Account}
    (htask : task.ReadFrom rows) (hcall : call ∈ task.calls s)
    (hadded : call.added? = some account) : LevelOf rows account.email account.level := by
  cases task with
  | built desired =>
    rcases List.mem_append.mp hcall with hadd | hremove
    · obtain ⟨e, he, rfl⟩ := List.mem_map.mp hadd
      cases hadded
      exact htask e (List.mem_of_mem_filter he)
    · obtain ⟨k, -, rfl⟩ := List.mem_map.mp hremove
      cases hadded
  | disconnecting emails =>
    obtain ⟨k, -, rfl⟩ := List.mem_map.mp hcall
    cases hadded
  | syncing u =>
    obtain ⟨e, he, hmem⟩ := List.mem_flatMap.mp hcall
    rcases List.mem_cons.mp hmem with rfl | hmem
    · cases hadded
    · obtain rfl := List.mem_singleton.mp hmem
      cases hadded
      obtain ⟨hemail, hlevel⟩ := Serving.mem_hotAccounts he
      exact levelOf_of_limited htask hemail hlevel
  | reading | returned => cases hcall

namespace Serving

variable {s : Serving}

theorem metered_restart {booted : Config} (h : FromDb booted) : (s.restart booted).Metered := by
  intro k user huser
  obtain ⟨hown, hmeters⟩ := meters_of_fromDb h huser
  exact ⟨hown, booted, rfl, hmeters⟩

theorem metered_apiAddUser (h : s.Metered) {account : Account} (tag : Tag) (reached : Bool)
    (hown : OwnLevel account.email account.level)
    (hmeters : ∀ booted, s.core.lastConfig = some booted → booted.meters account.level) :
    (s.apiAddUser tag account reached).1.Metered ∧
      (s.apiAddUser tag account reached).1.core.lastConfig = s.core.lastConfig := by
  have hadds := adds_apiAddUser s tag account reached
  generalize s.apiAddUser tag account reached = result at hadds ⊢
  cases hadds with
  | raises e => exact ⟨h, rfl⟩
  | records hsome => exact ⟨h, rfl⟩
  | adds htag hnone =>
    refine ⟨fun k user huser => ?_, rfl⟩
    have hget := Dict.get?_set s.core.users (tag, account.email) k account.live
    rw [show (s.core.users.set (tag, account.email) account.live).get? k = some user from huser]
      at hget
    split_ifs at hget with hk
    · cases hget
      rw [hk]
      -- the core has an inbound of the tag, so it has booted
      obtain ⟨booted, hbooted, -⟩ := (Option.any_eq_true _ _).mp htag
      exact ⟨hown, booted, hbooted, hmeters booted hbooted⟩
    · exact h k user hget.symm

theorem metered_apiRemoveUser (h : s.Metered) (tag : Tag) (email : Email) (reached : Bool) :
    (s.apiRemoveUser tag email reached).Metered ∧
      (s.apiRemoveUser tag email reached).core.lastConfig = s.core.lastConfig := by
  unfold apiRemoveUser
  split
  · refine ⟨fun k user huser => ?_, rfl⟩
    have hget := Dict.get?_erase s.core.users (tag, email) k
    rw [show (s.core.users.erase (tag, email)).get? k = some user from huser] at hget
    split_ifs at hget with hk
    exact h k user hget.symm
  · exact ⟨h, rfl⟩

theorem metered_send {configs : List Config} (h : s.Metered)
    (hin : ∀ booted, s.core.lastConfig = some booted → booted ∈ configs) {call : ApiCall}
    (hcall : ∀ account, call.added? = some account → OwnLevel account.email account.level ∧
      ∀ booted ∈ configs, booted.meters account.level) (reached : Bool) :
    (s.send call reached).1.Metered ∧
      ∀ booted, (s.send call reached).1.core.lastConfig = some booted → booted ∈ configs := by
  unfold send
  split
  · exact ⟨h, hin⟩
  · cases call with
    | add tag account =>
      obtain ⟨hown, hmeters⟩ := hcall account rfl
      obtain ⟨hmetered, hlast⟩ := metered_apiAddUser h tag (reached && s.core.started) hown
        fun booted hbooted => hmeters booted (hin booted hbooted)
      exact ⟨hmetered, fun booted hbooted => hin booted (hlast.symm.trans hbooted)⟩
    | remove tag email =>
      obtain ⟨hmetered, hlast⟩ := metered_apiRemoveUser h tag email (reached && s.core.started)
      exact ⟨hmetered, fun booted hbooted => hin booted (hlast.symm.trans hbooted)⟩

theorem metered_perform {calls : List ApiCall} {replies : List Reply} (configs : List Config)
    (h : s.Metered) (hin : ∀ booted, s.core.lastConfig = some booted → booted ∈ configs)
    (hreplies : ∀ reply ∈ replies, ∀ booted, reply.restart = some booted →
      FromDb booted ∧ booted ∈ configs)
    (hcalls : ∀ call ∈ calls, ∀ account, call.added? = some account →
      OwnLevel account.email account.level ∧ ∀ booted ∈ configs, booted.meters account.level) :
    (s.perform calls replies).1.Metered := by
  have hboth : (s.perform calls replies).1.Metered ∧
      ∀ booted, (s.perform calls replies).1.core.lastConfig = some booted → booted ∈ configs := by
    refine perform_invariant
      (P := fun s => s.Metered ∧ ∀ booted, s.core.lastConfig = some booted → booted ∈ configs)
      (Q := fun reply => ∀ booted, reply.restart = some booted → FromDb booted ∧ booted ∈ configs)
      (fun _ hnone => nomatch hnone) hreplies ?_ ⟨h, hin⟩
    intro s call hcall reply hreply ⟨h, hin⟩
    unfold attempt
    split
    · next booted hrestart =>
        obtain ⟨hdb, hmem⟩ := hreply booted hrestart
        refine metered_send (metered_restart hdb) ?_ (hcalls call hcall) _
        intro booted' hbooted'
        cases hbooted'
        exact hmem
    · exact metered_send h hin (hcalls call hcall) _
  exact hboth.1

end Serving

def ServingStep.restarts : ServingStep → List Config
  | .restart booted => [booted]
  | .underLock _ replies => replies.filterMap Reply.restart
  | _ => []

/-!
### Histories
-/

def Task.isReturned : Task → Bool
  | .returned _ => true
  | _ => false

/-- The rows that a step reads for the accounts it adds later. -/
def ServingStep.reads (p : Panel) : ServingStep → List DbUser
  | .read t =>
    match p.tasks[t]? with
    | some (.reading _ lastId) => p.users.batch lastId
    | _ => []
  | .syncUser user _ => [user]
  | _ => []

/-- The panel, with a record of the rows that threads under way have read. -/
structure Metering where
  panel : Panel
  rows : List DbUser

namespace Metering

def init (users : UserTable) (config : Config) : Metering := ⟨.init users config, []⟩

def step (m : Metering) (a : ServingStep) : Option Metering :=
  (m.panel.step a).map fun panel =>
    { panel
      rows := if panel.tasks.all Task.isReturned then [] else m.rows ++ a.reads m.panel }

/-- The core is only booted with configurations of `include_db_users`; no table has two users with
one level and different limits; and whenever a thread takes the lock, every row with a speed limit
that a thread under way has read is of a user that had one in the table the core was booted from. -/
def policed (m : Metering) (a : ServingStep) : Prop :=
  (∀ booted ∈ a.restarts, FromDb booted) ∧
    match a with
    | .commit users => users.levelsApart
    | .underLock _ replies => ∀ u ∈ m.rows, u.speedLimited →
      ∀ booted ∈ m.panel.serving.core.lastConfig.toList ++ replies.filterMap Reply.restart,
        booted.Levels u
    | _ => True

structure Policed (m : Metering) : Prop where
  apart : m.panel.users.levelsApart
  scans : ∀ task ∈ m.panel.tasks, task.ReadFrom m.rows
  metered : m.panel.serving.Metered

variable {m m' : Metering} {a : ServingStep}

theorem desired?_startDisconnect (p : Panel) (users : List DbUser) (alive : Bool) :
    (p.startDisconnect users alive).ReadFrom rows := by
  unfold Panel.startDisconnect
  split_ifs <;> trivial

theorem readFrom_readBatch {p : Panel} {desired : Desired} {lastId : Nat}
    (h : desired.LevelledBy rows) (hbatch : p.users.batch lastId ⊆ rows) :
    (p.readBatch desired lastId).ReadFrom rows := by
  unfold Panel.readBatch
  split
  · exact h
  · split
    · next hadd => exact Desired.levelledBy_addUsers h hbatch hadd
    · trivial

theorem metered_underLock {t : Nat} {replies : List Reply} {task : Task}
    {result : Serving × Except Raised Bool} (h : m.Policed)
    (hok : m.policed (.underLock t replies)) (htask : m.panel.tasks[t]? = some task)
    (hresult : m.panel.runLocked replies task = some result) : result.1.Metered := by
  obtain ⟨calls, hsub, hcalls⟩ := Panel.runLocked_eq hresult
  have hcore : m.panel.serving.ensureRegistryCurrent.core = m.panel.serving.core := by
    unfold Serving.ensureRegistryCurrent
    split <;> rfl
  rw [hcalls]
  refine Serving.metered_perform
    (m.panel.serving.core.lastConfig.toList ++ replies.filterMap Reply.restart) ?_ ?_ ?_ ?_
  · intro k user huser
    rw [hcore] at huser ⊢
    exact h.metered k user huser
  · intro booted hbooted
    rw [hcore] at hbooted
    exact List.mem_append_left _ (by simp [hbooted])
  · intro reply hreply booted hbooted
    have hmem : booted ∈ replies.filterMap Reply.restart :=
      List.mem_filterMap.mpr ⟨reply, hreply, hbooted⟩
    exact ⟨hok.1 booted hmem, List.mem_append_right _ hmem⟩
  · intro call hcall account hadded
    have hlevel := levelOf_of_added (h.scans task (List.mem_of_getElem? htask)) (hsub hcall) hadded
    refine ⟨hlevel.own, fun booted hbooted => ?_⟩
    rcases hlevel with hzero | ⟨u, hu, hlimited, -, heq⟩
    · rw [hzero]
      exact booted.meters_zero
    · rw [heq]
      exact (hok.2 u hu hlimited booted hbooted).meters

/-- What a step does to the threads: each one after it has read what it had, and what the step
reads. -/
theorem readFrom_step {p p' : Panel} (h : ∀ task ∈ p.tasks, task.ReadFrom rows)
    (hstep : p.step a = some p') : ∀ task ∈ p'.tasks, task.ReadFrom (rows ++ a.reads p) := by
  have hold : ∀ task ∈ p.tasks, task.ReadFrom (rows ++ a.reads p) := fun task htask =>
    (h task htask).mono (List.subset_append_left _ _)
  have happend {task : Task} (htask : task.ReadFrom (rows ++ a.reads p)) :
      ∀ task' ∈ p.tasks ++ [task], task'.ReadFrom (rows ++ a.reads p) := by
    intro task' htask'
    rcases List.mem_append.mp htask' with hmem | hmem
    · exact hold task' hmem
    · exact List.mem_singleton.mp hmem ▸ htask
  have hset {t : Nat} {task : Task} (htask : task.ReadFrom (rows ++ a.reads p)) :
      ∀ task' ∈ p.tasks.set t task, task'.ReadFrom (rows ++ a.reads p) := by
    intro task' htask'
    rcases List.mem_or_eq_of_mem_set htask' with hmem | rfl
    · exact hold task' hmem
    · exact htask
  cases a with
  | commit | configure | stop | restart =>
    cases hstep
    exact hold
  | hotSync alive =>
    cases hstep
    refine happend ?_
    split
    · trivial
    · exact fun _ he => nomatch he
  | disconnect users alive =>
    cases hstep
    exact happend (desired?_startDisconnect ..)
  | syncUser user alive =>
    cases hstep
    refine happend ?_
    unfold Panel.startSync
    split
    · exact desired?_startDisconnect ..
    · split
      · trivial
      · exact List.mem_append_right _ List.mem_cons_self
  | read t =>
    simp only [Panel.step] at hstep
    split at hstep
    · next desired lastId htask =>
        cases hstep
        refine hset (readFrom_readBatch (hold _ (List.mem_of_getElem? htask)) ?_)
        simp only [ServingStep.reads, htask]
        exact List.subset_append_right _ _
    · cases hstep
  | underLock t replies =>
    obtain ⟨task, htask, hrun⟩ := Option.bind_eq_some_iff.mp hstep
    obtain ⟨result, hresult, rfl⟩ := Option.map_eq_some_iff.mp hrun
    exact hset trivial

theorem levelsApart_step {p : Panel} (h : m.Policed) (hok : m.policed a)
    (hstep : m.panel.step a = some p) : p.users.levelsApart := by
  cases a with
  | commit users =>
    cases hstep
    exact hok.2
  | read t =>
    simp only [Panel.step] at hstep
    split at hstep <;> cases hstep
    exact h.apart
  | underLock t replies =>
    obtain ⟨task, htask, hrun⟩ := Option.bind_eq_some_iff.mp hstep
    obtain ⟨result, hresult, rfl⟩ := Option.map_eq_some_iff.mp hrun
    exact h.apart
  | _ =>
    cases hstep
    exact h.apart

theorem metered_step {p : Panel} (h : m.Policed) (hok : m.policed a)
    (hstep : m.panel.step a = some p) : p.serving.Metered := by
  cases a with
  | stop =>
    cases hstep
    exact fun k user huser => nomatch huser
  | restart booted =>
    cases hstep
    exact Serving.metered_restart (hok.1 booted List.mem_cons_self)
  | read t =>
    simp only [Panel.step] at hstep
    split at hstep <;> cases hstep
    exact h.metered
  | underLock t replies =>
    obtain ⟨task, htask, hrun⟩ := Option.bind_eq_some_iff.mp hstep
    obtain ⟨result, hresult, rfl⟩ := Option.map_eq_some_iff.mp hrun
    exact metered_underLock h hok htask hresult
  | _ =>
    cases hstep
    exact h.metered

theorem policed_step (h : m.Policed) (hok : m.policed a) (hstep : m.step a = some m') :
    m'.Policed := by
  obtain ⟨panel, hpanel, rfl⟩ := Option.map_eq_some_iff.mp hstep
  refine ⟨levelsApart_step h hok hpanel, ?_, metered_step h hok hpanel⟩
  have hread := readFrom_step h.scans hpanel
  dsimp only
  split
  · next hreturned =>
      intro task htask
      have := List.all_eq_true.mp hreturned task htask
      cases task <;> trivial
  · exact hread

end Metering

/-- **Every served account is metered and shaped** in every run that meets `policed`. -/
theorem served_accounts_metered (users : UserTable) (config : Config) (m : Metering)
    (husers : users.levelsApart)
    (hrun : Run Metering.step Metering.policed (.init users config) m) :
    (∀ k user, m.panel.serving.core.users.get? k = some user →
      ∃ booted, m.panel.serving.core.lastConfig = some booted ∧ booted.meters user.level) ∧
    ∀ u ∈ m.panel.users.rows, ∀ v ∈ m.panel.users.rows, ∀ tag tag' a b,
      m.panel.serving.core.users.get? (tag, u.email) = some a →
      m.panel.serving.core.users.get? (tag', v.email) = some b →
      a.level = b.level → a.level ≠ 0 → u.limits = v.limits := by
  have h : m.Policed := by
    refine hrun.invariant Metering.Policed ⟨husers, ?_, ?_⟩ Metering.policed_step
    · intro task htask
      cases htask
    · intro k user huser
      cases huser
  have hown : ∀ (u : DbUser) tag a, m.panel.serving.core.users.get? (tag, u.email) = some a →
      a.level ≠ 0 → a.level = u.level := by
    intro u tag a ha hzero
    obtain ⟨u', hemail, hlevel⟩ := (h.metered _ a ha).1.resolve_left hzero
    rw [hlevel]
    unfold DbUser.level
    rw [DbUser.id_of_email hemail]
  refine ⟨fun k user huser => (h.metered k user huser).2, ?_⟩
  intro u hu v hv tag tag' a b ha hb hsame hzero
  have hlevels : u.level = v.level := by
    rw [← hown u tag a ha hzero, hsame, hown v tag' b hb (hsame ▸ hzero)]
  exact of_decide_eq_true (List.all_eq_true.mp (List.all_eq_true.mp h.apart u hu) v hv) hlevels

def oneUser (u : DbUser) : UserTable where
  rows := [u]
  sorted := List.pairwise_singleton ..

def Panel.booted (users : UserTable) : Panel :=
  let p := Panel.init users exampleConfig
  { p with serving := p.serving.restart (exampleConfig.includeDbUsers users.rows) }

theorem fromDb_example (users : List DbUser) : FromDb (exampleConfig.includeDbUsers users) := by
  refine ⟨exampleConfig, users, rfl, ?_⟩
  intro i hi c hc
  rw [List.mem_singleton.mp hi] at hc
  cases hc

def syncingMeter : Metering :=
  ⟨{ Panel.booted (oneUser limitedUser) with tasks := [.syncing limitedUser] }, [limitedUser]⟩

theorem limited_user_is_metered :
    ∃ m user, Run Metering.step Metering.policed (.init (oneUser limitedUser) exampleConfig) m ∧
      m.panel.serving.core.users.get? ("in", "1.ali") = some user ∧ user.level = 101 ∧
      ∃ booted, m.panel.serving.core.lastConfig = some booted ∧ booted.meters user.level := by
  have hboot : Run Metering.step Metering.policed (.init (oneUser limitedUser) exampleConfig)
      ⟨Panel.booted (oneUser limitedUser), []⟩ := by
    refine .next (a := .restart (exampleConfig.includeDbUsers [limitedUser])) .init
      ⟨?_, trivial⟩ rfl
    intro booted hbooted
    rw [List.mem_singleton.mp hbooted]
    exact fromDb_example _
  have hread : Run Metering.step Metering.policed (.init (oneUser limitedUser) exampleConfig)
      syncingMeter :=
    .next (a := .syncUser limitedUser true) hboot ⟨fun _ h => absurd h List.not_mem_nil, trivial⟩ rfl
  have hlevels : (exampleConfig.includeDbUsers [limitedUser]).Levels limitedUser :=
    ⟨exampleConfig, [limitedUser], rfl, limitedUser, List.mem_cons_self, rfl, by decide⟩
  have hlocked : (syncingMeter.step (.underLock 0 [])).any (fun m =>
      (m.panel.serving.core.users.get? ("in", "1.ali")).any fun user => user.level = 101) =
      true := by
    decide +kernel
  obtain ⟨m, hm, hstate⟩ := (Option.any_eq_true _ _).mp hlocked
  obtain ⟨user, huser, hlevel⟩ := (Option.any_eq_true _ _).mp hstate
  have hrun := hread.next (a := .underLock 0 [])
    ⟨fun _ h => absurd h List.not_mem_nil, fun u hu _ booted hbooted => by
      obtain rfl := List.mem_singleton.mp hu
      obtain rfl := List.mem_singleton.mp hbooted
      exact hlevels⟩ hm
  exact ⟨m, user, hrun, huser, of_decide_eq_true hlevel,
    (served_accounts_metered _ _ m (by decide) hrun).1 _ user huser⟩

def collidingUsers : UserTable where
  rows := [limitedUser, { exampleUser 9001 "sara" .active with speedLimitDown := some 50 }]
  sorted := List.pairwise_pair.mpr (by decide : 1 < 9001)

/-- A level the core does not count, and one that two users share. -/
theorem level_unknown_or_shared :
    (execGuarded Panel.step (fun _ _ => True) (Panel.booted (exampleUsers .active))
      [.commit (oneUser limitedUser), .syncUser limitedUser true, .underLock 0 []]).any (fun p =>
      (p.serving.core.users.get? ("in", "1.ali")).any fun user =>
        p.serving.core.lastConfig.any fun booted => booted.meters user.level = false) = true ∧
    ((Panel.booted collidingUsers).serving.core.users.get? ("in", "1.ali")).any (fun a =>
      ((Panel.booted collidingUsers).serving.core.users.get? ("in", "9001.sara")).any fun b =>
        a.level = b.level ∧ a.level ≠ 0) = true := by
  decide +kernel

end Shahkar.Xray
