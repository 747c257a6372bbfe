import Shahkar.Xray.Serving

/-!
# A reconcile does not resurrect a user

So it is if it has not read the user yet when the user is disconnected. `leaving` and `barred` are
records of the run that the panel does not have.
-/

namespace Shahkar.Xray

open Shahkar.Db Shahkar.Lib

/-!
### What a scan collects
-/

namespace Desired

variable {email : Email}

theorem mem_emails_add {d : Desired} {entry : Tag × Account}
    (h : email ∈ (d.add entry).emails) : email = entry.2.email ∨ email ∈ d.emails := by
  obtain ⟨key, hkey, rfl⟩ := List.mem_map.mp h
  obtain ⟨e, he, rfl⟩ := List.mem_map.mp hkey
  rcases Dict.mem_entries_set he with rfl | hold
  · exact .inl rfl
  · exact .inr (List.mem_map_of_mem (List.mem_map_of_mem hold))

theorem mem_emails_foldl_add {accounts : List (Tag × Account)} {d : Desired}
    (h : email ∈ (accounts.foldl Desired.add d).emails) :
    (∃ e ∈ accounts, email = e.2.email) ∨ email ∈ d.emails := by
  induction accounts generalizing d with
  | nil => exact .inr h
  | cons e rest ih =>
    rcases ih h with ⟨e', he', hemail⟩ | hd
    · exact .inl ⟨e', List.mem_cons_of_mem _ he', hemail⟩
    · rcases mem_emails_add hd with hnew | hold
      · exact .inl ⟨e, List.mem_cons_self, hnew⟩
      · exact .inr hold

theorem mem_emails_addUsers {config : Config} {users : List DbUser} {d d' : Desired}
    (h : Desired.addUsers config d users = .ok d') (hmem : email ∈ d'.emails) :
    (∃ u ∈ users, u.email = email) ∨ email ∈ d.emails := by
  induction users generalizing d with
  | nil =>
    cases h
    exact .inr hmem
  | cons u rest ih =>
    rw [addUsers] at h
    split at h
    · cases h
    · next accounts hacc =>
        rcases ih h with ⟨v, hv, hemail⟩ | hd
        · exact .inl ⟨v, List.mem_cons_of_mem _ hv, hemail⟩
        · rcases mem_emails_foldl_add hd with ⟨e, he, hemail⟩ | hold
          · have hu : e ∈ (desiredAccounts config u).1 := by
              rw [hacc]
              exact he
            exact .inl ⟨u, List.mem_cons_self, (mem_desiredAccounts hu).1.symm.trans hemail.symm⟩
          · exact .inr hold

end Desired

theorem UserTable.serves_of_mem_batch {users : UserTable} {lastId : Nat} {u : DbUser}
    (h : u ∈ users.batch lastId) : users.serves u.email := by
  obtain ⟨hu, hbillable⟩ := List.mem_filter.mp (List.mem_of_mem_take h)
  exact List.any_eq_true.mpr ⟨u, hu, by simpa using (of_decide_eq_true hbillable).1⟩

/-!
### Watched runs
-/

def Task.isDisconnecting : Task → Bool
  | .disconnecting _ => true
  | _ => false

/-- A panel with the two records. -/
structure Watched where
  panel : Panel
  leaving : List (Nat × Email)
  barred : List (Nat × Email)

namespace Watched

def init (users : UserTable) (config : Config) : Watched := ⟨.init users config, [], []⟩

def leavers (w : Watched) (users : List DbUser) : List (Nat × Email) :=
  ((users.map DbUser.email).filter fun email => ¬ w.panel.users.serves email).map
    fun email => (w.panel.tasks.length, email)

def bars (w : Watched) (emails : List Email) : List (Nat × Email) :=
  ((List.range w.panel.tasks.length).filter fun i =>
    (w.panel.tasks[i]?).any fun task => task.desired?.isSome).flatMap
    fun i => emails.map fun email => (i, email)

def leavingOf (w : Watched) (t : Nat) : List Email :=
  (w.leaving.filter fun b => b.1 = t).map Prod.snd

def returnsTrue (w : Watched) (t : Nat) (replies : List Reply) : Bool :=
  (w.panel.tasks[t]?).any fun task => task.isDisconnecting ∧
    (w.panel.runLocked replies task).any fun result =>
      match result.2 with
      | .ok b => b
      | .error _ => false

def step (w : Watched) (step : ServingStep) : Option Watched :=
  (w.panel.step step).map fun panel =>
    match step with
    | .disconnect users _ => { w with panel, leaving := w.leaving ++ w.leavers users }
    | .syncUser user _ => { w with panel, leaving := w.leaving ++ w.leavers [user] }
    | .underLock t replies =>
      if w.returnsTrue t replies then
        { w with panel, barred := w.barred ++ w.bars (w.leavingOf t) }
      else { w with panel }
    | _ => { w with panel }

/-- No user comes back while a call that disconnects it runs, or a reconcile that was running when
that call returned; and when it returns, no running reconcile has read the user. -/
def unread (w : Watched) : ServingStep → Bool
  | .commit users =>
    (w.leaving.all fun b =>
      ((w.panel.tasks[b.1]?).any fun task => task.isDisconnecting) → ¬ users.serves b.2) ∧
    (w.barred.all fun b =>
      ((w.panel.tasks[b.1]?).any fun task => task.desired?.isSome) → ¬ users.serves b.2)
  | .underLock t _ =>
    ((w.panel.tasks[t]?).any fun task => task.isDisconnecting) →
      w.panel.tasks.all fun task => task.desired?.all fun desired =>
        (w.leavingOf t).all fun email => email ∉ desired.emails
  | _ => true

structure Unread (w : Watched) : Prop where
  leaving_lt : ∀ b ∈ w.leaving, b.1 < w.panel.tasks.length
  barred_lt : ∀ b ∈ w.barred, b.1 < w.panel.tasks.length
  left : ∀ b ∈ w.leaving, ∀ task, w.panel.tasks[b.1]? = some task → task.isDisconnecting →
    w.panel.users.serves b.2 = false
  out : ∀ b ∈ w.barred, ∀ task desired, w.panel.tasks[b.1]? = some task →
    task.desired? = some desired → b.2 ∉ desired.emails ∧ w.panel.users.serves b.2 = false

variable {w : Watched} {panel : Panel}

theorem Unread.same (h : w.Unread) (htasks : panel.tasks = w.panel.tasks)
    (husers : panel.users = w.panel.users) : ({ w with panel } : Watched).Unread := by
  refine ⟨?_, ?_, ?_, ?_⟩ <;> simp only [htasks, husers]
  · exact h.leaving_lt
  · exact h.barred_lt
  · exact h.left
  · exact h.out

variable {task : Task}

theorem Unread.append (h : w.Unread) {leaving : List (Nat × Email)}
    (htasks : panel.tasks = w.panel.tasks ++ [task]) (husers : panel.users = w.panel.users)
    (hleaving : ∀ b ∈ leaving, b ∈ w.leaving ∨
      b.1 = w.panel.tasks.length ∧ w.panel.users.serves b.2 = false) :
    ({ w with panel, leaving } : Watched).Unread := by
  have hlength : panel.tasks.length = w.panel.tasks.length + 1 := by simp [htasks]
  have hold : ∀ {i}, i < w.panel.tasks.length → panel.tasks[i]? = w.panel.tasks[i]? := by
    intro i hi
    rw [htasks, List.getElem?_append_left hi]
  refine ⟨?_, ?_, ?_, ?_⟩
  · intro b hb
    show b.1 < panel.tasks.length
    rcases hleaving b hb with hb | ⟨hb, -⟩
    · have := h.leaving_lt b hb
      omega
    · omega
  · intro b hb
    show b.1 < panel.tasks.length
    have := h.barred_lt b hb
    omega
  · intro b hb task' htask' hdis
    show panel.users.serves b.2 = false
    rw [husers]
    rcases hleaving b hb with hb | ⟨-, hserves⟩
    · exact h.left b hb task' ((hold (h.leaving_lt b hb)).symm.trans htask') hdis
    · exact hserves
  · intro b hb task' desired htask' hdesired
    show b.2 ∉ desired.emails ∧ panel.users.serves b.2 = false
    rw [husers]
    exact h.out b hb task' desired ((hold (h.barred_lt b hb)).symm.trans htask') hdesired

theorem Unread.set (h : w.Unread) {t : Nat}
    (htasks : panel.tasks = w.panel.tasks.set t task) (husers : panel.users = w.panel.users)
    (hdis : task.isDisconnecting = false)
    (hread : ∀ b ∈ w.barred, b.1 = t → ∀ desired, task.desired? = some desired →
      b.2 ∉ desired.emails ∧ w.panel.users.serves b.2 = false) :
    ({ w with panel } : Watched).Unread := by
  have hlength : panel.tasks.length = w.panel.tasks.length := by simp [htasks]
  have hother : ∀ {i}, i ≠ t → panel.tasks[i]? = w.panel.tasks[i]? := by
    intro i hi
    rw [htasks, List.getElem?_set_ne hi.symm]
  have hself : ∀ {task'}, panel.tasks[t]? = some task' → task' = task := by
    intro task' htask'
    rw [htasks, List.getElem?_set] at htask'
    split at htask'
    · split at htask'
      · exact (Option.some.inj htask').symm
      · cases htask'
    · next hne => exact absurd rfl hne
  refine ⟨?_, ?_, ?_, ?_⟩
  · intro b hb
    show b.1 < panel.tasks.length
    rw [hlength]
    exact h.leaving_lt b hb
  · intro b hb
    show b.1 < panel.tasks.length
    rw [hlength]
    exact h.barred_lt b hb
  · intro b hb task' htask' hdis'
    show panel.users.serves b.2 = false
    rw [husers]
    by_cases ht : b.1 = t
    · have hsame := hself (ht ▸ htask')
      rw [hsame, hdis] at hdis'
      cases hdis'
    · exact h.left b hb task' ((hother ht).symm.trans htask') hdis'
  · intro b hb task' desired htask' hdesired
    show b.2 ∉ desired.emails ∧ panel.users.serves b.2 = false
    rw [husers]
    by_cases ht : b.1 = t
    · exact hread b hb ht desired (hself (ht ▸ htask') ▸ hdesired)
    · exact h.out b hb task' desired ((hother ht).symm.trans htask') hdesired

theorem not_mem_emails_readBatch (p : Panel) {desired desired' : Desired} {lastId : Nat}
    {email : Email} (hold : email ∉ desired.emails) (hserves : p.users.serves email = false)
    (hread : (p.readBatch desired lastId).desired? = some desired') : email ∉ desired'.emails := by
  unfold Panel.readBatch at hread
  split at hread
  · cases hread
    exact hold
  · split at hread
    · next desired₁ hadd =>
        cases hread
        intro hmem
        rcases Desired.mem_emails_addUsers hadd hmem with ⟨u, hu, rfl⟩ | hmem
        · rw [UserTable.serves_of_mem_batch hu] at hserves
          cases hserves
        · exact hold hmem
    · cases hread

theorem isDisconnecting_readBatch (p : Panel) (desired : Desired) (lastId : Nat) :
    (p.readBatch desired lastId).isDisconnecting = false := by
  unfold Panel.readBatch
  split
  · rfl
  · split <;> rfl

theorem mem_leavers {users : List DbUser} {b : Nat × Email} (hb : b ∈ w.leavers users) :
    b.1 = w.panel.tasks.length ∧ w.panel.users.serves b.2 = false := by
  obtain ⟨email, hemail, rfl⟩ := List.mem_map.mp hb
  exact ⟨rfl, by simpa using (List.mem_filter.mp hemail).2⟩

theorem unread_commit (h : w.Unread) {users : UserTable} (hok : w.unread (.commit users)) :
    ({ w with panel := { w.panel with users } } : Watched).Unread := by
  obtain ⟨hleaving, hbarred⟩ := of_decide_eq_true hok
  rw [List.all_eq_true] at hleaving hbarred
  refine ⟨h.leaving_lt, h.barred_lt, ?_, ?_⟩
  · intro b hb task htask hdis
    have hgone := of_decide_eq_true (hleaving b hb) (by
      rw [show w.panel.tasks[b.1]? = some task from htask]
      exact hdis)
    simpa using hgone
  · intro b hb task desired htask hdesired
    have hgone := of_decide_eq_true (hbarred b hb) (by
      rw [show w.panel.tasks[b.1]? = some task from htask]
      exact Option.isSome_iff_exists.mpr ⟨desired, hdesired⟩)
    exact ⟨(h.out b hb task desired htask hdesired).1, by simpa using hgone⟩

theorem unread_bars (h : w.Unread) {t : Nat} {replies : List Reply}
    (hok : w.unread (.underLock t replies)) (htask : w.panel.tasks[t]? = some task)
    (hdis : task.isDisconnecting) : ∀ b ∈ w.bars (w.leavingOf t), b.1 < w.panel.tasks.length ∧
      ∀ task' desired, w.panel.tasks[b.1]? = some task' → task'.desired? = some desired →
        b.2 ∉ desired.emails ∧ w.panel.users.serves b.2 = false := by
  intro b hb
  obtain ⟨i, hi, hb⟩ := List.mem_flatMap.mp hb
  obtain ⟨email, hemail, rfl⟩ := List.mem_map.mp hb
  have hunread := of_decide_eq_true hok (by
    rw [htask]
    exact hdis)
  refine ⟨List.mem_range.mp (List.mem_filter.mp hi).1, ?_⟩
  intro task' desired htask' hdesired
  constructor
  · have hall := List.all_eq_true.mp hunread task' (List.mem_of_getElem? htask')
    rw [hdesired] at hall
    exact of_decide_eq_true (List.all_eq_true.mp hall email hemail)
  · obtain ⟨l, hl, rfl⟩ := List.mem_map.mp hemail
    obtain ⟨hmem, ht⟩ := List.mem_filter.mp hl
    obtain rfl : l.1 = t := of_decide_eq_true ht
    exact h.left l hmem task htask hdis

theorem unread_step {w' : Watched} {a : ServingStep} (h : w.Unread) (hok : w.unread a)
    (hstep : w.step a = some w') : w'.Unread := by
  obtain ⟨panel, hpanel, rfl⟩ := Option.map_eq_some_iff.mp hstep
  cases a with
  | commit users =>
    cases hpanel
    exact unread_commit h hok
  | configure config | stop | restart booted =>
    cases hpanel
    exact h.same rfl rfl
  | hotSync alive =>
    cases hpanel
    exact h.append rfl rfl fun b hb => .inl hb
  | disconnect users alive =>
    cases hpanel
    exact h.append rfl rfl fun b hb => (List.mem_append.mp hb).imp_right mem_leavers
  | syncUser user alive =>
    cases hpanel
    exact h.append rfl rfl fun b hb => (List.mem_append.mp hb).imp_right mem_leavers
  | read t =>
    simp only [Panel.step] at hpanel
    split at hpanel
    · next desired lastId htask =>
        cases hpanel
        refine h.set rfl rfl (isDisconnecting_readBatch _ _ _) ?_
        intro b hb ht desired' hdesired'
        obtain ⟨hold, hserves⟩ := h.out b hb _ desired (ht ▸ htask) rfl
        exact ⟨not_mem_emails_readBatch w.panel hold hserves hdesired', hserves⟩
    · cases hpanel
  | underLock t replies =>
    obtain ⟨task, htask, hrun⟩ := Option.bind_eq_some_iff.mp hpanel
    obtain ⟨result, hresult, rfl⟩ := Option.map_eq_some_iff.mp hrun
    have hset : ({ w with panel :=
        { w.panel with serving := result.1, tasks := w.panel.tasks.set t (.returned result.2) }
        } : Watched).Unread :=
      h.set rfl rfl rfl fun b _ _ desired hdesired => by cases hdesired
    show (if w.returnsTrue t replies then _ else _ : Watched).Unread
    split
    · next htrue =>
        have hdis : task.isDisconnecting := by
          unfold returnsTrue at htrue
          rw [htask] at htrue
          exact (of_decide_eq_true htrue).1
        have hbars := unread_bars h hok htask hdis
        refine ⟨hset.leaving_lt, ?_, hset.left, ?_⟩
        · intro b hb
          rcases List.mem_append.mp hb with hb | hb
          · exact hset.barred_lt b hb
          · show b.1 < (w.panel.tasks.set t _).length
            rw [List.length_set]
            exact (hbars b hb).1
        · intro b hb task' desired htask' hdesired
          rcases List.mem_append.mp hb with hb | hb
          · exact hset.out b hb task' desired htask' hdesired
          · refine (hbars b hb).2 task' desired ?_ hdesired
            have hset' : (w.panel.tasks.set t (.returned result.2))[b.1]? = some task' := htask'
            rw [List.getElem?_set] at hset'
            split at hset'
            · split at hset'
              · cases hset'
                cases hdesired
              · cases hset'
            · exact hset'
    · exact hset

end Watched

theorem mem_emails_of_add {s : Serving} {desired : Desired} {tag : Tag} {account : Account}
    (h : .add tag account ∈ s.hotSyncCalls desired) : account.email ∈ desired.emails := by
  rcases List.mem_append.mp h with h | h
  · obtain ⟨e, he, hadd⟩ := List.mem_map.mp h
    have hmem := (List.mem_filter.mp he).1
    cases hadd
    rw [← desired.keyed e hmem]
    exact List.mem_map_of_mem (List.mem_map_of_mem hmem)
  · obtain ⟨k, -, hremove⟩ := List.mem_map.mp h
    cases hremove

/-- **A reconcile does not resurrect a user** in any run that meets `unread`. -/
theorem reconcile_never_resurrects (users : UserTable) (config : Config) (w : Watched)
    (hrun : Run Watched.step (fun w a => w.unread a) (Watched.init users config) w)
    (t : Nat) (desired : Desired) (email : Email)
    (htask : w.panel.tasks[t]? = some (.built desired)) (hbarred : (t, email) ∈ w.barred) :
    ∀ tag account, .add tag account ∈ w.panel.serving.ensureRegistryCurrent.hotSyncCalls desired →
      account.email ≠ email := by
  have h : w.Unread := by
    refine hrun.invariant Watched.Unread ⟨?_, ?_, ?_, ?_⟩ Watched.unread_step
    · intro b hb
      cases hb
    · intro b hb
      cases hb
    · intro b hb
      cases hb
    · intro b hb
      cases hb
  intro tag account hadd hemail
  exact (h.out _ hbarred _ desired htask rfl).1 (hemail ▸ mem_emails_of_add hadd)

def Watched.after (ok : Watched → ServingStep → Prop) [∀ w a, Decidable (ok w a)]
    (steps : List ServingStep) : Option Watched :=
  execGuarded Watched.step ok (.init (exampleUsers .active) exampleConfig)
    (.restart (exampleConfig.includeDbUsers [exampleUser 1 "ali" .active]) :: steps)

theorem late_scan_adds_others :
    ∃ w desired, Watched.after (fun w a => w.unread a)
        [.hotSync true, .commit (exampleUsers .disabled),
          .disconnect [exampleUser 1 "ali" .disabled] true, .underLock 1 [], .read 0, .read 0]
        = some w ∧
      w.panel.tasks[0]? = some (.built desired) ∧ (0, "1.ali") ∈ w.barred ∧
      desired.emails = ["2.sara"] ∧
      ∀ tag account,
        .add tag account ∈ w.panel.serving.ensureRegistryCurrent.hotSyncCalls desired →
          account.email ≠ "1.ali" := by
  have hrun : (Watched.after (fun w a => w.unread a)
      [.hotSync true, .commit (exampleUsers .disabled),
        .disconnect [exampleUser 1 "ali" .disabled] true, .underLock 1 [], .read 0, .read 0]).any
      (fun w => (0, "1.ali") ∈ w.barred ∧ (w.panel.tasks[0]?).any fun task =>
        match task with
        | .built desired => desired.emails = ["2.sara"]
        | _ => false) = true := by
    decide +kernel
  obtain ⟨w, hw, hstate⟩ := (Option.any_eq_true _ _).mp hrun
  obtain ⟨hbarred, htasks⟩ := of_decide_eq_true hstate
  obtain ⟨task, htask, hbuilt⟩ := (Option.any_eq_true _ _).mp htasks
  cases task with
  | built desired =>
    exact ⟨w, desired, hw, htask, hbarred, of_decide_eq_true hbuilt,
      reconcile_never_resurrects _ _ w (Run.of_execGuarded _ hw) 0 desired _ htask hbarred⟩
  | reading | disconnecting | syncing | returned => cases hbuilt

/-- A reconcile that read the user while it was active adds it again. -/
theorem stale_scan_resurrects : (Watched.after (fun _ _ => True)
      [.hotSync true, .read 0, .read 0, .commit (exampleUsers .disabled),
        .disconnect [exampleUser 1 "ali" .disabled] true, .underLock 1 []]).any (fun w =>
      (0, "1.ali") ∈ w.barred ∧ (w.panel.serving.core.users.get? ("in", "1.ali")).isNone ∧
        (w.step (.underLock 0 [])).any fun w' =>
          (w'.panel.serving.core.users.get? ("in", "1.ali")).isSome ∧
            w'.panel.users.serves "1.ali" = false) = true := by
  decide +kernel

end Shahkar.Xray
