import Shahkar.Xray.Serving

/-!
# The registry mirrors the core

So it is if the API calls reach the core and it is not replaced under the lock. `_api_add_user` and
`_api_remove_user` pass over connection errors and record the call's intent all the same.
-/

namespace Shahkar.Xray

open Shahkar.Db Shahkar.Lib

/-!
### Calls that arrive
-/

def Reply.arrives (reply : Reply) : Bool := reply.reached && reply.restart.isNone

namespace Serving

variable {s s' : Serving}

structure SameFrame (s s' : Serving) : Prop where
  config : s'.config = s.config
  started : s'.core.started = s.core.started
  generation : s'.core.generation = s.core.generation
  lastConfig : s'.core.lastConfig = s.core.lastConfig
  registryGeneration : s'.registryGeneration = s.registryGeneration

theorem SameFrame.refl (s : Serving) : SameFrame s s := ⟨rfl, rfl, rfl, rfl, rfl⟩

theorem SameFrame.trans {s₁ s₂ s₃ : Serving} (h₁ : SameFrame s₁ s₂) (h₂ : SameFrame s₂ s₃) :
    SameFrame s₁ s₃ :=
  ⟨h₂.config.trans h₁.config, h₂.started.trans h₁.started, h₂.generation.trans h₁.generation,
    h₂.lastConfig.trans h₁.lastConfig, h₂.registryGeneration.trans h₁.registryGeneration⟩

theorem SameFrame.supportsHotSync (h : SameFrame s s') (tag : Tag) :
    s'.supportsHotSync tag = s.supportsHotSync tag := by
  unfold Serving.supportsHotSync findInbound
  rw [h.config, h.lastConfig]

theorem sameFrame_apiAddUser (s : Serving) (tag : Tag) (account : Account) (reached : Bool) :
    SameFrame s (s.apiAddUser tag account reached).1 := by
  have hadds := adds_apiAddUser s tag account reached
  generalize s.apiAddUser tag account reached = result at hadds ⊢
  cases hadds <;> exact ⟨rfl, rfl, rfl, rfl, rfl⟩

theorem sameFrame_apiRemoveUser (s : Serving) (tag : Tag) (email : Email) (reached : Bool) :
    SameFrame s (s.apiRemoveUser tag email reached) := by
  unfold apiRemoveUser
  split_ifs <;> exact ⟨rfl, rfl, rfl, rfl, rfl⟩

variable {replies : List Reply} {call : ApiCall} {calls : List ApiCall} {reply : Reply}
  {s' : Serving} {k : Tag × Email} {desired : Desired}

theorem attempt_of_arrives (h : reply.arrives) :
    s.attempt call reply =
      if ¬ s.supportsHotSync call.tag then (s, none) else
      match call with
      | .add tag account => s.apiAddUser tag account s.core.started
      | .remove tag email => (s.apiRemoveUser tag email s.core.started, none) := by
  obtain ⟨hreached, hrestart⟩ := Bool.and_eq_true_iff.mp h
  unfold attempt
  rw [Option.isNone_iff_eq_none.mp hrestart, hreached]
  rfl

theorem sameFrame_attempt (h : reply.arrives) :
    SameFrame s (s.attempt call reply).1 := by
  rw [attempt_of_arrives h]
  split
  · exact .refl s
  · cases call with
    | add tag account => exact sameFrame_apiAddUser s tag account _
    | remove tag email => exact sameFrame_apiRemoveUser s tag email _

theorem sameFrame_perform (hreplies : ∀ reply ∈ replies, reply.arrives) :
    SameFrame s (s.perform calls replies).1 :=
  perform_invariant (Q := fun reply => reply.arrives) rfl hreplies
    (fun _ _ _ _ hreply h => h.trans (sameFrame_attempt hreply)) (.refl s)

def Mirror (s : Serving) : Prop := ∀ k, k ∈ s.registered ↔ (s.core.users.get? k).isSome

theorem mirror_apiAddUser (h : s.Mirror) (tag : Tag) (account : Account) :
    (s.apiAddUser tag account true).1.Mirror := by
  have hadds := adds_apiAddUser s tag account true
  generalize s.apiAddUser tag account true = result at hadds ⊢
  cases hadds with
  | raises e => exact h
  | records hsome =>
    intro k
    rw [List.mem_insert_iff, h k]
    refine ⟨?_, .inr⟩
    intro hk
    rcases hk with rfl | hk
    · exact hsome rfl
    · exact hk
  | adds htag hnone =>
    intro k
    rw [List.mem_insert_iff, Dict.get?_set, h k]
    split_ifs with hk
    · simp [hk]
    · simp [hk]

theorem mirror_apiRemoveUser (h : s.Mirror) (tag : Tag) (email : Email) :
    (s.apiRemoveUser tag email true).Mirror := by
  intro k
  show k ∈ s.registered.filter _ ↔ ((s.core.users.erase (tag, email)).get? k).isSome
  rw [List.mem_filter, Dict.get?_erase, h k]
  split_ifs with hk
  · simp [hk]
  · simp [hk]

theorem mirror_perform (hreplies : ∀ reply ∈ replies, reply.arrives) (hstarted : s.core.started)
    (h : s.Mirror) :
    (s.perform calls replies).1.Mirror := by
  have hboth : (s.perform calls replies).1.core.started = true ∧
      (s.perform calls replies).1.Mirror := by
    refine perform_invariant (P := fun s => s.core.started = true ∧ s.Mirror)
      (Q := fun reply => reply.arrives) rfl hreplies ?_ ⟨hstarted, h⟩
    intro s call _ reply hreply ⟨hstarted, h⟩
    refine ⟨(sameFrame_attempt hreply).started.trans hstarted, ?_⟩
    rw [attempt_of_arrives hreply, hstarted]
    split
    · exact h
    · cases call with
      | add tag account => exact mirror_apiAddUser h tag account
      | remove tag email => exact mirror_apiRemoveUser h tag email
  exact hboth.2

theorem mirror_bootUsers (config : Config) (k : Tag × Email) :
    k ∈ config.bootEntries.map Prod.fst ↔ (config.bootUsers.get? k).isSome := by
  rw [Config.bootUsers, Dict.isSome_get?_foldl_set]
  simp

structure Mirrors (s : Serving) : Prop where
  behind : ∀ g, s.registryGeneration = some g → g ≤ s.core.generation
  current : s.core.started → s.registryGeneration = some s.core.generation → s.Mirror
  booted : s.core.started → s.registryGeneration ≠ some s.core.generation →
    ∃ config, s.core.lastConfig = some config ∧ s.core.users = config.bootUsers

theorem mirrors_restart (h : s.Mirrors) (booted : Config) : (s.restart booted).Mirrors := by
  refine ⟨?_, ?_, ?_⟩
  · intro g hg
    exact Nat.le_succ_of_le (h.behind g hg)
  · intro _ hcurrent
    have hle : s.core.generation + 1 ≤ s.core.generation := h.behind _ hcurrent
    exact absurd hle (Nat.not_succ_le_self _)
  · intro _ _
    exact ⟨booted, rfl, rfl⟩

theorem sameCore_ensureRegistryCurrent (s : Serving) :
    s.ensureRegistryCurrent.core = s.core ∧ s.ensureRegistryCurrent.config = s.config ∧
      s.ensureRegistryCurrent.registryGeneration = some s.core.generation := by
  unfold ensureRegistryCurrent
  split
  · next hcurrent => exact ⟨rfl, rfl, hcurrent⟩
  · exact ⟨rfl, rfl, rfl⟩

theorem mirror_ensureRegistryCurrent (h : s.Mirrors) (hstarted : s.core.started) :
    s.ensureRegistryCurrent.Mirror := by
  unfold ensureRegistryCurrent
  split
  · next hcurrent => exact h.current hstarted hcurrent
  · next hstale =>
      obtain ⟨config, hlast, husers⟩ := h.booted hstarted hstale
      intro k
      rw [hlast, husers]
      exact mirror_bootUsers config k

theorem mirrors_of_perform (h : s.Mirrors) (hreplies : ∀ reply ∈ replies, reply.arrives) :
    (s.ensureRegistryCurrent.perform calls replies).1.Mirrors := by
  obtain ⟨hcore, -, hgeneration⟩ := sameCore_ensureRegistryCurrent s
  have hframe : SameFrame s.ensureRegistryCurrent (s.ensureRegistryCurrent.perform calls replies).1 :=
    sameFrame_perform hreplies
  have hcurrent : (s.ensureRegistryCurrent.perform calls replies).1.registryGeneration =
      some (s.ensureRegistryCurrent.perform calls replies).1.core.generation := by
    rw [hframe.registryGeneration, hframe.generation, hgeneration, hcore]
  refine ⟨?_, ?_, fun _ hstale => absurd hcurrent hstale⟩
  · intro g hg
    rw [hcurrent] at hg
    exact Nat.le_of_eq (Option.some.inj hg).symm
  · intro hstarted _
    rw [hframe.started, hcore] at hstarted
    refine mirror_perform hreplies ?_ (mirror_ensureRegistryCurrent h hstarted)
    rw [hcore]
    exact hstarted

def Fits (before target : Option LiveUser) : Prop :=
  target = none ∨ before = none ∨ before = target

theorem get?_attempt (hreply : reply.arrives) (hstarted : s.core.started)
    (hattempt : s.attempt call reply = (s', none)) (k : Tag × Email)
    (hhot : s.supportsHotSync k.1) :
    (k ≠ call.key → s'.core.users.get? k = s.core.users.get? k) ∧
    (k = call.key → Fits (s.core.users.get? k) call.result →
      s'.core.users.get? k = call.result) := by
  rw [attempt_of_arrives hreply, hstarted] at hattempt
  cases call with
  | add tag account =>
    split at hattempt
    · next hcold =>
        cases hattempt
        refine ⟨fun _ => rfl, ?_⟩
        rintro rfl
        exact absurd hhot hcold
    · have hadds := adds_apiAddUser s tag account true
      dsimp only at hattempt
      rw [hattempt] at hadds
      cases hadds with
      | records hsome =>
        refine ⟨fun _ => rfl, ?_⟩
        intro hk hbefore
        subst hk
        rcases hbefore with hremoves | hnone | hright
        · cases hremoves
        · have hsome := hsome rfl
          rw [show s.core.users.get? (tag, account.email) = none from hnone] at hsome
          cases hsome
        · exact hright
      | adds htag hnone =>
        constructor
        · intro hk
          exact (Dict.get?_set _ _ _ _).trans (if_neg hk)
        · intro hk _
          exact (Dict.get?_set _ _ _ _).trans (if_pos hk)
  | remove tag email =>
    split at hattempt
    · next hcold =>
        cases hattempt
        refine ⟨fun _ => rfl, ?_⟩
        rintro rfl
        exact absurd hhot hcold
    · cases hattempt
      constructor
      · intro hk
        exact (Dict.get?_erase _ _ _).trans (if_neg hk)
      · intro hk _
        exact (Dict.get?_erase _ _ _).trans (if_pos hk)

theorem get?_perform (hreplies : ∀ reply ∈ replies, reply.arrives) (hstarted : s.core.started)
    (hperform : s.perform calls replies = (s', none)) {target : Option LiveUser}
    (hhot : s.supportsHotSync k.1) (hcalls : ∀ call ∈ calls, call.key = k → call.result = target)
    (hbefore : Fits (s.core.users.get? k) target)
    (hreaches : (∃ call ∈ calls, call.key = k) ∨ s.core.users.get? k = target) :
    s'.core.users.get? k = target := by
  induction calls generalizing s replies with
  | nil =>
    cases hperform
    rcases hreaches with ⟨call, hcall, -⟩ | hright
    · cases hcall
    · exact hright
  | cons call rest ih =>
    have hhead : (replies.headD {}).arrives := by
      cases replies with
      | nil => rfl
      | cons reply _ => exact hreplies reply List.mem_cons_self
    rw [perform] at hperform
    split at hperform
    · next s₁ hattempt =>
        have hframe : SameFrame s (s.attempt call (replies.headD {})).1 :=
          sameFrame_attempt hhead
        rw [hattempt] at hframe
        obtain ⟨hother, hself⟩ := get?_attempt hhead hstarted hattempt k hhot
        refine ih (fun reply hreply => hreplies reply (List.mem_of_mem_tail hreply))
          (hframe.started.trans hstarted) hperform ((hframe.supportsHotSync k.1).trans hhot)
          (fun call' hcall' => hcalls call' (List.mem_cons_of_mem _ hcall')) ?_ ?_
        · by_cases hk : k = call.key
          · have hresult := hcalls call List.mem_cons_self hk.symm
            exact .inr (.inr ((hself hk (hresult ▸ hbefore)).trans hresult))
          · rw [hother hk]
            exact hbefore
        · by_cases hk : k = call.key
          · have hresult := hcalls call List.mem_cons_self hk.symm
            exact .inr ((hself hk (hresult ▸ hbefore)).trans hresult)
          · rw [hother hk]
            refine hreaches.imp_left ?_
            rintro ⟨call', hcall', hkey⟩
            rcases List.mem_cons.mp hcall' with rfl | hrest
            · exact absurd hkey.symm hk
            · exact ⟨call', hrest, hkey⟩
    · cases hperform

def keepsAccounts (s : Serving) (desired : Desired) : Bool :=
  desired.accounts.entries.all fun e => s.supportsHotSync e.1.1 →
    (s.core.users.get? e.1).all fun user => user = e.2.live

theorem result_of_mem_hotSyncCalls (h : call ∈ s.hotSyncCalls desired) :
    call.result = (desired.accounts.get? call.key).map Account.live := by
  rcases List.mem_append.mp h with h | h
  · obtain ⟨e, he, rfl⟩ := List.mem_map.mp h
    have hmem := (List.mem_filter.mp he).1
    have hkey : (ApiCall.add e.1.1 e.2).key = e.1 :=
      Prod.ext rfl (desired.keyed e hmem).symm
    rw [hkey, Dict.get?_eq_some_iff.mpr hmem]
    rfl
  · obtain ⟨k, hk, rfl⟩ := List.mem_map.mp h
    have hnot : k ∉ desired.accounts.keys := of_decide_eq_true (List.mem_filter.mp hk).2
    have hnone : desired.accounts.get? k = none := by
      rw [Option.eq_none_iff_forall_ne_some]
      intro account haccount
      exact hnot (List.mem_map_of_mem (f := Prod.fst) (Dict.get?_eq_some_iff.mp haccount))
    show none = (desired.accounts.get? k).map Account.live
    rw [hnone]
    rfl

theorem exists_hotSyncCall (h : ¬ (k ∈ s.registered ↔ k ∈ desired.accounts.keys)) :
    ∃ call ∈ s.hotSyncCalls desired, call.key = k := by
  by_cases hk : k ∈ s.registered
  · have hnot : k ∉ desired.accounts.keys := fun hmem => h ⟨fun _ => hmem, fun _ => hk⟩
    refine ⟨.remove k.1 k.2, List.mem_append_right _ (List.mem_map.mpr ⟨k, ?_, rfl⟩), rfl⟩
    exact List.mem_filter.mpr ⟨hk, decide_eq_true hnot⟩
  · have hmem : k ∈ desired.accounts.keys := by
      by_contra hnot
      exact h ⟨fun hreg => absurd hreg hk, fun hmem => absurd hmem hnot⟩
    obtain ⟨e, he, rfl⟩ := List.mem_map.mp hmem
    refine ⟨.add e.1.1 e.2, List.mem_append_left _ (List.mem_map.mpr ⟨e, ?_, rfl⟩),
      Prod.ext rfl (desired.keyed e he).symm⟩
    exact List.mem_filter.mpr ⟨he, decide_eq_true hk⟩

theorem get?_hotSync (h : s.Mirrors) (hreplies : ∀ reply ∈ replies, reply.arrives)
    (hstarted : s.core.started) (hkeeps : s.keepsAccounts desired)
    (hsync : s.hotSync desired replies = (s', .ok true)) (hhot : s.supportsHotSync k.1) :
    s'.core.users.get? k = (desired.accounts.get? k).map Account.live := by
  obtain ⟨hcore, hconfig, -⟩ := sameCore_ensureRegistryCurrent s
  have hmirror := mirror_ensureRegistryCurrent h hstarted
  have hhot' : s.ensureRegistryCurrent.supportsHotSync k.1 := by
    unfold Serving.supportsHotSync findInbound
    rw [hcore, hconfig]
    exact hhot
  have hin : k ∈ desired.accounts.keys ↔ ∃ account, desired.accounts.get? k = some account := by
    constructor
    · intro hk
      obtain ⟨e, he, rfl⟩ := List.mem_map.mp hk
      exact ⟨e.2, Dict.get?_eq_some_iff.mpr he⟩
    · rintro ⟨account, haccount⟩
      exact List.mem_map_of_mem (f := Prod.fst) (Dict.get?_eq_some_iff.mp haccount)
  -- what the core has at a desired key is the desired account
  have hsame : ∀ account user, desired.accounts.get? k = some account →
      s.core.users.get? k = some user → user = account.live := by
    intro account user haccount huser
    have hentry := List.all_eq_true.mp hkeeps _ (Dict.get?_eq_some_iff.mp haccount)
    have hall := of_decide_eq_true hentry hhot
    rw [huser] at hall
    exact of_decide_eq_true hall
  unfold hotSync at hsync
  dsimp only at hsync
  split at hsync
  · cases hsync
  · split at hsync
    · next s₁ hperform =>
        cases hsync
        refine get?_perform hreplies (by rw [hcore]; exact hstarted) hperform hhot' ?_ ?_ ?_
        · intro call hcall hkey
          rw [result_of_mem_hotSyncCalls hcall, hkey]
        · rw [hcore]
          cases haccount : desired.accounts.get? k with
          | none => exact .inl rfl
          | some account =>
            cases huser : s.core.users.get? k with
            | none => exact .inr (.inl rfl)
            | some user =>
              right; right
              rw [hsame account user haccount huser]
              rfl
        · by_cases hdiff : k ∈ s.ensureRegistryCurrent.registered ↔ k ∈ desired.accounts.keys
          · right
            rw [hmirror k, hin, hcore] at hdiff
            rw [hcore]
            cases huser : s.core.users.get? k with
            | none =>
              cases haccount : desired.accounts.get? k with
              | none => rfl
              | some account =>
                have hsome := hdiff.mpr ⟨account, haccount⟩
                rw [huser] at hsome
                cases hsome
            | some user =>
              obtain ⟨account, haccount⟩ := hdiff.mp (by rw [huser]; rfl)
              rw [haccount, hsame account user haccount huser]
              rfl
          · exact .inl (exists_hotSyncCall hdiff)
    · cases hsync

end Serving

namespace Panel

def ready (p : Panel) : Task → Bool
  | .built desired => p.serving.core.started && p.serving.keepsAccounts desired
  | _ => true

/-- A call is `ready` when it takes the lock, and what it sends arrives at the core that is there
then. -/
def mirrored (p : Panel) : ServingStep → Bool
  | .underLock t replies => replies.all Reply.arrives && (p.tasks[t]?).all p.ready
  | _ => true

theorem mirrors_init (users : UserTable) (config : Config) : (init users config).serving.Mirrors :=
  ⟨fun _ hg => absurd hg.symm (Option.some_ne_none _), fun hup => absurd hup Bool.false_ne_true,
    fun hup => absurd hup Bool.false_ne_true⟩

theorem mirrors_step {p p' : Panel} {a : ServingStep} (h : p.serving.Mirrors)
    (hok : p.mirrored a) (hstep : p.step a = some p') : p'.serving.Mirrors := by
  cases a with
  | commit users =>
    cases hstep
    exact h
  | configure config =>
    cases hstep
    exact ⟨h.behind, h.current, h.booted⟩
  | stop =>
    cases hstep
    exact ⟨h.behind, fun hup => absurd hup Bool.false_ne_true,
      fun hup => absurd hup Bool.false_ne_true⟩
  | restart booted =>
    cases hstep
    exact Serving.mirrors_restart h booted
  | hotSync alive | disconnect users alive | syncUser user alive =>
    cases hstep
    exact h
  | read t =>
    simp only [step] at hstep
    split at hstep
    · cases hstep
      exact h
    · cases hstep
  | underLock t replies =>
    obtain ⟨task, -, hrun⟩ := Option.bind_eq_some_iff.mp hstep
    obtain ⟨result, hresult, rfl⟩ := Option.map_eq_some_iff.mp hrun
    obtain ⟨calls, -, hcalls⟩ := runLocked_eq hresult
    rw [hcalls]
    exact Serving.mirrors_of_perform h (List.all_eq_true.mp (Bool.and_eq_true_iff.mp hok).1)

end Panel

/-- **The registry mirrors the core** in every run that meets `mirrored`. -/
theorem registry_mirrors_core (users : UserTable) (config : Config) (p p' : Panel) (t : Nat)
    (replies : List Reply) (desired : Desired)
    (hrun : Run Panel.step (fun p a => p.mirrored a) (Panel.init users config) p)
    (htask : p.tasks[t]? = some (.built desired)) (hok : p.mirrored (.underLock t replies))
    (hstep : p.step (.underLock t replies) = some p')
    (htrue : (p'.tasks[t]?).any Task.succeeded) (tag : Tag) (email : Email)
    (hhot : p'.serving.supportsHotSync tag) :
    p'.serving.core.users.get? (tag, email) =
      (desired.accounts.get? (tag, email)).map Account.live := by
  have h : p.serving.Mirrors :=
    hrun.invariant (fun p => p.serving.Mirrors) (Panel.mirrors_init users config)
      Panel.mirrors_step
  obtain ⟨hreplies, hready⟩ := Bool.and_eq_true_iff.mp hok
  rw [htask] at hready
  obtain ⟨hstarted, hkeeps⟩ := Bool.and_eq_true_iff.mp hready
  have hreplies := List.all_eq_true.mp hreplies
  obtain ⟨task, htask', hlocked⟩ := Option.bind_eq_some_iff.mp hstep
  obtain rfl := Option.some.inj (htask.symm.trans htask')
  obtain ⟨result, hresult, rfl⟩ := Option.map_eq_some_iff.mp hlocked
  obtain ⟨calls, -, hcalls⟩ := Panel.runLocked_eq hresult
  have hframe : Serving.SameFrame p.serving.ensureRegistryCurrent result.1 := by
    rw [hcalls]
    exact Serving.sameFrame_perform hreplies
  have hhot' : p.serving.supportsHotSync tag := by
    obtain ⟨hcore, hconfig, -⟩ := Serving.sameCore_ensureRegistryCurrent p.serving
    have hsame := hframe.supportsHotSync tag
    unfold Serving.supportsHotSync Serving.findInbound at hsame hhot ⊢
    rw [hcore, hconfig] at hsame
    exact hsame.symm.trans hhot
  have hset : ((p.tasks.set t (.returned result.2))[t]?).any Task.succeeded := htrue
  rw [List.getElem?_set_self (List.getElem?_eq_some_iff.mp htask).1] at hset
  have hok : result.2 = .ok true := by
    cases hvalue : result.2 with
    | error e =>
      rw [hvalue] at hset
      cases hset
    | ok b =>
      rw [hvalue] at hset
      exact congrArg Except.ok hset
  have hsync : p.serving.hotSync desired replies = (result.1, .ok true) := by
    rw [← hok]
    exact Option.some.inj hresult
  exact Serving.get?_hotSync h hreplies hstarted hkeeps hsync hhot'

def Panel.after (ok : Panel → ServingStep → Prop) [∀ p a, Decidable (ok p a)]
    (steps : List ServingStep) : Option Panel :=
  execGuarded Panel.step ok (.init (exampleUsers .active) exampleConfig)
    (.restart (exampleConfig.includeDbUsers [exampleUser 1 "ali" .active]) :: steps)

theorem missing_user_is_added :
    ∃ p p' desired, Panel.after (fun p a => p.mirrored a) [.hotSync true, .read 0, .read 0]
        = some p ∧
      p.tasks[0]? = some (.built desired) ∧ p.step (.underLock 0 []) = some p' ∧
      (desired.accounts.get? ("in", "2.sara")).isSome ∧
      p'.serving.core.users.get? ("in", "2.sara") =
        (desired.accounts.get? ("in", "2.sara")).map Account.live := by
  have hrun : (Panel.after (fun p a => p.mirrored a) [.hotSync true, .read 0, .read 0]).any
      (fun p => p.mirrored (.underLock 0 []) ∧ ((p.step (.underLock 0 [])).any fun p' =>
        (p'.tasks[0]?).any Task.succeeded ∧ p'.serving.supportsHotSync "in") ∧
        (p.tasks[0]?).any fun task =>
          match task with
          | .built desired => (desired.accounts.get? ("in", "2.sara")).isSome
          | _ => false) = true := by
    decide +kernel
  obtain ⟨p, hp, hstate⟩ := (Option.any_eq_true _ _).mp hrun
  obtain ⟨hok, hlocked, htasks⟩ := of_decide_eq_true hstate
  obtain ⟨p', hp', hafter⟩ := (Option.any_eq_true _ _).mp hlocked
  obtain ⟨htrue, hhot⟩ := of_decide_eq_true hafter
  obtain ⟨task, htask, hbuilt⟩ := (Option.any_eq_true _ _).mp htasks
  cases task with
  | built desired =>
    exact ⟨p, p', desired, hp, htask, hp', hbuilt,
      registry_mirrors_core _ _ p p' 0 [] desired (Run.of_execGuarded _ hp) htask hok hp' htrue
        "in" "2.sara" hhot⟩
  | reading | disconnecting | syncing | returned => cases hbuilt

def revokedUsers : UserTable where
  rows := [{ exampleUser 1 "ali" .active with
    proxies := [⟨.vless "99999999-2222-4333-8444-555555555555" .none, []⟩]
    types_nodup := by decide }]
  sorted := by simp

/-- A reconcile returns `True` without the user; and changed credentials are not pushed. -/
theorem registry_runs_ahead : (Panel.after (fun _ _ => True)
      [.hotSync true, .read 0, .read 0, .underLock 0 [{ reached := false }],
        .hotSync true, .read 1, .read 1, .underLock 1 []]).any (fun p =>
      (p.tasks[1]?).any Task.succeeded ∧ p.users.serves "2.sara" ∧
        p.serving.supportsHotSync "in" ∧
        (p.serving.core.users.get? ("in", "2.sara")).isNone) = true ∧
    (Panel.after (fun _ _ => True)
      [.commit revokedUsers, .hotSync true, .read 0, .read 0, .underLock 0 []]).any (fun p =>
      (p.tasks[0]?).any Task.succeeded ∧ p.serving.supportsHotSync "in" ∧
        (p.serving.core.users.get? ("in", "1.ali")).any fun user =>
          user.credentials = .vless "11111111-2222-4333-8444-555555555555") = true := by
  decide +kernel

end Shahkar.Xray
