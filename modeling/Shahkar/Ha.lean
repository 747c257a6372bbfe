import Shahkar.Lib.Transition
import Mathlib.Data.Fintype.Defs

/-!
# Leader election over a key with an expiry (`app/ha.py`)

Each instance takes the key with `SET NX PX` if it is free; otherwise it asks with `GET` whether the
key is its own, and if so renews it with an unconditional `SET PX`. Between two commands anything
may happen.
-/

namespace Shahkar.Ha

open Shahkar.Lib

/-!
### Instances and the key
-/

inductive Phase
  | acquire
  | check
  | renew
  | assign (leader : Bool)
  | waiting (till : Nat)
  deriving DecidableEq

structure Instance where
  phase : Phase := .acquire
  isLeader : Bool := true
  started : Bool := false
  lastSet : Option Nat := none

/-- The instances, named by their ids, and the key `shahkar:leader` with its value and expiry. Times
are in milliseconds. -/
structure Cluster (Id : Type) where
  now : Nat
  key : Option (Id × Nat)
  inst : Id → Instance

inductive Reply
  | arrived
  | lost
  | refused
  deriving DecidableEq

inductive Act (Id : Type)
  | elapse (ms : Nat)
  | command (i : Id) (reply : Reply)
  | assign (i : Id)
  | wake (i : Id)

def ttlMs (haLeaderTtl : Nat) : Nat := max haLeaderTtl 2 * 1000

def intervalMs (haLeaderTtl : Nat) : Nat := max (haLeaderTtl / 3) 1 * 1000

namespace Cluster

variable {Id : Type} [DecidableEq Id] (haLeaderTtl : Nat) (c : Cluster Id) (i : Id)

def init (now : Nat) (key : Option (Id × Nat)) : Cluster Id where
  now
  key
  inst _ := {}

def holder : Option Id := (c.key.filter fun k => c.now < k.2).map Prod.fst

def update (f : Instance → Instance) : Cluster Id :=
  { c with inst := fun j => if j = i then f (c.inst j) else c.inst j }

def put : Cluster Id :=
  { c with key := some (i, c.now + ttlMs haLeaderTtl) }.update i
    fun s => { s with lastSet := some c.now }

def execute : Option (Cluster Id × Phase) :=
  match (c.inst i).phase with
  | .acquire =>
    if c.holder = none then some (c.put haLeaderTtl i, .assign true) else some (c, .check)
  | .check => some (c, if c.holder = some i then .renew else .assign false)
  | .renew => some (c.put haLeaderTtl i, .assign true)
  | .assign _ | .waiting _ => none

def setPhase (phase : Phase) : Cluster Id := c.update i fun s => { s with phase }

/-- One command of an instance, with its reply, or the passing of time. -/
def step : Act Id → Option (Cluster Id)
  | .elapse ms => some { c with now := c.now + ms }
  | .command i reply =>
    (c.execute haLeaderTtl i).map fun (executed, next) =>
      match reply with
      | .arrived => executed.setPhase i next
      -- an exception: `leader = False`
      | .lost => executed.setPhase i (.assign false)
      | .refused => c.setPhase i (.assign false)
  | .assign i =>
    match (c.inst i).phase with
    | .assign leader => some (c.update i fun s =>
      { s with
        phase := .waiting (c.now + intervalMs haLeaderTtl)
        isLeader := leader
        started := true })
    | _ => none
  | .wake i =>
    match (c.inst i).phase with
    | .waiting till => if till ≤ c.now then some (c.setPhase i .acquire) else none
    | _ => none

def leads : Bool := (c.inst i).started && (c.inst i).isLeader

def fresh (t : Nat) : Bool := (c.inst i).lastSet.any fun set => t < set + ttlMs haLeaderTtl

/-- An instance whose flag is set executes its next `SET`, or clears the flag, before its last `SET`
expires. -/
def punctual : Act Id → Prop
  | .elapse ms => ∀ i, c.leads i → c.fresh haLeaderTtl i (c.now + ms)
  | .assign i => (c.inst i).phase = .assign true → c.fresh haLeaderTtl i c.now
  | .command _ _ | .wake _ => True

/-- A renewal is executed before the last `SET` of the instance expires, whether it leads or not. -/
def renewsInTime : Act Id → Prop
  | .command i reply =>
    (c.inst i).phase = .renew → reply ≠ .refused → c.fresh haLeaderTtl i c.now
  | .elapse _ | .assign _ | .wake _ => True

instance [Fintype Id] (a : Act Id) : Decidable (c.punctual haLeaderTtl a) := by
  cases a <;> unfold punctual <;> infer_instance

instance (a : Act Id) : Decidable (c.renewsInTime haLeaderTtl a) := by
  cases a <;> unfold renewsInTime <;> infer_instance

structure Leased : Prop where
  held : ∀ i set, (c.inst i).lastSet = some set → c.now < set + ttlMs haLeaderTtl →
    c.key = some (i, set + ttlMs haLeaderTtl)
  leads : ∀ i, c.leads i → c.fresh haLeaderTtl i c.now

variable {haLeaderTtl c i} {j : Id} {f : Instance → Instance} {phase : Phase}

@[simp] theorem inst_update :
    (c.update i f).inst j = if j = i then f (c.inst j) else c.inst j := rfl

@[simp] theorem key_update : (c.update i f).key = c.key := rfl

@[simp] theorem now_update : (c.update i f).now = c.now := rfl

@[simp] theorem key_put : (c.put haLeaderTtl i).key = some (i, c.now + ttlMs haLeaderTtl) := rfl

@[simp] theorem now_put : (c.put haLeaderTtl i).now = c.now := rfl

@[simp] theorem inst_put :
    (c.put haLeaderTtl i).inst j =
      if j = i then { c.inst j with lastSet := some c.now } else c.inst j := rfl

theorem ttlMs_pos : 0 < ttlMs haLeaderTtl := by
  unfold ttlMs
  omega

omit [DecidableEq Id] in
theorem fresh_iff {t : Nat} : c.fresh haLeaderTtl i t ↔
    ∃ set, (c.inst i).lastSet = some set ∧ t < set + ttlMs haLeaderTtl := by
  simp [fresh, Option.any_eq_true]

omit [DecidableEq Id] in
theorem Leased.holder (h : c.Leased haLeaderTtl) (hi : c.fresh haLeaderTtl i c.now) :
    c.holder = some i := by
  obtain ⟨set, hset, hlive⟩ := fresh_iff.mp hi
  simp [Cluster.holder, h.held i set hset hlive, hlive]

omit [DecidableEq Id] in
theorem leased_init (now : Nat) (key : Option (Id × Nat)) : (init now key).Leased haLeaderTtl where
  held _ _ hset := nomatch hset
  leads _ hi := nomatch hi

theorem Leased.update (h : c.Leased haLeaderTtl) (hset : ∀ s, (f s).lastSet = s.lastSet)
    (hleads : (f (c.inst i)).started → (f (c.inst i)).isLeader → c.fresh haLeaderTtl i c.now) :
    (c.update i f).Leased haLeaderTtl := by
  have hlast : ∀ j, ((c.update i f).inst j).lastSet = (c.inst j).lastSet := by
    intro j
    rw [inst_update]
    split <;> simp [hset]
  refine ⟨fun j set hj => ?_, fun j hj => ?_⟩
  · rw [hlast] at hj
    exact h.held j set hj
  · rw [fresh, hlast, now_update]
    by_cases hji : j = i
    · subst hji
      simp only [Cluster.leads, inst_update, if_pos, Bool.and_eq_true] at hj
      exact hleads hj.1 hj.2
    · simp only [Cluster.leads, inst_update, if_neg hji] at hj
      exact h.leads j hj

theorem Leased.setPhase (h : c.Leased haLeaderTtl) : (c.setPhase i phase).Leased haLeaderTtl := by
  refine h.update (fun _ => rfl) fun hstarted hleader => h.leads i ?_
  rw [Cluster.leads, hstarted, hleader]
  rfl

theorem Leased.put (h : c.Leased haLeaderTtl) (hfree : ∀ j, c.holder = some j → j = i) :
    (c.put haLeaderTtl i).Leased haLeaderTtl := by
  have hother : ∀ j, c.fresh haLeaderTtl j c.now → j = i := fun j hj => hfree j (h.holder hj)
  constructor
  · intro j set hset hlive
    rw [inst_put] at hset
    by_cases hji : j = i
    · rw [if_pos hji, Option.some.injEq] at hset
      rw [key_put, hji, hset]
    · rw [if_neg hji] at hset
      exact absurd (hother j (fresh_iff.mpr ⟨set, hset, hlive⟩)) hji
  · intro j hj
    rw [fresh, inst_put]
    by_cases hji : j = i
    · simp [hji, ttlMs_pos]
    · rw [Cluster.leads, inst_put, if_neg hji] at hj
      exact absurd (hother j (h.leads j hj)) hji

omit [DecidableEq Id] in
theorem Leased.elapse {ms : Nat} (h : c.Leased haLeaderTtl)
    (hok : ∀ i, c.leads i → c.fresh haLeaderTtl i (c.now + ms)) :
    ({ c with now := c.now + ms } : Cluster Id).Leased haLeaderTtl where
  held i set hset hlive := h.held i set hset (by dsimp only at hlive; omega)
  leads i hi := hok i hi

theorem Leased.execute {executed : Cluster Id} {next : Phase} (h : c.Leased haLeaderTtl)
    (hrenew : (c.inst i).phase = .renew → c.fresh haLeaderTtl i c.now)
    (hexec : c.execute haLeaderTtl i = some (executed, next)) : executed.Leased haLeaderTtl := by
  unfold Cluster.execute at hexec
  cases hphase : (c.inst i).phase with
  | acquire =>
    simp only [hphase] at hexec
    split at hexec
    · next hfree =>
        obtain ⟨rfl, -⟩ := hexec
        exact h.put fun j hj => by simp [hfree] at hj
    · obtain ⟨rfl, -⟩ := hexec
      exact h
  | check =>
    simp only [hphase] at hexec
    obtain ⟨rfl, -⟩ := hexec
    exact h
  | renew =>
    simp only [hphase] at hexec
    obtain ⟨rfl, -⟩ := hexec
    have hown := h.holder (hrenew hphase)
    refine h.put fun j hj => ?_
    rw [hown, Option.some.injEq] at hj
    exact hj.symm
  | assign leader | waiting till => simp [hphase] at hexec

theorem leased_step {c' : Cluster Id} {a : Act Id} (h : c.Leased haLeaderTtl)
    (hpunctual : c.punctual haLeaderTtl a) (hrenews : c.renewsInTime haLeaderTtl a)
    (hstep : c.step haLeaderTtl a = some c') : c'.Leased haLeaderTtl := by
  cases a with
  | elapse ms =>
    obtain rfl := Option.some.inj hstep
    exact h.elapse hpunctual
  | command i reply =>
    obtain ⟨⟨executed, next⟩, hexec, rfl⟩ := Option.map_eq_some_iff.mp hstep
    cases reply with
    | arrived | lost =>
      exact (h.execute (fun hphase => hrenews hphase (by decide)) hexec).setPhase
    | refused => exact h.setPhase
  | assign i =>
    cases hphase : (c.inst i).phase with
    | assign leader =>
      simp only [step, hphase, Option.some.injEq] at hstep
      obtain rfl := hstep
      refine h.update (fun _ => rfl) fun _ hleader => hpunctual ?_
      rw [hphase, show leader = true from hleader]
    | _ => simp [step, hphase] at hstep
  | wake i =>
    cases hphase : (c.inst i).phase with
    | waiting till =>
      simp only [step, hphase, Option.ite_none_right_eq_some, Option.some.injEq] at hstep
      obtain ⟨-, rfl⟩ := hstep
      exact h.setPhase
    | _ => simp [step, hphase] at hstep

/-- **At most one leader**, if leaders are punctual and renewals in time. -/
theorem at_most_one_leader {Id : Type} [DecidableEq Id] (haLeaderTtl now : Nat)
    (key : Option (Id × Nat)) (c : Cluster Id)
    (hrun : Run (step haLeaderTtl)
      (fun c a => c.punctual haLeaderTtl a ∧ c.renewsInTime haLeaderTtl a) (init now key) c)
    (i j : Id) (hi : c.leads i) (hj : c.leads j) : i = j := by
  have hleased : c.Leased haLeaderTtl :=
    hrun.invariant (Leased haLeaderTtl) (leased_init now key) fun h hok => leased_step h hok.1 hok.2
  have hholder := hleased.holder (hleased.leads i hi)
  rw [hleased.holder (hleased.leads j hj), Option.some.injEq] at hholder
  exact hholder.symm

def firstLeads : List (Act Bool) :=
  [.command true .arrived, .assign true,
    .command false .arrived, .command false .arrived, .assign false]

theorem renewed_leader_is_alone :
    ∃ c : Cluster Bool, Run (step 15)
        (fun c a => c.punctual 15 a ∧ c.renewsInTime 15 a) (init 0 none) c ∧
      c.now = 5000 ∧ c.leads true ∧ ∀ i, c.leads i → i = true := by
  have hexec : (execGuarded (step 15) (fun c a => c.punctual 15 a ∧ c.renewsInTime 15 a)
      (init 0 none) (firstLeads ++ [.elapse 5000, .wake true, .command true .arrived,
        .command true .arrived, .command true .arrived, .assign true])).any
      (fun c => c.now = 5000 ∧ c.leads true) = true := by
    decide +kernel
  obtain ⟨c, hc, hend⟩ := (Option.any_eq_true _ _).mp hexec
  obtain ⟨hnow, hleads⟩ := of_decide_eq_true hend
  have hrun := Run.of_execGuarded _ hc
  exact ⟨c, hrun, hnow, hleads, fun i hi => at_most_one_leader 15 0 none c hrun i true hi hleads⟩

/-- **Two leaders**: a late `SET` overwrites the key of the second. -/
theorem renewal_after_expiry :
    ∃ c : Cluster Bool, Run (step 15) (punctual 15) (init 0 none) c ∧
      c.leads true ∧ c.leads false := by
  have hexec : (execGuarded (step 15) (fun c a => c.punctual 15 a) (init 0 none)
      (firstLeads ++ [.elapse 5000, .wake true, .command true .arrived, .command true .refused,
        .assign true, .elapse 5000, .wake true, .command true .arrived, .command true .arrived,
        .elapse 5000, .wake false, .command false .arrived, .assign false,
        .command true .arrived, .assign true])).any
      (fun c => c.leads true && c.leads false) = true := by
    decide +kernel
  obtain ⟨c, hc, hend⟩ := (Option.any_eq_true _ _).mp hexec
  exact ⟨c, Run.of_execGuarded _ hc, Bool.and_eq_true_iff.mp hend⟩

def Lapses (haLeaderTtl : Nat) (c : Cluster Id) : Prop :=
  ∀ k ∈ c.key, k.2 ≤ c.now + ttlMs haLeaderTtl

theorem lapses_step {c' : Cluster Id} {a : Act Id} (h : c.Lapses haLeaderTtl)
    (hstep : c.step haLeaderTtl a = some c') : c'.Lapses haLeaderTtl := by
  cases a with
  | elapse ms =>
    obtain rfl := Option.some.inj hstep
    exact fun k hk => (h k hk).trans (by dsimp only; omega)
  | command i reply =>
    obtain ⟨⟨executed, next⟩, hexec, rfl⟩ := Option.map_eq_some_iff.mp hstep
    have hexecuted : executed.Lapses haLeaderTtl := by
      have hput : (c.put haLeaderTtl i).Lapses haLeaderTtl := by simp [Lapses]
      unfold execute at hexec
      grind
    cases reply with
    | arrived | lost => exact hexecuted
    | refused => exact h
  | assign i | wake i =>
    simp only [step] at hstep
    grind [Lapses, setPhase, key_update, now_update]

/-- The key is not written: a command does not get through, only reads the key, or finds it taken. -/
def unwritten (c : Cluster Id) : Act Id → Prop
  | .command i reply => reply = .refused ∨ (c.inst i).phase = .check ∨
      (c.inst i).phase = .acquire ∧ c.holder ≠ none
  | .elapse _ | .assign _ | .wake _ => True

instance (c : Cluster Id) (a : Act Id) : Decidable (c.unwritten a) := by
  cases a <;> unfold unwritten <;> infer_instance

theorem key_of_unwritten {c' : Cluster Id} {a : Act Id} (h : c.unwritten a)
    (hstep : c.step haLeaderTtl a = some c') : c'.key = c.key := by
  cases a with
  | elapse ms =>
    obtain rfl := Option.some.inj hstep
    rfl
  | command i reply =>
    obtain ⟨⟨executed, next⟩, hexec, rfl⟩ := Option.map_eq_some_iff.mp hstep
    have hkey : reply = .refused ∨ executed = c := by
      rcases h with rfl | hcheck | ⟨hacquire, hheld⟩
      · exact Or.inl rfl
      · simp only [execute, hcheck, Option.some.injEq, Prod.mk.injEq] at hexec
        exact Or.inr hexec.1.symm
      · simp only [execute, hacquire, if_neg hheld, Option.some.injEq, Prod.mk.injEq] at hexec
        exact Or.inr hexec.1.symm
    rcases hkey with rfl | rfl
    · rfl
    · cases reply <;> rfl
  | assign i | wake i =>
    simp only [step] at hstep
    grind [setPhase, key_update]

theorem key_of_silence {c' : Cluster Id}
    (hrun : Run (step haLeaderTtl) unwritten c c') : c'.key = c.key :=
  hrun.invariant (fun c' => c'.key = c.key) rfl fun h hok hstep =>
    (key_of_unwritten hok hstep).trans h

/-- An instance that has the answer keeps it until it writes down its role. -/
theorem phase_of_step {c' : Cluster Id} {a : Act Id} {leader : Bool}
    (hphase : (c.inst i).phase = .assign leader) (ha : a ≠ .assign i)
    (hstep : c.step haLeaderTtl a = some c') : (c'.inst i).phase = .assign leader := by
  cases a with
  | elapse ms =>
    obtain rfl := Option.some.inj hstep
    exact hphase
  | command j reply =>
    obtain ⟨⟨executed, next⟩, hexec, rfl⟩ := Option.map_eq_some_iff.mp hstep
    have hji : i ≠ j := by
      rintro rfl
      simp [execute, hphase] at hexec
    have hexecuted : (executed.inst i).phase = .assign leader := by
      unfold execute at hexec
      grind [inst_put]
    cases reply <;> simpa [setPhase, hji]
  | assign j | wake j =>
    simp only [step] at hstep
    grind [setPhase, inst_update]

/-- **A dead leader is replaced**: if the key is not written for its lifetime, whoever sleeps, wakes
or asks in vain meanwhile, the next instance whose acquire command arrives holds the key and leads
as soon as it writes down its role. -/
theorem dead_leader_replaced {now : Nat} {key : Option (Id × Nat)} {c' : Cluster Id}
    (hkey : (init now key).Lapses haLeaderTtl)
    (hrun : Run (step haLeaderTtl) (fun _ _ => True) (init now key) c)
    (hsilence : Run (step haLeaderTtl) unwritten c c')
    (hlong : c.now + ttlMs haLeaderTtl ≤ c'.now) (hphase : (c'.inst i).phase = .acquire) :
    ∃ c₁, c'.step haLeaderTtl (.command i .arrived) = some c₁ ∧ c₁.holder = some i ∧
      ∀ c₂, Run (step haLeaderTtl) (fun _ a => a ≠ .assign i) c₁ c₂ →
        (c₂.step haLeaderTtl (.assign i)).any (·.leads i) := by
  have hlapses : c.Lapses haLeaderTtl :=
    hrun.invariant (Lapses haLeaderTtl) hkey fun h _ => lapses_step h
  have hfree : c'.holder = none := by
    rw [holder, Option.map_eq_none_iff, Option.filter_eq_none_iff, key_of_silence hsilence]
    intro k hk
    have := hlapses k hk
    simpa using by omega
  refine ⟨(c'.put haLeaderTtl i).setPhase i (.assign true), ?_, ?_, fun c₂ hwait => ?_⟩
  · simp [step, execute, hphase, hfree]
  · simp [holder, setPhase, ttlMs_pos]
  · have hassign := hwait.invariant (fun c => (c.inst i).phase = .assign true)
      (by simp [setPhase]) fun h ha hstep => phase_of_step h ha hstep
    simp [step, hassign, leads]

/-- The follower sleeps, asks for the key in vain and sleeps again before it takes over. -/
theorem crashed_leader_replaced :
    ∃ c' c₁ : Cluster Bool, Run (step 15) unwritten (init 0 (some (true, 15000))) c' ∧
      c'.now = 15000 ∧ c'.step 15 (.command false .arrived) = some c₁ ∧ c₁.holder = some false ∧
      (c₁.step 15 (.assign false)).any (·.leads false) := by
  have hexec : (execGuarded (step 15) unwritten (init 0 (some (true, 15000)))
      [.elapse 9000, .command false .arrived, .command false .arrived, .assign false,
        .elapse 6000, .wake false]).any
      (fun c => c.now = 15000 ∧ (c.inst false).phase = .acquire) = true := by
    decide +kernel
  obtain ⟨c', hc', hend⟩ := (Option.any_eq_true _ _).mp hexec
  obtain ⟨hnow, hphase⟩ := of_decide_eq_true hend
  have hkey : (init 0 (some (true, 15000))).Lapses 15 := by simp [Lapses, init, ttlMs]
  have hrun := Run.of_execGuarded _ hc'
  obtain ⟨c₁, hstep, hholder, hleads⟩ := dead_leader_replaced hkey .init hrun hnow.ge hphase
  exact ⟨c', c₁, hrun, hnow, hstep, hholder, hleads c₁ .init⟩

end Cluster

end Shahkar.Ha
