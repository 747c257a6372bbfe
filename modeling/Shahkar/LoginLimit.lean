import Shahkar.Lib.Transition
import Mathlib.Algebra.Order.Ring.Nat

/-!
The login limiter of one client address: the budget is read by `enforce_login_rate_limit` and
charged by `record_login_failure`, in Redis or in the memory of the worker process that serves the
request. Requests interleave at every command; a command of Redis is answered, carried out without
an answer, or not carried out.
-/

namespace Shahkar.LoginLimit

open Shahkar.Lib

inductive Phase
  | absent
  | enforcing (now : Nat)
  | checking (now : Nat)
  | admitted
  | failed
  | recording (now : Nat)
  | expiring (now : Nat)
  | memorizing (now : Nat)
  | rejected
  | done
  deriving DecidableEq

def Phase.over : Phase → Bool
  | absent | rejected | done => true
  | _ => false

inductive Reply
  | answered
  | lost
  | failed
  deriving DecidableEq

inductive Op
  | arrive
  | get (answered : Bool)
  | checkMemory
  | fail
  | record
  | incr (reply : Reply)
  | expire (reply : Reply)
  | memorize

/-- The counter in Redis with its deadline, the list each worker process keeps in memory, and the
times at which a password was found wrong. -/
structure Stores where
  clock : Nat := 0
  counter : Option (Nat × Option Nat) := none
  attempts : Nat → List Nat := fun _ => []
  failures : List Nat := []

namespace Stores

def live (t : Stores) : Option (Nat × Option Nat) :=
  t.counter.filter fun e => e.2.all (t.clock < ·)

def count (t : Stores) : Nat := (t.live.map Prod.fst).getD 0

def incr (t : Stores) : Stores := { t with counter := some (t.count + 1, t.live.bind Prod.snd) }

def expire (window : Nat) (t : Stores) : Stores :=
  { t with counter := t.live.map fun e => (e.1, some (t.clock + window)) }

def recent (window now w : Nat) (t : Stores) : List Nat :=
  (t.attempts w).filter fun time => now < time + window

def memorize (w : Nat) (times : List Nat) (t : Stores) : Stores :=
  { t with attempts := Function.update t.attempts w times }

theorem attempts_memorize (w : Nat) (times : List Nat) (t : Stores) :
    (t.memorize w times).attempts = Function.update t.attempts w times := rfl

/-- The failures of the last window. -/
def lately (window : Nat) (t : Stores) : Nat :=
  t.failures.countP fun f => t.clock < f + window

end Stores

section System

variable (maxAttempts window : Nat)

/-- One step of a request that worker `w` serves. -/
def react (w : Nat) (t : Stores) : Phase → Op → Option (Stores × Phase)
  | .absent, .arrive => some (t, .enforcing t.clock)
  | .enforcing _, .get true => some (t, if maxAttempts ≤ t.count then .rejected else .admitted)
  | .enforcing now, .get false => some (t, .checking now)
  | .checking now, .checkMemory =>
    some (t.memorize w (t.recent window now w),
      if maxAttempts ≤ (t.recent window now w).length then .rejected else .admitted)
  | .admitted, .fail => some ({ t with failures := t.failures ++ [t.clock] }, .failed)
  | .failed, .record => some (t, .recording t.clock)
  | .recording now, .incr .answered =>
    some (t.incr, if t.incr.count = 1 then .expiring now else .done)
  | .recording now, .incr .lost => some (t.incr, .memorizing now)
  | .recording now, .incr .failed => some (t, .memorizing now)
  | .expiring _, .expire .answered => some (t.expire window, .done)
  | .expiring now, .expire .lost => some (t.expire window, .memorizing now)
  | .expiring now, .expire .failed => some (t, .memorizing now)
  | .memorizing now, .memorize =>
    some (t.memorize w (t.recent window now w ++ [now]), .done)
  | _, _ => none

structure Limiter where
  stores : Stores := {}
  phase : Nat → Phase := fun _ => .absent
  lastActive : Nat := 0

inductive Act
  | tick (d : Nat)
  | op (i : Nat) (op : Op)

/-- Time passes, or a request takes its next step in its worker. -/
def step (worker : Nat → Nat) (s : Limiter) : Act → Option Limiter
  | .tick d => some { s with stores := { s.stores with clock := s.stores.clock + d } }
  | .op i op => (react maxAttempts window (worker i) s.stores (s.phase i) op).map fun e =>
      { stores := e.1, phase := Function.update s.phase i e.2, lastActive := s.stores.clock }

end System

variable {maxAttempts window w : Nat} {worker : Nat → Nat} {s s' : Limiter} {t t' : Stores}
  {p p' : Phase} {op : Op}

/-- No request arrives while another is under way, and the store a request is about to ask has as
many failures as there were in the last window. -/
def Informed (window : Nat) (worker : Nat → Nat) (s : Limiter) : Act → Prop
  | .op _ .arrive => ∀ j, (s.phase j).over
  | .op _ (.get true) => s.stores.lately window ≤ s.stores.count
  | .op i .checkMemory => s.stores.lately window ≤
      (s.stores.attempts (worker i)).countP fun time => s.stores.clock < time + window
  | _ => True

def PhaseOk (maxAttempts window : Nat) (t : Stores) : Phase → Prop
  | .enforcing now | .checking now => now ≤ t.clock
  | .admitted => t.lately window < maxAttempts
  | _ => True

structure Fits (maxAttempts window : Nat) (t : Stores) (p : Phase) : Prop where
  phase : PhaseOk maxAttempts window t p
  bounded : ∀ start, t.failures.countP (fun f => start ≤ f ∧ f < start + window) ≤ maxAttempts

theorem Fits.tick (h : Fits maxAttempts window t p) (d : Nat) :
    Fits maxAttempts window { t with clock := t.clock + d } p := by
  refine ⟨?_, h.bounded⟩
  have hphase := h.phase
  cases p with
  | enforcing now => exact Nat.le_add_right_of_le hphase
  | checking now => exact Nat.le_add_right_of_le hphase
  | admitted =>
    -- the failures of the last window only get fewer as time passes
    refine Nat.lt_of_le_of_lt (List.countP_mono_left fun f _ hf => ?_) hphase
    rw [decide_eq_true_eq] at hf ⊢
    exact Nat.lt_of_le_of_lt (Nat.le_add_right _ _) hf
  | _ => trivial

theorem Fits.fail (h : Fits maxAttempts window t .admitted) :
    Fits maxAttempts window { t with failures := t.failures ++ [t.clock] } .failed := by
  refine ⟨trivial, fun start => ?_⟩
  rw [List.countP_append, List.countP_singleton]
  split
  · next hin =>
    rw [decide_eq_true_eq] at hin
    have hfew : t.failures.countP (fun f => start ≤ f ∧ f < start + window) ≤ t.lately window :=
      List.countP_mono_left fun f _ hf => by
        rw [decide_eq_true_eq] at hf ⊢
        omega
    exact Nat.succ_le_of_lt (Nat.lt_of_le_of_lt hfew h.phase)
  · exact h.bounded start

theorem Fits.checkMemory {now : Nat} (h : Fits maxAttempts window t (.checking now))
    (hinformed : t.lately window ≤
      (t.attempts w).countP fun time => t.clock < time + window) :
    Fits maxAttempts window (t.memorize w (t.recent window now w))
      (if maxAttempts ≤ (t.recent window now w).length then .rejected else .admitted) := by
  split
  · exact ⟨trivial, h.bounded⟩
  · next hroom =>
    refine ⟨Nat.lt_of_le_of_lt (hinformed.trans ?_) (Nat.lt_of_not_le hroom), h.bounded⟩
    rw [Stores.recent, ← List.countP_eq_length_filter]
    refine List.countP_mono_left fun time _ htime => ?_
    rw [decide_eq_true_eq] at htime ⊢
    exact Nat.lt_of_le_of_lt h.phase htime

theorem Fits.react {i : Nat} (h : Fits maxAttempts window s.stores p)
    (hinformed : Informed window worker s (.op i op))
    (hreact : react maxAttempts window (worker i) s.stores p op = some (t', p')) :
    Fits maxAttempts window t' p' := by
  unfold LoginLimit.react at hreact
  split at hreact <;> simp only [Option.some.injEq, Prod.mk.injEq, reduceCtorEq] at hreact <;>
    obtain ⟨rfl, rfl⟩ := hreact
  case h_1 => exact ⟨le_rfl, h.bounded⟩
  case h_2 =>
    refine ⟨?_, h.bounded⟩
    split
    · trivial
    · next hroom => exact Nat.lt_of_le_of_lt hinformed (Nat.lt_of_not_le hroom)
  case h_3 => exact ⟨h.phase, h.bounded⟩
  case h_4 => exact h.checkMemory hinformed
  case h_5 => exact h.fail
  case h_7 =>
    refine ⟨?_, h.bounded⟩
    split <;> trivial
  all_goals exact ⟨trivial, h.bounded⟩

def Sequential (maxAttempts window : Nat) (s : Limiter) : Prop :=
  ∃ i, (∀ j, j ≠ i → (s.phase j).over) ∧ Fits maxAttempts window s.stores (s.phase i)

theorem over_of_react_ne_arrive (h : react maxAttempts window w t p op = some (t', p'))
    (hne : op ≠ .arrive) : p.over = false := by
  unfold react at h
  split at h <;> simp_all [Phase.over]

theorem Sequential.step (h : Sequential maxAttempts window s) {a : Act}
    (hinformed : Informed window worker s a)
    (hstep : step maxAttempts window worker s a = some s') :
    Sequential maxAttempts window s' := by
  obtain ⟨i, hothers, hfits⟩ := h
  cases a with
  | tick d =>
    obtain rfl := Option.some.inj hstep
    exact ⟨i, hothers, hfits.tick d⟩
  | op k op =>
    obtain ⟨⟨t', p'⟩, hreact, rfl⟩ := Option.map_eq_some_iff.mp hstep
    -- the request that moves is the one that is not over
    have hmoves : (∀ j, j ≠ k → (s.phase j).over) ∧
        Fits maxAttempts window s.stores (s.phase k) := by
      by_cases harrive : op = .arrive
      · subst harrive
        have hover : ∀ j, (s.phase j).over := hinformed
        refine ⟨fun j _ => hover j, ?_, hfits.bounded⟩
        have := hover k
        cases hphase : s.phase k <;> simp_all [Phase.over, PhaseOk]
      · have hactive := over_of_react_ne_arrive hreact harrive
        obtain rfl : k = i := by
          by_contra hne
          rw [hothers k hne] at hactive
          cases hactive
        exact ⟨hothers, hfits⟩
    refine ⟨k, fun j hj => ?_, ?_⟩
    · change (Function.update s.phase k p' j).over = true
      rw [Function.update_of_ne hj]
      exact hmoves.1 j hj
    · change Fits maxAttempts window t' (Function.update s.phase k p' k)
      rw [Function.update_self]
      exact hmoves.2.react hinformed hreact

/-- An INCR that is carried out is answered, and EXPIRE is carried out. -/
def Dated (_ : Limiter) : Act → Prop
  | .op _ (.incr reply) => reply ≠ .lost
  | .op _ (.expire reply) => reply ≠ .failed
  | _ => True

def Phase.now? : Phase → Option Nat
  | recording now | expiring now | memorizing now => some now
  | _ => none

structure Recent (window : Nat) (s : Limiter) : Prop where
  active : s.lastActive ≤ s.stores.clock
  phase : ∀ i, ∀ now ∈ (s.phase i).now?, now ≤ s.lastActive
  attempts : ∀ w, ∀ time ∈ s.stores.attempts w, time ≤ s.lastActive
  deadline : ∀ n d, s.stores.counter = some (n, some d) → d ≤ s.lastActive + window
  undated : ∀ n, s.stores.counter = some (n, none) → ∃ i now, s.phase i = .expiring now

theorem Stores.counter_of_live {e : Nat × Option Nat} (h : t.live = some e) : t.counter = some e :=
  (Option.filter_eq_some_iff.mp h).1

theorem Stores.count_incr (h : t.live = none) : t.incr.count = 1 := by
  have hcounter : t.incr.counter = some (1, none) := by
    rw [incr, count, h]
    rfl
  rw [count, live, hcounter]
  rfl

theorem Stores.of_incr_counter {n : Nat} {d : Option Nat} (h : t.incr.counter = some (n, d)) :
    (∃ m, t.counter = some (m, d)) ∨ d = none ∧ t.incr.count = 1 := by
  obtain ⟨-, rfl⟩ := Prod.mk.inj (Option.some.inj h)
  cases hlive : t.live with
  | some e => exact Or.inl ⟨e.1, counter_of_live hlive⟩
  | none => exact Or.inr ⟨rfl, count_incr hlive⟩

structure Kept (window : Nat) (t t' : Stores) (p p' : Phase) : Prop where
  clock : t'.clock = t.clock
  phase : ∀ now ∈ p'.now?, now ∈ p.now? ∨ now = t.clock
  attempts : ∀ w, ∀ time ∈ t'.attempts w, time ∈ t.attempts w ∨ time ∈ p.now?
  deadline : ∀ n d, t'.counter = some (n, some d) →
    (∃ m, t.counter = some (m, some d)) ∨ d = t.clock + window
  undated : ∀ n, t'.counter = some (n, none) →
    (∃ now, p' = .expiring now) ∨ (∀ now, p ≠ .expiring now) ∧ ∃ m, t.counter = some (m, none)

theorem Stores.mem_memorize {w' time : Nat} {times : List Nat}
    (h : time ∈ (t.memorize w times).attempts w') : time ∈ times ∧ w' = w ∨ time ∈ t.attempts w' := by
  by_cases hw : w' = w
  · subst hw
    rw [attempts_memorize, Function.update_self] at h
    exact Or.inl ⟨h, rfl⟩
  · rw [attempts_memorize, Function.update_of_ne hw] at h
    exact Or.inr h

theorem kept_expire {q : Phase} (hq : ∀ now ∈ q.now?, now ∈ p.now?) :
    Kept window t (t.expire window) p q := by
  refine ⟨rfl, fun now hnow => Or.inl (hq now hnow), fun _ _ => Or.inl, fun n d hd => ?_,
    fun n hn => ?_⟩
  · obtain ⟨e, -, he⟩ := Option.map_eq_some_iff.mp hd
    exact Or.inr (by simpa using (congrArg Prod.snd he).symm)
  · obtain ⟨e, -, he⟩ := Option.map_eq_some_iff.mp hn
    cases he

theorem kept_of_react {i : Nat} (hdated : Dated s (.op i op))
    (h : react maxAttempts window w t p op = some (t', p')) : Kept window t t' p p' := by
  unfold react at h
  split at h <;> simp only [Option.some.injEq, Prod.mk.injEq, reduceCtorEq] at h <;>
    obtain ⟨rfl, rfl⟩ := h
  -- the arms of `react` that touch a store; the others only move the phase
  case h_7 now => -- an answered INCR
    refine ⟨rfl, fun time htime => ?_, fun _ _ => Or.inl, fun n d hd => ?_, fun n hn => ?_⟩
    · split at htime
      exacts [Or.inl htime, absurd htime (by simp [Phase.now?])]
    · exact Or.inl ((Stores.of_incr_counter hd).resolve_right (by simp))
    · rcases Stores.of_incr_counter hn with hold | ⟨-, hone⟩
      · exact Or.inr ⟨by simp, hold⟩
      · exact Or.inl ⟨now, if_pos hone⟩
  case h_8 => exact absurd rfl hdated
  case h_10 => exact kept_expire (by simp [Phase.now?])
  case h_11 => exact kept_expire fun now hnow => hnow
  case h_12 => exact absurd rfl hdated
  case h_4 now => -- the check in memory
    refine ⟨rfl, fun time htime => ?_, fun _ time htime => Or.inl ?_,
      fun n d hd => Or.inl ⟨n, hd⟩, fun n hn => Or.inr ⟨by simp, n, hn⟩⟩
    · split at htime <;> simp [Phase.now?] at htime
    · rcases Stores.mem_memorize htime with ⟨hrecent, rfl⟩ | hold
      exacts [(List.mem_filter.mp hrecent).1, hold]
  case h_13 now => -- the record in memory
    refine ⟨rfl, by simp [Phase.now?], fun _ time htime => ?_,
      fun n d hd => Or.inl ⟨n, hd⟩, fun n hn => Or.inr ⟨by simp, n, hn⟩⟩
    rcases Stores.mem_memorize htime with ⟨htime, rfl⟩ | hold
    · rcases List.mem_append.mp htime with htime | htime
      · exact Or.inl ((List.mem_filter.mp htime).1)
      · exact Or.inr (by simpa [Phase.now?] using (List.mem_singleton.mp htime).symm)
    · exact Or.inl hold
  all_goals
    refine ⟨rfl, fun time htime => ?_, fun _ _ => Or.inl, fun n d hd => Or.inl ⟨n, hd⟩,
      fun n hn => Or.inr ⟨by simp, n, hn⟩⟩
    try split at htime
    all_goals simp_all [Phase.now?]

theorem Recent.step (h : Recent window s) {a : Act} (hdated : Dated s a)
    (hstep : step maxAttempts window worker s a = some s') : Recent window s' := by
  cases a with
  | tick d =>
    obtain rfl := Option.some.inj hstep
    exact ⟨Nat.le_add_right_of_le h.active, h.phase, h.attempts, h.deadline, h.undated⟩
  | op i op =>
    obtain ⟨⟨t', p'⟩, hreact, rfl⟩ := Option.map_eq_some_iff.mp hstep
    have hkept := kept_of_react hdated hreact
    have hactive := h.active
    refine ⟨hkept.clock.ge, fun j now hnow => ?_, fun w time htime => ?_, fun n d hd => ?_,
      fun n hn => ?_⟩
    · change now ∈ (Function.update s.phase i p' j).now? at hnow
      by_cases hj : j = i
      · subst hj
        rw [Function.update_self] at hnow
        rcases hkept.phase now hnow with hold | rfl
        · exact (h.phase j now hold).trans hactive
        · exact le_rfl
      · rw [Function.update_of_ne hj] at hnow
        exact (h.phase j now hnow).trans hactive
    · rcases hkept.attempts w time htime with hold | hold
      · exact (h.attempts w time hold).trans hactive
      · exact (h.phase i time hold).trans hactive
    · rcases hkept.deadline n d hd with ⟨m, hold⟩ | rfl
      · exact (h.deadline m d hold).trans (Nat.add_le_add_right hactive window)
      · exact le_rfl
    · rcases hkept.undated n hn with ⟨now, rfl⟩ | ⟨hne, m, hold⟩
      · exact ⟨i, now, Function.update_self ..⟩
      · obtain ⟨j, now, hj⟩ := h.undated m hold
        refine ⟨j, now, (Function.update_of_ne ?_ _ _).trans hj⟩
        rintro rfl
        exact hne now hj

instance (s : Limiter) (a : Act) : Decidable (Dated s a) :=
  match a with
  | .op _ (.incr reply) => inferInstanceAs (Decidable (reply ≠ .lost))
  | .op _ (.expire reply) => inferInstanceAs (Decidable (reply ≠ .failed))
  | .tick _ | .op _ .arrive | .op _ (.get _) | .op _ .checkMemory | .op _ .fail | .op _ .record
  | .op _ .memorize => .isTrue trivial

end Shahkar.LoginLimit
