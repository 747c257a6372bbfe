import Shahkar.Lib.Transition

/-!
# The debounced sync of the core (`schedule_core_sync` of `app/xray/serving.py`)

A call cancels the timer in `_sync_timer` and starts one with its own flag, so an ordinary call
takes the place of a requested rebuild. `cancel` stops a timer only while it waits.
-/

namespace Shahkar.Xray

open Shahkar.Lib

abbrev CoreTimer := Nat × Bool

structure CoreTimers where
  current : Option Nat := none
  waiting : List CoreTimer := []
  awake : List CoreTimer := []
  next : Nat := 0
  owed : Bool := false

inductive TimerStep
  | schedule (full : Bool)
  | wake (t : CoreTimer)
  | run (t : CoreTimer) (fallback : Bool)

namespace CoreTimers

def step (ownsControlPlane : Bool) (s : CoreTimers) : TimerStep → Option CoreTimers
  | .schedule full =>
    if ownsControlPlane then some
      { s with
        current := some s.next
        waiting := (s.next, full) :: s.waiting.filter fun t => s.current ≠ some t.1
        next := s.next + 1
        owed := s.owed || full }
    else some { s with owed := s.owed || full }
  | .wake t =>
    if t ∈ s.waiting then
      some { s with waiting := s.waiting.erase t, awake := t :: s.awake }
    else none
  | .run t fallback =>
    if t ∈ s.awake then
      some { s with
        current := none
        awake := s.awake.erase t
        owed := s.owed && !(t.2 || fallback) }
    else none

/-- A rebuild that is owed is on its way. -/
def Promised (s : CoreTimers) : Prop :=
  s.owed = true → ∃ t, (t ∈ s.waiting ∨ t ∈ s.awake) ∧ t.2 = true

/-- A full call is made where the core is, and while a rebuild is owed, an ordinary one only when
some rebuild cannot be cancelled any more. -/
def Keeps (ownsControlPlane : Bool) (s : CoreTimers) : TimerStep → Prop
  | .schedule true => ownsControlPlane = true
  | .schedule false => s.owed = true →
      ∃ t, (t ∈ s.waiting ∧ s.current ≠ some t.1 ∨ t ∈ s.awake) ∧ t.2 = true
  | _ => True

structure Sound (ownsControlPlane : Bool) (s : CoreTimers) : Prop where
  promised : s.Promised
  idle : ownsControlPlane = false → s.waiting = [] ∧ s.awake = []

variable {owns : Bool} {s s' : CoreTimers} {a : TimerStep}

theorem idle_step (h : Sound owns s) (hstep : step owns s a = some s') (howns : owns = false) :
    s'.waiting = [] ∧ s'.awake = [] := by
  obtain ⟨hwaiting, hawake⟩ := h.idle howns
  cases a with
  | schedule full =>
    rw [step, if_neg (by simp [howns])] at hstep
    obtain rfl := Option.some.inj hstep
    exact ⟨hwaiting, hawake⟩
  | wake t => simp [step, hwaiting] at hstep
  | run t fallback => simp [step, hawake] at hstep

theorem promised_schedule_iff (h : Sound owns s) {full : Bool}
    (hstep : step owns s (.schedule full) = some s') :
    s'.Promised ↔ Keeps owns s (.schedule full) := by
  cases howns : owns with
  | false =>
    obtain ⟨hwaiting, hawake⟩ := h.idle howns
    rw [step, if_neg (by simp [howns])] at hstep
    obtain rfl := Option.some.inj hstep
    have howed : s.owed = false := by simpa [Promised, hwaiting, hawake] using h.promised
    cases full <;> simp [Promised, Keeps, hwaiting, hawake, howed]
  | true =>
    rw [step, if_pos howns] at hstep
    obtain rfl := Option.some.inj hstep
    cases full with
    | true => exact iff_of_true (fun _ => ⟨(s.next, true), .inl List.mem_cons_self, rfl⟩) rfl
    | false => simp [Promised, Keeps]

theorem promised_fire (h : s.Promised) (hstep : step owns s a = some s')
    (hfire : ∀ full, a ≠ .schedule full) : s'.Promised := by
  cases a with
  | schedule full => exact absurd rfl (hfire full)
  | wake t =>
    simp only [step, Option.ite_none_right_eq_some, Option.some.injEq] at hstep
    obtain ⟨-, rfl⟩ := hstep
    intro howed
    obtain ⟨u, hu, hfull⟩ := h howed
    refine ⟨u, ?_, hfull⟩
    by_cases hsame : u = t
    · exact .inr (hsame ▸ List.mem_cons_self)
    · exact hu.imp (List.mem_erase_of_ne hsame).mpr (List.mem_cons_of_mem t)
  | run t fallback =>
    simp only [step, Option.ite_none_right_eq_some, Option.some.injEq] at hstep
    obtain ⟨-, rfl⟩ := hstep
    intro howed
    obtain ⟨howed, hordinary⟩ := Bool.and_eq_true_iff.mp howed
    obtain ⟨u, hu, hfull⟩ := h howed
    -- The timer that runs is an ordinary one.
    have hother : u ≠ t := by
      rintro rfl
      simp [hfull] at hordinary
    exact ⟨u, hu.imp id (List.mem_erase_of_ne hother).mpr, hfull⟩

theorem promised_step_iff (h : Sound owns s) (hstep : step owns s a = some s') :
    s'.Promised ↔ Keeps owns s a := by
  cases a with
  | schedule full => exact promised_schedule_iff h hstep
  | wake t => exact iff_of_true (promised_fire h.promised hstep (by simp)) trivial
  | run t fallback => exact iff_of_true (promised_fire h.promised hstep (by simp)) trivial

/-- A rebuild that is owed stays so exactly if no step takes it back. -/
theorem full_rebuild_kept_iff (owns : Bool) {s : CoreTimers}
    (h : Run (step owns) (Keeps owns) {} s) :
    s.Promised ∧ ∀ a s', step owns s a = some s' → (s'.Promised ↔ Keeps owns s a) := by
  have hsound : Sound owns s := by
    refine h.invariant (Sound owns) ⟨by simp [Promised], by simp⟩ ?_
    intro s s' a hs hkeeps hstep
    exact ⟨(promised_step_iff hs hstep).mpr hkeeps, idle_step hs hstep⟩
  exact ⟨hsound.promised, fun a s' => promised_step_iff hsound⟩

theorem full_rebuild_downgraded : ((step true {} (.schedule true)).bind fun s =>
      (step true s (.schedule false)).map fun s' =>
        (s'.owed, (s'.waiting ++ s'.awake).any Prod.snd)) = some (true, false) := by
  decide

theorem full_rebuild_after_change :
    ∃ s, Run (step true) (Keeps true) {} s ∧ s.owed = true ∧ s.Promised := by
  have hrun : Run (step true) (Keeps true) {} ⟨some 1, [(1, true)], [], 2, true⟩ := by
    refine .next (.next .init ?_ rfl (a := .schedule false)) rfl rfl (a := .schedule true)
    simp [Keeps]
  exact ⟨_, hrun, rfl, (full_rebuild_kept_iff true hrun).1⟩

end CoreTimers

end Shahkar.Xray
