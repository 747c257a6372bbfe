import Shahkar.FamilyGuard.Schedule

/-!
# Shahkar.FamilyGuard.WeekWindows

The weekly windows of a schedule as intervals of the week, against `evaluate_access`, which looks at
the windows of today only. An instant is in an interval of the week if it is in the part of one of
today's windows that lies on its own day, or in the rest of one of yesterday's windows over midnight.
-/

namespace Shahkar.FamilyGuard

open Shahkar.Lib

def Schedule.windowsOn (s : Schedule) (day : Nat) : List (Option (Hm × Hm)) :=
  (s.windows.get? day).getD []

def LocalTime.minutes (now : LocalTime) : Nat := now.hour * 60 + now.minute

structure LocalTime.Valid (now : LocalTime) : Prop where
  weekday : 1 ≤ now.isoWeekday ∧ now.isoWeekday ≤ 7
  minutes : now.minutes < 1440

/-- A window of the day with different ends; 24:00 is an end. -/
def WellFormed (w : Hm × Hm) : Prop :=
  w.1.minutes < 1440 ∧ w.2.minutes ≤ 1440 ∧ w.1.minutes ≠ w.2.minutes

/-- The instant is in the interval of the week that the window listed under `day` stands for. -/
def InInterval (now : LocalTime) (day : Nat) (w : Hm × Hm) : Prop :=
  let time := (now.isoWeekday - 1) * 1440 + now.minutes
  let start := (day - 1) * 1440 + w.1.minutes
  let length := if w.1.minutes < w.2.minutes then w.2.minutes - w.1.minutes
    else w.2.minutes + 1440 - w.1.minutes
  (time + 10080 - start) % 10080 < length

/-- The time lies in the interval of one of the windows. -/
def InSchedule (now : LocalTime) (s : Schedule) : Prop :=
  ∃ day w, 1 ≤ day ∧ day ≤ 7 ∧ some w ∈ s.windowsOn day ∧ WellFormed w ∧ InInterval now day w

/-- The minute is in the part of the window on the day it is listed under. -/
def OnOwnDay (minutes : Nat) (w : Hm × Hm) : Prop :=
  WellFormed w ∧ w.1.minutes ≤ minutes ∧ (minutes < w.2.minutes ∨ w.2.minutes < w.1.minutes)

/-- The window goes over midnight, and ends after the minute. -/
def OnNextDay (minutes : Nat) (w : Hm × Hm) : Prop :=
  WellFormed w ∧ w.2.minutes < w.1.minutes ∧ minutes < w.2.minutes

/-- The minute is between the ends of a window that has a time beyond 24:00. -/
def Stray (minutes : Nat) (w : Hm × Hm) : Prop :=
  ¬ WellFormed w ∧ (w.1.minutes ≤ minutes ∧ minutes < w.2.minutes ∨
    w.2.minutes < w.1.minutes ∧ (w.1.minutes ≤ minutes ∨ minutes < w.2.minutes))

def yesterday (weekday : Nat) : Nat := if weekday = 1 then 7 else weekday - 1

variable {now : LocalTime} {w : Hm × Hm} {day : Nat}

theorem inInterval_iff (h : now.Valid) (hday : 1 ≤ day ∧ day ≤ 7) (hw : WellFormed w) :
    InInterval now day w ↔ day = now.isoWeekday ∧ OnOwnDay now.minutes w ∨
      day = yesterday now.isoWeekday ∧ OnNextDay now.minutes w := by
  obtain ⟨⟨hfirst, hlast⟩, hminutes⟩ := h
  obtain ⟨hstart, hend, hne⟩ := id hw
  simp only [InInterval, OnOwnDay, OnNextDay, hw, true_and, yesterday]
  generalize now.minutes = m at *
  generalize now.isoWeekday = d at *
  generalize w.1.minutes = a at *
  generalize w.2.minutes = b at *
  split <;> split <;> omega

theorem inSchedule_iff (h : now.Valid) (s : Schedule) : InSchedule now s ↔
    (∃ w, some w ∈ s.windowsOn now.isoWeekday ∧ OnOwnDay now.minutes w) ∨
      ∃ w, some w ∈ s.windowsOn (yesterday now.isoWeekday) ∧ OnNextDay now.minutes w := by
  have hyesterday : 1 ≤ yesterday now.isoWeekday ∧ yesterday now.isoWeekday ≤ 7 := by
    have hday := h.weekday
    unfold yesterday
    split <;> omega
  constructor
  · rintro ⟨day, w, hfirst, hlast, hmem, hw, hin⟩
    obtain ⟨rfl, hown⟩ | ⟨rfl, hnext⟩ := (inInterval_iff h ⟨hfirst, hlast⟩ hw).mp hin
    · exact .inl ⟨w, hmem, hown⟩
    · exact .inr ⟨w, hmem, hnext⟩
  · rintro (⟨w, hmem, hown⟩ | ⟨w, hmem, hnext⟩)
    · exact ⟨_, w, h.weekday.1, h.weekday.2, hmem, hown.1,
        (inInterval_iff h h.weekday hown.1).mpr (.inl ⟨rfl, hown⟩)⟩
    · exact ⟨_, w, hyesterday.1, hyesterday.2, hmem, hnext.1,
        (inInterval_iff h hyesterday hnext.1).mpr (.inr ⟨rfl, hnext⟩)⟩

theorem inWindow_iff {minutes : Nat} : inWindow minutes (some w) = true ↔
    OnOwnDay minutes w ∨ OnNextDay minutes w ∨ Stray minutes w := by
  unfold OnOwnDay OnNextDay Stray
  by_cases hw : WellFormed w
  · obtain ⟨-, -, hne⟩ := id hw
    simp only [inWindow, hne, if_false, hw]
    split <;> simp <;> omega
  · simp only [inWindow, hw]
    split_ifs <;> simp <;> omega

/-- Outside the pause and below the daily limit, with the guard on. -/
structure LeftToSchedule (clock : Clock) (controls : Controls) : Prop where
  enabled : controls.enabled = true
  pause : isPauseActive clock controls = false
  below : ∀ daily ∈ controls.schedule.dailyMinutes, 0 < daily →
    controls.runtime.day = some (clock.localTime controls.schedule.tz).day →
      controls.runtime.usedSeconds < daily * 60

variable {clock : Clock} {controls : Controls}

theorem evaluateAccess_fst (h : LeftToSchedule clock controls)
    (hany : ∃ day w, some w ∈ controls.schedule.windowsOn day) :
    (evaluateAccess clock controls).1 = withinWindows (clock.localTime controls.schedule.tz)
      (controls.schedule.windowsOn (clock.localTime controls.schedule.tz).isoWeekday) := by
  obtain ⟨day, w, hw⟩ := hany
  have hwindows : controls.schedule.windows.entries.any (fun e => ¬ e.2.isEmpty) = true := by
    cases hget : controls.schedule.windows.get? day with
    | none => simp [Schedule.windowsOn, hget] at hw
    | some list =>
      have hmem : some w ∈ list := by simpa [Schedule.windowsOn, hget] using hw
      rw [List.any_eq_true]
      exact ⟨_, Dict.get?_eq_some_iff.mp hget, by simpa using List.ne_nil_of_mem hmem⟩
  have hlimit : controls.schedule.dailyMinutes.any (fun daily => decide (0 < daily ∧
      controls.runtime.day = some (clock.localTime controls.schedule.tz).day ∧
        daily * 60 ≤ controls.runtime.usedSeconds)) = false := by
    rw [Option.any_eq_false]
    intro daily hdaily
    rw [decide_eq_false_iff_not]
    rintro ⟨hpos, hday, hover⟩
    exact absurd (h.below daily hdaily hpos hday) (by omega)
  simp only [evaluateAccess, h.enabled, h.pause, hwindows, hlimit, Schedule.windowsOn]
  generalize withinWindows _ _ = within
  cases within <;> simp

/-- **Access is that of the week's intervals** exactly if the instant is in one of today's windows on
its own day, or else yesterday's windows over midnight reach it just when today has no windows or has
one that is over midnight itself and ends later today. -/
theorem access_in_week_iff (clock : Clock) (controls : Controls)
    (h : LeftToSchedule clock controls)
    (hany : ∃ day w, some w ∈ controls.schedule.windowsOn day ∧ WellFormed w)
    (hvalid : (clock.localTime controls.schedule.tz).Valid) :
    let now := clock.localTime controls.schedule.tz
    let today := controls.schedule.windowsOn now.isoWeekday
    ((evaluateAccess clock controls).1 = true ↔ InSchedule now controls.schedule) ↔
      (∃ w, some w ∈ today ∧ OnOwnDay now.minutes w) ∨
        ((∃ w, some w ∈ controls.schedule.windowsOn (yesterday now.isoWeekday) ∧
            OnNextDay now.minutes w) ↔
          today = [] ∨ ∃ w, some w ∈ today ∧ (OnNextDay now.minutes w ∨ Stray now.minutes w)) := by
  intro now today
  obtain ⟨day, w, hw, -⟩ := hany
  have hwithin : withinWindows now today = true ↔ today = [] ∨
      ∃ w, some w ∈ today ∧ (OnOwnDay now.minutes w ∨ OnNextDay now.minutes w ∨
        Stray now.minutes w) := by
    simp only [withinWindows, Bool.or_eq_true, List.isEmpty_iff, List.any_eq_true,
      ← inWindow_iff]
    refine or_congr_right ⟨?_, fun ⟨w, hw⟩ => ⟨some w, hw⟩⟩
    rintro ⟨_ | w, hmem, hin⟩
    · cases hin
    · exact ⟨w, hmem, hin⟩
  rw [evaluateAccess_fst h ⟨day, w, hw⟩, inSchedule_iff hvalid, hwithin]
  by_cases hown : ∃ w, some w ∈ today ∧ OnOwnDay now.minutes w
  · obtain ⟨w, hmem, hday⟩ := id hown
    have hlets : ∃ w, some w ∈ today ∧ (OnOwnDay now.minutes w ∨ OnNextDay now.minutes w ∨
        Stray now.minutes w) := ⟨w, hmem, .inl hday⟩
    simp only [now, today, hown, hlets, true_or, or_true]
  · have hrest : (∃ w, some w ∈ today ∧ (OnOwnDay now.minutes w ∨ OnNextDay now.minutes w ∨
        Stray now.minutes w)) ↔
        ∃ w, some w ∈ today ∧ (OnNextDay now.minutes w ∨ Stray now.minutes w) := by
      refine exists_congr fun w => and_congr_right fun hmem => ?_
      exact ⟨Or.rec (fun hday => absurd ⟨w, hmem, hday⟩ hown) id, .inr⟩
    simp only [now, today, hown, hrest, false_or]
    exact ⟨Iff.symm, Iff.symm⟩

def nightControls : Controls where
  enabled := true
  schedule := { windows := Dict.empty.set 1 [some (⟨22, 0⟩, ⟨7, 0⟩)] }

def clockAt (weekday hour minute : Nat) : Clock := ⟨0, fun _ => ⟨weekday, hour, minute, "day"⟩⟩

/-- Open at three on Monday before an evening window, and on a day without windows. -/
theorem monday_night_open :
    (evaluateAccess (clockAt 1 3 0) nightControls).1 = true ∧
      ¬ InSchedule ⟨1, 3, 0, "day"⟩ nightControls.schedule ∧
      (evaluateAccess (clockAt 3 12 0) nightControls).1 = true ∧
      ¬ InSchedule ⟨3, 12, 0, "day"⟩ nightControls.schedule := by
  have hmonday : nightControls.schedule.windowsOn 1 = [some (⟨22, 0⟩, ⟨7, 0⟩)] := by decide
  have hother : ∀ day ∈ [7, 2, 3], nightControls.schedule.windowsOn day = [] := by decide
  simp only [List.forall_mem_cons] at hother
  refine ⟨by decide, ?_, by decide, ?_⟩
  all_goals
    rw [inSchedule_iff ⟨by decide, by decide⟩]
    simp [hmonday, hother, yesterday, OnOwnDay, Hm.minutes, LocalTime.minutes]

theorem monday_evening_agrees : (evaluateAccess (clockAt 1 23 0) nightControls).1 = true ∧
    InSchedule ⟨1, 23, 0, "day"⟩ nightControls.schedule := by
  have hmem : some ((⟨22, 0⟩ : Hm), (⟨7, 0⟩ : Hm)) ∈ nightControls.schedule.windowsOn 1 := by decide
  have hwell : WellFormed (⟨22, 0⟩, ⟨7, 0⟩) := by simp [WellFormed, Hm.minutes]
  have hagrees := (access_in_week_iff (clockAt 1 23 0) nightControls ⟨rfl, rfl, by decide⟩
    ⟨1, _, hmem, hwell⟩ ⟨by decide, by decide⟩).mpr
    (.inl ⟨_, hmem, hwell, by decide, by decide⟩)
  have hopen : (evaluateAccess (clockAt 1 23 0) nightControls).1 = true := by decide
  exact ⟨hopen, hagrees.mp hopen⟩

end Shahkar.FamilyGuard
