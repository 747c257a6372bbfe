import Mathlib.Data.List.MinMax
import Mathlib.Order.Bounds.Basic
import Shahkar.Lib.Grouping

/-!
# The copies of one subscriber

A 3x-ui panel has a client on each of its inbounds. Both `_apply_panel_migration`
(`app/migration/three_x_ui.py`) and `_merge_rows_by_username` (`app/user_import/parsers.py`) make
one account of them.
-/

namespace Shahkar.Migration

open Shahkar.Lib

structure Meters where
  expire : Int
  dataLimit : Int
  used : Int
  deriving Repr, DecidableEq

abbrev CopyRow := Option String × Meters

def maxNonzero (a b : Int) : Int := if a ≠ 0 ∧ b ≠ 0 then max a b else if a ≠ 0 then a else b

def Meters.add (pu row : Meters) : Meters where
  expire := maxNonzero pu.expire row.expire
  dataLimit := maxNonzero pu.dataLimit row.dataLimit
  used := max pu.used row.used

def collectedMeters (rows : List CopyRow) : Dict String Meters :=
  Dict.groupBy Prod.fst ⟨0, 0, 0⟩ (fun pu row => pu.add row.2) rows

def Meters.raise (dest row : Meters) : Meters where
  expire := if dest.expire < row.expire then row.expire else dest.expire
  dataLimit := if dest.dataLimit < row.dataLimit then row.dataLimit else dest.dataLimit
  used := max dest.used row.used

def mergedMeters (rows : List CopyRow) : Dict String (Option Meters) :=
  Dict.groupBy Prod.fst none (fun dest row => some ((dest.map (·.raise row.2)).getD row.2)) rows

/-!
### The most permissive value
-/

def MostPermissive (l : List Int) (x : Int) : Prop :=
  if 0 ∈ l then x = 0 else IsGreatest {y | y ∈ l} x

/-- The meters are the most permissive of the copies, and have the greatest usage. -/
def Permissive (copies : List Meters) (m : Meters) : Prop :=
  MostPermissive (copies.map Meters.expire) m.expire ∧
    MostPermissive (copies.map Meters.dataLimit) m.dataLimit ∧
      IsGreatest {y | y ∈ copies.map Meters.used} m.used

/-- A `0` only stands next to values with a property. -/
def ZeroBeside (p : Int → Prop) (l : List Int) : Prop := 0 ∈ l → ∀ y ∈ l, p y

variable {l : List Int} {a b : Int}

theorem isGreatest_foldl_max : IsGreatest {y | y ∈ a :: l} (l.foldl max a) :=
  List.max?_eq_some_iff.mp List.max?_cons'

theorem mostPermissive_max_iff :
    MostPermissive (a :: l) (l.foldl max a) ↔ ZeroBeside (· ≤ 0) (a :: l) := by
  have hmax := isGreatest_foldl_max (a := a) (l := l)
  rw [MostPermissive, ZeroBeside]
  split
  · next hzero =>
      simp only [hzero, true_imp_iff]
      constructor
      · intro heq y hy
        exact heq ▸ hmax.2 hy
      · intro hall
        exact le_antisymm (hall _ hmax.1) (hmax.2 hzero)
  · next hzero => simp only [hmax, hzero, false_imp_iff]

theorem maxNonzero_eq_zero_iff : maxNonzero a b = 0 ↔ a = 0 ∧ b = 0 := by
  unfold maxNonzero
  split_ifs <;> omega

theorem foldl_maxNonzero_eq_zero_iff : l.foldl maxNonzero a = 0 ↔ a = 0 ∧ ∀ y ∈ l, y = 0 := by
  induction l generalizing a with
  | nil => simp
  | cons b rest ih =>
    rw [List.foldl_cons, ih, maxNonzero_eq_zero_iff, List.forall_mem_cons, and_assoc]

theorem foldl_maxNonzero_of_ne (ha : a ≠ 0) (h : ∀ y ∈ l, y ≠ 0) :
    l.foldl maxNonzero a = l.foldl max a := by
  induction l generalizing a with
  | nil => rfl
  | cons b rest ih =>
    obtain ⟨hb, hrest⟩ := List.forall_mem_cons.mp h
    have hmax : maxNonzero a b = max a b := if_pos ⟨ha, hb⟩
    rw [List.foldl_cons, List.foldl_cons, hmax, ih (by omega) hrest]

theorem mostPermissive_maxNonzero_iff (hl : l ≠ []) :
    MostPermissive l (l.foldl maxNonzero 0) ↔ ZeroBeside (· = 0) l := by
  rw [MostPermissive, ZeroBeside]
  split
  · next hzero => simp only [hzero, foldl_maxNonzero_eq_zero_iff, true_and, true_imp_iff]
  · next hzero =>
      obtain ⟨b, rest, rfl⟩ := List.exists_cons_of_ne_nil hl
      have hne : ∀ y ∈ b :: rest, y ≠ 0 := fun y hy h => hzero (h ▸ hy)
      obtain ⟨hb, hrest⟩ := List.forall_mem_cons.mp hne
      have hfirst : maxNonzero 0 b = b := rfl
      rw [List.foldl_cons, hfirst, foldl_maxNonzero_of_ne hb hrest]
      exact iff_of_true isGreatest_foldl_max fun h => absurd h hzero

theorem isGreatest_used_iff : IsGreatest {y | y ∈ l} (l.foldl max 0) ↔ ∃ y ∈ l, 0 ≤ y := by
  have hmax := isGreatest_foldl_max (a := 0) (l := l)
  constructor
  · intro h
    exact ⟨_, h.1, hmax.2 List.mem_cons_self⟩
  · rintro ⟨y, hy, hnonneg⟩
    refine ⟨?_, fun z hz => hmax.2 (List.mem_cons_of_mem _ hz)⟩
    obtain heq | hmem := List.mem_cons.mp hmax.1
    · have hle : y ≤ 0 := heq ▸ hmax.2 (List.mem_cons_of_mem _ hy)
      have hzero : y = 0 := le_antisymm hle hnonneg
      rw [heq]
      exact hzero ▸ hy
    · exact hmem

theorem Meters.foldl_add (copies : List Meters) (m : Meters) : copies.foldl Meters.add m =
    ⟨(copies.map Meters.expire).foldl maxNonzero m.expire,
      (copies.map Meters.dataLimit).foldl maxNonzero m.dataLimit,
      (copies.map Meters.used).foldl max m.used⟩ := by
  induction copies generalizing m with
  | nil => rfl
  | cons row rest ih => exact ih _

theorem Meters.foldl_raise (copies : List Meters) (m : Meters) : copies.foldl Meters.raise m =
    ⟨(copies.map Meters.expire).foldl max m.expire,
      (copies.map Meters.dataLimit).foldl max m.dataLimit,
      (copies.map Meters.used).foldl max m.used⟩ := by
  induction copies generalizing m with
  | nil => rfl
  | cons row rest ih =>
    rw [List.foldl_cons, ih]
    simp only [Meters.raise, ← max_def_lt, List.map_cons, List.foldl_cons]

def copiesOf (rows : List CopyRow) (name : String) : List Meters :=
  (rows.filter fun row => row.1 = some name).map Prod.snd

variable {rows : List CopyRow} {name : String}

theorem get?_collectedMeters (h : copiesOf rows name ≠ []) :
    (collectedMeters rows).get? name =
      some ((copiesOf rows name).foldl Meters.add ⟨0, 0, 0⟩) := by
  rw [collectedMeters, Dict.get?_groupBy, if_neg (by simpa [copiesOf] using h), copiesOf,
    List.foldl_map]

theorem get?_mergedMeters {m : Meters} {copies : List Meters}
    (h : copiesOf rows name = m :: copies) :
    (mergedMeters rows).get? name = some (some (copies.foldl Meters.raise m)) := by
  obtain ⟨row, rest, hfilter, rfl, rfl⟩ := List.map_eq_cons_iff.mp h
  rw [mergedMeters, Dict.get?_groupBy, hfilter, if_neg (List.cons_ne_nil _ _), List.foldl_cons,
    List.foldl_map]
  exact congrArg some (List.foldl_hom some fun _ _ => rfl)

/-- The merge is most permissive exactly if no `0` stands next to another value. -/
theorem copies_merged_permissively_iff (rows : List CopyRow) (name : String)
    (hcopies : copiesOf rows name ≠ []) :
    let copies := copiesOf rows name
    (∃ m, (collectedMeters rows).get? name = some m ∧
      (Permissive copies m ↔ ZeroBeside (· = 0) (copies.map Meters.expire) ∧
        ZeroBeside (· = 0) (copies.map Meters.dataLimit) ∧ ∃ y ∈ copies.map Meters.used, 0 ≤ y)) ∧
    ∃ m, (mergedMeters rows).get? name = some (some m) ∧
      (Permissive copies m ↔ ZeroBeside (· ≤ 0) (copies.map Meters.expire) ∧
        ZeroBeside (· ≤ 0) (copies.map Meters.dataLimit)) := by
  intro copies
  have hmap : ∀ value : Meters → Int, copies.map value ≠ [] := by simpa using hcopies
  constructor
  · refine ⟨_, get?_collectedMeters hcopies, ?_⟩
    rw [Meters.foldl_add]
    exact and_congr (mostPermissive_maxNonzero_iff (hmap _))
      (and_congr (mostPermissive_maxNonzero_iff (hmap _)) isGreatest_used_iff)
  · obtain ⟨first, rest, hfirst⟩ := List.exists_cons_of_ne_nil hcopies
    refine ⟨_, get?_mergedMeters hfirst, ?_⟩
    simp only [copies, hfirst]
    rw [Meters.foldl_raise]
    exact and_congr mostPermissive_max_iff
      ((and_iff_left isGreatest_foldl_max).trans mostPermissive_max_iff)

def twoCopies : List CopyRow := [(some "ali", ⟨0, 0, 5⟩), (some "ali", ⟨100, 1073741824, 5⟩)]

theorem unlimited_copy_lost :
    (∃ m, (collectedMeters twoCopies).get? "ali" = some m ∧
        ¬ Permissive (copiesOf twoCopies "ali") m) ∧
      ∃ m, (mergedMeters twoCopies).get? "ali" = some (some m) ∧
        ¬ Permissive (copiesOf twoCopies "ali") m := by
  have hlost : ¬ Permissive (copiesOf twoCopies "ali") ⟨100, 1073741824, 5⟩ := by
    intro h
    have hzero : (0 : Int) ∈ (copiesOf twoCopies "ali").map Meters.expire := by decide
    have hexpire := h.1
    rw [MostPermissive, if_pos hzero] at hexpire
    cases hexpire
  exact ⟨⟨_, by decide, hlost⟩, ⟨_, by decide, hlost⟩⟩

theorem limited_copies_merged : ∃ m, (collectedMeters
      [(some "ali", ⟨50, 7, 5⟩), (some "ali", ⟨100, 6, 9⟩)]).get? "ali" = some m ∧
    Permissive [⟨50, 7, 5⟩, ⟨100, 6, 9⟩] m := by
  obtain ⟨m, hm, hiff⟩ := (copies_merged_permissively_iff
    [(some "ali", ⟨50, 7, 5⟩), (some "ali", ⟨100, 6, 9⟩)] "ali" (by decide)).1
  exact ⟨m, hm, hiff.mpr ⟨fun h => absurd h (by decide), fun h => absurd h (by decide),
    5, by decide, by decide⟩⟩

end Shahkar.Migration
