import Mathlib.Data.List.Induction
import Shahkar.Lib.Dict

/-!
# Dictionaries that are filled in a loop

`groupBy` collects the elements of a list under a key each, from a default when the key is new. What
stands under a key in the end is the fold over the elements with that key, in their order.
-/

namespace Shahkar.Lib.Dict

universe u v w

variable {α : Type u} {κ : Type v} {ν μ : Type w} [DecidableEq κ]

/-!
### Grouping
-/

def groupStep (key : α → Option κ) (init : ν) (add : ν → α → ν) (d : Dict κ ν) (a : α) :
    Dict κ ν :=
  match key a with
  | none => d
  | some k => d.set k (add ((d.get? k).getD init) a)

def groupBy (key : α → Option κ) (init : ν) (add : ν → α → ν) (l : List α) : Dict κ ν :=
  l.foldl (groupStep key init add) empty

theorem get?_foldl_groupStep (key : α → Option κ) (init : ν) (add : ν → α → ν) (l : List α)
    (d : Dict κ ν) (k : κ) :
    (l.foldl (groupStep key init add) d).get? k =
      if l.filter (fun a => key a = some k) = [] then d.get? k
      else some ((l.filter fun a => key a = some k).foldl add ((d.get? k).getD init)) := by
  induction l generalizing d with
  | nil => simp
  | cons a rest ih =>
    rw [List.foldl_cons, ih]
    by_cases hkey : key a = some k
    · have hstep : (groupStep key init add d a).get? k =
          some (add ((d.get? k).getD init) a) := by
        rw [groupStep, hkey, get?_set, if_pos rfl]
      rw [hstep, List.filter_cons_of_pos (by simpa using hkey)]
      split
      · next hnil => simp [hnil]
      · simp
    · have hstep : (groupStep key init add d a).get? k = d.get? k := by
        rw [groupStep]
        split
        · rfl
        · next k' hk' =>
            rw [get?_set, if_neg]
            intro heq
            exact hkey (heq ▸ hk')
      rw [hstep, List.filter_cons_of_neg (by simpa using hkey)]

theorem get?_groupBy (key : α → Option κ) (init : ν) (add : ν → α → ν) (l : List α) (k : κ) :
    (groupBy key init add l).get? k =
      if l.filter (fun a => key a = some k) = [] then none
      else some ((l.filter fun a => key a = some k).foldl add init) := by
  rw [groupBy, get?_foldl_groupStep, get?_empty]
  rfl

theorem keys_set (d : Dict κ ν) (k : κ) (v : ν) :
    (d.set k v).keys = if k ∈ d.keys then d.keys else d.keys ++ [k] := by
  have hlist : ∀ l : List (κ × ν), (setEntries k v l).map Prod.fst =
      if k ∈ l.map Prod.fst then l.map Prod.fst else l.map Prod.fst ++ [k] := by
    intro l
    induction l with
    | nil => rfl
    | cons e rest ih =>
      rw [setEntries]
      by_cases hk : e.1 = k
      · simp [hk]
      · rw [if_neg hk, List.map_cons, ih, List.map_cons]
        simp only [List.mem_cons, Ne.symm hk, false_or]
        split <;> rfl
  exact hlist d.entries

/-- The keys of a grouping are in the order in which they come up. -/
theorem keys_groupBy (key : α → κ) (init : ν) (add : ν → α → ν) (l : List α) :
    (groupBy (fun a => some (key a)) init add l).keys = (l.map key).eraseDups := by
  induction l using List.reverseRecOn with
  | nil => rfl
  | append_singleton rest a ih =>
    have hstep : groupBy (fun a => some (key a)) init add (rest ++ [a]) =
        groupStep (fun a => some (key a)) init add
          (groupBy (fun a => some (key a)) init add rest) a := List.foldl_concat ..
    rw [hstep, groupStep, keys_set, ih, List.map_append, List.eraseDups_append]
    by_cases hmem : key a ∈ rest.map key
    · rw [if_pos (List.mem_eraseDups.mpr hmem)]
      simp [List.removeAll, List.mem_map.mp hmem]
    · rw [if_neg (mt List.mem_eraseDups.mp hmem)]
      simp [List.removeAll, mt List.mem_map.mpr hmem, List.eraseDups_cons]

/-!
### First values
-/

def setdefault (d : Dict κ ν) (k : κ) (v : ν) : Dict κ ν :=
  if (d.get? k).isSome then d else d.set k v

theorem get?_setdefault (d : Dict κ ν) (k k' : κ) (v : ν) :
    (d.setdefault k v).get? k' = if k' = k then some ((d.get? k).getD v) else d.get? k' := by
  rw [setdefault]
  by_cases hk : k' = k
  · subst hk
    cases hget : d.get? k' with
    | none => simp [get?_set]
    | some old => simp [hget]
  · rw [if_neg hk]
    split
    · rfl
    · rw [get?_set, if_neg hk]

def defaultStep (key : α → Option κ) (val : α → ν) (d : Dict κ ν) (a : α) : Dict κ ν :=
  match key a with
  | none => d
  | some k => d.setdefault k (val a)

theorem get?_foldl_defaultStep (key : α → Option κ) (val : α → ν) (l : List α) (d : Dict κ ν)
    (k : κ) :
    (l.foldl (defaultStep key val) d).get? k =
      (d.get? k).or ((l.filter fun a => key a = some k).head?.map val) := by
  induction l generalizing d with
  | nil => simp
  | cons a rest ih =>
    rw [List.foldl_cons, ih]
    by_cases hkey : key a = some k
    · rw [List.filter_cons_of_pos (by simpa using hkey), defaultStep, hkey, get?_setdefault,
        if_pos rfl]
      cases d.get? k <;> simp
    · have hstep : (defaultStep key val d a).get? k = d.get? k := by
        rw [defaultStep]
        split
        · rfl
        · next k' hk' =>
            rw [get?_setdefault, if_neg]
            intro heq
            exact hkey (heq ▸ hk')
      rw [hstep, List.filter_cons_of_neg (by simpa using hkey)]

def filterMapWithKey (f : κ → ν → Option μ) (d : Dict κ ν) : Dict κ μ where
  entries := d.entries.filterMap fun e => (f e.1 e.2).map fun w => (e.1, w)
  nodup := by
    refine d.nodup.sublist ?_
    induction d.entries with
    | nil => simp
    | cons e rest ih =>
      rw [List.filterMap_cons]
      split
      · exact ih.cons _
      · next b hb =>
          obtain ⟨w, _, rfl⟩ := Option.map_eq_some_iff.mp hb
          exact ih.cons_cons _

variable {f : κ → ν → Option μ} {d : Dict κ ν}

omit [DecidableEq κ] in
theorem mem_entries_filterMapWithKey {k : κ} {w : μ} :
    (k, w) ∈ (d.filterMapWithKey f).entries ↔ ∃ v, (k, v) ∈ d.entries ∧ f k v = some w := by
  simp only [filterMapWithKey, List.mem_filterMap, Option.map_eq_some_iff, Prod.mk.injEq,
    Prod.exists]
  constructor
  · intro ⟨k', v, hmem, w', hf, hk, hw⟩
    subst hk hw
    exact ⟨v, hmem, hf⟩
  · intro ⟨v, hmem, hf⟩
    exact ⟨k, v, hmem, w, hf, rfl, rfl⟩

theorem get?_filterMapWithKey (f : κ → ν → Option μ) (d : Dict κ ν) (k : κ) :
    (d.filterMapWithKey f).get? k = (d.get? k).bind (f k) := by
  refine Option.ext fun w => ?_
  rw [get?_eq_some_iff, mem_entries_filterMapWithKey, Option.bind_eq_some_iff]
  exact exists_congr fun v => and_congr_left fun _ => get?_eq_some_iff.symm

def mapOption (f : κ → ν → Option μ) (d : Dict κ ν) : Option (Dict κ μ) :=
  if d.entries.all fun e => (f e.1 e.2).isSome then some (d.filterMapWithKey f) else none

theorem mapOption_eq_some_iff {e : Dict κ μ} :
    d.mapOption f = some e ↔
      (∀ k v, d.get? k = some v → (f k v).isSome) ∧ e = d.filterMapWithKey f := by
  have hall : (d.entries.all fun e => (f e.1 e.2).isSome) = true ↔
      ∀ k v, d.get? k = some v → (f k v).isSome := by
    simp only [List.all_eq_true, Prod.forall, get?_eq_some_iff]
  rw [mapOption]
  split
  · next h => rw [Option.some.injEq, eq_comm, and_iff_right (hall.mp h)]
  · next h =>
      constructor
      · intro heq
        cases heq
      · intro hsome
        exact absurd (hall.mpr hsome.1) h

end Shahkar.Lib.Dict
