import Mathlib.Data.List.Nodup
import Shahkar.Lib.Postings

/-!
# Insertion-ordered finite maps

A `Dict` is the association list a dynamic language iterates over, with the proof that no key occurs
twice. Overwriting a key keeps its position, a new key goes to the end.
-/

namespace Shahkar.Lib

universe u v

structure Dict (κ : Type u) (ν : Type v) where
  entries : List (κ × ν)
  nodup : (entries.map Prod.fst).Nodup

namespace Dict

variable {κ : Type u} {ν : Type v}

@[ext] theorem ext {d e : Dict κ ν} (h : d.entries = e.entries) : d = e := by
  cases d
  cases e
  cases h
  rfl

def empty : Dict κ ν := ⟨[], List.nodup_nil⟩

def keys (d : Dict κ ν) : List κ := d.entries.map Prod.fst

def mapVal {μ : Type v} (f : ν → μ) (d : Dict κ ν) : Dict κ μ where
  entries := d.entries.map fun e => (e.1, f e.2)
  nodup := by
    rw [List.map_map]
    exact d.nodup

def filter (p : κ → ν → Bool) (d : Dict κ ν) : Dict κ ν where
  entries := d.entries.filter fun e => p e.1 e.2
  nodup := d.nodup.sublist (List.filter_sublist.map _)

@[simp] theorem mem_entries_filter {p : κ → ν → Bool} {d : Dict κ ν} {e : κ × ν} :
    e ∈ (d.filter p).entries ↔ e ∈ d.entries ∧ p e.1 e.2 :=
  List.mem_filter

section Ops

variable [DecidableEq κ]

def get? (d : Dict κ ν) (k : κ) : Option ν := d.entries.lookup k

def setEntries (k : κ) (v : ν) : List (κ × ν) → List (κ × ν)
  | [] => [(k, v)]
  | e :: rest => if e.1 = k then (k, v) :: rest else e :: setEntries k v rest

variable {k : κ} {d : Dict κ ν} {v : ν} {l : List (κ × ν)}

theorem mem_keys_setEntries {k k' : κ} :
    k' ∈ (setEntries k v l).map Prod.fst ↔ k' = k ∨ k' ∈ l.map Prod.fst := by
  induction l with
  | nil => simp [setEntries]
  | cons e rest ih =>
    rw [setEntries]
    split
    · rename_i he
      subst he
      simp
    · rw [List.map_cons, List.mem_cons, ih, List.map_cons, List.mem_cons]
      tauto

theorem nodup_setEntries (h : (l.map Prod.fst).Nodup) :
    ((setEntries k v l).map Prod.fst).Nodup := by
  induction l with
  | nil => simp [setEntries]
  | cons e rest ih =>
    rw [List.map_cons, List.nodup_cons] at h
    rw [setEntries]
    split
    · rename_i he
      subst he
      rw [List.map_cons, List.nodup_cons]
      exact h
    · rename_i he
      rw [List.map_cons, List.nodup_cons, mem_keys_setEntries]
      refine ⟨?_, ih h.2⟩
      rintro (hk | hk)
      · exact he hk
      · exact h.1 hk

def set (d : Dict κ ν) (k : κ) (v : ν) : Dict κ ν :=
  ⟨setEntries k v d.entries, nodup_setEntries d.nodup⟩

theorem mem_entries_set {e : κ × ν} (h : e ∈ (d.set k v).entries) :
    e = (k, v) ∨ e ∈ d.entries := by
  have hlist : ∀ l : List (κ × ν), e ∈ setEntries k v l → e = (k, v) ∨ e ∈ l := by
    intro l he
    induction l with
    | nil => exact .inl (List.mem_singleton.mp he)
    | cons f rest ih =>
      rw [setEntries] at he
      split at he
      · rcases List.mem_cons.mp he with he | he
        · exact .inl he
        · exact .inr (List.mem_cons_of_mem _ he)
      · rcases List.mem_cons.mp he with rfl | he
        · exact .inr List.mem_cons_self
        · exact (ih he).imp_right (List.mem_cons_of_mem _)
  exact hlist d.entries h

theorem map_fst_mapIf (k : κ) (f : ν → ν) (l : List (κ × ν)) :
    (l.map fun e => if e.1 = k then (e.1, f e.2) else e).map Prod.fst = l.map Prod.fst := by
  rw [List.map_map]
  refine List.map_congr_left fun e _ => ?_
  dsimp only [Function.comp]
  split <;> rfl

def erase (d : Dict κ ν) (k : κ) : Dict κ ν where
  entries := d.entries.filter fun e => e.1 ≠ k
  nodup := d.nodup.sublist (List.filter_sublist.map Prod.fst)

def modify (d : Dict κ ν) (k : κ) (f : ν → ν) : Dict κ ν where
  entries := d.entries.map fun e => if e.1 = k then (e.1, f e.2) else e
  nodup := by
    rw [map_fst_mapIf]
    exact d.nodup

def bump [Add ν] [Zero ν] (d : Dict κ ν) (k : κ) (n : ν) : Dict κ ν :=
  d.set k ((d.get? k).getD 0 + n)

theorem get?_eq_some_iff :
    d.get? k = some v ↔ (k, v) ∈ d.entries := by
  have hlist : ∀ {l : List (κ × ν)}, (l.map Prod.fst).Nodup →
      (l.lookup k = some v ↔ (k, v) ∈ l) := by
    intro l
    induction l with
    | nil => simp
    | cons e rest ih =>
      intro hnodup
      rw [List.map_cons, List.nodup_cons] at hnodup
      obtain ⟨k', v'⟩ := e
      by_cases hk : k = k'
      · subst hk
        have hnot : (k, v) ∉ rest := fun hmem =>
          hnodup.1 (List.mem_map.mpr ⟨_, hmem, rfl⟩)
        simp [hnot, eq_comm]
      · have hbeq : (k == k') = false := beq_eq_false_iff_ne.mpr hk
        rw [List.lookup_cons, hbeq, List.mem_cons, ih hnodup.2]
        exact ⟨Or.inr, fun h => h.resolve_left fun heq => hk (congrArg Prod.fst heq)⟩
  exact hlist d.nodup

theorem onKey_entries (d : Dict κ ν) (k : κ) :
    onKey k d.entries = ((d.get? k).map fun v => (k, v)).toList := by
  have hlist : ∀ {l : List (κ × ν)}, (l.map Prod.fst).Nodup →
      onKey k l = ((l.lookup k).map fun v => (k, v)).toList := by
    intro l
    induction l with
    | nil => intro _; rfl
    | cons e rest ih =>
      intro hnodup
      rw [List.map_cons, List.nodup_cons] at hnodup
      rw [onKey_cons, List.lookup_cons]
      by_cases hk : e.1 = k
      · have hnil : onKey k rest = [] := onKey_eq_nil_iff.mpr fun e' he' heq =>
          hnodup.1 (hk ▸ heq ▸ List.mem_map_of_mem he')
        rw [if_pos hk, hnil, ← hk, beq_self_eq_true]
        rfl
      · rw [if_neg hk, beq_eq_false_iff_ne.mpr (Ne.symm hk)]
        exact ih hnodup.2
  exact hlist d.nodup

theorem onKey_filter (select : κ × ν → Bool) (h : d.get? k = some v) :
    onKey k (d.entries.filter select) = if select (k, v) then [(k, v)] else [] := by
  unfold onKey
  rw [List.filter_comm]
  change (onKey k d.entries).filter _ = _
  rw [onKey_entries, h]
  by_cases hselect : select (k, v) <;> simp [hselect]

@[simp] theorem get?_empty (k : κ) : (empty : Dict κ ν).get? k = none := rfl

theorem get?_set (d : Dict κ ν) (k k' : κ) (v : ν) :
    (d.set k v).get? k' = if k' = k then some v else d.get? k' := by
  have hlist : ∀ l : List (κ × ν),
      (setEntries k v l).lookup k' = if k' = k then some v else l.lookup k' := by
    intro l
    induction l with
    | nil =>
      rw [setEntries, List.lookup_cons]
      split_ifs with hk
      · rw [hk, beq_self_eq_true]
      · rw [beq_eq_false_iff_ne.mpr hk]
    | cons e rest ih =>
      rw [setEntries]
      by_cases he : e.1 = k
      · rw [if_pos he, List.lookup_cons]
        split_ifs with hk
        · rw [hk, beq_self_eq_true]
        · rw [List.lookup_cons, beq_eq_false_iff_ne.mpr hk,
            beq_eq_false_iff_ne.mpr (he ▸ hk)]
      · rw [if_neg he, List.lookup_cons, ih]
        by_cases hk : k' = k
        · have hne : k' ≠ e.1 := fun h => he (h.symm.trans hk)
          rw [if_pos hk, if_pos hk, beq_eq_false_iff_ne.mpr hne]
        · rw [if_neg hk, if_neg hk, List.lookup_cons]
  exact hlist d.entries

/-- What holds of every row and of the row written holds of every row afterwards. -/
theorem of_get?_set {P : κ → ν → Prop} {k' : κ} {v' : ν}
    (h : ∀ k v, d.get? k = some v → P k v) (hv : P k v) (hget : (d.set k v).get? k' = some v') :
    P k' v' := by
  rw [get?_set] at hget
  split at hget
  · next hk =>
      obtain rfl := Option.some.inj hget
      exact hk ▸ hv
  · exact h k' v' hget

theorem isSome_get?_foldl_set (l : List (κ × ν)) (d : Dict κ ν) (k : κ) :
    ((l.foldl (fun d e => d.set e.1 e.2) d).get? k).isSome ↔
      k ∈ l.map Prod.fst ∨ (d.get? k).isSome := by
  induction l generalizing d with
  | nil => simp
  | cons e rest ih =>
    rw [List.foldl_cons, ih, get?_set, List.map_cons, List.mem_cons]
    split_ifs with hk
    · simp [hk]
    · simp [hk]

theorem mem_of_get?_foldl_set (h : (l.foldl (fun d e => d.set e.1 e.2) d).get? k = some v) :
    (k, v) ∈ l ∨ d.get? k = some v := by
  induction l generalizing d with
  | nil => exact .inr h
  | cons e rest ih =>
    rcases ih h with hrest | hset
    · exact .inl (List.mem_cons_of_mem _ hrest)
    · rw [get?_set] at hset
      split_ifs at hset with hk
      · cases hset
        rw [hk]
        exact .inl List.mem_cons_self
      · exact .inr hset

theorem get?_erase (d : Dict κ ν) (k k' : κ) :
    (d.erase k).get? k' = if k' = k then none else d.get? k' := by
  have hlist : ∀ l : List (κ × ν),
      (l.filter fun e => e.1 ≠ k).lookup k' = if k' = k then none else l.lookup k' := by
    intro l
    induction l with
    | nil => simp
    | cons e rest ih =>
      by_cases he : e.1 = k
      · rw [List.filter_cons_of_neg (by simpa using he), ih]
        split_ifs with hk
        · rfl
        · rw [List.lookup_cons, beq_eq_false_iff_ne.mpr (he ▸ hk)]
      · rw [List.filter_cons_of_pos (by simpa using he), List.lookup_cons, ih]
        split_ifs with hk
        · have hne : k' ≠ e.1 := fun h => he (h.symm.trans hk)
          rw [beq_eq_false_iff_ne.mpr hne]
        · rw [List.lookup_cons]
  exact hlist d.entries

theorem get?_foldl_erase (ks : List κ) (d : Dict κ ν) (k : κ) :
    (ks.foldl erase d).get? k = if k ∈ ks then none else d.get? k := by
  induction ks generalizing d with
  | nil => rfl
  | cons k' rest ih =>
    rw [List.foldl_cons, ih, get?_erase]
    by_cases hk : k = k'
    · simp [hk]
    · simp [hk]

theorem getD_bump [AddMonoid ν] (d : Dict κ ν) (k k' : κ) (n : ν) :
    ((d.bump k n).get? k').getD 0 = ((d.get? k').getD 0) + if k' = k then n else 0 := by
  rw [bump, get?_set]
  split_ifs with hk
  · rw [hk, Option.getD_some]
  · rw [add_zero]

theorem get?_modify (d : Dict κ ν) (k k' : κ) (f : ν → ν) :
    (d.modify k f).get? k' = if k' = k then (d.get? k').map f else d.get? k' := by
  have hlist : ∀ l : List (κ × ν),
      (l.map fun e => if e.1 = k then (e.1, f e.2) else e).lookup k' =
        if k' = k then (l.lookup k').map f else l.lookup k' := by
    intro l
    induction l with
    | nil => simp
    | cons e rest ih =>
      have hfst : (if e.1 = k then (e.1, f e.2) else e).1 = e.1 := by split <;> rfl
      rw [List.map_cons, List.lookup_cons, List.lookup_cons, hfst, ih]
      cases hbeq : k' == e.1 with
      | true =>
        obtain rfl : k' = e.1 := eq_of_beq hbeq
        split_ifs <;> rfl
      | false => rfl
  exact hlist d.entries

theorem of_get?_modify {P : κ → ν → Prop} {k k' : κ} {v : ν} {f : ν → ν}
    (h : ∀ k v, d.get? k = some v → P k v) (hf : ∀ v, d.get? k = some v → P k (f v))
    (hget : (d.modify k f).get? k' = some v) : P k' v := by
  rw [get?_modify] at hget
  split at hget
  · next hk =>
      obtain ⟨v₀, hv₀, rfl⟩ := Option.map_eq_some_iff.mp hget
      exact hk ▸ hf v₀ (hk ▸ hv₀)
  · exact h k' v hget

theorem map_fst_find?_modify (d : Dict κ ν) (k : κ) {f : ν → ν} {p : ν → Bool}
    (hp : ∀ v, p (f v) = p v) :
    ((d.modify k f).entries.find? fun e => p e.2).map Prod.fst =
      (d.entries.find? fun e => p e.2).map Prod.fst := by
  have hcriterion : ((fun e : κ × ν => p e.2) ∘ fun e => if e.1 = k then (e.1, f e.2) else e) =
      fun e => p e.2 := by
    funext e
    dsimp only [Function.comp]
    split
    · exact hp e.2
    · rfl
  dsimp only [modify]
  rw [List.find?_map, Option.map_map, hcriterion]
  congr 1
  funext e
  dsimp only [Function.comp]
  split <;> rfl

theorem get?_foldl_modify {α : Type*} (f : α → ν → ν) (l : List (κ × α)) (d : Dict κ ν) (k : κ) :
    (l.foldl (fun d e => d.modify e.1 (f e.2)) d).get? k =
      (d.get? k).map fun v => (onKey k l).foldl (fun v e => f e.2 v) v := by
  induction l generalizing d with
  | nil => simp
  | cons e rest ih =>
    rw [List.foldl_cons, ih, get?_modify, onKey_cons]
    by_cases hk : e.1 = k
    · rw [if_pos hk.symm, if_pos hk, Option.map_map]
      rfl
    · rw [if_neg (Ne.symm hk), if_neg hk]

theorem get?_foldl_modify_keys (f : ν → ν) {ks : List κ} (hnodup : ks.Nodup) (d : Dict κ ν)
    (k : κ) : (ks.foldl (fun d k => d.modify k f) d).get? k =
      (d.get? k).map fun v => if k ∈ ks then f v else v := by
  induction ks generalizing d with
  | nil => simp
  | cons k' rest ih =>
    rw [List.nodup_cons] at hnodup
    rw [List.foldl_cons, ih hnodup.2, get?_modify]
    by_cases hk : k = k'
    · subst hk
      rw [if_pos rfl, Option.map_map]
      simp [hnodup.1, Function.comp_def]
    · rw [if_neg hk]
      simp [hk]

theorem mem_keys_bump [Add ν] [Zero ν] {k k' : κ} {n : ν} :
    k' ∈ (d.bump k n).keys ↔ k' = k ∨ k' ∈ d.keys := mem_keys_setEntries

theorem mem_keys_foldl_bump [Add ν] [Zero ν] :
    k ∈ (l.foldl (fun d e => d.bump e.1 e.2) d).keys ↔ k ∈ d.keys ∨ k ∈ l.map Prod.fst := by
  induction l generalizing d with
  | nil => simp
  | cons e rest ih =>
    rw [List.foldl_cons, ih, mem_keys_bump, List.map_cons, List.mem_cons]
    tauto

theorem getD_foldl_bump [AddMonoid ν] (l : List (κ × ν)) (d : Dict κ ν) (k : κ) :
    ((l.foldl (fun d e => d.bump e.1 e.2) d).get? k).getD 0 =
      ((d.get? k).getD 0) + posted k l := by
  induction l generalizing d with
  | nil => simp
  | cons e rest ih =>
    rw [List.foldl_cons, ih, getD_bump, posted_cons, add_assoc]
    simp only [eq_comm]

theorem get?_mapVal {μ : Type v} (f : ν → μ) (d : Dict κ ν) (k : κ) :
    (d.mapVal f).get? k = (d.get? k).map f := by
  have hlist : ∀ l : List (κ × ν),
      (l.map fun e => (e.1, f e.2)).lookup k = (l.lookup k).map f := by
    intro l
    induction l with
    | nil => rfl
    | cons e rest ih =>
      rw [List.map_cons, List.lookup_cons, List.lookup_cons, ih]
      cases k == e.1 with
      | true => rfl
      | false => rfl
  exact hlist d.entries

end Ops

end Dict

end Shahkar.Lib
