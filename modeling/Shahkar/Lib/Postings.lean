import Mathlib.Algebra.BigOperators.Group.List.Basic

/-!
# Posting lists

A list of `(key, amount)` pairs is the common shape of a billing log and of an account ledger;
`onKey k l` are the entries of `l` for the key `k` and `posted k l` is what they add up to.
-/

namespace Shahkar.Lib

universe u v

section OnKey

variable {κ : Type u} [DecidableEq κ] {M : Type v}

def onKey (k : κ) (l : List (κ × M)) : List (κ × M) := l.filter fun e => e.1 = k

@[simp] theorem onKey_nil (k : κ) : onKey k ([] : List (κ × M)) = [] := rfl

theorem onKey_cons (k : κ) (e : κ × M) (l : List (κ × M)) :
    onKey k (e :: l) = if e.1 = k then e :: onKey k l else onKey k l := by
  unfold onKey
  rw [List.filter_cons]
  simp

@[simp] theorem onKey_append (k : κ) (l₁ l₂ : List (κ × M)) :
    onKey k (l₁ ++ l₂) = onKey k l₁ ++ onKey k l₂ := List.filter_append ..

theorem onKey_eq_nil_iff {k : κ} {l : List (κ × M)} : onKey k l = [] ↔ ∀ e ∈ l, e.1 ≠ k := by
  unfold onKey
  rw [List.filter_eq_nil_iff]
  simp

theorem onKey_filterMap {α : Type*} {f : α → Option (κ × M)} {g : α → κ}
    (hf : ∀ a e, f a = some e → e.1 = g a) (k : κ) (l : List α) :
    onKey k (l.filterMap f) = (l.filter fun a => g a = k).filterMap f := by
  induction l with
  | nil => rfl
  | cons a rest ih =>
    rw [List.filterMap_cons, List.filter_cons]
    cases hfa : f a with
    | none =>
      rw [ih]
      split_ifs
      · rw [List.filterMap_cons_none hfa]
      · rfl
    | some e =>
      rw [onKey_cons, ih, hf a e hfa]
      by_cases hk : g a = k
      · rw [if_pos hk, if_pos (by simpa using hk), List.filterMap_cons_some hfa]
      · rw [if_neg hk, if_neg (by simpa using hk)]

end OnKey

section Posted

variable {κ : Type u} [DecidableEq κ] {M : Type v} [AddMonoid M]

def posted (k : κ) (l : List (κ × M)) : M := ((onKey k l).map Prod.snd).sum

@[simp] theorem posted_nil (k : κ) : posted k ([] : List (κ × M)) = 0 := rfl

theorem posted_cons (k : κ) (e : κ × M) (l : List (κ × M)) :
    posted k (e :: l) = (if e.1 = k then e.2 else 0) + posted k l := by
  unfold posted
  rw [onKey_cons]
  by_cases h : e.1 = k
  · simp [h]
  · simp [h]

@[simp] theorem posted_append (k : κ) (l₁ l₂ : List (κ × M)) :
    posted k (l₁ ++ l₂) = posted k l₁ + posted k l₂ := by
  simp [posted]

theorem posted_congr {k : κ} {l₁ l₂ : List (κ × M)} (h : onKey k l₁ = onKey k l₂) :
    posted k l₁ = posted k l₂ := by
  rw [posted, posted, h]

theorem posted_eq_zero {k : κ} {l : List (κ × M)} (h : onKey k l = []) : posted k l = 0 := by
  rw [posted, h]
  rfl

end Posted

theorem sum_eq_sum_posted {κ : Type u} [DecidableEq κ] {M : Type v} [AddCommMonoid M]
    {ks : List κ} (hnodup : ks.Nodup) {l : List (κ × M)} (hcover : ∀ e ∈ l, e.1 ∈ ks) :
    (l.map Prod.snd).sum = (ks.map fun k => posted k l).sum := by
  induction l with
  | nil =>
    rw [List.map_nil, List.sum_nil]
    exact (List.sum_eq_zero fun n hn => by
      obtain ⟨k, -, rfl⟩ := List.mem_map.mp hn
      rfl).symm
  | cons e rest ih =>
    have hrest := ih fun e' he' => hcover e' (List.mem_cons_of_mem _ he')
    simp only [posted_cons, List.sum_map_add]
    rw [List.map_cons, List.sum_cons, hrest]
    congr 1
    -- the head is counted under its own key and under no other
    have hmem := hcover e List.mem_cons_self
    clear hrest ih hcover
    induction ks with
    | nil => cases hmem
    | cons k ks ih =>
      rw [List.nodup_cons] at hnodup
      rw [List.map_cons, List.sum_cons]
      by_cases hk : e.1 = k
      · rw [if_pos hk, List.sum_eq_zero, add_zero]
        intro n hn
        obtain ⟨k', hk', rfl⟩ := List.mem_map.mp hn
        have hne : e.1 ≠ k' := fun heq => hnodup.1 ((hk.symm.trans heq) ▸ hk')
        exact if_neg hne
      · rw [if_neg hk, zero_add]
        exact ih hnodup.2 ((List.mem_cons.mp hmem).resolve_left hk)

end Shahkar.Lib
