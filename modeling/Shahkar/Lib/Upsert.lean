import Mathlib.Data.List.Basic

/-!
# Replace the row with the same key, or append

The loop of a scripting language over a list of records that has no index: the first record with the
key is replaced in its place, and a record with a new key goes to the end.
-/

namespace Shahkar.Lib

universe u v

variable {α : Type u} {κ : Type v} [DecidableEq κ] {key : α → κ} {x : α} {l : List α}

def upsert (key : α → κ) (x : α) : List α → List α
  | [] => [x]
  | y :: rest => if key y = key x then x :: rest else y :: upsert key x rest

theorem upsert_of_new (h : ∀ y ∈ l, key y ≠ key x) : upsert key x l = l ++ [x] := by
  induction l with
  | nil => rfl
  | cons y rest ih =>
    rw [upsert, if_neg (h y List.mem_cons_self),
      ih fun z hz => h z (List.mem_cons_of_mem y hz), List.cons_append]

theorem length_upsert_of_mem (h : ∃ y ∈ l, key y = key x) :
    (upsert key x l).length = l.length := by
  induction l with
  | nil =>
    obtain ⟨y, hy, _⟩ := h
    cases hy
  | cons y rest ih =>
    rw [upsert]
    split
    · rfl
    · rename_i hne
      obtain ⟨z, hz, hkey⟩ := h
      have hrest : z ∈ rest := by
        cases hz with
        | head => exact absurd hkey hne
        | tail _ hz => exact hz
      rw [List.length_cons, List.length_cons, ih ⟨z, hrest, hkey⟩]

theorem length_upsert_eq_succ_iff :
    (upsert key x l).length = l.length + 1 ↔ ∀ y ∈ l, key y ≠ key x := by
  constructor
  · intro hlen y hy hkey
    rw [length_upsert_of_mem ⟨y, hy, hkey⟩] at hlen
    omega
  · intro h
    rw [upsert_of_new h, List.length_append, List.length_singleton]

theorem length_upsert_le : (upsert key x l).length ≤ l.length + 1 := by
  by_cases h : ∀ y ∈ l, key y ≠ key x
  · exact Nat.le_of_eq (length_upsert_eq_succ_iff.mpr h)
  · push Not at h
    rw [length_upsert_of_mem h]
    exact Nat.le_succ _

end Shahkar.Lib
