import Mathlib.Algebra.Order.BigOperators.Group.List
import Mathlib.Algebra.Order.Ring.Int

/-!
# Capping before or after adding up

Capping every summand and then the sum is the same as capping the sum of the positive ones
(`min_cappedSum`); capping only the summands is not, and `cappedSum_eq_iff` says exactly when it is.
-/

namespace Shahkar.Lib

def capped (r k : Int) : Int := if k ≤ 0 then 0 else min k r

def cappedSum (r : Int) (ks : List Int) : Int := (ks.map (capped r)).sum

def positives (ks : List Int) : List Int := ks.filter fun k => 0 < k

variable {r k : Int} {ks : List Int}

theorem capped_nonneg (hr : 0 ≤ r) (k : Int) : 0 ≤ capped r k := by
  unfold capped
  split_ifs <;> omega

theorem cappedSum_nonneg (hr : 0 ≤ r) (ks : List Int) : 0 ≤ cappedSum r ks := by
  refine List.sum_nonneg fun n hn => ?_
  obtain ⟨k, -, rfl⟩ := List.mem_map.mp hn
  exact capped_nonneg hr k

theorem positives_sum_nonneg (ks : List Int) : 0 ≤ (positives ks).sum := by
  refine List.sum_nonneg fun n hn => ?_
  have hpos := (List.mem_filter.mp hn).2
  exact (by simpa using hpos : 0 < n).le

theorem cappedSum_cons (r k : Int) (ks : List Int) :
    cappedSum r (k :: ks) = capped r k + cappedSum r ks := by
  rw [cappedSum, List.map_cons, List.sum_cons]
  rfl

@[simp] theorem cappedSum_zero (ks : List Int) : cappedSum 0 ks = 0 := by
  refine List.sum_eq_zero fun n hn => ?_
  obtain ⟨k, -, rfl⟩ := List.mem_map.mp hn
  unfold capped
  split_ifs <;> omega

theorem positives_cons_of_pos (hk : 0 < k) (ks : List Int) :
    positives (k :: ks) = k :: positives ks := List.filter_cons_of_pos (by simpa using hk)

theorem positives_cons_of_nonpos (hk : k ≤ 0) (ks : List Int) :
    positives (k :: ks) = positives ks := List.filter_cons_of_neg (by simpa using hk)

theorem sum_map_eq_iff {α : Type*} {f g : α → Int} {l : List α} (h : ∀ a ∈ l, g a ≤ f a) :
    (l.map f).sum = (l.map g).sum ↔ ∀ a ∈ l, f a = g a := by
  induction l with
  | nil => simp
  | cons a l ih =>
    have hrest := fun b hb => h b (List.mem_cons_of_mem a hb)
    have hle := List.sum_le_sum hrest
    have ha := h a List.mem_cons_self
    rw [List.map_cons, List.sum_cons, List.map_cons, List.sum_cons, List.forall_mem_cons,
      ← ih hrest]
    omega

theorem sum_le_positives_sum (ks : List Int) : ks.sum ≤ (positives ks).sum := by
  induction ks with
  | nil => exact le_refl _
  | cons k ks ih =>
    rw [List.sum_cons]
    rcases lt_or_ge 0 k with hk | hk
    · rw [positives_cons_of_pos hk, List.sum_cons]
      omega
    · rw [positives_cons_of_nonpos hk]
      omega

theorem positives_sum_eq_iff : (positives ks).sum = ks.sum ↔ ∀ k ∈ ks, 0 ≤ k := by
  induction ks with
  | nil => simp [positives]
  | cons k ks ih =>
    have hle := sum_le_positives_sum ks
    rw [List.sum_cons, List.forall_mem_cons, ← ih]
    rcases lt_or_ge 0 k with hk | hk
    · rw [positives_cons_of_pos hk, List.sum_cons]
      omega
    · rw [positives_cons_of_nonpos hk]
      omega

theorem min_cappedSum (hr : 0 ≤ r) (ks : List Int) :
    min (cappedSum r ks) r = min (positives ks).sum r := by
  induction ks with
  | nil => rfl
  | cons k ks ih =>
    have hp := positives_sum_nonneg ks
    rw [cappedSum_cons, capped]
    rcases lt_or_ge 0 k with hk | hk
    · rw [positives_cons_of_pos hk, List.sum_cons, if_neg (not_le.mpr hk)]
      omega
    · rw [positives_cons_of_nonpos hk, if_pos hk, zero_add]
      exact ih

theorem cappedSum_le_positives_sum (r : Int) (ks : List Int) :
    cappedSum r ks ≤ (positives ks).sum := by
  induction ks with
  | nil => exact le_refl _
  | cons k ks ih =>
    rw [cappedSum_cons, capped]
    rcases lt_or_ge 0 k with hk | hk
    · rw [positives_cons_of_pos hk, List.sum_cons, if_neg (not_le.mpr hk)]
      omega
    · rw [positives_cons_of_nonpos hk, if_pos hk, zero_add]
      exact ih

theorem min_positives_le_cappedSum (hr : 0 ≤ r) (ks : List Int) :
    min (positives ks).sum r ≤ cappedSum r ks := by
  rw [← min_cappedSum hr]
  exact min_le_left _ _

theorem lt_cappedSum (hr : 0 < r) {ks : List Int} (hlen : 2 ≤ (positives ks).length)
    (hsum : r < (positives ks).sum) : r < cappedSum r ks := by
  induction ks with
  | nil => simp [positives] at hlen
  | cons k ks ih =>
    rw [cappedSum_cons, capped]
    rcases lt_or_ge 0 k with hk | hk
    · rw [positives_cons_of_pos hk, List.sum_cons] at hsum
      rw [positives_cons_of_pos hk, List.length_cons] at hlen
      rw [if_neg (not_le.mpr hk)]
      have hmin := min_positives_le_cappedSum hr.le ks
      -- another positive amount follows
      have hrest : 0 < (positives ks).sum := by
        obtain ⟨k', hk'⟩ := List.exists_mem_of_length_pos (by omega : 0 < (positives ks).length)
        have hpos : 0 < k' := by simpa using (List.mem_filter.mp hk').2
        exact hpos.trans_le (List.single_le_sum (fun n hn => by
          have := (List.mem_filter.mp hn).2
          exact (by simpa using this : 0 < n).le) k' hk')
      omega
    · rw [positives_cons_of_nonpos hk] at hsum hlen
      rw [if_pos hk, zero_add]
      exact ih hlen hsum

theorem cappedSum_of_length_le_one (hr : 0 ≤ r) {ks : List Int}
    (hlen : (positives ks).length ≤ 1) : cappedSum r ks = min (positives ks).sum r := by
  induction ks with
  | nil => exact (min_eq_left hr).symm
  | cons k ks ih =>
    rw [cappedSum_cons, capped]
    rcases lt_or_ge 0 k with hk | hk
    · rw [positives_cons_of_pos hk, List.length_cons] at hlen
      have hnil : positives ks = [] := List.length_eq_zero_iff.mp (by omega)
      have hupper := cappedSum_le_positives_sum r ks
      have hlower := cappedSum_nonneg hr ks
      rw [hnil, List.sum_nil] at hupper
      rw [positives_cons_of_pos hk, hnil, if_neg (not_le.mpr hk), List.sum_singleton,
        le_antisymm hupper hlower, add_zero]
    · rw [positives_cons_of_nonpos hk] at hlen ⊢
      rw [if_pos hk, zero_add]
      exact ih hlen

theorem cappedSum_eq_iff (hr : 0 ≤ r) :
    cappedSum r ks = min (positives ks).sum r ↔
      r = 0 ∨ (positives ks).sum ≤ r ∨ (positives ks).length ≤ 1 := by
  have hlower := min_positives_le_cappedSum hr ks
  have hupper := cappedSum_le_positives_sum r ks
  constructor
  · intro heq
    by_contra hnot
    rw [not_or, not_or, not_le, not_le] at hnot
    obtain ⟨hr₀, hsum, hlen⟩ := hnot
    have := lt_cappedSum (lt_of_le_of_ne hr (Ne.symm hr₀)) hlen hsum
    omega
  · rintro (rfl | hfit | hlen)
    · rw [cappedSum_zero, min_eq_right (positives_sum_nonneg ks)]
    · omega
    · exact cappedSum_of_length_le_one hr hlen

end Shahkar.Lib
