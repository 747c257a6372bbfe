import Shahkar.Billing.UsageBilling
import Mathlib.Algebra.BigOperators.Ring.List

/-!
# Usage that is billed in many ticks

In each tick the prepaid bytes cover shared traffic before the reseller's own, and the two kinds of
what is left are charged at rates of their own, each rounded down.
-/

namespace Shahkar.Billing

structure UsageSplit.Nonneg (s : UsageSplit) : Prop where
  owned : 0 ≤ s.ownedBytes
  foreign : 0 ≤ s.foreignBytes

def UsageSplit.sum (splits : List UsageSplit) : UsageSplit where
  ownedBytes := (splits.map UsageSplit.ownedBytes).sum
  foreignBytes := (splits.map UsageSplit.foreignBytes).sum

def coverTicks : Int → List UsageSplit → List UsageSplit × Int
  | _, [] => ([], 0)
  | prepaid, split :: splits =>
    let tick := applyPrepaidCover split prepaid
    let rest := coverTicks (prepaid - tick.2) splits
    (tick.1 :: rest.1, tick.2 + rest.2)

/-!
### The cover
-/

theorem applyPrepaidCover_spec {split : UsageSplit} (hs : split.Nonneg) (prepaid : Int) :
    (applyPrepaidCover split prepaid).1.Nonneg ∧
      (applyPrepaidCover split prepaid).2 = min split.totalBytes (max 0 prepaid) ∧
      (applyPrepaidCover split prepaid).1.totalBytes =
        split.totalBytes - (applyPrepaidCover split prepaid).2 := by
  obtain ⟨howned, hforeign⟩ := hs
  unfold applyPrepaidCover UsageSplit.totalBytes
  dsimp only
  split_ifs with h
  · refine ⟨⟨howned, hforeign⟩, ?_, ?_⟩ <;> dsimp only <;> omega
  · refine ⟨⟨?_, ?_⟩, ?_, ?_⟩ <;> dsimp only <;> omega

theorem coverTicks_spec (splits : List UsageSplit) :
    ∀ prepaid, 0 ≤ prepaid → (∀ s ∈ splits, s.Nonneg) →
      (∀ s ∈ (coverTicks prepaid splits).1, s.Nonneg) ∧
      (coverTicks prepaid splits).1.length = splits.length ∧
      (coverTicks prepaid splits).2 = min prepaid (UsageSplit.sum splits).totalBytes ∧
      (UsageSplit.sum (coverTicks prepaid splits).1).totalBytes =
        (UsageSplit.sum splits).totalBytes - (coverTicks prepaid splits).2 := by
  induction splits with
  | nil =>
    intro prepaid hp _
    exact ⟨by simp [coverTicks], rfl, (min_eq_right hp).symm, rfl⟩
  | cons split splits ih =>
    intro prepaid hp hs
    obtain ⟨hsplit, hsplits⟩ := List.forall_mem_cons.mp hs
    obtain ⟨hleft, hcovered, hover⟩ := applyPrepaidCover_spec hsplit prepaid
    have hp' : 0 ≤ prepaid - (applyPrepaidCover split prepaid).2 := by
      rw [hcovered]
      omega
    obtain ⟨hlefts, hlength, hcovered', hover'⟩ := ih _ hp' hsplits
    have htotal : 0 ≤ split.totalBytes := add_nonneg hsplit.owned hsplit.foreign
    have htotal' : 0 ≤ (UsageSplit.sum splits).totalBytes :=
      add_nonneg (List.sum_nonneg (by simpa using fun s hs => (hsplits s hs).owned))
        (List.sum_nonneg (by simpa using fun s hs => (hsplits s hs).foreign))
    have hsum : ∀ s l, (UsageSplit.sum (s :: l)).totalBytes =
        s.totalBytes + (UsageSplit.sum l).totalBytes := by
      intro s l
      simp only [UsageSplit.sum, UsageSplit.totalBytes, List.map_cons, List.sum_cons]
      omega
    refine ⟨List.forall_mem_cons.mpr ⟨hleft, hlefts⟩, congrArg (· + 1) hlength, ?_, ?_⟩
    · simp only [coverTicks, hsum]
      omega
    · simp only [coverTicks, hsum]
      omega

theorem gb_pos : 0 < gb := by decide

theorem sum_floor (splits : List UsageSplit) (cost : UsageSplit → Int) :
    gb * (splits.map fun s => cost s / gb).sum ≤ (splits.map cost).sum ∧
      (splits.map cost).sum ≤
        gb * (splits.map fun s => cost s / gb).sum + (gb - 1) * splits.length := by
  induction splits with
  | nil => simp
  | cons s splits ih =>
    have hlow := Int.mul_ediv_self_le (x := cost s) gb_pos.ne'
    have hhigh := Int.lt_mul_ediv_self_add (x := cost s) gb_pos
    simp only [List.map_cons, List.sum_cons, List.length_cons, mul_add, Nat.cast_add, Nat.cast_one]
    omega

theorem sum_floor_le (splits : List UsageSplit) (bytes : UsageSplit → Int) (rate : Int) :
    (splits.map fun s => bytes s * rate / gb).sum ≤ (splits.map bytes).sum * rate / gb := by
  rw [← List.sum_map_mul_right]
  refine Int.le_ediv_of_mul_le gb_pos ?_
  rw [mul_comm]
  exact (sum_floor splits _).1

theorem lt_sum_floor {splits : List UsageSplit} (hne : splits ≠ []) (bytes : UsageSplit → Int)
    (rate : Int) :
    (splits.map bytes).sum * rate / gb <
      (splits.map fun s => bytes s * rate / gb).sum + splits.length := by
  have hlength : (0 : Int) < splits.length := by
    exact_mod_cast List.length_pos_iff.mpr hne
  rw [← List.sum_map_mul_right]
  refine Int.ediv_lt_of_lt_mul gb_pos ?_
  have hhigh := (sum_floor splits fun s => bytes s * rate).2
  rw [sub_mul, one_mul] at hhigh
  rw [add_mul, mul_comm _ gb, mul_comm _ gb]
  omega

theorem effectiveRate_le {rate : Int} (hrate : 0 ≤ rate) (discount : Int) :
    effectiveRate rate discount ≤ effectiveRate rate 0 := by
  refine max_le_max le_rfl (Int.ediv_le_ediv (by decide) (mul_le_mul_of_nonneg_left ?_ hrate))
  omega

/-- **Billing in ticks never overcharges and loses little.** -/
theorem ticks_never_overcharge (prepaid rate discount : Int) (hprepaid : 0 ≤ prepaid)
    (splits : List UsageSplit) (hne : splits ≠ []) (hs : ∀ s ∈ splits, s.Nonneg) :
    let total := (UsageSplit.sum splits).totalBytes
    let overflows := (coverTicks prepaid splits).1
    let atOnce := computeCharge (UsageSplit.sum overflows) rate discount
    let charged := (overflows.map fun s => computeCharge s rate discount).sum
    (coverTicks prepaid splits).2 = min prepaid total ∧
      (UsageSplit.sum overflows).totalBytes = max 0 (total - prepaid) ∧
      charged ≤ atOnce ∧ atOnce < charged + 2 * splits.length ∧
      ∀ s ∈ overflows, computeCharge s rate discount ≤ computeCharge s rate 0 := by
  obtain ⟨hnonneg, hlength, hcovered, hover⟩ := coverTicks_spec splits prepaid hprepaid hs
  have hne' : (coverTicks prepaid splits).1 ≠ [] := by
    rw [← List.length_pos_iff, hlength]
    exact List.length_pos_iff.mpr hne
  rw [← hlength]
  generalize (coverTicks prepaid splits).1 = overflows at hnonneg hover hne'
  refine ⟨hcovered, by omega, ?_⟩
  have hpos : (0 : Int) < overflows.length := by
    exact_mod_cast List.length_pos_iff.mpr hne'
  unfold computeCharge
  split_ifs with hrate
  · refine ⟨by simp, by simpa using hpos, fun _ _ => le_rfl⟩
  · simp only [List.sum_map_add, UsageSplit.sum]
    have howned := lt_sum_floor hne' UsageSplit.ownedBytes (effectiveRate rate discount)
    have hforeign := lt_sum_floor hne' UsageSplit.foreignBytes rate
    refine ⟨add_le_add (sum_floor_le ..) (sum_floor_le ..), by omega, fun s hs => ?_⟩
    refine add_le_add (Int.ediv_le_ediv gb_pos (mul_le_mul_of_nonneg_left ?_ (hnonneg s hs).owned))
      le_rfl
    exact effectiveRate_le (not_le.mp hrate).le discount

theorem two_ticks_charged :
    let splits := [⟨gb, gb⟩, ⟨3, gb / 2⟩]
    let overflows := (coverTicks gb splits).1
    computeCharge (UsageSplit.sum overflows) 100 30 = 120 ∧
      (overflows.map fun s => computeCharge s 100 30).sum ≤
        computeCharge (UsageSplit.sum overflows) 100 30 :=
  ⟨by decide +kernel, (ticks_never_overcharge gb 100 30 (by decide) [⟨gb, gb⟩, ⟨3, gb / 2⟩]
    (by simp) (by simpa using ⟨⟨by decide, by decide⟩, by decide, by decide⟩)).2.2.1⟩

end Shahkar.Billing
