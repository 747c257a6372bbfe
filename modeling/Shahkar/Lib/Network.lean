import Mathlib.Tactic.Ring

/-!
# Addresses and networks of the internet protocol

A network is a length and the number of the network among those of this length; for membership,
overlap and containment it is the interval of its addresses.
-/

namespace Shahkar.Lib

inductive Family
  | v4
  | v6
  deriving Repr, DecidableEq

def Family.width : Family → Nat
  | .v4 => 32
  | .v6 => 128

structure Address where
  family : Family
  value : Nat
  deriving Repr, DecidableEq

@[ext] structure Network where
  family : Family
  length : Nat
  index : Nat
  length_le : length ≤ family.width
  index_lt : index < 2 ^ length
  deriving DecidableEq

def Network.ofV4 (a b c d length : Nat) : Network where
  family := .v4
  length := Nat.min length 32
  index := (((a * 256 + b) * 256 + c) * 256 + d) / 2 ^ (32 - length) % 2 ^ Nat.min length 32
  length_le := Nat.min_le_right ..
  index_lt := Nat.mod_lt _ (Nat.two_pow_pos _)

namespace Network

variable (n m : Network)

def size : Nat := 2 ^ (n.family.width - n.length)

def base : Nat := n.index * n.size

def last : Nat := n.base + n.size - 1

instance : Membership Address Network where
  mem n a := a.family = n.family ∧ n.base ≤ a.value ∧ a.value < n.base + n.size

instance (a : Address) : Decidable (a ∈ n) :=
  inferInstanceAs (Decidable (_ ∧ _ ∧ _))

def Overlaps : Prop :=
  n.family = m.family ∧ n.base < m.base + m.size ∧ m.base < n.base + n.size

instance : Decidable (n.Overlaps m) :=
  inferInstanceAs (Decidable (_ ∧ _ ∧ _))

def Within : Prop :=
  n.family = m.family ∧ m.base ≤ n.base ∧ n.base + n.size ≤ m.base + m.size

def supernet : Network where
  family := n.family
  length := n.length - 1
  index := n.index / 2
  length_le := (Nat.sub_le ..).trans n.length_le
  index_lt := by
    have hlt := n.index_lt
    rcases Nat.eq_zero_or_pos n.length with h | h
    · rw [h, pow_zero] at hlt ⊢
      omega
    · refine Nat.div_lt_of_lt_mul ?_
      rwa [← pow_succ', Nat.sub_add_cancel h]

def firstHost : Nat := if n.length + 1 < n.family.width then n.base + 1 else n.base

def hostsEnd : Nat :=
  if n.length + 1 < n.family.width ∧ n.family = .v4 then n.last else n.base + n.size

variable {n m} {k : Network} {a : Address}

theorem size_pos : 0 < n.size := Nat.two_pow_pos _

theorem overlaps_comm : n.Overlaps m ↔ m.Overlaps n :=
  ⟨fun h => ⟨h.1.symm, h.2.2, h.2.1⟩, fun h => ⟨h.1.symm, h.2.2, h.2.1⟩⟩

theorem Within.refl : n.Within n := ⟨rfl, le_rfl, le_rfl⟩

theorem Within.trans (h : n.Within m) (h' : m.Within k) : n.Within k :=
  ⟨h.1.trans h'.1, h'.2.1.trans h.2.1, h.2.2.trans h'.2.2⟩

theorem Overlaps.mono (h : n.Overlaps k) (hn : n.Within m) : m.Overlaps k :=
  ⟨hn.1.symm.trans h.1, lt_of_le_of_lt hn.2.1 h.2.1, lt_of_lt_of_le h.2.2 hn.2.2⟩

theorem Within.overlaps (h : n.Within m) : n.Overlaps m := by
  have hsize := n.size_pos
  exact ⟨h.1, by have := h.2.2; omega, lt_of_le_of_lt h.2.1 (by omega)⟩

theorem not_overlaps_of_within {n' m' : Network} (h : ¬ n'.Overlaps m') (hn : n.Within n')
    (hm : m.Within m') : ¬ n.Overlaps m := fun hover =>
  h (overlaps_comm.mp ((overlaps_comm.mp (hover.mono hn)).mono hm))

theorem not_overlaps_of_index_ne (hlength : n.length = m.length) (hindex : n.index ≠ m.index) :
    ¬ n.Overlaps m := by
  intro hover
  obtain ⟨hfamily, hlt, hgt⟩ := hover
  have hsize : m.size = n.size := by rw [size, size, hlength, hfamily]
  simp only [base, hsize] at hlt hgt
  rcases Nat.lt_or_gt_of_ne hindex with h | h
  · have := Nat.mul_le_mul_right n.size h
    rw [Nat.succ_mul] at this
    omega
  · have := Nat.mul_le_mul_right n.size h
    rw [Nat.succ_mul] at this
    omega

theorem within_supernet : n.Within n.supernet := by
  rcases Nat.eq_zero_or_pos n.length with h | h
  · -- there is nothing wider than `/0`
    have hindex : n.index = 0 := by
      have hlt := n.index_lt
      rw [h, pow_zero] at hlt
      omega
    simp [Within, base, size, supernet, hindex, h]
  · have hsize : n.supernet.size = 2 * n.size := by
      have hlength := n.length_le
      simp only [size, supernet]
      rw [← pow_succ']
      congr 1
      omega
    have hbase : n.base = n.supernet.base + n.index % 2 * n.size := by
      rw [base, base, hsize, supernet, ← mul_assoc, ← add_mul, mul_comm (n.index / 2),
        Nat.div_add_mod]
    refine ⟨rfl, ?_, ?_⟩
    · omega
    · rw [hbase, hsize]
      rcases Nat.mod_two_eq_zero_or_one n.index with hmod | hmod <;> rw [hmod] <;> omega

theorem within_iterate_supernet (k : Nat) : n.Within (supernet^[k] n) := by
  induction k with
  | zero => exact .refl
  | succ k ih =>
    rw [Function.iterate_succ_apply']
    exact ih.trans within_supernet

theorem length_iterate_supernet (k : Nat) : (supernet^[k] n).length = n.length - k := by
  induction k with
  | zero => rfl
  | succ k ih =>
    rw [Function.iterate_succ_apply']
    exact (congrArg (· - 1) ih).trans (Nat.sub_sub ..)

theorem Within.size_le (h : n.Within m) : n.size ≤ m.size := by
  have := h.2
  omega

theorem Within.length_le (h : n.Within m) : m.length ≤ n.length := by
  have hwidth := m.length_le
  have hpow : n.family.width - n.length ≤ m.family.width - m.length :=
    (Nat.pow_le_pow_iff_right Nat.one_lt_two).mp h.size_le
  rw [h.1] at hpow
  omega

theorem Within.eq_iterate (h : n.Within m) : m = supernet^[n.length - m.length] n := by
  have hwithin := n.within_iterate_supernet (n.length - m.length)
  have hlength : (supernet^[n.length - m.length] n).length = m.length := by
    rw [length_iterate_supernet, Nat.sub_sub_self h.length_le]
  have hindex := not_imp_comm.mp (not_overlaps_of_index_ne hlength)
    (not_not.mpr (h.overlaps.mono hwithin))
  exact Network.ext (h.1.symm.trans hwithin.1) hlength.symm hindex.symm

theorem Within.eq_of_length_eq (h : n.Within m) (hlength : n.length = m.length) : n = m := by
  rw [h.eq_iterate, hlength, Nat.sub_self, Function.iterate_zero_apply]

theorem Within.antisymm (h : n.Within m) (h' : m.Within n) : n = m :=
  h.eq_of_length_eq (le_antisymm h'.length_le h.length_le)

theorem Within.of_length_le (hm : n.Within m) (hk : n.Within k) (h : k.length ≤ m.length) :
    m.Within k := by
  have hlengths : n.length - k.length = (m.length - k.length) + (n.length - m.length) := by
    have := hm.length_le
    omega
  rw [hk.eq_iterate, hlengths, Function.iterate_add_apply, ← hm.eq_iterate]
  exact within_iterate_supernet _

theorem Within.mem (h : n.Within m) (ha : a ∈ n) : a ∈ m :=
  ⟨ha.1.trans h.1, h.2.1.trans ha.2.1, ha.2.2.trans_le h.2.2⟩

end Network

end Shahkar.Lib
