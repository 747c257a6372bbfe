import Mathlib.Data.List.Sort
import Mathlib.Order.Bounds.Basic

/-!
# Least elements, computed

Two ways in which code takes a minimum: it sorts a list by a key and takes the head, or it keeps the
smaller of two optional values. Each is related to one statement without an order: a member that is
below every member.
-/

namespace Shahkar.Lib

universe u v

/-!
### The head of a sorted list
-/

section Sorted

variable {α : Type u} {κ : Type v} [LinearOrder κ] {le : α → α → Prop} [DecidableRel le]
  {l : List α} {x : α}

theorem head?_insertionSort_eq_some_iff (key : α → κ) (hle : ∀ a b, le a b ↔ key a ≤ key b)
    (hinj : ∀ a ∈ l, ∀ b ∈ l, key a = key b → a = b) :
    (l.insertionSort le).head? = some x ↔ x ∈ l ∧ ∀ y ∈ l, key x ≤ key y := by
  have : Std.Total le := ⟨fun a b => by simpa only [hle] using le_total (key a) (key b)⟩
  have : IsTrans α le := ⟨fun a b c hab hbc => (hle a c).mpr
    (((hle a b).mp hab).trans ((hle b c).mp hbc))⟩
  have hsorted := List.pairwise_insertionSort le l
  have hmem : ∀ y, y ∈ l.insertionSort le ↔ y ∈ l := fun y => List.mem_insertionSort le
  cases hs : l.insertionSort le with
  | nil =>
    simp only [hs, List.not_mem_nil, false_iff] at hmem
    simp [hmem]
  | cons z rest =>
    rw [hs] at hsorted hmem
    have hz : z ∈ l := (hmem z).mp List.mem_cons_self
    have hleast : ∀ y ∈ l, key z ≤ key y := by
      intro y hy
      rcases List.mem_cons.mp ((hmem y).mpr hy) with rfl | hrest
      · exact le_rfl
      · exact (hle z y).mp (List.rel_of_pairwise_cons hsorted hrest)
    rw [List.head?_cons, Option.some.injEq]
    constructor
    · intro h
      subst h
      exact ⟨hz, hleast⟩
    · intro h
      exact hinj z hz x h.1 (le_antisymm (hleast x h.1) (h.2 z hz))

theorem find?_insertionSort_eq_some_iff {p : α → Bool} (key : α → κ)
    (hle : ∀ a b, le a b ↔ key a ≤ key b) (hinj : ∀ a ∈ l, ∀ b ∈ l, key a = key b → a = b) :
    (l.insertionSort le).find? p = some x ↔
      x ∈ l ∧ p x = true ∧ ∀ y ∈ l, p y = true → key x ≤ key y := by
  have : Std.Total le := ⟨fun a b => by simpa only [hle] using le_total (key a) (key b)⟩
  have : IsTrans α le := ⟨fun a b c hab hbc => (hle a c).mpr
    (((hle a b).mp hab).trans ((hle b c).mp hbc))⟩
  have hmem : ∀ y, y ∈ l.insertionSort le ↔ y ∈ l := fun y => List.mem_insertionSort le
  have hleast : ∀ {z}, (l.insertionSort le).find? p = some z → ∀ y ∈ l, p y = true →
      key z ≤ key y := by
    intro z hz y hy hpy
    obtain ⟨-, front, rest, hsplit, hfront⟩ := List.find?_eq_some_iff_append.mp hz
    have hsorted := List.pairwise_insertionSort le l
    rw [hsplit, List.pairwise_append, List.pairwise_cons] at hsorted
    rw [← hmem, hsplit, List.mem_append, List.mem_cons] at hy
    rcases hy with hy | rfl | hy
    · exact absurd hpy (by simpa using hfront y hy)
    · exact le_rfl
    · exact (hle z y).mp (hsorted.2.1.1 y hy)
  constructor
  · intro h
    exact ⟨(hmem x).mp (List.mem_of_find?_eq_some h), List.find?_some h, hleast h⟩
  · rintro ⟨hx, hpx, hmin⟩
    cases hfind : (l.insertionSort le).find? p with
    | none => exact absurd hpx (List.find?_eq_none.mp hfind x ((hmem x).mpr hx))
    | some z =>
      have hz := (hmem z).mp (List.mem_of_find?_eq_some hfind)
      rw [hinj z hz x hx (le_antisymm (hleast hfind x hx hpx) (hmin z hz (List.find?_some hfind)))]

theorem head?_insertionSort_congr (key : α → κ) (hle : ∀ a b, le a b ↔ key a ≤ key b)
    {l' : List α} (hmem : ∀ a, a ∈ l ↔ a ∈ l') (hinj : ∀ a ∈ l, ∀ b ∈ l, key a = key b → a = b) :
    (l.insertionSort le).head? = (l'.insertionSort le).head? := by
  ext x
  rw [head?_insertionSort_eq_some_iff key hle hinj, head?_insertionSort_eq_some_iff key hle]
  · simp only [hmem]
  · simpa only [hmem] using hinj

end Sorted

/-!
### The smaller of two optional values
-/

section Minimum

variable {α : Type u} [LinearOrder α] {s t : Set α} {a b : Option α}

def LeastOf (s : Set α) : Option α → Prop
  | none => s = ∅
  | some m => IsLeast s m

namespace LeastOf

theorem unique (h : LeastOf s a) (h' : LeastOf s b) : a = b := by
  cases a with
  | none =>
    cases b with
    | none => rfl
    | some m =>
      have hmem : m ∈ s := h'.1
      rw [show s = ∅ from h] at hmem
      cases hmem
  | some m =>
    cases b with
    | none =>
      have hmem : m ∈ s := h.1
      rw [show s = ∅ from h'] at hmem
      cases hmem
    | some m' => rw [IsLeast.unique h h']

theorem eq_none_iff (h : LeastOf s a) : a = none ↔ s = ∅ := by
  cases a with
  | none => exact iff_of_true rfl h
  | some m =>
    refine iff_of_false (by simp) fun hempty => ?_
    have hmem : m ∈ s := h.1
    rw [hempty] at hmem
    cases hmem

theorem mem (h : LeastOf s a) {m : α} (ha : a = some m) : m ∈ s := by
  subst ha
  exact h.1

theorem merge (h : LeastOf s a) (h' : LeastOf t b) : LeastOf (s ∪ t) (a.merge min b) := by
  cases a with
  | none =>
    rw [show s = ∅ from h, Set.empty_union]
    cases b with
    | none => exact h'
    | some m => exact h'
  | some m =>
    cases b with
    | none =>
      rw [show t = ∅ from h', Set.union_empty]
      exact h
    | some m' => exact IsLeast.union h h'

theorem filter (a : Option α) (p : α → Bool) : LeastOf {m | a = some m ∧ p m} (a.filter p) := by
  cases a with
  | none => simp [LeastOf]
  | some m =>
    cases hp : p m with
    | false =>
      rw [Option.filter_some, hp]
      refine Set.eq_empty_of_forall_notMem fun m' hm' => ?_
      obtain ⟨hsome, hpass⟩ := hm'
      rw [← Option.some.inj hsome, hp] at hpass
      cases hpass
    | true => simp [LeastOf, Option.filter, hp, IsLeast, lowerBounds]

end LeastOf

end Minimum

end Shahkar.Lib
