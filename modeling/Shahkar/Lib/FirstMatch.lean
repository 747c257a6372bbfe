import Mathlib.Data.List.Basic

/-!
# Ordered rule lists

The first rule that matches decides: `List.find?`. `dedupe` removes repeated rules and changes no
decision; `byRank` moves the rules of lower rank in front, and a decision stays exactly when no
matching rule has a lower rank.
-/

namespace Shahkar.Lib

universe u

variable {α : Type u} {l : List α} {p q : α → Bool} {r : α}

section Dedupe

variable [DecidableEq α]

def dedupeFrom (seen : List α) : List α → List α
  | [] => []
  | a :: rest => if a ∈ seen then dedupeFrom seen rest else a :: dedupeFrom (a :: seen) rest

def dedupe (l : List α) : List α := dedupeFrom [] l

theorem find?_dedupeFrom {seen : List α} (h : ∀ a ∈ seen, p a = false) :
    (dedupeFrom seen l).find? p = l.find? p := by
  induction l generalizing seen with
  | nil => rfl
  | cons a rest ih =>
    by_cases ha : a ∈ seen
    · simp [dedupeFrom, ha, h a ha, ih h]
    · cases hp : p a with
      | true => simp [dedupeFrom, ha, hp]
      | false =>
        have hseen : ∀ b ∈ a :: seen, p b = false := by
          intro b hb
          cases List.mem_cons.mp hb with
          | inl heq => exact heq ▸ hp
          | inr hb => exact h b hb
        simp [dedupeFrom, ha, hp, ih hseen]

@[simp] theorem find?_dedupe : (dedupe l).find? p = l.find? p :=
  find?_dedupeFrom (by simp)

theorem mem_iff_of_find?_eq {l' : List α} (h : ∀ q : α → Bool, l.find? q = l'.find? q) {a : α} :
    a ∈ l ↔ a ∈ l' := by
  have hiff : ∀ xs : List α, a ∈ xs ↔ (xs.find? fun b => decide (b = a)).isSome := by
    simp
  rw [hiff, hiff, h]

@[simp] theorem mem_dedupe {a : α} : a ∈ dedupe l ↔ a ∈ l :=
  mem_iff_of_find?_eq fun _ => find?_dedupe

end Dedupe

theorem find?_filter_of_find? (h : l.find? p = some r) (hq : q r = true) :
    (l.filter q).find? p = some r := by
  induction l with
  | nil => simp at h
  | cons a rest ih =>
    cases hp : p a with
    | true =>
      rw [List.find?_cons_of_pos hp] at h
      cases h
      simp [hq, hp]
    | false =>
      rw [List.find?_cons_of_neg (by simp [hp])] at h
      cases ha : q a with
      | true => simp [ha, hp, ih h]
      | false => simp [ha, ih h]

theorem find?_and_of_any (h : (l.find? p).any q = true) :
    (l.find? fun a => q a && p a) = l.find? p := by
  obtain ⟨r, hr, hq⟩ := (Option.any_eq_true _ _).mp h
  rw [hr]
  have hfilter := find?_filter_of_find? hr hq
  rw [List.find?_filter] at hfilter
  simpa using hfilter

theorem any_find?_and_iff {q' : α → Bool} : (l.find? p).any (fun a => q a && q' a) = true ↔
      (l.find? p).any q = true ∧ (l.find? fun a => q a && p a).any q' = true := by
  by_cases h : (l.find? p).any q = true
  · rw [find?_and_of_any h]
    obtain ⟨r, hr, hq⟩ := (Option.any_eq_true _ _).mp h
    simp [hr, hq]
  · cases hr : l.find? p with
    | none => simp
    | some r =>
      have hq : q r = false := by simpa [hr] using h
      simp [hq]

variable {l' : List α}

theorem any_find?_append_left (h : ∀ a ∈ l, q a = false) :
    ((l ++ l').find? p).any q = true ↔ l.find? p = none ∧ (l'.find? p).any q = true := by
  rw [List.find?_append]
  cases hfind : l.find? p with
  | none => simp
  | some a => simp [h a (List.mem_of_find?_eq_some hfind)]

theorem any_find?_append_right (h : ∀ a ∈ l', q a = false) :
    ((l ++ l').find? p).any q = (l.find? p).any q := by
  rw [List.find?_append]
  cases hfind : l.find? p with
  | some a => simp
  | none =>
    rw [Option.none_or, Option.any_none]
    cases hlast : l'.find? p with
    | none => rfl
    | some a => simp [h a (List.mem_of_find?_eq_some hlast)]

def Leads (q : α → Bool) (l : List α) : Prop := l.Pairwise fun a b => q b = true → q a = true

theorem Leads.sublist (h : Leads q l) (hsub : l'.Sublist l) : Leads q l' :=
  List.Pairwise.sublist hsub h

theorem leads_append (hl : ∀ a ∈ l, q a = true) (h : Leads q l') :
    Leads q (l ++ l') := by
  rw [Leads, List.pairwise_append]
  refine ⟨List.pairwise_of_forall_mem_list ?_, h, ?_⟩
  · intro a ha _ _ _
    exact hl a ha
  · intro a ha _ _ _
    exact hl a ha

theorem Leads.find?_eq (h : Leads q l) (hr : (l.find? fun a => q a && p a) = some r) :
    l.find? p = some r := by
  induction l with
  | nil => simp at hr
  | cons a rest ih =>
    obtain ⟨hhead, hrest⟩ := List.pairwise_cons.mp h
    cases ha : p a with
    | false =>
      rw [List.find?_cons_of_neg (by simp [ha])] at hr ⊢
      exact ih hrest hr
    | true =>
      have hq : q a = true := by
        by_contra hq
        rw [List.find?_cons_of_neg (by simp [hq])] at hr
        have hpass := List.find?_some hr
        rw [Bool.and_eq_true] at hpass
        exact hq (hhead r (List.mem_of_find?_eq_some hr) hpass.1)
      rw [List.find?_cons_of_pos (by simp [hq, ha])] at hr
      rw [List.find?_cons_of_pos ha, hr]

theorem Leads.any_find?_iff (h : Leads q l) :
    (l.find? p).any q = true ↔ (l.find? fun a => q a && p a).isSome = true := by
  constructor
  · intro hany
    obtain ⟨r, hr, hq⟩ := (Option.any_eq_true _ _).mp hany
    rw [List.find?_isSome]
    exact ⟨r, List.mem_of_find?_eq_some hr, by simp [hq, List.find?_some hr]⟩
  · intro hsome
    obtain ⟨r, hr⟩ := Option.isSome_iff_exists.mp hsome
    have hpass := List.find?_some hr
    rw [Bool.and_eq_true] at hpass
    simp [h.find?_eq hr, hpass.1]

def byRank (rank : α → Nat) (n : Nat) (l : List α) : List α :=
  (List.range n).flatMap fun i => l.filter fun a => rank a = i

variable {rank : α → Nat} {n : Nat}

theorem byRank_succ :
    byRank rank (n + 1) l = byRank rank n l ++ l.filter fun a => rank a = n := by
  simp [byRank, List.range_succ]

@[simp] theorem mem_byRank {a : α} : a ∈ byRank rank n l ↔ a ∈ l ∧ rank a < n := by
  simp [byRank]
  tauto

theorem pairwise_byRank : (byRank rank n l).Pairwise fun a b => rank a ≤ rank b := by
  induction n with
  | zero => exact List.Pairwise.nil
  | succ n ih =>
    rw [byRank_succ, List.pairwise_append]
    refine ⟨ih, List.pairwise_of_forall_mem_list ?_, ?_⟩
    · intro a ha b hb
      simp only [List.mem_filter, decide_eq_true_eq] at ha hb
      omega
    · intro a ha b hb
      have hlt := (mem_byRank.mp ha).2
      simp only [List.mem_filter, decide_eq_true_eq] at hb
      omega

theorem leads_byRank (h : ∀ a, q a = true ↔ rank a = 0) : Leads q (byRank rank n l) := by
  refine List.Pairwise.imp ?_ pairwise_byRank
  intro a b hle hb
  have hzero := (h b).mp hb
  exact (h a).mpr (by omega)

theorem find?_byRank_eq_none :
    (byRank rank n l).find? p = none ↔ ∀ a ∈ l, p a = true → n ≤ rank a := by
  rw [List.find?_eq_none]
  constructor
  · intro h a ha hp
    by_contra hlt
    exact h a (mem_byRank.mpr ⟨ha, Nat.lt_of_not_le hlt⟩) hp
  · intro h a ha hp
    have hmem := mem_byRank.mp ha
    exact absurd hmem.2 (Nat.not_lt.mpr (h a hmem.1 hp))

theorem find?_byRank_iff (h : l.find? p = some r) (hr : rank r < n) :
    (byRank rank n l).find? p = some r ↔ ∀ a ∈ l, p a = true → rank r ≤ rank a := by
  induction n with
  | zero => exact absurd hr (Nat.not_lt_zero _)
  | succ n ih =>
    have hp : p r = true := List.find?_some h
    have hmem : r ∈ l := List.mem_of_find?_eq_some h
    rw [byRank_succ, List.find?_append]
    by_cases hlast : rank r = n
    · have hfound : (l.filter fun a => rank a = n).find? p = some r :=
        find?_filter_of_find? h (by simp [hlast])
      rw [hfound, hlast]
      constructor
      · intro hor
        cases hearlier : (byRank rank n l).find? p with
        | none => exact find?_byRank_eq_none.mp hearlier
        | some a =>
          -- A rule found below rank `n` is not the deciding one.
          rw [hearlier, Option.some_or] at hor
          have hlt := (mem_byRank.mp (List.mem_of_find?_eq_some hearlier)).2
          rw [Option.some.inj hor, hlast] at hlt
          exact absurd hlt (Nat.lt_irrefl n)
      · intro hall
        rw [find?_byRank_eq_none.mpr hall, Option.none_or]
    · have hlt : rank r < n := by omega
      have hsome : ((byRank rank n l).find? p).isSome := by
        rw [List.find?_isSome]
        exact ⟨r, mem_byRank.mpr ⟨hmem, hlt⟩, hp⟩
      rw [Option.or_of_isSome hsome]
      exact ih hlt

theorem rank_le_of_find?_byRank {a : α} (h : (byRank rank n l).find? p = some r) (ha : a ∈ l)
    (hp : p a = true) : rank r ≤ rank a := by
  induction n with
  | zero => simp [byRank] at h
  | succ n ih =>
    rw [byRank_succ, List.find?_append] at h
    cases hearlier : (byRank rank n l).find? p with
    | some b =>
      rw [hearlier, Option.some_or] at h
      exact ih (hearlier.trans h)
    | none =>
      rw [hearlier, Option.none_or] at h
      have hmem := List.mem_filter.mp (List.mem_of_find?_eq_some h)
      have hr : rank r = n := by simpa using hmem.2
      rw [hr]
      exact find?_byRank_eq_none.mp hearlier a ha hp

theorem find?_byRank_of_le {rank' : α → Nat} (hn : ∀ a, rank' a < n)
    (h : ∀ a b, l.find? p = some a → b ∈ l → p b = true → rank' a ≤ rank' b) :
    (byRank rank' n l).find? p = l.find? p := by
  cases hfind : l.find? p with
  | none =>
    rw [find?_byRank_eq_none]
    intro a ha hp
    exact absurd hp (List.find?_eq_none.mp hfind a ha)
  | some a => exact (find?_byRank_iff hfind (hn a)).mpr fun b hb hp => h a b hfind hb hp

end Shahkar.Lib
