import Mathlib.Data.List.Basic

/-!
# Streaming a sorted list in batches from a cursor

The next batch are the first elements whose key is beyond the cursor, and the cursor then moves to
the key of the last of them. Nothing between the two positions is left out, since the list is
sorted.
-/

namespace Shahkar.Lib

universe u

variable {α : Type u} {key : α → Nat} {size cursor : Nat} {l : List α} {a last : α}

def batchAfter (key : α → Nat) (size cursor : Nat) (l : List α) : List α :=
  (l.filter fun a => cursor < key a).take size

theorem mem_of_mem_batchAfter (h : a ∈ batchAfter key size cursor l) : a ∈ l ∧ cursor < key a := by
  have hfilter := List.mem_filter.mp (List.mem_of_mem_take h)
  exact ⟨hfilter.1, of_decide_eq_true hfilter.2⟩

theorem batchAfter_eq_nil (hsize : 0 < size) :
    batchAfter key size cursor l = [] ↔ ∀ a ∈ l, key a ≤ cursor := by
  unfold batchAfter
  rw [List.take_eq_nil_iff, List.filter_eq_nil_iff]
  simp [Nat.ne_of_gt hsize]

theorem pairwise_batchAfter (hsorted : l.Pairwise fun a b => key a < key b) :
    (batchAfter key size cursor l).Pairwise fun a b => key a < key b :=
  (hsorted.filter _).take

theorem key_le_of_getLast? (hsorted : l.Pairwise fun a b => key a < key b)
    (hlast : (batchAfter key size cursor l).getLast? = some last)
    (ha : a ∈ batchAfter key size cursor l) : key a ≤ key last := by
  obtain ⟨init, hinit⟩ := List.getLast?_eq_some_iff.mp hlast
  have hpairwise : (batchAfter key size cursor l).Pairwise fun a b => key a < key b :=
    pairwise_batchAfter hsorted
  rw [hinit] at ha hpairwise
  rcases List.mem_append.mp ha with hmem | hmem
  · exact Nat.le_of_lt ((List.pairwise_append.mp hpairwise).2.2 a hmem last List.mem_cons_self)
  · exact Nat.le_of_eq (congrArg key (List.mem_singleton.mp hmem))

theorem mem_batchAfter (hsorted : l.Pairwise fun a b => key a < key b)
    (hlast : (batchAfter key size cursor l).getLast? = some last) (ha : a ∈ l)
    (hcursor : cursor < key a) (hle : key a ≤ key last) : a ∈ batchAfter key size cursor l := by
  have hfilter : a ∈ l.filter fun a => cursor < key a :=
    List.mem_filter.mpr ⟨ha, decide_eq_true hcursor⟩
  rw [← List.take_append_drop size (l.filter _)] at hfilter
  rcases List.mem_append.mp hfilter with hmem | hmem
  · exact hmem
  · have hpairwise := hsorted.filter fun a => decide (cursor < key a)
    rw [← List.take_append_drop size (l.filter _)] at hpairwise
    have hlt := (List.pairwise_append.mp hpairwise).2.2 last (List.mem_of_getLast? hlast) a hmem
    exact absurd hle (Nat.not_le_of_lt hlt)

section Resend

variable {α β : Type*} {f : β → α → β}

theorem foldl_resent (hsame : ∀ b x, f (f b x) x = f b x)
    (hlast : ∀ b x y, f (f (f b x) y) x = f (f b y) x) (l m : List α) (b : β) :
    l.foldl f (m.foldl f (l.foldl f b)) = l.foldl f (m.foldl f b) := by
  have hone : ∀ x (m : List α) b, f (m.foldl f (f b x)) x = f (m.foldl f b) x := by
    intro x m
    induction m with
    | nil => exact fun b => hsame b x
    | cons y m ih =>
      intro b
      rw [List.foldl_cons, List.foldl_cons, ← ih, hlast, ih]
  induction l generalizing m b with
  | nil => rfl
  | cons x l ih =>
    have hrest := ih (m ++ [x]) (f b x)
    rw [List.foldl_append, List.foldl_append] at hrest
    exact hrest.trans (congrArg (l.foldl f) (hone x m b))

theorem foldl_foldl_take (hsame : ∀ b x, f (f b x) x = f b x)
    (hlast : ∀ b x y, f (f (f b x) y) x = f (f b y) x) (l : List α) (n : Nat) (b : β) :
    l.foldl f ((l.take n).foldl f b) = l.foldl f b := by
  have hprefix := foldl_resent hsame hlast (l.take n) [] b
  conv_lhs => rw [← List.take_append_drop n l, List.foldl_append, List.take_append_drop]
  rw [show (l.take n).foldl f ((l.take n).foldl f b) = (l.take n).foldl f b from hprefix,
    ← List.foldl_append, List.take_append_drop]

end Resend
end Shahkar.Lib
