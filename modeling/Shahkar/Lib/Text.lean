import Mathlib.Data.List.DropRight

/-!
# Texts as lists of characters

The operations of a scripting language on strings, on `List Char`, where the library's lemmas about
lists apply.
-/

namespace Shahkar.Lib.Text

universe u

variable {α : Type u} {p : α → Bool} {l : List α}

def strip (p : α → Bool) (l : List α) : List α := (l.dropWhile p).rdropWhile p

theorem dropWhile_rdropWhile_dropWhile :
    ((l.dropWhile p).rdropWhile p).dropWhile p = (l.dropWhile p).rdropWhile p := by
  rw [List.dropWhile_eq_self_iff]
  intro hpos
  -- The first element of what is left is the first element after the first cut.
  have hprefix := List.rdropWhile_prefix p (l := l.dropWhile p)
  have hlen := hprefix.length_le
  have hhead : ((l.dropWhile p).rdropWhile p)[0] = (l.dropWhile p)[0] :=
    hprefix.getElem hpos
  rw [hhead]
  exact List.dropWhile_get_zero_not p l (Nat.lt_of_lt_of_le hpos hlen)

@[simp] theorem strip_strip : strip p (strip p l) = strip p l := by
  rw [strip, strip, dropWhile_rdropWhile_dropWhile, List.rdropWhile_idempotent]

theorem strip_sublist : (strip p l).Sublist l :=
  (List.rdropWhile_prefix p _).sublist.trans (List.dropWhile_sublist p)

theorem strip_eq_self (hfront : ∀ a, l.head? = some a → p a = false)
    (hback : ∀ a, l.getLast? = some a → p a = false) : strip p l = l := by
  have hdrop : l.dropWhile p = l := by
    cases l with
    | nil => rfl
    | cons a rest => exact List.dropWhile_cons_of_neg (by simp [hfront a rfl])
  rw [strip, hdrop, List.rdropWhile_eq_self_iff]
  intro hne
  simp [hback _ (List.getLast?_eq_some_getLast hne)]

/-- The bytes of a text. -/
def utf8 (text : String) : List UInt8 := text.toList.flatMap String.utf8EncodeChar

theorem toByteArray_utf8 (text : String) : (utf8 text).toByteArray = text.toByteArray := by
  conv_rhs => rw [← String.ofList_toList (s := text)]
  rfl

theorem utf8_eq (text : String) : utf8 text = text.toByteArray.data.toList := by
  rw [← toByteArray_utf8, List.data_toByteArray]

/-- The white space of `str.strip`. -/
def isSpace (c : Char) : Bool :=
  let n := c.toNat
  (9 ≤ n ∧ n ≤ 13) ∨ (28 ≤ n ∧ n ≤ 32) ∨ (0x2000 ≤ n ∧ n ≤ 0x200a) ∨
    n ∈ [0x85, 0xa0, 0x1680, 0x2028, 0x2029, 0x202f, 0x205f, 0x3000]

def stripped (s : String) : String := String.ofList (strip isSpace s.toList)

@[simp] theorem stripped_stripped (s : String) : stripped (stripped s) = stripped s := by
  simp [stripped]

theorem stripped_append {s t : String} (hs : s.toList.head?.any (isSpace ·) = false ∧ s ≠ "")
    (ht : stripped t ≠ "") : stripped (s ++ stripped t) = s ++ stripped t := by
  obtain ⟨c, cs, hcs⟩ := List.exists_cons_of_ne_nil (mt String.toList_eq_nil_iff.mp hs.2)
  have hr : strip isSpace t.toList ≠ [] := fun hnil => ht (by rw [stripped, hnil])
  have hlast := List.rdropWhile_last_not isSpace (t.toList.dropWhile isSpace) hr
  have hhead : isSpace c = false := by simpa [hcs] using hs.1
  rw [stripped, String.toList_append, stripped, String.toList_ofList, hcs, strip, List.cons_append,
    List.dropWhile_cons_of_neg (by simp [hhead]), List.rdropWhile_eq_self_iff.mpr]
  · rw [← List.cons_append, ← hcs, String.ofList_append, String.ofList_toList]
  · intro hne
    exact (List.getLast_append_of_ne_nil (l := c :: cs) hne hr).symm ▸ hlast

def occursIn (pattern text : String) : Bool :=
  text.toList.tails.any fun rest => pattern.toList.isPrefixOf rest

def startsWith (beginning text : String) : Bool := beginning.toList.isPrefixOf text.toList

def endsWith (ending text : String) : Bool := ending.toList.isSuffixOf text.toList

def strippedOf (c : Char) (s : String) : String := String.ofList (strip (· == c) s.toList)

def takeChars (k : Nat) (text : String) : String := String.ofList (text.toList.take k)

def dropChars (k : Nat) (text : String) : String := String.ofList (text.toList.drop k)

def replaceRunsFrom (keep : α → Bool) (fill : α) : Bool → List α → List α
  | _, [] => []
  | inRun, a :: rest =>
    if keep a then a :: replaceRunsFrom keep fill false rest
    else if inRun then replaceRunsFrom keep fill true rest
    else fill :: replaceRunsFrom keep fill true rest

def replaceRuns (keep : α → Bool) (fill : α) (l : List α) : List α :=
  replaceRunsFrom keep fill false l

theorem length_replaceRunsFrom_le {keep : α → Bool} {fill : α} (inRun : Bool) :
    (replaceRunsFrom keep fill inRun l).length ≤ l.length := by
  fun_induction replaceRunsFrom keep fill inRun l <;> grind

theorem keep_of_mem_replaceRunsFrom {keep : α → Bool} {fill a : α} (hfill : keep fill = true)
    {inRun : Bool} (h : a ∈ replaceRunsFrom keep fill inRun l) : keep a = true := by
  fun_induction replaceRunsFrom keep fill inRun l <;> grind

theorem stripped_eq_self {s : String} (h : ∀ c ∈ s.toList, isSpace c = false) : stripped s = s := by
  rw [stripped, strip_eq_self, String.ofList_toList]
  · exact fun c hc => h c (List.mem_of_mem_head? hc)
  · exact fun c hc => h c (List.mem_of_mem_getLast? hc)

theorem toNat_of_isAlpha {c : Char} (h : c.isAlpha = true) :
    (65 ≤ c.toNat ∧ c.toNat ≤ 90) ∨ (97 ≤ c.toNat ∧ c.toNat ≤ 122) := by
  rcases Bool.or_eq_true_iff.mp h with h | h
  · exact Or.inl (of_decide_eq_true h)
  · obtain ⟨hlo, hhi⟩ := Bool.and_eq_true_iff.mp h
    exact Or.inr ⟨of_decide_eq_true hlo, of_decide_eq_true hhi⟩

theorem startsWith_iff {beginning text : String} :
    startsWith beginning text = true ↔ ∃ rest, text = beginning ++ rest := by
  rw [startsWith, List.isPrefixOf_iff_prefix]
  constructor
  · intro ⟨rest, hrest⟩
    exact ⟨String.ofList rest, String.toList_inj.mp (by simp [hrest])⟩
  · intro ⟨rest, hrest⟩
    exact ⟨rest.toList, by simp [hrest]⟩

@[simp] theorem dropChars_length_append (beginning rest : String) :
    dropChars beginning.length (beginning ++ rest) = rest := by
  simp [dropChars, ← String.length_toList]

def chunksFuel (k : Nat) : Nat → List α → List (List α)
  | 0, _ => []
  | _, [] => []
  | fuel + 1, l => l.take k :: chunksFuel k fuel (l.drop k)

def chunks (k : Nat) (l : List α) : List (List α) := chunksFuel k l.length l

theorem flatten_chunks {k : Nat} (hk : 0 < k) (l : List α) : (chunks k l).flatten = l := by
  have hfuel : ∀ (fuel : Nat) (l : List α), l.length ≤ fuel →
      (chunksFuel k fuel l).flatten = l := by
    intro fuel
    induction fuel with
    | zero => exact fun l hl => (List.eq_nil_of_length_eq_zero (Nat.le_zero.mp hl)).symm
    | succ fuel ih =>
      intro l hl
      cases l with
      | nil => rfl
      | cons b rest =>
        rw [chunksFuel, List.flatten_cons, ih, List.take_append_drop]
        · simp only [List.length_drop, List.length_cons] at hl ⊢
          omega
        · exact List.cons_ne_nil b rest
  exact hfuel _ l (Nat.le_refl _)

theorem mem_chunks_iff {k : Nat} (hk : 0 < k) {a : α} : (∃ part ∈ chunks k l, a ∈ part) ↔ a ∈ l := by
  rw [← List.mem_flatten, flatten_chunks hk]

theorem decimal_append_inj {m n : Nat} {c : Char} (hc : c.isDigit = false) {r s : List Char}
    (h : (toString m).toList ++ c :: r = (toString n).toList ++ c :: s) : m = n ∧ r = s := by
  have hdigits : ∀ (k : Nat) (t : List Char),
      ((toString k).toList ++ c :: t).takeWhile Char.isDigit = Nat.toDigits 10 k := by
    intro k t
    rw [Nat.toString_eq_repr, Nat.toList_repr, List.takeWhile_append_of_pos fun d hd =>
      Nat.isDigit_of_mem_toDigits (by decide) (by decide) hd]
    simp [hc]
  have hsame : Nat.toDigits 10 m = Nat.toDigits 10 n := by
    rw [← hdigits m r, ← hdigits n s, h]
  have hmn : m = n := by
    simpa using congrArg (fun digits => Nat.ofDigitChars 10 digits 0) hsame
  subst hmn
  exact ⟨rfl, by simpa using h⟩

end Shahkar.Lib.Text
