import Mathlib.Data.List.DropRight

/-!
# Base64 over bytes, in the URL alphabet

Bytes are regrouped to sextets and back; the alphabet is applied to the sextets. The encoder pads
its output. The decoder is strict but for two things: it also takes `+` and `/`, and after complete
groups it ignores padding.
-/

namespace Shahkar.Lib.Base64

/-!
### Sextets and octets
-/

def sextets : List UInt8 → List (Fin 64)
  | [] => []
  | [a] => [.ofNat 64 (a.toNat / 4), .ofNat 64 (a.toNat % 4 * 16)]
  | [a, b] =>
    [.ofNat 64 (a.toNat / 4), .ofNat 64 (a.toNat % 4 * 16 + b.toNat / 16),
      .ofNat 64 (b.toNat % 16 * 4)]
  | a :: b :: c :: rest =>
    .ofNat 64 (a.toNat / 4) :: .ofNat 64 (a.toNat % 4 * 16 + b.toNat / 16) ::
      .ofNat 64 (b.toNat % 16 * 4 + c.toNat / 64) :: .ofNat 64 (c.toNat % 64) :: sextets rest

def octets : List (Fin 64) → Option (List UInt8)
  | [] => some []
  | [_] => none
  | [w, x] => some [.ofNat (w.val * 4 + x.val / 16)]
  | [w, x, y] => some [.ofNat (w.val * 4 + x.val / 16), .ofNat (x.val % 16 * 16 + y.val / 4)]
  | w :: x :: y :: z :: rest =>
    (octets rest).map fun bytes =>
      .ofNat (w.val * 4 + x.val / 16) :: .ofNat (x.val % 16 * 16 + y.val / 4) ::
        .ofNat (y.val % 4 * 64 + z.val) :: bytes

theorem octet_eq {a : UInt8} {n : Nat} (h : n = a.toNat) : UInt8.ofNat n = a := by
  rw [h, UInt8.ofNat_toNat]

theorem octets_sextets (bytes : List UInt8) : octets (sextets bytes) = some bytes := by
  induction bytes using sextets.induct with
  | case1 => rfl
  | case2 a =>
    have ha := a.toNat_lt
    simp only [sextets, octets, Fin.val_ofNat, Option.some.injEq, List.cons.injEq, and_true]
    exact octet_eq (by omega)
  | case3 a b =>
    have ha := a.toNat_lt
    have hb := b.toNat_lt
    simp only [sextets, octets, Fin.val_ofNat, Option.some.injEq, List.cons.injEq, and_true]
    exact ⟨octet_eq (by omega), octet_eq (by omega)⟩
  | case4 a b c rest ih =>
    have ha := a.toNat_lt
    have hb := b.toNat_lt
    have hc := c.toNat_lt
    simp only [sextets, octets, ih, Fin.val_ofNat, Option.map_some, Option.some.injEq,
      List.cons.injEq, and_true]
    exact ⟨octet_eq (by omega), octet_eq (by omega), octet_eq (by omega)⟩

def padding (n : Nat) : Nat := (4 - n % 4) % 4

theorem length_sextets (bytes : List UInt8) :
    (sextets bytes).length = (bytes.length * 4 + 2) / 3 := by
  induction bytes using sextets.induct with
  | case1 => rfl
  | case2 a => simp [sextets]
  | case3 a b => simp [sextets]
  | case4 a b c rest ih =>
    simp only [sextets, List.length_cons, ih]
    omega

/-!
### The alphabet
-/

def alphabet : List Char :=
  "ABCDEFGHIJKLMNOPQRSTUVWXYZabcdefghijklmnopqrstuvwxyz0123456789-_".toList

def char (v : Fin 64) : Char := alphabet.getD v.val 'A'

def value? (c : Char) : Option (Fin 64) :=
  if c = '+' then some 62
  else if c = '/' then some 63
  else (List.finRange 64).find? fun v => char v = c

theorem value?_char (v : Fin 64) : value? (char v) = some v := by
  revert v
  decide +kernel

theorem char_ne_pad (v : Fin 64) : char v ≠ '=' := by
  revert v
  decide +kernel

theorem char_mem_alphabet (v : Fin 64) : char v ∈ alphabet := by
  revert v
  decide +kernel

def encode (bytes : List UInt8) : List Char :=
  (sextets bytes).map char ++ List.replicate (padding (sextets bytes).length) '='

def encodeUnpadded (bytes : List UInt8) : List Char := (sextets bytes).map char

def decode (text : List Char) : Option (List UInt8) :=
  let body := text.takeWhile (· ≠ '=')
  let pads := text.dropWhile (· ≠ '=')
  if ¬ pads.all (· = '=') then none
  else if body.length % 4 = 0 then
    if body = [] ∧ pads ≠ [] then none else (body.mapM value?).bind octets
  else if pads.length = padding body.length then (body.mapM value?).bind octets
  else none

theorem mapM_value?_map_char (vs : List (Fin 64)) : (vs.map char).mapM value? = some vs := by
  induction vs with
  | nil => rfl
  | cons v rest ih => simp [List.mapM_cons, value?_char, ih]

theorem ne_pad_of_mem {bytes : List UInt8} {c : Char} (h : c ∈ encodeUnpadded bytes) : c ≠ '=' := by
  obtain ⟨v, -, rfl⟩ := List.mem_map.mp h
  exact char_ne_pad v

theorem mem_alphabet_of_mem {bytes : List UInt8} {c : Char} (h : c ∈ encodeUnpadded bytes) :
    c ∈ alphabet := by
  obtain ⟨v, -, rfl⟩ := List.mem_map.mp h
  exact char_mem_alphabet v

theorem length_encodeUnpadded (bytes : List UInt8) :
    (encodeUnpadded bytes).length = (bytes.length * 4 + 2) / 3 := by
  rw [encodeUnpadded, List.length_map, length_sextets]

theorem rdropWhile_encode (bytes : List UInt8) :
    (encode bytes).rdropWhile (· = '=') = encodeUnpadded bytes := by
  have hpads : ∀ n, (encodeUnpadded bytes ++ List.replicate n '=').rdropWhile (· = '=') =
      encodeUnpadded bytes := by
    intro n
    induction n with
    | zero =>
      rw [List.replicate_zero, List.append_nil, List.rdropWhile_eq_self_iff]
      intro hne
      simpa using ne_pad_of_mem (List.getLast_mem hne)
    | succ n ih =>
      rw [List.replicate_succ', ← List.append_assoc, List.rdropWhile_concat_pos _ _ _ (by simp), ih]
  exact hpads _

theorem decode_encodeUnpadded (bytes : List UInt8) :
    decode (encodeUnpadded bytes ++ List.replicate (padding (encodeUnpadded bytes).length) '=') =
      some bytes := by
  have hbody : ∀ c ∈ encodeUnpadded bytes, decide (c ≠ '=') = true := fun c hc =>
    decide_eq_true (ne_pad_of_mem hc)
  have hvalues : ((encodeUnpadded bytes).mapM value?).bind octets = some bytes := by
    rw [encodeUnpadded, mapM_value?_map_char, Option.bind_some, octets_sextets]
  have htake : (List.replicate (padding (encodeUnpadded bytes).length) '=').takeWhile
      (fun c => decide (c ≠ '=')) = [] := by
    simp
  have hdrop : (List.replicate (padding (encodeUnpadded bytes).length) '=').dropWhile
      (fun c => decide (c ≠ '=')) = List.replicate (padding (encodeUnpadded bytes).length) '=' := by
    simp
  unfold decode
  simp only [List.takeWhile_append_of_pos hbody, List.dropWhile_append_of_pos hbody, htake, hdrop,
    List.append_nil, List.length_replicate, hvalues]
  rw [if_neg (by simp)]
  split
  · next hfull =>
      rw [if_neg]
      simp [padding, hfull]
  · rfl

theorem encodeUnpadded_injective : Function.Injective encodeUnpadded := by
  intro bytes bytes' h
  have hdecode := decode_encodeUnpadded bytes
  rw [h, decode_encodeUnpadded, Option.some.injEq] at hdecode
  exact hdecode.symm

end Shahkar.Lib.Base64
