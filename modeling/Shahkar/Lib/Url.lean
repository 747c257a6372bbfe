import Shahkar.Lib.Text
import Mathlib.Data.Bool.AllAny
import Mathlib.Data.Fintype.Basic

/-!
# Addresses of resources, as `urllib.parse` writes and reads them

What a component is escaped to has no separators, so it comes back from between them.
-/

namespace Shahkar.Lib.Url

open Shahkar.Lib.Text

/-!
### Escapes
-/

structure Decoder where
  decode : List UInt8 → String
  decode_utf8 : ∀ text, decode (utf8 text) = text

def strictDecoder : Decoder where
  decode bytes := (String.fromUTF8? bytes.toByteArray).getD ""
  decode_utf8 text := by
    rw [toByteArray_utf8, String.fromUTF8?, dif_pos text.isValidUTF8]
    rfl

def isUnreserved (c : Char) : Bool := c.isAlphanum || c ∈ ['_', '.', '-', '~']

def hexDigit (n : Nat) : Char := "0123456789ABCDEF".toList.getD n '0'

def hexValue (c : Char) : Option Nat :=
  let n := "0123456789ABCDEF".toList.idxOf c.toUpper
  if n < 16 then some n else none

def quoteByte (safe : List Char) (b : UInt8) : List Char :=
  let c := Char.ofNat b.toNat
  if isUnreserved c ∨ c ∈ safe then [c]
  else ['%', hexDigit (b.toNat / 16), hexDigit (b.toNat % 16)]

def quote (safe : List Char) (text : String) : List Char := (utf8 text).flatMap (quoteByte safe)

def unquoteBytes : List Char → List UInt8
  | [] => []
  | '%' :: a :: b :: rest =>
    match hexValue a, hexValue b with
    | some m, some n => UInt8.ofNat (16 * m + n) :: unquoteBytes rest
    | _, _ => String.utf8EncodeChar '%' ++ unquoteBytes (a :: b :: rest)
  | c :: rest => String.utf8EncodeChar c ++ unquoteBytes rest

def Decoder.unquote (dec : Decoder) (text : List Char) : String := dec.decode (unquoteBytes text)

def escapes (b : UInt8) : List Char → Bool
  | [c] => c != '%' && String.utf8EncodeChar c == [b]
  | [c, x, y] => c == '%' &&
    match hexValue x, hexValue y with
    | some m, some n => UInt8.ofNat (16 * m + n) == b
    | _, _ => false
  | _ => false

theorem escapes_quoteByte {safe : List Char} (hsafe : safe ∈ [[], [' ']]) (b : UInt8) :
    escapes b (quoteByte safe b) = true := by
  have hall : ∀ safe ∈ [[], [' ']], ∀ n : Fin 256,
      escapes (UInt8.ofNat n) (quoteByte safe (UInt8.ofNat n)) = true := by
    decide +kernel
  have hb := hall safe hsafe ⟨b.toNat, b.toNat_lt⟩
  rwa [UInt8.ofNat_toNat] at hb

theorem unquoteBytes_append {b : UInt8} {l : List Char} (h : escapes b l = true)
    (rest : List Char) : unquoteBytes (l ++ rest) = b :: unquoteBytes rest := by
  unfold escapes at h
  split at h
  · next c =>
    simp only [Bool.and_eq_true, bne_iff_ne, beq_iff_eq] at h
    rw [List.singleton_append, unquoteBytes, h.2]
    · rfl
    · simp [h.1]
  · next c x y =>
    simp only [Bool.and_eq_true, beq_iff_eq] at h
    obtain ⟨rfl, h⟩ := h
    split at h
    · next m n hm hn =>
      simp only [List.cons_append, List.nil_append, unquoteBytes, hm, hn]
      rw [beq_iff_eq.mp h]
    · cases h
  · cases h

theorem Decoder.unquote_quote (dec : Decoder) {safe : List Char} (hsafe : safe ∈ [[], [' ']])
    (text : String) : dec.unquote (quote safe text) = text := by
  have hbytes : ∀ bytes : List UInt8, unquoteBytes (bytes.flatMap (quoteByte safe)) = bytes := by
    intro bytes
    induction bytes with
    | nil => rfl
    | cons b rest ih =>
      rw [List.flatMap_cons, unquoteBytes_append (escapes_quoteByte hsafe b), ih]
  rw [unquote, quote, hbytes, dec.decode_utf8]

theorem not_mem_quote {safe : List Char} {c : Char}
    (hc : isUnreserved c = false ∧ c ≠ '%' ∧ c ∉ safe) (text : String) : c ∉ quote safe text := by
  have hdigit : ∀ n < 16, isUnreserved (hexDigit n) = true := by decide
  intro hmem
  obtain ⟨b, -, hb⟩ := List.mem_flatMap.mp hmem
  have hlt := b.toNat_lt
  rw [quoteByte] at hb
  split at hb
  · next hsafe =>
    obtain rfl := List.mem_singleton.mp hb
    simp [hc] at hsafe
  · simp only [List.mem_cons, List.not_mem_nil, or_false] at hb
    rcases hb with rfl | rfl | rfl
    · exact hc.2.1 rfl
    · rw [hdigit _ (by omega)] at hc
      simp at hc
    · rw [hdigit _ (by omega)] at hc
      simp at hc

def cut (c : Char) (l : List Char) : List Char × List Char :=
  (l.takeWhile (· ≠ c), (l.dropWhile (· ≠ c)).drop 1)

theorem forall_ne_of_not_mem {c : Char} {l : List Char} (h : c ∉ l) :
    ∀ a ∈ l, decide (a ≠ c) = true :=
  fun _ ha => decide_eq_true fun heq => h (heq ▸ ha)

theorem cut_append {c : Char} {l : List Char} (h : c ∉ l) (r : List Char) :
    cut c (l ++ c :: r) = (l, r) := by
  rw [cut, List.takeWhile_append_of_pos (forall_ne_of_not_mem h),
    List.dropWhile_append_of_pos (forall_ne_of_not_mem h)]
  simp

theorem cut_of_not_mem {c : Char} {l : List Char} (h : c ∉ l) : cut c l = (l, []) := by
  rw [cut, List.takeWhile_eq_self_iff.mpr (forall_ne_of_not_mem h),
    List.dropWhile_eq_nil_iff.mpr (forall_ne_of_not_mem h)]
  rfl

def quotePlus (text : String) : List Char :=
  (quote [' '] text).map fun c => if c = ' ' then '+' else c

def Decoder.unquotePlus (dec : Decoder) (text : List Char) : String :=
  dec.unquote (text.map fun c => if c = '+' then ' ' else c)

def urlencode (query : List (String × String)) : List Char :=
  ['&'].intercalate (query.map fun e => quotePlus e.1 ++ '=' :: quotePlus e.2)

def Decoder.parseQsl (dec : Decoder) (qs : List Char) : List (String × String) :=
  (qs.splitOn '&').filterMap fun field =>
    if '=' ∈ field ∧ (cut '=' field).2 ≠ [] then
      some (dec.unquotePlus (cut '=' field).1, dec.unquotePlus (cut '=' field).2)
    else none

theorem Decoder.unquotePlus_quotePlus (dec : Decoder) (text : String) :
    dec.unquotePlus (quotePlus text) = text := by
  rw [unquotePlus, quotePlus, List.map_map, List.map_congr_left (g := id), List.map_id,
    dec.unquote_quote (by simp)]
  intro c hc
  have hplus : c ≠ '+' := fun heq => not_mem_quote (by decide) text (heq ▸ hc)
  by_cases hspace : c = ' ' <;> simp [hspace, hplus]

theorem not_mem_quotePlus {c : Char} (hc : isUnreserved c = false ∧ c ≠ '%' ∧ c ≠ '+')
    (text : String) : c ∉ quotePlus text := by
  intro hmem
  obtain ⟨d, hd, heq⟩ := List.mem_map.mp hmem
  split at heq
  · exact hc.2.2 heq.symm
  · next hspace =>
    subst heq
    exact not_mem_quote ⟨hc.1, hc.2.1, by simpa using hspace⟩ text hd

theorem quotePlus_eq_nil_iff (dec : Decoder) {text : String} : quotePlus text = [] ↔ text = "" := by
  constructor
  · intro h
    rw [← dec.unquotePlus_quotePlus text, h]
    exact dec.unquotePlus_quotePlus ""
  · rintro rfl
    rfl

theorem not_mem_urlencode {c : Char}
    (hc : isUnreserved c = false ∧ c ∉ ['%', '+', '&', '=']) (query : List (String × String)) :
    c ∉ urlencode query := by
  simp only [List.mem_cons, List.not_mem_nil, or_false, not_or] at hc
  have hfield : ∀ e : String × String, c ∉ quotePlus e.1 ++ '=' :: quotePlus e.2 := by
    intro e
    have hquoted := not_mem_quotePlus ⟨hc.1, hc.2.1, hc.2.2.1⟩
    simp [hquoted, hc]
  induction query with
  | nil => simp [urlencode, List.intercalate]
  | cons e rest ih =>
    cases rest with
    | nil => simpa [urlencode, List.intercalate] using hfield e
    | cons e' rest =>
      have hsplit : urlencode (e :: e' :: rest) =
          (quotePlus e.1 ++ '=' :: quotePlus e.2) ++ ['&'] ++ urlencode (e' :: rest) :=
        List.intercalate_cons_cons
      rw [hsplit, List.mem_append, List.mem_append, List.mem_singleton, not_or, not_or]
      exact ⟨⟨hfield e, hc.2.2.2.1⟩, ih⟩

theorem Decoder.parseQsl_urlencode (dec : Decoder) (query : List (String × String)) :
    dec.parseQsl (urlencode query) = query.filter fun e => e.2 ≠ "" := by
  cases query with
  | nil => simp [urlencode, parseQsl, List.intercalate]
  | cons e rest =>
    rw [parseQsl, urlencode, List.splitOn_intercalate, List.filterMap_map,
      ← List.filterMap_eq_filter]
    · refine List.filterMap_congr fun e _ => ?_
      have hcut := cut_append (not_mem_quotePlus (c := '=') (by decide) e.1) (quotePlus e.2)
      simp [hcut, dec.unquotePlus_quotePlus, quotePlus_eq_nil_iff dec, Option.guard]
    · intro l hl
      obtain ⟨e, -, rfl⟩ := List.mem_map.mp hl
      have hkey := not_mem_quotePlus (c := '&') (by decide) e.1
      have hvalue := not_mem_quotePlus (c := '&') (by decide) e.2
      simp [hkey, hvalue]
    · simp

def rcut (c : Char) (l : List Char) : List Char × List Char :=
  ((cut c l.reverse).2.reverse, (cut c l.reverse).1.reverse)

theorem rcut_append {c : Char} {r : List Char} (h : c ∉ r) (l : List Char) :
    rcut c (l ++ c :: r) = (l, r) := by
  have hcut := cut_append (mt List.mem_reverse.mp h) l.reverse
  rw [rcut, List.reverse_append, List.reverse_cons, List.append_assoc, List.singleton_append, hcut,
    List.reverse_reverse, List.reverse_reverse]

structure SplitUrl where
  scheme : List Char
  netloc : List Char
  path : List Char
  query : List Char
  fragment : List Char

def isSchemeChar (c : Char) : Bool := c.isAlphanum || c ∈ ['+', '-', '.']

def hostinfo (netloc : List Char) : List Char × List Char :=
  let info := (rcut '@' netloc).2
  if '[' ∈ info then
    let bracketed := cut ']' (cut '[' info).2
    (bracketed.1, (cut ':' bracketed.2).2)
  else cut ':' info

def lowerHost (host : List Char) : List Char :=
  (host.takeWhile (· ≠ '%')).map Char.toLower ++ host.dropWhile (· ≠ '%')

def portOf (netloc : List Char) : Option (Option Nat) :=
  let text := (hostinfo netloc).2
  let n := Nat.ofDigitChars 10 text 0
  if text = [] then some none
  else if text.all Char.isDigit ∧ n ≤ 65535 then some (some n)
  else none

def username (netloc : List Char) : List Char :=
  if '@' ∈ netloc then (cut ':' (rcut '@' netloc).1).1 else []

def bracketsOk (literal : List Char → Bool) (netloc : List Char) : Bool :=
  if '[' ∈ netloc ∨ ']' ∈ netloc then
    let info := (rcut '@' netloc).2
    '[' ∈ netloc && ']' ∈ netloc && literal (hostinfo netloc).1 &&
      ('[' ∉ info || (cut '[' info).1.isEmpty && (cut ']' (cut '[' info).2).2.head?.all (· = ':'))
  else true

def inNetloc (c : Char) : Bool := c ∉ ['/', '?', '#']

def urlsplit (literal : List Char → Bool) (url : List Char) : Option SplitUrl :=
  let url := (url.dropWhile fun c => c.toNat ≤ 32).filter (· ∉ ['\t', '\r', '\n'])
  let front := (cut ':' url).1
  let schemed := ':' ∈ url ∧ front.head?.any Char.isAlpha ∧ front.all isSchemeChar
  let rest := if schemed then (cut ':' url).2 else url
  let netloc := if rest.take 2 = ['/', '/'] then (rest.drop 2).takeWhile inNetloc else []
  let rest := if rest.take 2 = ['/', '/'] then (rest.drop 2).dropWhile inNetloc else rest
  if bracketsOk literal netloc then
    let before := (cut '#' rest).1
    some
      { scheme := if schemed then front.map Char.toLower else []
        netloc := netloc
        path := (cut '?' before).1
        query := (cut '?' before).2
        fragment := (cut '#' rest).2 }
  else none

def isPlain (c : Char) : Bool := c ∉ ['/', '?', '#', '@', '[', ']', '\t', '\r', '\n']

/-- A host without separators but colons, or a literal in brackets. -/
def HostText (literal : List Char → Bool) (host : List Char) : Prop :=
  (∀ c ∈ host, isPlain c = true) ∨
    ∃ inner, host = '[' :: (inner ++ [']']) ∧ (∀ c ∈ inner, isPlain c = true) ∧
      literal inner = true

/-- Colons are in brackets only. -/
def Dialable (host : List Char) : Prop := ':' ∈ host → host.head? = some '['

def unbracketed (host : List Char) : List Char := host.filter (· ∉ ['[', ']'])

section Netloc

variable {literal : List Char → Bool} {auth host digits : List Char}

theorem not_mem_of_isPlain {c : Char} {l : List Char} (h : ∀ c ∈ l, isPlain c = true)
    (hc : isPlain c = false) : c ∉ l :=
  fun hmem => Bool.false_ne_true (hc.symm.trans (h c hmem))

theorem rcut_netloc (auth : List Char) (hhost : HostText literal host)
    (hdigits : ∀ c ∈ digits, isPlain c = true ∧ c ≠ ':') :
    rcut '@' (auth ++ '@' :: (host ++ ':' :: digits)) = (auth, host ++ ':' :: digits) := by
  have hport := not_mem_of_isPlain (fun c hc => (hdigits c hc).1) (c := '@') (by decide)
  have hat : '@' ∉ host := by
    rcases hhost with hhost | ⟨inner, rfl, hinner, -⟩
    · exact not_mem_of_isPlain hhost (by decide)
    · simpa using not_mem_of_isPlain hinner (c := '@') (by decide)
  exact rcut_append (by simp [hat, hport]) auth

theorem isPlain_bracket : ∀ c ∈ ['[', ']'], isPlain c = false :=
  List.all_iff_forall_prop.mp (by decide)

theorem hostinfo_unbracketed (literal : List Char → Bool) (hhost : ∀ c ∈ host, isPlain c = true)
    (hdigits : ∀ c ∈ digits, isPlain c = true ∧ c ≠ ':') (hauth : ∀ c ∈ auth, isPlain c = true) :
    hostinfo (auth ++ '@' :: (host ++ ':' :: digits)) = cut ':' (host ++ ':' :: digits) ∧
      bracketsOk literal (auth ++ '@' :: (host ++ ':' :: digits)) = true := by
  have hnone : ∀ c ∈ ['[', ']'], c ∉ auth ∧ c ∉ host ∧ c ∉ digits ∧ c ≠ '@' ∧ c ≠ ':' := by
    intro c hc
    have hc' := isPlain_bracket c hc
    refine ⟨not_mem_of_isPlain hauth hc', not_mem_of_isPlain hhost hc',
      not_mem_of_isPlain (fun c hc => (hdigits c hc).1) hc', ?_, ?_⟩ <;>
      rintro rfl <;> revert hc <;> decide
  have hopen := hnone '[' (by decide)
  have hclose := hnone ']' (by decide)
  refine ⟨?_, by simp [bracketsOk, hopen, hclose]⟩
  rw [hostinfo, rcut_netloc auth (.inl hhost : HostText literal host) hdigits,
    if_neg (by simp [hopen])]

theorem hostinfo_bracketed {inner : List Char} (hinner : ∀ c ∈ inner, isPlain c = true)
    (hliteral : literal inner = true) (hdigits : ∀ c ∈ digits, isPlain c = true ∧ c ≠ ':') :
    hostinfo (auth ++ '@' :: ('[' :: (inner ++ [']']) ++ ':' :: digits)) = (inner, digits) ∧
      bracketsOk literal (auth ++ '@' :: ('[' :: (inner ++ [']']) ++ ':' :: digits)) = true := by
  have hinfo := rcut_netloc auth (.inr ⟨inner, rfl, hinner, hliteral⟩ : HostText literal _) hdigits
  rw [List.cons_append, List.append_assoc, List.singleton_append] at hinfo ⊢
  have hopen := cut_append (c := '[') (l := []) (by simp) (inner ++ ']' :: ':' :: digits)
  have hclose := cut_append (not_mem_of_isPlain hinner (c := ']') (by decide)) (':' :: digits)
  have hcolon := cut_append (c := ':') (l := []) (by simp) digits
  rw [List.nil_append] at hopen hcolon
  have hhost : hostinfo (auth ++ '@' :: ('[' :: (inner ++ ']' :: ':' :: digits))) =
      (inner, digits) := by
    rw [hostinfo, hinfo, if_pos List.mem_cons_self, hopen, hclose]
    exact congrArg (fun e => (inner, e.2)) hcolon
  refine ⟨hhost, ?_⟩
  rw [bracketsOk, if_pos (by simp)]
  simp [hhost, hinfo, hopen, hclose, hliteral]

theorem unbracketed_bracketed {inner : List Char} (hinner : ∀ c ∈ inner, isPlain c = true) :
    unbracketed ('[' :: (inner ++ [']'])) = inner := by
  rw [unbracketed, List.filter_cons_of_neg (by decide), List.filter_append,
    List.filter_cons_of_neg (by decide), List.filter_nil, List.append_nil, List.filter_eq_self.mpr]
  intro c hc
  exact decide_eq_true fun hmem => not_mem_of_isPlain hinner (isPlain_bracket c hmem) hc

theorem hostinfo_dialable (hhost : HostText literal host) (hdial : Dialable host)
    (hdigits : ∀ c ∈ digits, isPlain c = true ∧ c ≠ ':') (hauth : ∀ c ∈ auth, isPlain c = true) :
    hostinfo (auth ++ '@' :: (host ++ ':' :: digits)) = (unbracketed host, digits) := by
  rcases hhost with hhost | ⟨inner, rfl, hinner, hliteral⟩
  · have hcolon : ':' ∉ host := fun hmem =>
      absurd (hhost '[' (List.mem_of_head? (hdial hmem))) (by decide)
    rw [(hostinfo_unbracketed literal hhost hdigits hauth).1, cut_append hcolon,
      unbracketed, List.filter_eq_self.mpr]
    intro c hc
    exact decide_eq_true fun hmem => not_mem_of_isPlain hhost (isPlain_bracket c hmem) hc
  · rw [(hostinfo_bracketed hinner hliteral hdigits).1, unbracketed_bracketed hinner]

theorem bracketsOk_netloc (hhost : HostText literal host)
    (hdigits : ∀ c ∈ digits, isPlain c = true ∧ c ≠ ':') (hauth : ∀ c ∈ auth, isPlain c = true) :
    bracketsOk literal (auth ++ '@' :: (host ++ ':' :: digits)) = true := by
  rcases hhost with hhost | ⟨inner, rfl, hinner, hliteral⟩
  · exact (hostinfo_unbracketed literal hhost hdigits hauth).2
  · exact (hostinfo_bracketed hinner hliteral hdigits).2

/-- An unbracketed host with a colon leaves a port text that is no number. -/
theorem portOf_colon (hhost : HostText literal host) (hdial : ¬ Dialable host)
    (hdigits : ∀ c ∈ digits, isPlain c = true ∧ c ≠ ':') (hauth : ∀ c ∈ auth, isPlain c = true) :
    portOf (auth ++ '@' :: (host ++ ':' :: digits)) = none := by
  simp only [Dialable, Classical.not_imp] at hdial
  obtain ⟨hcolon, hopen⟩ := hdial
  rcases hhost with hhost | ⟨inner, rfl, -, -⟩
  · obtain ⟨front, rest, rfl, hfront⟩ := List.eq_append_cons_of_mem hcolon
    have htext : (hostinfo (auth ++ '@' :: ((front ++ ':' :: rest) ++ ':' :: digits))).2 =
        rest ++ ':' :: digits := by
      rw [(hostinfo_unbracketed literal hhost hdigits hauth).1, List.append_assoc,
        List.cons_append, cut_append hfront]
    have hnumber : ¬ ((rest ++ ':' :: digits).all Char.isDigit = true) := by
      rw [List.all_eq_true]
      exact fun h => absurd (h ':' (by simp)) (by decide)
    rw [portOf, htext, if_neg (by simp), if_neg fun h => hnumber h.1]
  · exact absurd rfl hopen

theorem not_mem_netloc (hhost : HostText literal host)
    (hdigits : ∀ c ∈ digits, isPlain c = true ∧ c ≠ ':') (hauth : ∀ c ∈ auth, isPlain c = true) :
    ∀ c ∈ auth ++ '@' :: (host ++ ':' :: digits), c ∉ ['/', '?', '#', '\t', '\r', '\n'] := by
  have hbad : ∀ c ∈ ['/', '?', '#', '\t', '\r', '\n'],
      isPlain c = false ∧ c ∉ ['@', ':', '[', ']'] :=
    List.all_iff_forall_prop.mp (by decide)
  intro c hc hmem
  obtain ⟨hplain, hsep⟩ := hbad c hmem
  simp only [List.mem_cons, List.not_mem_nil, or_false, not_or] at hsep
  have hhost' : c ∉ host := by
    rcases hhost with hhost | ⟨inner, rfl, hinner, -⟩
    · exact not_mem_of_isPlain hhost hplain
    · simp [hsep, not_mem_of_isPlain hinner hplain]
  have hport := not_mem_of_isPlain (fun c hc => (hdigits c hc).1) hplain
  simp [not_mem_of_isPlain hauth hplain, hsep, hhost', hport] at hc

end Netloc

section Urlsplit

variable {l netloc q tail : List Char}

theorem filter_eq_self_of_clean (l' : List Char) (h : ∀ c ∈ l, c ∉ l' ++ ['\t', '\r', '\n']) :
    l.filter (· ∉ ['\t', '\r', '\n']) = l :=
  List.filter_eq_self.mpr fun c hc =>
    decide_eq_true fun hmem => h c hc (List.mem_append_right l' hmem)

/-- A fragment loses its tabs and line ends, but it stays a fragment. -/
theorem fragment_filter (h : tail = [] ∨ ∃ rest, tail = '#' :: rest) :
    tail.filter (· ∉ ['\t', '\r', '\n']) = [] ∨
      ∃ rest, tail.filter (· ∉ ['\t', '\r', '\n']) = '#' :: rest := by
  rcases h with rfl | ⟨rest, rfl⟩
  · exact Or.inl rfl
  · exact Or.inr ⟨_, List.filter_cons_of_pos (by decide)⟩

theorem cut_fragment (hq : '#' ∉ q) (h : tail = [] ∨ ∃ rest, tail = '#' :: rest) :
    (cut '#' (q ++ tail)).1 = q := by
  rcases h with rfl | ⟨rest, rfl⟩
  · rw [List.append_nil, cut_of_not_mem hq]
  · rw [cut_append hq]

/-- The network location ends where the query or the fragment starts. -/
theorem span_netloc (hnetloc : ∀ c ∈ netloc, inNetloc c = true)
    (hq : q = [] ∨ ∃ query, q = '?' :: query) (h : tail = [] ∨ ∃ rest, tail = '#' :: rest) :
    (netloc ++ (q ++ tail)).takeWhile inNetloc = netloc ∧
      (netloc ++ (q ++ tail)).dropWhile inNetloc = q ++ tail := by
  have hstop : ∀ c ∈ (q ++ tail).head?, inNetloc c = false := by
    rcases hq with rfl | ⟨query, rfl⟩
    · rcases h with rfl | ⟨rest, rfl⟩ <;> simp [inNetloc]
    · simp [inNetloc]
  rw [List.takeWhile_append_of_pos hnetloc, List.dropWhile_append_of_pos hnetloc]
  cases hrest : q ++ tail with
  | nil => simp
  | cons c rest =>
    have hc : inNetloc c = false := hstop c (by simp [hrest])
    simp [hc]

theorem urlsplit_eq {literal : List Char → Bool} {first : Char}
    {scheme query : List Char} (q tail : List Char)
    (hfirst : first.isAlpha = true) (hscheme : (first :: scheme).all isSchemeChar = true)
    (hnetloc : ∀ c ∈ netloc, c ∉ ['/', '?', '#', '\t', '\r', '\n'])
    (hbrackets : bracketsOk literal netloc = true)
    (hquery : ∀ c ∈ query, c ∉ ['#', '\t', '\r', '\n'])
    (hq : q = [] ∧ query = [] ∨ q = '?' :: query) (htail : tail = [] ∨ ∃ rest, tail = '#' :: rest) :
    ∃ url, urlsplit literal (first :: scheme ++ ':' :: '/' :: '/' :: (netloc ++ (q ++ tail))) =
      some url ∧ url.netloc = netloc ∧ url.query = query := by
  have hscheme' : ∀ c ∈ first :: scheme, c ∉ [':', '\t', '\r', '\n'] := by
    intro c hc hmem
    have hchar := List.all_eq_true.mp hscheme c hc
    simp only [List.mem_cons, List.not_mem_nil, or_false] at hmem
    rcases hmem with rfl | rfl | rfl | rfl <;> revert hchar <;> decide
  have hquery' : ∀ c ∈ q, c ∉ ['#', '\t', '\r', '\n'] := by
    rcases hq with ⟨rfl, -⟩ | rfl
    · simp
    · exact List.forall_mem_cons.mpr ⟨by decide, hquery⟩
  obtain ⟨tail', htail', hfragment⟩ : ∃ tail', tail.filter (· ∉ ['\t', '\r', '\n']) = tail' ∧
      (tail' = [] ∨ ∃ rest, tail' = '#' :: rest) := ⟨_, rfl, fragment_filter htail⟩
  have hclean : (first :: scheme ++ ':' :: '/' :: '/' :: (netloc ++ (q ++ tail))).filter
      (· ∉ ['\t', '\r', '\n']) =
        first :: scheme ++ ':' :: '/' :: '/' :: (netloc ++ (q ++ tail')) := by
    rw [List.filter_append, filter_eq_self_of_clean [':'] hscheme',
      List.filter_cons_of_pos (by decide), List.filter_cons_of_pos (by decide),
      List.filter_cons_of_pos (by decide), List.filter_append,
      filter_eq_self_of_clean ['/', '?', '#'] hnetloc, List.filter_append,
      filter_eq_self_of_clean ['#'] hquery', htail']
  have hsplit : (cut '#' (q ++ tail')).1 = q :=
    cut_fragment (fun hmem => hquery' '#' hmem (by simp)) hfragment
  have hend := span_netloc (fun c hc => decide_eq_true fun hmem =>
    hnetloc c hc (List.mem_append_left ['\t', '\r', '\n'] hmem))
    (hq.imp And.left fun h => ⟨query, h⟩) hfragment
  have hvisible : ¬ first.toNat ≤ 32 := by
    have := Text.toNat_of_isAlpha hfirst
    omega
  have hcut := cut_append (fun hmem => hscheme' ':' hmem (by simp))
    ('/' :: '/' :: (netloc ++ (q ++ tail')))
  rw [urlsplit, List.cons_append, List.dropWhile_cons_of_neg (by simpa using hvisible),
    ← List.cons_append, hclean]
  simp only [hcut, hscheme, List.head?_cons, Option.any_some, hfirst, List.mem_append,
    List.mem_cons, true_or, or_true, and_self, if_true, List.take_succ_cons, List.take_zero,
    List.drop_succ_cons, List.drop_zero, hend.1, hend.2, hbrackets]
  refine ⟨_, rfl, rfl, ?_⟩
  rw [hsplit]
  rcases hq with ⟨rfl, rfl⟩ | rfl
  · rfl
  · exact congrArg Prod.snd (cut_append (l := []) (by simp) query)

end Urlsplit

end Shahkar.Lib.Url
