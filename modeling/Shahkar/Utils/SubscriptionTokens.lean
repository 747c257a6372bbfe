import Mathlib.Data.List.Infix
import Mathlib.Data.String.Basic
import Shahkar.Lib.Base64
import Shahkar.Lib.Text

/-!
# Subscription tokens (`app/utils/jwt.py`)

The unpadded base64 of `username,time` and the beginning of a signature. Nothing separates the two:
the decoder cuts the signature off at either of two lengths in turn.
-/

namespace Shahkar.Utils

open Shahkar.Lib Shahkar.Lib.Text

/-- A signature: the base64 of a digest of the data and the secret key, without its padding. -/
structure Signer where
  digest : List Char → List Char
  length : ∀ data, (digest data).length = 43
  chars : ∀ data, ∀ c ∈ digest data, c ∈ Base64.alphabet

def subscriptionSigLen : Nat := 22

def legacySubscriptionSigLen : Nat := 10

structure SubscriptionPayload where
  username : String
  createdAt : Int

inductive TokenError
  | invalidNumber
  | outOfRange

/-!
### Texts and bytes
-/

def fromUtf8? (bytes : List UInt8) : Option String := String.fromUTF8? ⟨bytes.toArray⟩

/-- The zeros of Unicode's decimal digits. Each is followed by the other nine of its script. -/
def decimalZeros : List Nat :=
  [0x30, 0x660, 0x6f0, 0x7c0, 0x966, 0x9e6, 0xa66, 0xae6, 0xb66, 0xbe6, 0xc66, 0xce6, 0xd66, 0xde6,
    0xe50, 0xed0, 0xf20, 0x1040, 0x1090, 0x17e0, 0x1810, 0x1946, 0x19d0, 0x1a80, 0x1a90, 0x1b50,
    0x1bb0, 0x1c40, 0x1c50, 0xa620, 0xa8d0, 0xa900, 0xa9d0, 0xa9f0, 0xaa50, 0xabf0, 0xff10, 0x104a0,
    0x10d30, 0x11066, 0x110f0, 0x11136, 0x111d0, 0x112f0, 0x11450, 0x114d0, 0x11650, 0x116c0,
    0x11730, 0x118e0, 0x11950, 0x11c50, 0x11d50, 0x11da0, 0x16a60, 0x16ac0, 0x16b50, 0x1d7ce,
    0x1d7d8, 0x1d7e2, 0x1d7ec, 0x1d7f6, 0x1e140, 0x1e2f0, 0x1e950, 0x1fbf0]

/-- `int()` reads every decimal digit as the ASCII one. -/
def asciiDigit (c : Char) : Char :=
  match decimalZeros.find? fun z => z ≤ c.toNat ∧ c.toNat ≤ z + 9 with
  | some z => Char.ofNat (48 + (c.toNat - z))
  | none => c

/-- White space around a number; the four separators that `str.strip` takes away too are none. -/
def intSpace (c : Char) : Bool := isSpace c ∧ ¬ (28 ≤ c.toNat ∧ c.toNat ≤ 31)

def parseDigits (text : List Char) : Option Nat :=
  let digits := text.filter (· ≠ '_')
  if text.head? = some '_' ∨ text.getLast? = some '_' ∨ ['_', '_'] <:+: text then none
  else if digits = [] ∨ ¬ digits.all Char.isDigit then none
  else some (Nat.ofDigitChars 10 digits 0)

def parseInt (text : List Char) : Option Int :=
  match strip intSpace (text.map asciiDigit) with
  | '-' :: digits => (parseDigits digits).map fun n => -Int.ofNat n
  | '+' :: digits => (parseDigits digits).map Int.ofNat
  | digits => (parseDigits digits).map Int.ofNat

def maxTimestamp : Int := 253402300799

def minTimestamp : Int := -62135596800

def datedPayload (username : String) (ts : List Char) : Except TokenError SubscriptionPayload :=
  match parseInt ts with
  | none => .error .invalidNumber
  | some n =>
    if minTimestamp ≤ n ∧ n ≤ maxTimestamp then .ok { username, createdAt := n }
    else .error .outOfRange

/-!
### Tokens
-/

section Tokens

variable (signer : Signer)

def subscriptionSignature (data : List Char) (length : Nat) : List Char :=
  (signer.digest data).take length

def tokenData (username : String) (ts : Int) : List Char :=
  (Base64.encode (utf8 (username ++ "," ++ toString ts))).rdropWhile (· = '=')

def signedToken (sigLen : Nat) (username : String) (ts : Int) : List Char :=
  tokenData username ts ++ subscriptionSignature signer (tokenData username ts) sigLen

def createSubscriptionToken (username : String) (issuedAt : Option Int) : List Char :=
  signedToken signer subscriptionSigLen username (issuedAt.getD 0)

def readToken (token : List Char) (sigLen : Nat) :
    Option (Except TokenError SubscriptionPayload) :=
  if token.length < sigLen + 5 then none
  else
    let data := token.take (token.length - sigLen)
    let signature := token.drop (token.length - sigLen)
    -- a character outside ASCII is refused whatever the padding
    let padded := data ++ List.replicate (Base64.padding data.length) '='
    match (Base64.decode padded).bind fromUtf8? with
    | none => none
    | some text =>
      if signature = subscriptionSignature signer data sigLen then
        match text.toList.dropWhile (· ≠ ',') with
        | [] => none
        | _ :: ts => some (datedPayload (String.ofList (text.toList.takeWhile (· ≠ ','))) ts)
      else none

def jwtHeader : List Char := "eyJhbGciOiJIUzI1NiIsInR5cCI6IkpXVCJ9.".toList

def getSubscriptionPayload
    (readJwt : List Char → Except TokenError (Option SubscriptionPayload)) (token : List Char) :
    Except TokenError (Option SubscriptionPayload) :=
  if token.length < 15 then .ok none
  else if jwtHeader <+: token then readJwt token
  else
    match readToken signer token subscriptionSigLen with
    | some payload => payload.map some
    | none =>
      match readToken signer token legacySubscriptionSigLen with
      | some payload => payload.map some
      | none => .ok none

end Tokens

theorem fromUtf8?_utf8 (text : String) : fromUtf8? (utf8 text) = some text := by
  rw [fromUtf8?, utf8_eq, Array.toArray_toList, String.fromUTF8?, dif_pos text.isValidUTF8]
  rfl

theorem utf8_injective : Function.Injective utf8 := by
  intro text text' h
  have hread := fromUtf8?_utf8 text
  rw [h, fromUtf8?_utf8, Option.some.injEq] at hread
  exact hread.symm

theorem length_le_utf8 (text : String) : text.length ≤ (utf8 text).length := by
  have hlist : ∀ l : List Char, l.length ≤ String.utf8Len l := by
    intro l
    induction l with
    | nil => exact Nat.le_refl _
    | cons c rest ih =>
      have := c.utf8Size_pos
      rw [List.length_cons, String.utf8Len_cons]
      omega
  have hsize : (utf8 text).length = String.utf8Len text.toList := by
    rw [utf8_eq, ← String.utf8ByteSize_ofList, String.ofList_toList]
    rfl
  rw [hsize, ← String.length_toList]
  exact hlist text.toList

theorem tokenData_eq (username : String) (ts : Int) :
    tokenData username ts = Base64.encodeUnpadded (utf8 (username ++ "," ++ toString ts)) :=
  Base64.rdropWhile_encode _

theorem toList_toString (n : Nat) : (toString (n : Int)).toList = Nat.toDigits 10 n := by
  simp [toString, Int.repr, Nat.repr]

theorem isDigit_of_mem {n : Nat} {c : Char} (h : c ∈ Nat.toDigits 10 n) : c.isDigit = true :=
  Nat.isDigit_of_mem_toDigits (by decide) (by decide) h

theorem ne_of_mem_toDigits {n : Nat} {c d : Char} (h : c ∈ Nat.toDigits 10 n)
    (hd : d.isDigit = false) : c ≠ d := by
  intro heq
  rw [heq] at h
  rw [isDigit_of_mem h] at hd
  cases hd

theorem parseDigits_toDigits (n : Nat) : parseDigits (Nat.toDigits 10 n) = some n := by
  have hund : '_' ∉ Nat.toDigits 10 n := fun h => ne_of_mem_toDigits h (by decide) rfl
  have hfilter : (Nat.toDigits 10 n).filter (fun c => decide (c ≠ '_')) = Nat.toDigits 10 n :=
    List.filter_eq_self.mpr fun c hc => decide_eq_true (ne_of_mem_toDigits hc (by decide))
  unfold parseDigits
  simp only [hfilter]
  rw [if_neg, if_neg, Nat.ofDigitChars_ten_toDigits]
  · simp only [not_or, not_not, List.all_eq_true]
    exact ⟨Nat.toDigits_ne_nil, fun c => isDigit_of_mem⟩
  · simp only [not_or]
    exact ⟨fun h => hund (List.mem_of_head? h), fun h => hund (List.mem_of_getLast? h),
      fun h => hund (h.subset List.mem_cons_self)⟩

theorem asciiDigit_of_isDigit {c : Char} (h : c.isDigit = true) : asciiDigit c = c := by
  obtain ⟨hlow, hhigh⟩ := Char.isDigit_iff_toNat.mp h
  have hfirst : decimalZeros.find? (fun z => decide (z ≤ c.toNat ∧ c.toNat ≤ z + 9)) = some 0x30 :=
    List.find?_cons_of_pos (decide_eq_true ⟨hlow, hhigh⟩)
  rw [asciiDigit, hfirst]
  dsimp only
  rw [show 48 + (c.toNat - 0x30) = c.toNat from Nat.add_sub_cancel' hlow, Char.ofNat_toNat]

theorem parseInt_toDigits (n : Nat) : parseInt (Nat.toDigits 10 n) = some (n : Int) := by
  have hascii : (Nat.toDigits 10 n).map asciiDigit = Nat.toDigits 10 n :=
    (List.map_congr_left fun c hc => asciiDigit_of_isDigit (isDigit_of_mem hc)).trans (List.map_id _)
  have hspace : ∀ c ∈ Nat.toDigits 10 n, ¬ intSpace c := by
    intro c hc hspace
    obtain ⟨hlow, hhigh⟩ := Char.isDigit_iff_toNat.mp (isDigit_of_mem hc)
    simp [intSpace, isSpace] at hspace hlow hhigh
    omega
  have hstrip : strip intSpace (Nat.toDigits 10 n) = Nat.toDigits 10 n := by
    rw [strip, List.dropWhile_eq_self_iff.mpr, List.rdropWhile_eq_self_iff]
    · exact fun hne => hspace _ (List.getLast_mem hne)
    · exact fun hpos => hspace _ (List.getElem_mem hpos)
  unfold parseInt
  rw [hascii, hstrip]
  have hparse := parseDigits_toDigits n
  split
  · next digits heq =>
      exact absurd rfl (ne_of_mem_toDigits (heq ▸ List.mem_cons_self : '-' ∈ Nat.toDigits 10 n) rfl)
  · next digits heq =>
      exact absurd rfl (ne_of_mem_toDigits (heq ▸ List.mem_cons_self : '+' ∈ Nat.toDigits 10 n) rfl)
  · rw [hparse]
    rfl

theorem datedPayload_toString (username : String) {t : Int} (hpos : 0 ≤ t)
    (hmax : t ≤ maxTimestamp) :
    datedPayload username (toString t).toList = .ok { username, createdAt := t } := by
  obtain ⟨n, rfl⟩ := Int.eq_ofNat_of_zero_le hpos
  unfold datedPayload
  rw [toList_toString, parseInt_toDigits]
  dsimp only
  rw [if_pos ⟨by unfold minTimestamp; omega, hmax⟩]

/-- Names and times that tokens are issued for. -/
structure Issuable (username : String) (t : Int) : Prop where
  noComma : ',' ∉ username.toList
  long : 3 ≤ username.length
  nonneg : 0 ≤ t
  dated : t ≤ maxTimestamp

section Reading

variable {signer : Signer} {username : String} {t : Int} {sigLen : Nat}

theorem length_subscriptionSignature (data : List Char) (h : sigLen ≤ 43) :
    (subscriptionSignature signer data sigLen).length = sigLen := by
  rw [subscriptionSignature, List.length_take, signer.length]
  omega

theorem Issuable.length_tokenData (h : Issuable username t) :
    7 ≤ (tokenData username t).length := by
  have hbytes := length_le_utf8 (username ++ "," ++ toString t)
  have hdigits : 1 ≤ (toString t).length := by
    obtain ⟨n, rfl⟩ := Int.eq_ofNat_of_zero_le h.nonneg
    rw [← String.length_toList, toList_toString]
    exact List.length_pos_iff.mpr Nat.toDigits_ne_nil
  have hlong := h.long
  have hcomma : ",".length = 1 := rfl
  rw [tokenData_eq, Base64.length_encodeUnpadded]
  rw [String.length_append, String.length_append, hcomma] at hbytes
  omega

theorem decode_tokenData : (Base64.decode (tokenData username t ++
      List.replicate (Base64.padding (tokenData username t).length) '=')).bind fromUtf8? =
    some (username ++ "," ++ toString t) := by
  rw [tokenData_eq, Base64.decode_encodeUnpadded, Option.bind_some, fromUtf8?_utf8]

theorem Issuable.split_dataText (h : Issuable username t) :
    (username ++ "," ++ toString t).toList.takeWhile (fun c => decide (c ≠ ',')) =
        username.toList ∧
      (username ++ "," ++ toString t).toList.dropWhile (fun c => decide (c ≠ ',')) =
        ',' :: (toString t).toList := by
  have htext : (username ++ "," ++ toString t).toList =
      username.toList ++ ',' :: (toString t).toList := by
    simp only [String.toList_append, List.append_assoc]
    rfl
  have hname : ∀ c ∈ username.toList, decide (c ≠ ',') = true := fun c hc =>
    decide_eq_true fun heq => h.noComma (heq ▸ hc)
  rw [htext, List.takeWhile_append_of_pos hname, List.dropWhile_append_of_pos hname]
  simp

theorem readToken_signedToken (h : Issuable username t) (hlen : sigLen ≤ 43) :
    readToken signer (signedToken signer sigLen username t) sigLen =
      some (.ok { username, createdAt := t }) := by
  have hsig : (subscriptionSignature signer (tokenData username t) sigLen).length = sigLen :=
    length_subscriptionSignature _ hlen
  have hlength : (signedToken signer sigLen username t).length - sigLen =
      (tokenData username t).length := by
    rw [signedToken, List.length_append, hsig, Nat.add_sub_cancel]
  have hdata : (signedToken signer sigLen username t).take
      ((signedToken signer sigLen username t).length - sigLen) = tokenData username t := by
    rw [hlength, signedToken, List.take_left]
  have hsignature : (signedToken signer sigLen username t).drop
      ((signedToken signer sigLen username t).length - sigLen) =
        subscriptionSignature signer (tokenData username t) sigLen := by
    rw [hlength, signedToken, List.drop_left]
  have hseven := h.length_tokenData
  obtain ⟨hname, hts⟩ := h.split_dataText
  unfold readToken
  rw [if_neg (by omega)]
  simp only [hdata, hsignature, decode_tokenData, if_pos, hname, hts, String.ofList_toList,
    datedPayload_toString username h.nonneg h.dated]

theorem readToken_of_ne {token : List Char}
    (h : token.drop (token.length - sigLen) ≠
      subscriptionSignature signer (token.take (token.length - sigLen)) sigLen) :
    readToken signer token sigLen = none := by
  unfold readToken
  split
  · rfl
  · dsimp only
    split
    · rfl
    · rw [if_neg h]

theorem not_jwtHeader_signedToken : ¬ jwtHeader <+: signedToken signer sigLen username t := by
  intro hheader
  have hdot : '.' ∈ signedToken signer sigLen username t := hheader.subset (by decide +kernel)
  have halphabet : '.' ∉ Base64.alphabet := by decide +kernel
  rcases List.mem_append.mp hdot with hdot | hdot
  · rw [tokenData_eq] at hdot
    exact halphabet (Base64.mem_alphabet_of_mem hdot)
  · exact halphabet (signer.chars _ _ (List.mem_of_mem_take hdot))

theorem getSubscriptionPayload_signedToken (h : Issuable username t) (hmin : 10 ≤ sigLen)
    (hmax : sigLen ≤ 43) (readJwt : List Char → Except TokenError (Option SubscriptionPayload)) :
    getSubscriptionPayload signer readJwt (signedToken signer sigLen username t) =
      match readToken signer (signedToken signer sigLen username t) subscriptionSigLen with
      | some payload => payload.map some
      | none =>
        match readToken signer (signedToken signer sigLen username t)
          legacySubscriptionSigLen with
        | some payload => payload.map some
        | none => .ok none := by
  have hseven := h.length_tokenData
  have hlength : ¬ (signedToken signer sigLen username t).length < 15 := by
    rw [signedToken, List.length_append, length_subscriptionSignature _ hmax]
    omega
  rw [getSubscriptionPayload, if_neg hlength, if_neg not_jwtHeader_signedToken]

end Reading

theorem tokenData_injective {username username' : String} {t t' : Int} (h : Issuable username t)
    (h' : Issuable username' t') (heq : tokenData username t = tokenData username' t') :
    username = username' ∧ t = t' := by
  rw [tokenData_eq, tokenData_eq] at heq
  have htext := utf8_injective (Base64.encodeUnpadded_injective heq)
  obtain ⟨hname, hts⟩ := h.split_dataText
  obtain ⟨hname', hts'⟩ := h'.split_dataText
  rw [htext, hname'] at hname
  rw [htext, hts', List.cons.injEq] at hts
  have hdate := datedPayload_toString username h.nonneg h.dated
  rw [← hts.2, datedPayload_toString username h'.nonneg h'.dated] at hdate
  simp only [Except.ok.injEq, SubscriptionPayload.mk.injEq, true_and] at hdate
  exact ⟨String.toList_injective hname.symm, hdate.symm⟩

inductive TokenFormat
  | current
  | legacy

def TokenFormat.sigLen : TokenFormat → Nat
  | .current => subscriptionSigLen
  | .legacy => legacySubscriptionSigLen

/-- **Tokens round-trip**, and differ unless the data of one begins the other's. -/
theorem subscription_token_round_trip (signer : Signer)
    (readJwt : List Char → Except TokenError (Option SubscriptionPayload)) (username : String)
    (t : Int) (h : Issuable username t) :
    getSubscriptionPayload signer readJwt (createSubscriptionToken signer username (some t)) =
      .ok (some { username, createdAt := t }) ∧
    (∀ token, token = signedToken signer legacySubscriptionSigLen username t →
      token.drop (token.length - subscriptionSigLen) ≠ subscriptionSignature signer
        (token.take (token.length - subscriptionSigLen)) subscriptionSigLen →
      getSubscriptionPayload signer readJwt token = .ok (some { username, createdAt := t })) ∧
    ∀ (username' : String) (t' : Int) (format format' : TokenFormat), Issuable username' t' →
      (username, t) ≠ (username', t') →
      ¬ (tokenData username t <+: tokenData username' t' ∧
        tokenData username t ≠ tokenData username' t') →
      ¬ (tokenData username' t' <+: tokenData username t ∧
        tokenData username' t' ≠ tokenData username t) →
      signedToken signer format.sigLen username t ≠
        signedToken signer format'.sigLen username' t' := by
  refine ⟨?_, ?_, ?_⟩
  · rw [createSubscriptionToken, Option.getD_some,
      getSubscriptionPayload_signedToken h (by decide) (by decide),
      readToken_signedToken h (by decide)]
    rfl
  · intro token htoken hother
    subst htoken
    rw [getSubscriptionPayload_signedToken h (by decide) (by decide), readToken_of_ne hother,
      readToken_signedToken h (by decide)]
    rfl
  · intro username' t' format format' h' hne hprefix hprefix' heq
    -- both data parts are beginnings of the one token, so one of them is a beginning of the other
    have hdata : tokenData username t <+: signedToken signer format.sigLen username t :=
      List.prefix_append _ _
    have hdata' : tokenData username' t' <+: signedToken signer format.sigLen username t := by
      rw [heq]
      exact List.prefix_append _ _
    have hsame : tokenData username t = tokenData username' t' := by
      by_contra hdiffer
      rcases List.prefix_or_prefix_of_prefix hdata hdata' with hle | hle
      · exact hprefix ⟨hle, hdiffer⟩
      · exact hprefix' ⟨hle, Ne.symm hdiffer⟩
    obtain ⟨rfl, rfl⟩ := tokenData_injective h h' hsame
    exact hne rfl

def constantSigner : Signer where
  digest _ := List.replicate 43 'A'
  length _ := List.length_replicate
  chars _ c hc := by
    rw [List.eq_of_mem_replicate hc]
    decide +kernel

theorem customer_token_read_back :
    getSubscriptionPayload constantSigner (fun _ => .ok none)
        (createSubscriptionToken constantSigner "ali" (some 1700000000)) =
      .ok (some { username := "ali", createdAt := 1700000000 }) :=
  (subscription_token_round_trip constantSigner (fun _ => .ok none) "ali" 1700000000
    ⟨by decide +kernel, by decide +kernel, by decide, by decide⟩).1

end Shahkar.Utils
