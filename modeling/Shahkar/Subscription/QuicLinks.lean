import Shahkar.Lib.Url
import Shahkar.Singbox.Sync

/-!
# Shahkar.Subscription.QuicLinks

The share links of `subscription/quic.py`, and the proxies that `_clash_from_uri` reads from them. A
link is a URL with escaped credentials, so the way there and back goes through `urlsplit`; the host is
the one part that is written as it is.
-/

namespace Shahkar.Subscription

open Shahkar.Lib.Url Shahkar.Singbox

def insecureQuery (insecure : Bool) : List (String × String) :=
  if insecure then
    [("insecure", "1"), ("allow_insecure", "1"), ("allowInsecure", "1"), ("skip-cert-verify", "1")]
  else []

def optionalField (key value : String) : List (String × String) :=
  if value = "" then [] else [(key, value)]

def optionalRate (rate : Nat) : String := if rate = 0 then "" else toString rate

def shareLink (protocol : Protocol) (auth : List Char) (host : String) (port : Nat)
    (query : List (String × String)) (remark : String) : List Char :=
  protocol.text.toList ++ ':' :: '/' :: '/' ::
    ((auth ++ '@' :: (host.toList ++ ':' :: (toString port).toList)) ++
      ((if query = [] then [] else '?' :: urlencode query) ++
        (if remark = "" then [] else '#' :: quote ['/'] remark)))

def hysteria2Link (password host : String) (port : Nat) (sni obfsPassword remark : String)
    (insecure : Bool) (speedLimitUp speedLimitDown : Nat) : List Char :=
  shareLink .hysteria2 (quote [] password) host port
    (insecureQuery insecure ++ optionalField "sni" sni ++
      (if obfsPassword = "" then []
        else [("obfs", "salamander"), ("obfs-password", obfsPassword)]) ++
      optionalField "up_mbps" (optionalRate speedLimitUp) ++
      optionalField "down_mbps" (optionalRate speedLimitDown)) remark

def tuicLink (uuid password host : String) (port : Nat) (sni congestionControl remark : String)
    (insecure : Bool) : List Char :=
  shareLink .tuic (quote [] uuid ++ ':' :: quote [] password) host port
    ([("congestion_control", congestionControl), ("udp_relay_mode", "native"), ("alpn", "h3")] ++
      insecureQuery insecure ++ optionalField "sni" sni) remark

def anytlsLink (password host : String) (port : Nat) (sni remark : String) (insecure : Bool) :
    List Char :=
  shareLink .anytls (quote [] password) host port
    (insecureQuery insecure ++ optionalField "sni" sni) remark

structure ClashNode where
  name : String
  type : Protocol
  server : String
  port : Nat
  password : Option String
  uuid : Option String
  sni : Option String
  skipCertVerify : Bool
  obfs : Option String
  obfsPassword : Option String
  deriving DecidableEq

def fieldOf (pairs : List (String × String)) (key : String) : Option String :=
  ((pairs.reverse.find? (·.1 = key)).map Prod.snd).filter (· ≠ "")

def clashNode (dec : Decoder) (name : String) (type : Protocol) (server : List Char) (port : Nat)
    (user : List Char) (parts : List (List Char)) (q : List (String × String)) : ClashNode where
  name := name
  type := type
  server := String.ofList server
  port := port
  password := if type = .tuic then parts[1]?.map dec.unquote else some (dec.unquote user)
  uuid := if type = .tuic ∧ 2 ≤ parts.length then parts[0]?.map dec.unquote else none
  sni := fieldOf q "sni"
  skipCertVerify := fieldOf q "insecure" = some "1"
  obfs := if type = .hysteria2 then
      (fieldOf q "obfs-password").map fun _ => (fieldOf q "obfs").getD "salamander"
    else none
  obfsPassword := if type = .hysteria2 then fieldOf q "obfs-password" else none

def clashFromUri (dec : Decoder) (literal : List Char → Bool) (uri : List Char) (name : String)
    (type : Protocol) : Option ClashNode := do
  let parsed ← urlsplit literal uri
  let port ← portOf parsed.netloc
  some (clashNode dec name type (lowerHost (hostinfo parsed.netloc).1)
    ((port.filter (· ≠ 0)).getD 443) (username parsed.netloc)
    ((parsed.netloc.takeWhile (· ≠ '@')).splitOn ':') (dec.parseQsl parsed.query))

theorem find?_optionalField {k key : String} (h : k ≠ key) (value : String) :
    ((optionalField k value).filter fun e => !decide (e.2 = "")).reverse.find? (·.1 = key) =
      none := by
  rw [optionalField]
  split <;> simp [h]

section Link

variable {dec : Decoder} {literal : List Char → Bool} {protocol : Protocol} {auth : List Char}
  {host remark name : String} {port : Nat} {query : List (String × String)}

theorem isPlain_of_mem_quote {text : String} : ∀ c ∈ quote [] text, isPlain c = true := by
  have hspecial : ∀ c ∈ ['/', '?', '#', '@', '[', ']', '\t', '\r', '\n'],
      isUnreserved c = false ∧ c ≠ '%' ∧ c ∉ [] :=
    List.all_iff_forall_prop.mp (by decide)
  exact fun c hc => decide_eq_true fun hmem => not_mem_quote (hspecial c hmem) text hc

theorem isPlain_of_mem_decimal : ∀ c ∈ (toString port).toList,
    c.isDigit = true ∧ isPlain c = true ∧ c ≠ ':' := by
  have hspecial : ∀ c ∈ ['/', '?', '#', '@', '[', ']', '\t', '\r', '\n', ':'],
      c.isDigit = false :=
    List.all_iff_forall_prop.mp (by decide)
  intro c hc
  rw [Nat.toString_eq_repr, Nat.toList_repr] at hc
  have hdigit := Nat.isDigit_of_mem_toDigits (by decide) (by decide) hc
  have hnot : c ∉ ['/', '?', '#', '@', '[', ']', '\t', '\r', '\n', ':'] :=
    fun hmem => Bool.false_ne_true ((hspecial c hmem).symm.trans hdigit)
  exact ⟨hdigit, decide_eq_true fun hmem => hnot (List.mem_append_left [':'] hmem),
    fun heq => hnot (by simp [heq])⟩

theorem portOf_of_hostinfo {netloc : List Char} (h : (hostinfo netloc).2 = (toString port).toList)
    (hport : port ≤ 65535) : portOf netloc = some (some port) := by
  have hvalue : Nat.ofDigitChars 10 (toString port).toList 0 = port := by
    rw [Nat.toString_eq_repr, Nat.toList_repr, Nat.ofDigitChars_toDigits (by decide) (by decide)]
  have hne : (toString port).toList ≠ [] := by
    rw [Nat.toString_eq_repr, Nat.toList_repr]
    exact Nat.toDigits_ne_nil
  have hdigits : (toString port).toList.all Char.isDigit = true :=
    List.all_eq_true.mpr fun c hc => (isPlain_of_mem_decimal c hc).1
  rw [portOf, h, if_neg hne, hvalue, if_pos ⟨hdigits, hport⟩]

theorem parsed_shareLink (protocol : Protocol) (port : Nat) (query : List (String × String))
    (remark : String) (hauth : ∀ c ∈ auth, isPlain c = true) (hhost : HostText literal host.toList) :
    ∃ url, urlsplit literal (shareLink protocol auth host port query remark) = some url ∧
      url.netloc = auth ++ '@' :: (host.toList ++ ':' :: (toString port).toList) ∧
      url.query = urlencode query := by
  have hdigits : ∀ c ∈ (toString port).toList, isPlain c = true ∧ c ≠ ':' :=
    fun c hc => (isPlain_of_mem_decimal c hc).2
  obtain ⟨first, scheme, htext, hfirst, hscheme⟩ : ∃ first scheme,
      protocol.text.toList = first :: scheme ∧ first.isAlpha = true ∧
        (first :: scheme).all isSchemeChar = true := by
    cases protocol <;> exact ⟨_, _, rfl, by decide, by decide⟩
  have hquery : ∀ c ∈ urlencode query, c ∉ ['#', '\t', '\r', '\n'] := by
    have hspecial : ∀ c ∈ ['#', '\t', '\r', '\n'],
        isUnreserved c = false ∧ c ∉ ['%', '+', '&', '='] :=
      List.all_iff_forall_prop.mp (by decide)
    exact fun c hc hmem => not_mem_urlencode (hspecial c hmem) query hc
  obtain ⟨url, hurl, hnetloc, hq⟩ := urlsplit_eq
    (if query = [] then [] else '?' :: urlencode query)
    (if remark = "" then [] else '#' :: quote ['/'] remark) hfirst hscheme
    (not_mem_netloc hhost hdigits hauth)
    (bracketsOk_netloc hhost hdigits hauth) hquery
    (by
      split
      · next hnil => exact Or.inl ⟨rfl, by rw [hnil]; rfl⟩
      · exact Or.inr rfl)
    (by
      split
      exacts [Or.inl rfl, Or.inr ⟨_, rfl⟩])
  exact ⟨url, by rw [shareLink, htext, hurl], hnetloc, hq⟩

theorem clashFromUri_shareLink {type : Protocol} (hauth : ∀ c ∈ auth, isPlain c = true)
    (hhost : HostText literal host.toList) (hdial : Dialable host.toList)
    (hport : 1 ≤ port ∧ port ≤ 65535) :
    clashFromUri dec literal (shareLink protocol auth host port query remark) name type =
      some (clashNode dec name type (lowerHost (unbracketed host.toList)) port (cut ':' auth).1
        (auth.splitOn ':') (query.filter (·.2 ≠ ""))) := by
  obtain ⟨url, hurl, hnetloc, hquery⟩ :=
    parsed_shareLink protocol port query remark hauth hhost
  have hdigits : ∀ c ∈ (toString port).toList, isPlain c = true ∧ c ≠ ':' :=
    fun c hc => (isPlain_of_mem_decimal c hc).2
  have hinfo := hostinfo_dialable hhost hdial hdigits hauth
  rw [← hnetloc] at hinfo
  have hport' := portOf_of_hostinfo (congrArg Prod.snd hinfo) hport.2
  have huser : username url.netloc = (cut ':' auth).1 := by
    rw [username, hnetloc, if_pos (by simp), rcut_netloc _ hhost hdigits]
  have hparts : url.netloc.takeWhile (· ≠ '@') = auth := by
    rw [hnetloc]
    exact congrArg Prod.fst (cut_append (not_mem_of_isPlain hauth (by decide)) _)
  have hsome : ((some port).filter (· ≠ 0)).getD 443 = port := by
    rw [Option.filter_some, if_pos (by simp; omega), Option.getD_some]
  rw [clashFromUri, hurl]
  simp only [Option.bind_eq_bind, Option.bind_some, hport', hinfo, huser, hparts, hsome, hquery,
    dec.parseQsl_urlencode]

theorem clashFromUri_colon {type : Protocol} (hauth : ∀ c ∈ auth, isPlain c = true)
    (hhost : HostText literal host.toList) (hdial : ¬ Dialable host.toList) :
    clashFromUri dec literal (shareLink protocol auth host port query remark) name type = none := by
  obtain ⟨url, hurl, hnetloc, -⟩ :=
    parsed_shareLink protocol port query remark hauth hhost
  have hport : portOf url.netloc = none := by
    rw [hnetloc]
    exact portOf_colon hhost hdial (fun c hc => (isPlain_of_mem_decimal c hc).2) hauth
  rw [clashFromUri, hurl, Option.bind_eq_bind, Option.bind_some, hport]
  rfl

theorem colon_not_mem_quote (text : String) : ':' ∉ quote [] text :=
  not_mem_quote (by decide) text

theorem isPlain_credentials (uuid password : String) :
    ∀ c ∈ quote [] uuid ++ ':' :: quote [] password, isPlain c = true := by
  intro c hc
  rcases List.mem_append.mp hc with hc | hc
  · exact isPlain_of_mem_quote c hc
  · rcases List.mem_cons.mp hc with rfl | hc
    exacts [by decide, isPlain_of_mem_quote c hc]

theorem splitOn_credentials (uuid password : String) :
    (quote [] uuid ++ ':' :: quote [] password).splitOn ':' =
      [quote [] uuid, quote [] password] := by
  have hsplit : ([':'].intercalate [quote [] uuid, quote [] password]).splitOn ':' = _ :=
    List.splitOn_intercalate ':' (by simp [colon_not_mem_quote]) (by simp)
  simpa [List.intercalate] using hsplit

end Link

/-- **Links survive the conversion** exactly if colons of the host are in brackets. -/
theorem links_survive_iff (dec : Decoder) (literal : List Char → Bool)
    (password uuid obfsPassword sni host congestionControl remark name : String) (port up down : Nat)
    (insecure : Bool) (hobfs : obfsPassword ≠ "") (hsni : sni ≠ "")
    (hhost : HostText literal host.toList) (hport : 1 ≤ port ∧ port ≤ 65535) :
    let server := String.ofList (lowerHost (unbracketed host.toList))
    (clashFromUri dec literal
        (hysteria2Link password host port sni obfsPassword remark insecure up down) name .hysteria2 =
      some
        { name := name, type := .hysteria2, server := server, port := port
          password := some password, uuid := none, sni := some sni, skipCertVerify := insecure
          obfs := some "salamander", obfsPassword := some obfsPassword } ↔ Dialable host.toList) ∧
    (clashFromUri dec literal (tuicLink uuid password host port sni congestionControl remark insecure)
        name .tuic =
      some
        { name := name, type := .tuic, server := server, port := port
          password := some password, uuid := some uuid, sni := some sni, skipCertVerify := insecure
          obfs := none, obfsPassword := none } ↔ Dialable host.toList) ∧
    (clashFromUri dec literal (anytlsLink password host port sni remark insecure) name .anytls =
      some
        { name := name, type := .anytls, server := server, port := port
          password := some password, uuid := none, sni := some sni, skipCertVerify := insecure
          obfs := none, obfsPassword := none } ↔ Dialable host.toList) := by
  have hone : optionalField "sni" sni = [("sni", sni)] := if_neg hsni
  have hquote : ∀ text, dec.unquote (quote [] text) = text := dec.unquote_quote (by simp)
  have hpair := isPlain_credentials uuid password
  by_cases hdial : Dialable host.toList
  · simp only [hdial, iff_true]
    refine ⟨?_, ?_, ?_⟩
    · rw [hysteria2Link, clashFromUri_shareLink isPlain_of_mem_quote hhost hdial hport,
        cut_of_not_mem (colon_not_mem_quote password), hone]
      cases insecure <;>
        simp [clashNode, fieldOf, insecureQuery, hobfs, hsni, hquote, find?_optionalField,
          Option.filter_some]
    · rw [tuicLink, clashFromUri_shareLink hpair hhost hdial hport, splitOn_credentials, hone]
      cases insecure <;> by_cases hcontrol : congestionControl = "" <;>
        simp [clashNode, fieldOf, insecureQuery, hsni, hquote, hcontrol]
    · rw [anytlsLink, clashFromUri_shareLink isPlain_of_mem_quote hhost hdial hport,
        cut_of_not_mem (colon_not_mem_quote password), hone]
      cases insecure <;> simp [clashNode, fieldOf, insecureQuery, hsni, hquote]
  · rw [hysteria2Link, tuicLink, anytlsLink, clashFromUri_colon isPlain_of_mem_quote hhost hdial,
      clashFromUri_colon hpair hhost hdial, clashFromUri_colon isPlain_of_mem_quote hhost hdial]
    simp [hdial]

theorem separators_survive :
    (clashFromUri strictDecoder (fun _ => true)
      (tuicLink "id" "p:a@s/s?" "[2001:DB8::1]" 8443 "a&b=c" "bbr" "" true) "tuic" .tuic).map
        (fun node => (node.server, node.port, node.password, node.sni)) =
      some ("2001:db8::1", 8443, some "p:a@s/s?", some "a&b=c") := by
  rw [((links_survive_iff strictDecoder (fun _ => true) "p:a@s/s?" "id" "obfs" "a&b=c" "[2001:DB8::1]"
    "bbr" "" "tuic" 8443 0 0 true (by decide) (by decide)
    (Or.inr ⟨"2001:DB8::1".toList, by decide, List.all_eq_true.mp (by decide), rfl⟩)
    (by decide)).2.1).mpr fun _ => rfl]
  decide

theorem ipv6_link_lost :
    clashFromUri strictDecoder (fun _ => true)
      (anytlsLink "secret" "2001:db8::1" 443 "sni.example" "" true) "anytls" .anytls = none := by
  decide +kernel

end Shahkar.Subscription
