import Shahkar.Lib.FirstMatch
import Shahkar.Lib.Text

/-!
# Routing rules of a core config

A rule that lists no condition of a kind holds for every flow in that respect, and the first rule
all of whose conditions hold decides the outbound.
-/

namespace Shahkar.Xray.Routing

open Shahkar.Lib

/-- A routing rule. A missing field is an empty list or text. -/
structure Rule where
  outboundTag : String := ""
  balancerTag : String := ""
  user : List String := []
  domain : List String := []
  ip : List String := []
  source : List String := []
  sourceIP : List String := []
  inboundTag : List String := []
  protocol : List String := []
  port : String := ""
  network : String := ""
  sensitiveWarp : Bool := false
  sensitiveWarpQuic : Bool := false
  familyGuard : Bool := false
  deriving DecidableEq, Repr

/-- A flow that enters the core. -/
structure Flow where
  user : Option String
  domain : Option String
  ip : Option String
  port : Nat
  network : String
  inboundTag : String
  protocol : Option String
  source : String

/-- What the entries of conditions cover. -/
structure Matcher where
  user : String → String → Bool
  domain : String → String → Bool
  ip : String → String → Bool
  port : String → Nat → Bool
  protocol : String → String → Bool
  loopback : ip "geoip:private" "127.0.0.1" = true

def anyOf (entries : List String) (covers : String → Bool) : Bool :=
  entries.isEmpty || entries.any covers

def coversNetwork (networks network : String) : Bool :=
  networks = "" || (networks.toList.splitOn ',').contains network.toList

def Rule.applies (m : Matcher) (f : Flow) (r : Rule) : Bool :=
  anyOf r.user (fun e => f.user.any (m.user e)) &&
  anyOf r.domain (fun e => f.domain.any (m.domain e)) &&
  anyOf r.ip (fun e => f.ip.any (m.ip e)) &&
  anyOf (r.source ++ r.sourceIP) (fun e => m.ip e f.source) &&
  anyOf r.inboundTag (fun e => f.inboundTag = e) &&
  anyOf r.protocol (fun e => f.protocol.any (m.protocol e)) &&
  (r.port = "" || m.port r.port f.port) &&
  coversNetwork r.network f.network

def decidingRule (m : Matcher) (rules : List Rule) (f : Flow) : Option Rule :=
  rules.find? (Rule.applies m f)

theorem not_applies_of_inboundTag {m : Matcher} {f : Flow} {r : Rule}
    (hne : r.inboundTag ≠ []) (h : f.inboundTag ∉ r.inboundTag) :
    Rule.applies m f r = false := by
  have hnone : anyOf r.inboundTag (fun e => f.inboundTag = e) = false := by
    simp only [anyOf, Bool.or_eq_false_iff, List.isEmpty_eq_false_iff, List.any_eq_false,
      decide_eq_true_eq]
    exact ⟨hne, fun e he heq => h (heq ▸ he)⟩
  simp [Rule.applies, hnone]

end Shahkar.Xray.Routing
