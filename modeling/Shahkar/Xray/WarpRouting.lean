import Shahkar.Xray.Routing

/-!
# The WARP exit of a core config (`app/xray/warp_routing.py`)

The passes of this module install the outbounds of WARP, a WireGuard tunnel of the core, keep the
flows that the tunnel itself needs out of it, and send rules whose tunnel is gone to `DIRECT`.
-/

namespace Shahkar.Xray.Routing

open Shahkar.Lib Shahkar.Lib.Text

structure Outbound where
  tag : String
  protocol : String
  endpoint : Option String := none
  pinnedIp : String := ""
  deriving DecidableEq, Repr

structure Inbound where
  tag : String
  protocol : String
  tproxy : Bool := false
  deriving DecidableEq, Repr

/-- A core config. Without a routing section there are no rules. -/
structure Payload where
  outbounds : List Outbound
  inbounds : List Inbound
  routing : Option (List Rule)

def Payload.rules (data : Payload) : List Rule := data.routing.getD []

def warpBypassRule : Rule where
  domain :=
    ["domain:engage.cloudflareclient.com", "domain:cloudflareclient.com", "domain:cloudflare.com"]
  outboundTag := "DIRECT"

def warpDnsDirectRule : Rule where
  port := "53"
  network := "udp"
  outboundTag := "DIRECT"

def warpPrivateDirectRule : Rule where
  ip := ["geoip:private"]
  outboundTag := "DIRECT"

def apiInboundRule : Rule where
  inboundTag := ["API_INBOUND"]
  outboundTag := "API"

def warpDefaultRule (tag : String) : Rule where
  network := "tcp,udp"
  outboundTag := tag

def sensitiveWarpBalancerTag : String := "warp-sensitive-lb"

def defaultWarpEndpointHost : String := "engage.cloudflareclient.com"

def isWarpTag (tag : String) : Bool :=
  stripped tag = "warp" || startsWith "warp-" (stripped tag)

def endpointLooksLikeWarp (endpoint : String) : Bool := occursIn defaultWarpEndpointHost endpoint

def Outbound.isWarp (ob : Outbound) : Bool :=
  ob.protocol = "wireguard" &&
    (isWarpTag ob.tag || endpointLooksLikeWarp (ob.endpoint.getD "") || ob.pinnedIp ≠ "")

def warpOutbounds (outbounds : List Outbound) : List Outbound :=
  outbounds.filter Outbound.isWarp

def warpOutboundTags (outbounds : List Outbound) : List String :=
  ((warpOutbounds outbounds).map Outbound.tag).filter fun tag => !tag.isEmpty

def pinWarpEndpointIp (ip : Option String) (ob : Outbound) : Outbound :=
  match ob.endpoint, ip with
  | some current, some ip =>
    if (ob.pinnedIp ≠ "" && startsWith (ob.pinnedIp ++ ":") current) || ip = "" then ob
    else { ob with endpoint := some (ip ++ ":2408"), pinnedIp := ip }
  | _, _ => ob

/-!
### Tests on rules
-/

def Rule.isWarpBypass (r : Rule) : Bool :=
  r.outboundTag = "DIRECT" && r.domain.any (occursIn defaultWarpEndpointHost)

def Rule.isPrivateDirect (r : Rule) : Bool :=
  r.outboundTag = "DIRECT" && r.ip.any (occursIn "geoip:private")

def Rule.isDnsDirect (r : Rule) : Bool :=
  r.outboundTag = "DIRECT" && r.port = "53" && occursIn "udp" r.network

def isApiInboundRule (r : Rule) : Bool :=
  r.outboundTag = "API" && r.inboundTag.contains "API_INBOUND"

def isCatchAllNetworkRule (r : Rule) : Bool :=
  occursIn "tcp" r.network && occursIn "udp" r.network && r.domain.isEmpty && r.ip.isEmpty &&
    r.source.isEmpty && r.sourceIP.isEmpty && r.inboundTag.isEmpty && r.protocol.isEmpty &&
    r.port.isEmpty

def isEscape (r : Rule) : Bool :=
  r.outboundTag = "DIRECT" &&
    (r.domain.any (occursIn defaultWarpEndpointHost) || r.ip.any (occursIn "geoip:private") ||
      r.port = "53")

def isBootstrapDirectRule (r : Rule) : Bool := !isCatchAllNetworkRule r && isEscape r

def hasWarpDefaultRule (rules : List Rule) (tag : String) : Bool :=
  rules.any fun r => r.outboundTag = tag && isCatchAllNetworkRule r

def Rule.marksSplit (r : Rule) : Bool :=
  r.sensitiveWarp || r.sensitiveWarpQuic || r.balancerTag = sensitiveWarpBalancerTag ||
    (isWarpTag r.outboundTag && (!r.domain.isEmpty || !r.ip.isEmpty))

def Rule.isQuicBlock (r : Rule) : Bool :=
  r.outboundTag = "BLOCK" && r.network = "udp" && r.port = "443" && !r.inboundTag.isEmpty

def isSensitiveWarpRule (r : Rule) : Bool := r.marksSplit || r.isQuicBlock

def pinApiInboundRoute (data : Payload) : Payload :=
  let hasApiInbound := data.inbounds.any fun ib => ib.tag = "API_INBOUND"
  let api := data.rules.filter isApiInboundRule
  let rest := data.rules.filter fun r => !isApiInboundRule r
  if api.isEmpty then
    if hasApiInbound then { data with routing := some (apiInboundRule :: rest) } else data
  else { data with routing := some (api ++ rest) }

inductive Bucket
  | api
  | bootstrap
  | specificWarp
  | specificOther
  | catchWarp
  | catchDirect
  deriving DecidableEq, Repr

def bucket (r : Rule) : Bucket :=
  if isApiInboundRule r then .api
  else if r.outboundTag = "DIRECT" && isCatchAllNetworkRule r then .catchDirect
  else if isWarpTag r.outboundTag && isCatchAllNetworkRule r then .catchWarp
  else if isBootstrapDirectRule r then .bootstrap
  else if isWarpTag r.outboundTag || r.balancerTag = sensitiveWarpBalancerTag then .specificWarp
  else .specificOther

def unshadowWarpRules (rules : List Rule) : List Rule :=
  let list b := rules.filter fun r => bucket r = b
  let catchDirect := if (list .catchWarp).isEmpty then list .catchDirect else []
  dedupe (list .api ++ list .bootstrap ++ list .specificWarp ++ list .specificOther ++
    list .catchWarp ++ catchDirect)

def retarget (targets : List String) (r : Rule) : Rule :=
  if targets.contains r.outboundTag then { r with outboundTag := "DIRECT" } else r

def missingWarpTags (data : Payload) : List String :=
  (data.rules.map Rule.outboundTag).filter fun tag =>
    isWarpTag tag && !data.outbounds.any fun ob => ob.tag = tag

def rewriteWarpRoutes (data : Payload) (targets : List String) : Payload :=
  if targets.isEmpty then data
  else { data with routing := data.routing.map fun rules => dedupe (rules.map (retarget targets)) }

def rewriteMissingWarpRoutes (data : Payload) (missingTags : Option (List String) := none) :
    Payload :=
  rewriteWarpRoutes data <|
    (missingTags.map fun tags => tags.filter fun tag => !tag.isEmpty).getD (missingWarpTags data)

def missingEscapes (rules : List Rule) : List Rule :=
  (if rules.any Rule.isWarpBypass then [] else [warpBypassRule]) ++
  (if rules.any Rule.isPrivateDirect then [] else [warpPrivateDirectRule]) ++
  (if rules.any Rule.isDnsDirect then [] else [warpDnsDirectRule])

def missingDefault (outbounds : List Outbound) (rules : List Rule) : List Rule :=
  match outbounds, warpOutbounds outbounds with
  | first :: _, warp :: _ =>
    let primary := if warp.tag.isEmpty then "warp" else warp.tag
    if !rules.any Rule.marksSplit && first.tag = primary && !hasWarpDefaultRule rules primary
    then [warpDefaultRule primary] else []
  | _, _ => []

def applyWarpSafeRouting (ip : Option String) (payload : Payload) : Payload :=
  let data := rewriteMissingWarpRoutes payload
  if (warpOutbounds data.outbounds).isEmpty then data
  else
    let rules := missingEscapes data.rules ++ data.rules
    pinApiInboundRoute { data with
      outbounds := data.outbounds.map fun ob => if ob.isWarp then pinWarpEndpointIp ip ob else ob
      routing :=
        some (unshadowWarpRules (dedupe (rules ++ missingDefault data.outbounds rules))) }

def Outbound.named (ob : Outbound) : Outbound :=
  { ob with tag := if ob.tag.isEmpty then "warp" else ob.tag }

def installWarp (ip : Option String) (data : Payload) (outbound : Outbound)
    (asDefaultExit : Bool) : Payload :=
  let tag := outbound.named.tag
  let drop := if asDefaultExit then tag :: warpOutboundTags data.outbounds else [tag]
  { data with
    outbounds := (data.outbounds.filter fun o => !drop.contains o.tag) ++
      [pinWarpEndpointIp ip outbound.named] }

def defaultExitRules (sorted : List Rule) (tag : String) : List Rule :=
  let rules := sorted.filter fun r =>
    !(isWarpTag r.outboundTag && isCatchAllNetworkRule r) &&
      !(r.outboundTag = "DIRECT" && isCatchAllNetworkRule r)
  let bootstrap := rules.filter isEscape
  let rest := rules.filter fun r => !isEscape r
  dedupe (missingEscapes rules ++ bootstrap ++ rest ++ [warpDefaultRule tag])

def ensureWarpExit (ip : Option String) (payload : Payload) (outbound : Outbound)
    (asDefaultExit : Bool) : Payload :=
  let data := applyWarpSafeRouting ip (installWarp ip payload outbound asDefaultExit)
  if asDefaultExit then
    { data with routing := some (defaultExitRules data.rules outbound.named.tag) }
  else data

def sensitiveWarpDomains : List String :=
  ["domain:googleapis.com", "domain:gstatic.com", "domain:googleusercontent.com",
   "domain:googlevideo.com", "domain:ytimg.com", "domain:ggpht.com", "domain:youtu.be",
   "domain:youtube.com", "domain:google.com", "domain:accounts.google.com",
   "domain:play.google.com", "domain:clients6.google.com", "domain:gemini.google.com",
   "domain:gemini.google", "domain:gemini.gstatic.com", "domain:bard.google.com",
   "domain:aistudio.google.com", "domain:ai.google.dev", "domain:ai.studio",
   "domain:makersuite.google.com", "domain:generativelanguage.googleapis.com",
   "domain:aisandbox-pa.googleapis.com", "domain:aicode.googleapis.com",
   "domain:aida.googleapis.com", "domain:cloudaicompanion.googleapis.com",
   "domain:cloudcode-pa.googleapis.com", "domain:daily-cloudcode-pa.googleapis.com",
   "domain:notebooklm.googleapis.com", "domain:notebooklm-pa.googleapis.com",
   "domain:notebooklm.google.com", "domain:notebooklm.google", "domain:notebook.google.com",
   "domain:alkalimakersuite-pa.clients6.google.com", "domain:alkalicore-pa.clients6.google.com",
   "domain:webchannel-alkalimakersuite-pa.clients6.google.com",
   "domain:robinfrontend-pa.googleapis.com", "domain:proactivebackend-pa.googleapis.com",
   "domain:geller-pa.googleapis.com", "domain:deepmind.com", "domain:deepmind.google",
   "domain:generativeai.google", "domain:labs.google", "domain:labs.google.com",
   "domain:jules.google", "domain:jules.google.com", "domain:flow.google",
   "domain:flow.google.com", "domain:flow.withgoogle.com", "domain:veo.google",
   "domain:veo.googleapis.com", "domain:fx.google", "domain:musicfx.google",
   "domain:musicfx.withgoogle.com", "domain:imagen.google", "domain:whisk.google",
   "domain:whisk.google.com", "domain:aitestkitchen.withgoogle.com",
   "domain:experiments.withgoogle.com", "domain:flow-pa.googleapis.com",
   "domain:labs-pa.googleapis.com", "domain:fx-pa.googleapis.com",
   "domain:alkali-pa.googleapis.com", "domain:opal.google", "domain:opal.google.com",
   "domain:stitch.withgoogle.com", "domain:chatgpt.com", "domain:openai.com",
   "domain:api.openai.com", "domain:claude.ai", "domain:anthropic.com",
   "domain:api.anthropic.com", "domain:spotify.com", "domain:spoti.fi", "domain:scdn.co",
   "domain:pscdn.co", "domain:spotifycdn.com", "domain:spotifycdn.net", "keyword:spotify"]

def sensitiveWarpGeosites : List String :=
  ["geosite:google", "geosite:youtube", "geosite:openai", "geosite:spotify"]

def sensitiveWarpIps : List String := ["geoip:google"]

def sensitiveDomainChunk : Nat := 48

def sensitiveDomainRules (target : Rule) : List Rule :=
  ((chunks sensitiveDomainChunk sensitiveWarpDomains).map fun part =>
    { target with domain := part }) ++
  (sensitiveWarpGeosites.map fun g => { target with domain := [g] }) ++
  sensitiveWarpIps.map fun ip => { target with ip := [ip] }

def stripSensitiveWarpRouting (data : Payload) : Payload :=
  { data with
    routing := data.routing.map fun rules => rules.filter fun r => !isSensitiveWarpRule r }

def inboundNeedsSensitiveSniffing (ib : Inbound) : Bool :=
  if ib.tag.isEmpty || ["API_INBOUND", "api"].contains ib.tag ||
      startsWith "API" (ib.tag.map Char.toUpper) then false
  else if ["blackhole", "dns"].contains ib.protocol then false
  else
    ib.protocol = "wireguard" || occursIn "xray-wg-in" ib.tag || endsWith "-singbox-in" ib.tag ||
    (startsWith "tunnel-" ib.tag && endsWith "-exit" ib.tag) || endsWith "-warp-tproxy" ib.tag ||
    startsWith "in" ib.tag ||
    ["vless", "vmess", "trojan", "shadowsocks", "socks", "http"].contains ib.protocol ||
    (ib.protocol = "dokodemo-door" && ib.tproxy)

def sensitiveQuicInboundTags (data : Payload) : List String :=
  (data.inbounds.filter inboundNeedsSensitiveSniffing).map Inbound.tag

def ensureBlockOutbound (data : Payload) : Payload :=
  if data.outbounds.any fun ob => ob.tag = "BLOCK" then data
  else { data with outbounds := data.outbounds ++ [{ tag := "BLOCK", protocol := "blackhole" }] }

def sensitiveQuicBlockRule (inboundTags : List String) : Rule where
  inboundTag := inboundTags
  network := "udp"
  port := "443"
  outboundTag := "BLOCK"

def refreshSensitiveQuicBlock (data : Payload) : Payload :=
  let tags := sensitiveQuicInboundTags data
  let rules := data.rules.filter fun r => !r.isQuicBlock
  if tags.isEmpty then { data with routing := some rules }
  else
    { ensureBlockOutbound data with
      routing := some ((rules.takeWhile fun r => r.outboundTag = "DIRECT") ++
        sensitiveQuicBlockRule tags :: rules.dropWhile fun r => r.outboundTag = "DIRECT") }

def sensitiveTarget : List Outbound → Rule
  | [ob] => { outboundTag := ob.tag }
  | _ => { balancerTag := sensitiveWarpBalancerTag }

def splitRules (sorted : List Rule) (target : Rule) : List Rule :=
  let rules := sorted.filter fun r => !(isWarpTag r.outboundTag && isCatchAllNetworkRule r)
  let front := rules.filter isEscape
  let rest := rules.filter fun r => !isEscape r
  let bypass := if rules.any Rule.isWarpBypass then front else warpBypassRule :: front
  let lan := if rules.any Rule.isPrivateDirect then bypass else bypass ++ [warpPrivateDirectRule]
  let dns := if rules.any Rule.isDnsDirect then lan else lan ++ [warpDnsDirectRule]
  dedupe (dns ++ sensitiveDomainRules target ++ rest)

def preparedOutbounds (ip : Option String) (outbounds : List Outbound) : List Outbound :=
  ((outbounds.map fun ob => { ob with tag := stripped ob.tag }).filter fun ob =>
    ob.tag ≠ "").map (pinWarpEndpointIp ip)

def installSplit (data : Payload) (prepared : List Outbound) : Payload :=
  let drop := prepared.map Outbound.tag ++ sensitiveWarpBalancerTag ::
    (warpOutbounds data.outbounds).map Outbound.tag
  ensureBlockOutbound { data with
    outbounds := (data.outbounds.filter fun o => !drop.contains o.tag) ++ prepared }

def ensureWarpSensitiveExit (ip : Option String) (payload : Payload) (outbounds : List Outbound) :
    Payload :=
  let data := stripSensitiveWarpRouting payload
  let prepared := preparedOutbounds ip outbounds
  if prepared.isEmpty then data
  else
    let sorted := stripSensitiveWarpRouting (applyWarpSafeRouting ip (installSplit data prepared))
    pinApiInboundRoute <| refreshSensitiveQuicBlock
      { sorted with routing := some (splitRules sorted.rules (sensitiveTarget prepared)) }

def removedTags (data : Payload) : List String :=
  warpOutboundTags data.outbounds ++ (data.rules.map Rule.outboundTag).filter isWarpTag

def stripWarpFromConfig (data : Payload) (tags : Option (List String) := none) : Payload :=
  let removeTags :=
    (tags.map fun tags => tags.filter fun tag => tag ≠ "").getD (removedTags data)
  if removeTags.isEmpty then rewriteMissingWarpRoutes data
  else
    rewriteMissingWarpRoutes (stripSensitiveWarpRouting { data with
      outbounds := data.outbounds.filter fun o => !removeTags.contains o.tag }) (some removeTags)

end Shahkar.Xray.Routing
