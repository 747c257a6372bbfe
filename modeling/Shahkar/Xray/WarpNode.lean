import Shahkar.Xray.WarpRouting

/-!
# The WARP exit of a node (`app/services/xray_node.py`, `app/services/warp_tproxy.py`)

A node's config is the master's with the node's exit policy applied: WARP taken out, WARP for
everything, or WARP for the listed services. Clients of the kernel tunnels enter through inbounds of
their own.
-/

namespace Shahkar.Xray.Routing

open Shahkar.Lib Shahkar.Lib.Text

/-!
### The node's own inbounds
-/

def warpTproxyInboundTag (nodeId : Nat) : String := "node-" ++ toString nodeId ++ "-warp-tproxy"

def xrayWgInboundTag (nodeId : Nat) : String := "node-" ++ toString nodeId ++ "-xray-wg-in"

def singboxWarpInboundTag (nodeId : Nat) : String := "node-" ++ toString nodeId ++ "-singbox-in"

def isFinalmaskInboundTag (nodeId : Nat) (tag : String) : Bool :=
  tag = xrayWgInboundTag nodeId || startsWith (xrayWgInboundTag nodeId ++ "-") tag

def namesTproxy (nodeId : Nat) (r : Rule) : Bool :=
  r.inboundTag.contains (warpTproxyInboundTag nodeId)

def namesFinalmask (nodeId : Nat) (r : Rule) : Bool :=
  r.inboundTag.any (isFinalmaskInboundTag nodeId)

def Payload.withoutInbound (data : Payload) (tag : String) : Payload :=
  { data with inbounds := data.inbounds.filter fun ib => ib.tag ≠ tag }

def injectWarpTproxyInbound (data : Payload) (nodeId : Nat) (outboundTag : String)
    (catchAll : Bool := true) : Payload :=
  let tag := warpTproxyInboundTag nodeId
  let rules := data.rules.filter fun r => !namesTproxy nodeId r
  { data with
    inbounds := (data.withoutInbound tag).inbounds ++ [⟨tag, "dokodemo-door", true⟩]
    routing := some <|
      if catchAll then { inboundTag := [tag], outboundTag := outboundTag } :: rules
      else rules ++ [{ inboundTag := [tag], outboundTag := "DIRECT" }] }

def stripWarpTproxyInbound (data : Payload) (nodeId : Nat) : Payload :=
  { data.withoutInbound (warpTproxyInboundTag nodeId) with
    routing := data.routing.map fun rules => rules.filter fun r => !namesTproxy nodeId r }

def injectSingboxWarpInbound (data : Payload) (nodeId : Nat) : Payload :=
  let tag := singboxWarpInboundTag nodeId
  { data with inbounds := (data.withoutInbound tag).inbounds ++ [⟨tag, "socks", false⟩] }

def xrayWgOutboundTag (data : Payload) (nodeId : Nat) : Option String :=
  (data.rules.find? (namesFinalmask nodeId)).bind fun r =>
    if r.outboundTag = "" then none else some r.outboundTag

def toWarp (nodeId : Nat) (outboundTag : String) (r : Rule) : Rule :=
  if namesFinalmask nodeId r then { r with outboundTag := outboundTag } else r

def shardTags (data : Payload) (nodeId : Nat) : List String :=
  match (data.inbounds.map Inbound.tag).filter (isFinalmaskInboundTag nodeId) with
  | [] => [xrayWgInboundTag nodeId]
  | tags => tags

def retargetXrayWgToWarp (data : Payload) (nodeId : Nat) (outboundTag : String) : Payload :=
  { data with
    routing := data.routing.map fun rules =>
      let moved := rules.map (toWarp nodeId outboundTag)
      if rules.any (namesFinalmask nodeId) then moved
      else { inboundTag := shardTags data nodeId, outboundTag := outboundTag } :: moved }

def tagParts (text : String) : List String :=
  (text.toList.map fun c => if c = ';' then ',' else c).splitOn ',' |>.map String.ofList

def parseWarpTags (raw : Option String) : List String :=
  let text := stripped (raw.getD "")
  let parts := (tagParts (if text = "" then "warp" else text)).map stripped
  match dedupe (parts.filter fun tag => tag ≠ "") with
  | [] => ["warp"]
  | tags => tags

def buildOutbound (ip : Option String) (tag endpoint : String) : Outbound where
  tag := tag
  protocol := "wireguard"
  endpoint := some (((ip.filter fun ip => ip ≠ "").map fun ip => ip ++ ":2408").getD endpoint)

structure NodeWarp where
  id : Nat
  warpEnabled : Bool
  warpMode : Option String
  warpTag : Option String

def NodeWarp.sensitive (node : NodeWarp) : Bool :=
  (stripped (node.warpMode.getD "")).map Char.toLower = "sensitive"

def NodeWarp.outbounds (node : NodeWarp) (ip : Option String) (accounts : String → Option String) :
    List Outbound :=
  (parseWarpTags node.warpTag).filterMap fun tag => (accounts tag).map (buildOutbound ip tag)

def withoutWarp (data : Payload) (nodeId : Nat) : Payload :=
  let cleaned := stripWarpFromConfig data
  if nodeId = 0 then cleaned else stripWarpTproxyInbound cleaned nodeId

def sensitiveWarp (ip : Option String) (data : Payload) (node : NodeWarp)
    (outbounds : List Outbound) : Payload :=
  let cleaned := ensureWarpSensitiveExit ip data outbounds
  if node.id = 0 then cleaned
  else
    let primary := (parseWarpTags node.warpTag).headD "warp"
    refreshSensitiveQuicBlock <| injectSingboxWarpInbound
      (injectWarpTproxyInbound cleaned node.id primary false) node.id

def fullWarp (ip : Option String) (data : Payload) (nodeId : Nat) (first : Outbound)
    (others : List Outbound) : Payload :=
  let cleaned := others.foldl (fun cleaned ob => ensureWarpExit ip cleaned ob false)
    (ensureWarpExit ip data first true)
  if nodeId = 0 then cleaned
  else
    let wg := if (xrayWgOutboundTag cleaned nodeId).any (startsWith "tunnel-") then cleaned
      else retargetXrayWgToWarp cleaned nodeId first.tag
    injectSingboxWarpInbound (injectWarpTproxyInbound wg nodeId first.tag) nodeId

def applyNodeWarpPolicy (ip : Option String) (accounts : String → Option String) (data : Payload)
    (node : NodeWarp) : Payload :=
  if node.warpEnabled then
    match node.outbounds ip accounts with
    | [] => withoutWarp data node.id
    | first :: others =>
      if node.sensitive then sensitiveWarp ip data node (first :: others)
      else fullWarp ip data node.id first others
  else withoutWarp data node.id

end Shahkar.Xray.Routing
