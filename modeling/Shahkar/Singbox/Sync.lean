import Shahkar.Lib.Grouping

/-!
The planner of a node's sing-box listeners (`app/singbox/speed.py`, `app/singbox/sync.py`).
-/

namespace Shahkar.Singbox

open Shahkar.Lib

inductive Protocol
  | hysteria2
  | tuic
  | anytls
  deriving Repr, DecidableEq

inductive Transport
  | udp
  | tcp
  deriving Repr, DecidableEq

namespace Protocol

def text : Protocol → String
  | hysteria2 => "hysteria2"
  | tuic => "tuic"
  | anytls => "anytls"

def speedOffset : Protocol → Nat
  | hysteria2 => 100
  | tuic => 1000
  | anytls => 2000

def transport : Protocol → Transport
  | hysteria2 => .udp
  | tuic => .udp
  | anytls => .tcp

end Protocol

structure SBUser where
  userId : Nat
  username : String
  protocol : Protocol
  password : Option String := none
  uuid : Option String := none
  active : Bool := true
  speedLimitUp : Option Nat := none
  speedLimitDown : Option Nat := none
  deriving Repr, DecidableEq

def SBUser.name (u : SBUser) : String := toString u.userId ++ "." ++ u.username

/-!
### Tiers
-/

def speedTier (speedLimitUp speedLimitDown : Option Nat) : Option (Nat × Nat) :=
  if speedLimitUp.getD 0 = 0 ∧ speedLimitDown.getD 0 = 0 then none
  else some (speedLimitUp.getD 0, speedLimitDown.getD 0)

def SBUser.tier (u : SBUser) : Option (Nat × Nat) := speedTier u.speedLimitUp u.speedLimitDown

def tierListenPort (protocol : Protocol) (basePort : Nat) : Option (Nat × Nat) → Nat
  | none => basePort
  | some (up, down) => basePort + protocol.speedOffset + up + down * 100

def listenPortForUser (protocol : Protocol) (basePort : Nat)
    (speedLimitUp speedLimitDown : Option Nat) : Nat :=
  tierListenPort protocol basePort (speedTier speedLimitUp speedLimitDown)

def tierTag (protocol : Protocol) : Option (Nat × Nat) → String
  | none => protocol.text ++ "-in"
  | some (up, down) => protocol.text ++ "-in-" ++ toString up ++ "-" ++ toString down

def groupUsersByTier (users : List SBUser) : Dict (Option (Nat × Nat)) (List SBUser) :=
  Dict.groupBy (fun u => some u.tier) [] (fun group u => group ++ [u]) users

/-!
### The specification of a node
-/

structure NodeConfig where
  enabled : Protocol → Bool
  port : Protocol → Nat
  certificatePath : Option String := none
  keyPath : Option String := none
  hysteria2ObfsPassword : Option String := none
  tuicCongestionControl : Option String := none
  clashApiPort : Nat := 0
  clashApiSecret : Option String := none

structure Credentials where
  name : String
  uuid : Option String := none
  password : String
  deriving Repr, DecidableEq

def renderUser (u : SBUser) : Credentials where
  name := u.name
  uuid := if u.protocol = .tuic then some (u.uuid.getD "") else none
  password := u.password.getD ""

structure Inbound where
  type : Protocol
  tag : String
  listenPort : Nat
  certificatePath : Option String
  keyPath : Option String
  users : List Credentials
  obfsPassword : Option String
  congestionControl : Option String
  deriving Repr, DecidableEq

structure TrafficLimit where
  port : Nat
  protocol : Transport
  upMbps : Nat
  downMbps : Nat
  deriving Repr, DecidableEq

def NodeConfig.serves (cfg : NodeConfig) (protocol : Protocol) : Bool :=
  cfg.enabled protocol && cfg.port protocol != 0

def tierInbound (cfg : NodeConfig) (protocol : Protocol) (tier : Option (Nat × Nat))
    (tierUsers : List SBUser) : Inbound where
  type := protocol
  tag := tierTag protocol tier
  listenPort := tierListenPort protocol (cfg.port protocol) tier
  certificatePath := cfg.certificatePath
  keyPath := cfg.keyPath
  users := tierUsers.map renderUser
  obfsPassword :=
    if protocol = .hysteria2 then cfg.hysteria2ObfsPassword.filter (· ≠ "") else none
  congestionControl :=
    if protocol = .tuic then some ((cfg.tuicCongestionControl.filter (· ≠ "")).getD "bbr") else none

def tierLimit (cfg : NodeConfig) (protocol : Protocol) : Option (Nat × Nat) → Option TrafficLimit
  | none => none
  | some (up, down) => some
    { port := tierListenPort protocol (cfg.port protocol) (some (up, down))
      protocol := protocol.transport
      upMbps := if up ≠ 0 then up else down
      downMbps := if down ≠ 0 then down else up }

def servedTiers (cfg : NodeConfig) (users : List SBUser) (protocol : Protocol) :
    List (Option (Nat × Nat) × List SBUser) :=
  if cfg.serves protocol then
    (groupUsersByTier (users.filter fun u => u.active && u.protocol = protocol)).entries
  else []

def buildTieredInbounds (cfg : NodeConfig) (users : List SBUser) (protocol : Protocol) :
    List Inbound × List TrafficLimit :=
  ((servedTiers cfg users protocol).map fun e => tierInbound cfg protocol e.1 e.2,
    (servedTiers cfg users protocol).filterMap fun e => tierLimit cfg protocol e.1)

structure NodeSpec where
  inbounds : List Inbound
  trafficLimits : List TrafficLimit
  clashApiPort : Nat
  clashApiSecret : String
  v2rayApiPort : Nat

def buildNodeSpec (cfg : NodeConfig) (users : List SBUser) : NodeSpec :=
  let hy2 := buildTieredInbounds cfg users .hysteria2
  let tuic := buildTieredInbounds cfg users .tuic
  let anytls := buildTieredInbounds cfg users .anytls
  let clashApiPort := if cfg.clashApiPort = 0 then 9095 else cfg.clashApiPort
  { inbounds := hy2.1 ++ tuic.1 ++ anytls.1
    trafficLimits := hy2.2 ++ tuic.2 ++ anytls.2
    clashApiPort := clashApiPort
    clashApiSecret := cfg.clashApiSecret.getD ""
    v2rayApiPort := clashApiPort + 100 }

def SBUser.keys (u : SBUser) : List String :=
  u.name :: ([some u.username, u.uuid, u.password].filterMap fun key => key.filter (· ≠ ""))

def buildNameUserMap (users : List SBUser) : Dict String Nat :=
  users.foldl (fun out u => u.keys.foldl (fun out key => out.set key u.userId) out) Dict.empty

end Shahkar.Singbox
