import Mathlib.Data.List.Range
import Shahkar.Lib.Upsert
import Shahkar.Migration.Source

/-!
# Copying a 3x-ui inbound into the core's configuration

`_merge_inbound_to_xray` gives the copy a tag of this panel, moves a privileged port, looks for
another port when the pair of address and port is occupied, and writes the copy over the row with
the same tag, or at the end.
-/

namespace Shahkar.Migration

open Shahkar.Lib Shahkar.Lib.Text

structure CoreInbound where
  tag : String
  protocol : String := ""
  listen : String := ""
  port : Option Nat := none
  method : String := ""
deriving DecidableEq, Repr

def listenKey (listen : String) : String :=
  orElse (stripped (orElse listen "0.0.0.0")) "0.0.0.0"

def excludedPorts (config : List CoreInbound) (newTag : String) : List Nat :=
  (config.filter fun row => row.tag = newTag).filterMap CoreInbound.port

def occupiedListenPorts (config : List CoreInbound) (live : List Nat) (newTag : String) :
    List (String × Nat) :=
  ((config.filter fun row => row.tag ≠ newTag).filterMap fun row =>
      row.port.map fun port => (listenKey row.listen, port)) ++
    (live.filter fun port => port ∉ excludedPorts config newTag).flatMap fun port =>
      [("0.0.0.0", port), ("127.0.0.1", port), ("::", port)]

def candidatePorts (listen : String) (desired : Nat) : List Nat :=
  let start := if listenKey listen ∈ ["0.0.0.0", "::"] then max desired 1024 else max desired 1
  List.range' start (65536 - start) ++ List.range' 1024 (start - 1024)

def findFreeListenPort (listen : String) (desired : Nat) (occupied : List (String × Nat)) :
    Option Nat :=
  (candidatePorts listen desired).find? fun port => (listenKey listen, port) ∉ occupied

def PanelInbound.sourceTag (inbound : PanelInbound) : String :=
  orElse (orElse inbound.tag inbound.remark) ("inbound-" ++ inbound.id)

def PanelInbound.privileged (inbound : PanelInbound) : Bool :=
  inbound.port.any (fun port => 0 < port ∧ port < 1024) &&
    orElse inbound.listen "0.0.0.0" ∈ ["0.0.0.0", "::"]

def PanelInbound.movedListen (inbound : PanelInbound) : String :=
  if inbound.privileged then "127.0.0.1" else orElse inbound.listen "0.0.0.0"

def PanelInbound.movedPort (inbound : PanelInbound) : Option Nat :=
  if inbound.privileged ∧ inbound.port = some 443 then some 10443 else inbound.port

def remappedPort (listen : String) (port : Nat) (occupied : List (String × Nat)) : Option Nat :=
  if 0 < port ∧ (listenKey listen, port) ∈ occupied then
    findFreeListenPort listen (port + 1) occupied
  else some port

def entryPort (inbound : PanelInbound) (occupied : List (String × Nat)) : Option (Option Nat) :=
  match inbound.movedPort with
  | none => some none
  | some port => (remappedPort inbound.movedListen port occupied).map some

def portWarnings (inbound : PanelInbound) (newTag : String) (port : Option Nat) : List String :=
  (if inbound.privileged then
    if inbound.port = some 443 then
      ["Inbound " ++ newTag ++ ": moved TLS gRPC from 0.0.0.0:443 to 127.0.0.1:10443 " ++
        "(port 443 is used by nginx / requires root). Point nginx grpc_pass here if needed."]
    else
      ["Inbound " ++ newTag ++ ": listen set to 127.0.0.1 (privileged port " ++
        toString (inbound.port.getD 0) ++ " cannot bind as panel user)"]
    else []) ++
  (if port ≠ inbound.movedPort then
    ["Inbound " ++ newTag ++ ": port " ++ toString (inbound.movedPort.getD 0) ++ " on " ++
      inbound.movedListen ++ " already used by another inbound; remapped to " ++
      toString (port.getD 0) ++ ". Update nginx upstream if this panel needs a public listener."]
    else [])

def PanelInbound.copy (inbound : PanelInbound) (slug : String) (port : Option Nat) :
    CoreInbound where
  tag := slugifyTag slug inbound.sourceTag
  protocol := inbound.protocol
  listen := inbound.movedListen
  port := port
  method := inbound.method

structure Merged where
  newTag : String
  warnings : List String
  config : List CoreInbound
deriving DecidableEq, Repr

def mergeInboundToXray (slug : String) (live : List Nat) (inbound : PanelInbound)
    (config : List CoreInbound) : Option Merged :=
  let newTag := slugifyTag slug inbound.sourceTag
  (entryPort inbound (occupiedListenPorts config live newTag)).map fun port =>
    { newTag := newTag
      warnings := portWarnings inbound newTag port
      config := upsert CoreInbound.tag (inbound.copy slug port) config }

def mergeAll (slug : String) : List (List Nat × PanelInbound) → List CoreInbound →
    Option (List CoreInbound)
  | [], config => some config
  | (live, inbound) :: rest, config =>
    (mergeInboundToXray slug live inbound config).bind fun merged =>
      mergeAll slug rest merged.config

def attachedTag (slug : String) (inbound : PanelInbound) : String :=
  slugifyTag slug (orElse inbound.tag inbound.remark)

end Shahkar.Migration
