import Shahkar.Lib.Text

/-!
# What is read from a 3x-ui panel, and the names it is given here

An inbound's tag and a client's username are built from the texts of the source by replacing the
characters that are not safe, and then by cutting them to length.
-/

namespace Shahkar.Migration

open Shahkar.Lib.Text

structure Client where
  email : String := ""
  id : String := ""
  password : String := ""
  uuid : String := ""
  subId : String := ""
  sub_id : String := ""
  flow : String := ""
  method : String := ""
deriving DecidableEq, Repr

/-- Where an inbound has its clients: in settings that are a JSON text, in settings that are an
object (a JSON backup may have either), or under a key of the inbound itself. -/
inductive ClientPlace
  | text
  | object
  | inbound
deriving DecidableEq, Repr

structure PanelInbound where
  id : String := ""
  tag : String := ""
  remark : String := ""
  protocol : String := ""
  port : Option Nat := none
  listen : String := ""
  method : String := ""
  clients : List Client := []
  place : ClientPlace := .text
deriving DecidableEq, Repr

def inboundWith (tag : String) (port : Nat) (clients : List Client) : PanelInbound :=
  { tag := tag, protocol := "vless", port := some port, clients := clients }

def orElse (a b : String) : String := if a = "" then b else a

def tagSafe (c : Char) : Bool := c.isAlphanum || c == '_' || c == '-'

def tagSafeSub (fill : Char) (text : String) : String :=
  String.ofList (replaceRuns tagSafe fill text.toList)

def usernameMax : Nat := 34

structure Digest where
  hexdigest : String → String

def plainDigest : Digest where
  hexdigest _ := "0000000000000000000000000000000000000000"

def Client.subscription (client : Client) : String :=
  stripped (orElse client.subId client.sub_id)

def rawUsername (slug email : String) (client : Client) : String :=
  orElse (strippedOf '_' (tagSafeSub '_'
    (if client.subscription ≠ "" then slug ++ "_" ++ client.subscription
      else slug ++ "_" ++ email))) "user"

def migrationUsername (sha1 : Digest) (slug email : String) (client : Client) : String :=
  let raw := rawUsername slug email client
  if raw.length ≤ usernameMax then raw
  else
    let digest := takeChars 10 (sha1.hexdigest raw)
    let front := takeChars (usernameMax - 11) (strippedOf '_' (tagSafeSub '_' slug))
    takeChars usernameMax (front ++ "_" ++ digest)

def slugifyTag (panelSlug tag : String) : String :=
  let base := orElse (strippedOf '-' (tagSafeSub '-' (stripped (orElse tag "inbound")))) "inbound"
  let front := orElse (strippedOf '-' (tagSafeSub '-' (stripped panelSlug))) "panel"
  takeChars 64 (front ++ "-" ++ base)

end Shahkar.Migration
