import Sming.Wiring.WString

/-!
# URLs

Embedding of `Sming/SmingCore/Network/URL.cpp`. The constructor that takes a text is `URL.parse`. It
has no value where the source calls `abort()`: the parts of the credentials are taken with
`parts[0]` and `parts[1]`, and the index operator of `Vector` aborts when the colon is missing. A
port that the constructor does not set is `none`.
-/

namespace Sming.Network
open Sming.Wiring.WString

structure URL where
  protocol : String := ""
  user : String := ""
  password : String := ""
  host : String := ""
  port : Option Int := none
  path : String := ""
  query : String := ""
  deriving Repr, DecidableEq

namespace URL

def parseProtocol (urlString : String) : String × Nat :=
  match indexOf urlString ':' 0 with
  | none => ("http", 0)
  | some protocolEnd =>
    if 3 < urlString.length - protocolEnd ∧
        substring urlString protocolEnd (protocolEnd + 3) = "://" then
      (toLowerCase (substring urlString 0 protocolEnd), protocolEnd + 3)
    else ("http", 0)

/-- User, password and the place where the host starts; `none` if `parts[1]` does not exist. -/
def parseCredentials (urlString : String) (protocolEnd : Nat) : Option (String × String × Nat) :=
  match indexOf urlString '@' protocolEnd with
  | none => some ("", "", protocolEnd)
  | some atStart =>
    match splitString (substring urlString protocolEnd atStart) ':' with
    | user :: password :: _ => some (user, password, atStart + 1)
    | _ => none

/-- Host, port, path and query, once the protocol and the credentials are known. -/
def parseHost (urlString protocol user password : String) (hostStart : Nat) : URL :=
  let queryStart := (indexOf urlString '?' 0).getD urlString.length
  let pathStart := indexOf urlString '/' hostStart
  let portEnd := pathStart.getD queryStart
  let portStart := (indexOf urlString ':' hostStart).filter (· < portEnd)
  { protocol := protocol
    user := user
    password := password
    host := substring urlString hostStart (portStart.getD portEnd)
    port :=
      match portStart with
      | some portStart => some (toInt (substring urlString (portStart + 1) portEnd))
      | none =>
        if protocol = "https" ∨ protocol = "wss" then some 443
        else if protocol = "http" then some 80
        else none
    path :=
      match pathStart with
      | some pathStart => substring urlString pathStart queryStart
      | none => ""
    query :=
      if queryStart ≠ urlString.length then substring urlString queryStart urlString.length
      else "" }

/-- (C++ `URL::URL(const String&)`.) -/
def parse (urlString : String) : Option URL :=
  if urlString.length = 0 then some {}
  else
    let (protocol, protocolEnd) := parseProtocol urlString
    (parseCredentials urlString protocolEnd).map fun (user, password, hostStart) =>
      parseHost urlString protocol user password hostStart

def getPathWithQuery (u : URL) : String :=
  if 0 < u.path.length + u.query.length then u.path ++ u.query else "/"

-- an `@` behind no colon aborts, also one in the path
example : parse "/mail/a@b" = none := by decide

example : parse "http://u:p@host:8080/a?b=1" = some
    { protocol := "http", user := "u", password := "p", host := "host", port := some 8080
      path := "/a", query := "?b=1" } := by decide +kernel

lemma parse_empty : parse "" = some {} := rfl

lemma protocol_of_parse_short {s : String} {u : URL} (short : s.length ≤ 3) (ne : s.length ≠ 0)
    (h : parse s = some u) : u.protocol = "http" := by
  have plain : parseProtocol s = ("http", 0) := by
    rw [parseProtocol]
    split
    · rfl
    · rw [if_neg]
      rintro ⟨long, -⟩
      omega
  rw [parse, if_neg ne, plain] at h
  obtain ⟨⟨user, password, hostStart⟩, -, e⟩ := Option.map_eq_some_iff.mp h
  subst e
  rfl

end URL

end Sming.Network
