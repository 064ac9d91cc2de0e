import HexbufferProxy.Spec.Endpoint
import HexbufferProxy.Spec.Validity

/-!
# Hosts and ports in what a client names

A client names an authority: in a CONNECT target, in a Host field, or in an absolute target. The
proxy cuts host and port out of each by looking for a colon or a slash.
-/

namespace HexbufferProxy

open Rust

/-- A registered name, an IPv4 address or an address in brackets, with a port or without. -/
structure NamedAuthority where
  host : Str
  port : Option (Digits 10)
  host_ok : IsHost host
  port_ok : ∀ p ∈ port, p ≠ [] ∧ p.value < 65536

namespace NamedAuthority

def text (a : NamedAuthority) : Str := a.host ++ a.port.elim [] fun p => ':' :: p.text

/-- Its host and its port, where a port is the default if none is given. -/
def endpoint (a : NamedAuthority) (default : ℕ) : Endpoint :=
  (a.host, (a.port.map Digits.value).getD default)

end NamedAuthority

/-- **A CONNECT is split into this host and this port**: `handle_client` makes out the target with
its port, and `handle_https` the host. -/
def SplitsConnect (raw : Bytes) (host : Str) (port : ℕ) : Prop :=
  ∃ target, connectTarget raw = some target ∧ targetHost target = host ∧
    socketEndpoint target = some (host, port)

/-! ## Absolute targets -/

/-- The schemes of plain and encrypted HTTP, in any case. -/
def IsHttpScheme (s : Str) : Prop :=
  s.map Char.toLower = "http".toList ∨ s.map Char.toLower = "https".toList

instance (s : Str) : Decidable (IsHttpScheme s) := inferInstanceAs (Decidable (_ ∨ _))

/-- The URI parser reads the generic syntax: what it takes for an absolute URI is a scheme, up to
case, and an authority that a `/`, `?` or `#` ends. -/
def HttpCrate.ReadsAbsolute (http : HttpCrate) : Prop :=
  ∀ target s a pq, http.parseUri target = some (.absolute s a pq) →
    ∃ scheme rest, target = scheme ++ "://".toList ++ a ++ rest ∧
      scheme.map Char.toLower = s.map Char.toLower ∧ (∀ c ∈ a, endsAuthority c = false) ∧
      ∀ c, rest.head? = some c → endsAuthority c = true

/-- What is behind the host of an authority. -/
def afterHost (a : Str) : Str := (Uri.hostPort a).drop (Uri.authorityHost a).length

/-- The host of an authority, and its port if it has one. -/
def hostAndPort (a : Str) : Str :=
  Uri.authorityHost a ++ if (Uri.authorityPort a).isSome then afterHost a else []

/-- **A target whose host can be cut out as text**: its scheme is in lower case, its authority has
no user information and ends at a `/` or with the target, and behind the host is nothing but a
port. -/
structure PlainTarget (target a : Str) : Prop where
  form : ∃ scheme rest, (scheme = "http".toList ∨ scheme = "https".toList) ∧
    target = scheme ++ "://".toList ++ a ++ rest ∧ (rest = [] ∨ rest.head? = some '/')
  no_user : '@' ∉ a
  port : afterHost a = [] ∨ (Uri.authorityPort a).isSome

end HexbufferProxy
