import HexbufferProxy.Model.Flow
import HexbufferProxy.Spec.Head
import HexbufferProxy.Spec.Upstream

/-!
# Where the proxy connects to

An endpoint is a host and a port. `TcpStream::connect` is given a text, which it splits at the
last colon. The pooled client and the WebSocket client are given a URI, whose scheme stands for a
port if the authority names none.
-/

namespace HexbufferProxy

open Rust

abbrev Endpoint := Str × ℕ

/-- What `TcpStream::connect` makes of its argument. -/
def socketEndpoint (target : Str) : Option Endpoint :=
  (rsplitOnce ':' target).bind fun p => (fromStrRadix 10 65536 p.2).map fun port => (p.1, port)

/-- The port of a scheme that the clients know. -/
def schemePort (s : Str) : Option ℕ :=
  if s = "https".toList ∨ s = "wss".toList then some 443
  else if s = "http".toList ∨ s = "ws".toList then some 80
  else none

/-- What the clients make of a URI. -/
def uriEndpoint : Uri → Option Endpoint
  | .absolute s a _ =>
    (schemePort s).map fun p => (Uri.authorityHost a, (Uri.authorityPort a).getD p)
  | _ => none

namespace Event

/-- The endpoint that a contact is made with. -/
def endpoint : Event → Option Endpoint
  | connect target => socketEndpoint target
  | sendRequest req | wsConnect req => uriEndpoint req.uri
  | _ => none

/-- A contact for a request from inside an intercepted tunnel. -/
def isInside : Event → Bool
  | sendRequest _ | wsConnect _ => true
  | _ => false

/-- A contact for a tunnel as a whole. -/
def isPassthrough : Event → Bool
  | connect _ => true
  | _ => false

end Event

/-- The authority at the front of a text: up to the first `/`, `?` or `#`. -/
def authorityOf (text : Str) : Str := text.takeWhile fun c => !endsAuthority c

def Uri.IsOrigin : Uri → Prop
  | origin _ => True
  | _ => False

/-- A host in a target: a name or an IPv4 address, which have no colon, or another address in
brackets. -/
def IsHost (h : Str) : Prop :=
  (∀ c ∈ h, c ∉ "/?#@[]:".toList) ∨
    ∃ a, h = '[' :: (a ++ [']']) ∧ ∀ c ∈ a, c ∉ "/?#@[]".toList

/-- A CONNECT target `host:port`. -/
structure ConnectTarget where
  host : Str
  port : Digits 10
  host_ok : IsHost host
  port_ne : port ≠ []
  port_lt : port.value < 65536

namespace ConnectTarget

def text (t : ConnectTarget) : Str := t.host ++ ':' :: t.port.text

def endpoint (t : ConnectTarget) : Endpoint := (t.host, t.port.value)

end ConnectTarget

end HexbufferProxy
