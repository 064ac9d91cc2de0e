import HexbufferProxy.Model.Flow

/-!
# What a CONNECT request asks for

Its head names a target and ends in an empty line; whatever the client sends behind it belongs to
the tunnel.
-/

namespace HexbufferProxy

open Rust

/-- The head of a CONNECT request: its request line, and everything up to the empty line. -/
structure ConnectHead where
  target : Str
  version : Str
  fields : Bytes
  target_ne : target ≠ []
  target_word : ∀ c ∈ target, isWhitespace c = false
  version_line : '\n' ∉ version
  complete : crlfcrlf <:+ [13, 10] ++ fields

namespace ConnectHead

def requestLine (h : ConnectHead) : Str := "CONNECT ".toList ++ h.target ++ ' ' :: h.version

def bytes (h : ConnectHead) : Bytes := encode h.requestLine ++ ([13, 10] ++ h.fields)

/-- The target with its port; 443 is CONNECT's own. -/
def endpoint (h : ConnectHead) : Str :=
  if ':' ∈ h.target then h.target else h.target ++ ":443".toList

end ConnectHead

/-- In these events, only the bytes `d` of the client enter a tunnel, which leads to `target`. -/
def EntersTunnel (target : Str) (d : Bytes) (es : List Event) : Prop :=
  (∀ t client server, Event.tunnel t client server ∈ es → t = target ∧ client.bytes = d) ∧
  ∀ host client, Event.tlsAccept host client ∈ es → host = targetHost target ∧ client.bytes = d

/-- **What a client that sends `h` and then `d` asks of `handle_client`**: it becomes a run of
`handle_https` for the target, in which the bytes of the tunnel are those behind the head. -/
def OpensTunnel (h : ConnectHead) (d : Bytes) (client : Source) : Prop :=
  ∀ (ω : Type) (env : Env ω) (users : List (UserHandler ω)) (ws : Option (WebSocketHandler ω))
    (peer : Option SocketAddr) (bufSize : ℕ),
    (∃ behind, handleClient env (proxyHandler env.enabled users) ws peer client bufSize =
      handleHttps env (proxyHandler env.enabled users) ws behind h.endpoint
        (peer.getD ⟨"127.0.0.1", 0⟩)) ∧
    ∀ s, EntersTunnel h.endpoint d
      (handleClient env (proxyHandler env.enabled users) ws peer client bufSize s).events

end HexbufferProxy
