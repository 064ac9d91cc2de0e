import HexbufferProxy.Model.Handler

/-!
# The builder (`builder.rs`)

`ProxyBuilder` collects what a proxy is made of. `BuilderCall` is one call of its `with_…` and
`add_…` methods, each of which takes the builder and gives it back. The flag that
`with_enabled` stores is shared: what it says later is read off the outside world. Certificates
are made elsewhere, so a certificate authority is a parameter here.
-/

namespace HexbufferProxy

open Rust

variable {ω Ca : Type}

/-- `ProxyBuilder`. -/
structure ProxyBuilder (ω Ca : Type) where
  addr : SocketAddr
  ca : Option Ca
  handlers : List (HttpHandler ω)
  wsHandler : Option (WebSocketHandler ω)
  requestBufferSize : ℕ
  certDir : Option Str
  enabled : Bool

/-- A call of one of the builder's methods. -/
inductive BuilderCall (ω Ca : Type) where
  | withAddr (addr : SocketAddr)
  | withCa (ca : Ca)
  | withHttpHandler (handler : HttpHandler ω)
  | addHttpHandler (handler : HttpHandler ω)
  | withWsHandler (handler : WebSocketHandler ω)
  | withRequestBufferSize (size : ℕ)
  | withEnabled (enabled : Bool)
  | withCertDir (dir : Str)

/-- `Proxy`. -/
structure Proxy (ω Ca : Type) where
  addr : SocketAddr
  ca : Ca
  handler : HttpHandler ω
  wsHandler : Option (WebSocketHandler ω)
  requestBufferSize : ℕ
  enabled : Bool

namespace ProxyBuilder

/-- `ProxyBuilder::new`. -/
def new : ProxyBuilder ω Ca where
  addr := ⟨"127.0.0.1", 8080⟩
  ca := none
  handlers := []
  wsHandler := none
  requestBufferSize := 16384
  certDir := none
  enabled := true

/-- What a call makes of the builder. -/
def apply (b : ProxyBuilder ω Ca) : BuilderCall ω Ca → ProxyBuilder ω Ca
  | .withAddr addr => { b with addr := addr }
  | .withCa ca => { b with ca := some ca }
  | .withHttpHandler handler => { b with handlers := [handler] }
  | .addHttpHandler handler => { b with handlers := b.handlers ++ [handler] }
  | .withWsHandler handler => { b with wsHandler := some handler }
  | .withRequestBufferSize size => { b with requestBufferSize := size }
  | .withEnabled enabled => { b with enabled := enabled }
  | .withCertDir dir => { b with certDir := some dir }

/-- The certificate authority of the proxy: the one given, or one made in the directory given, or
in `cert`. -/
def authority (newIn : Str → Except Fault Ca) (b : ProxyBuilder ω Ca) : Except Fault Ca :=
  match b.ca, b.certDir with
  | some ca, _ => .ok ca
  | none, some dir => newIn dir
  | none, none => newIn "cert".toList

/-- `ProxyBuilder::build`, for a proxy whose flag is read by `flag`. -/
def build (newIn : Str → Except Fault Ca) (flag : ω → Bool) (b : ProxyBuilder ω Ca) :
    Except Fault (Proxy ω Ca) :=
  (b.authority newIn).map fun ca =>
    { addr := b.addr
      ca := ca
      handler := buildHandler flag b.handlers
      wsHandler := b.wsHandler
      requestBufferSize := b.requestBufferSize
      enabled := b.enabled }

end ProxyBuilder

end HexbufferProxy
