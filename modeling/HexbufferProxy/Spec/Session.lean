import HexbufferProxy.Model.Flow
import HexbufferProxy.Spec.Relay

/-!
# The calls of a WebSocket handler

The calls that a handler gets are written down as they are made: the proxy runs in a world that has
a list of them beside everything else, to which the handler's three methods alone add. A session is
what becomes of one request: the proxy's run up to the relay, and any number of rounds of the relay.
-/

namespace HexbufferProxy

open Rust

variable {ω α : Type}

/-- A call of a WebSocket handler, with the context it is shown. -/
inductive WsCall where
  | upgrade (ctx : HttpContext) (req out : Request)
  | frame (ctx : HttpContext) (msg : Message) (d : Direction) (out : Option Message)
  | close (ctx : HttpContext)

/-- The world, and the calls so far. -/
abbrev Watched (ω : Type) := ω × List WsCall

/-- The same in the watched world: no call is made. -/
def unheard (f : ω → α × ω) : Watched ω → α × Watched ω := fun w => ((f w.1).1, (f w.1).2, w.2)

/-- The handler, with its calls written down. -/
def WebSocketHandler.watched (ws : WebSocketHandler ω) : WebSocketHandler (Watched ω) where
  onUpgrade ctx req w :=
    let a := ws.onUpgrade ctx req w.1
    (a.1, a.2, w.2 ++ [.upgrade ctx req a.1.1])
  onFrame ctx msg d w :=
    let a := ws.onFrame ctx msg d w.1
    (a.1, a.2, w.2 ++ [.frame ctx msg d a.1.1])
  onClose ctx w :=
    let a := ws.onClose ctx w.1
    (a.1, a.2, w.2 ++ [.close ctx])

def UserHandler.watched (u : UserHandler ω) : UserHandler (Watched ω) where
  handleRequest ctx req := unheard (u.handleRequest ctx req)
  handleResponse ctx res := unheard (u.handleResponse ctx res)
  shouldInterceptTls host := unheard (u.shouldInterceptTls host)

def Env.watched (env : Env ω) : Env (Watched ω) where
  http := env.http
  unicode := env.unicode
  enabled w := env.enabled w.1
  clientWrite bs := unheard (env.clientWrite bs)
  clientShutdown := unheard env.clientShutdown
  connect target := unheard (env.connect target)
  serverWrite bs := unheard (env.serverWrite bs)
  serverStream w := env.serverStream w.1
  sendRequest req := unheard (env.sendRequest req)
  forgeCertificate host := unheard (env.forgeCertificate host)
  tlsAccept cert client := unheard (env.tlsAccept cert client)
  isUpgradeRequest := env.isUpgradeRequest
  upgrade := env.upgrade
  upgraded := unheard env.upgraded
  generateKey := unheard env.generateKey
  wsConnect req := unheard (env.wsConnect req)

/-- The world, before any call. -/
def World.watched (w : World ω) : World (Watched ω) := ⟨(w.ext, []), w.requestId⟩

/-- The proxy's handler, with these user handlers. -/
def watchedHandler (env : Env ω) (users : List (UserHandler ω)) : HttpHandler (Watched ω) :=
  proxyHandler env.watched.enabled (users.map UserHandler.watched)

/-- What can be said of a session. -/
structure Session (ω : Type) where
  /-- The context of the request that has started it. -/
  ctx : HttpContext
  /-- What the proxy has done until the relay began. -/
  events : List Event
  /-- The relay when it began, and as it is. -/
  began : Relay (Watched ω)
  relay : Relay (Watched ω)

/-- **The sessions that the handler is given**, on the plain path and inside TLS: whatever the two
sides go on to say, whichever `select!` picks, and whichever sends succeed. -/
inductive IsSession (env : Env ω) (users : List (UserHandler ω)) (ws : WebSocketHandler ω) :
    Session ω → Prop
  | plain {w : World ω} {client : Source} {addr : SocketAddr} {bufSize : ℕ} {bytes : Bytes}
      {request : Request} {host : Str} {ran : Ran Event (World (Watched ω)) Fault Unit}
      {ctx : HttpContext} {rest server : Source} (fromClient fromServer : List Item)
      (ts : List (Direction × Bool))
      (hrequest : parseRawRequest env.http bytes = .ok request)
      (hhost : extractHost request bytes = some host)
      (hran : handleHttp env.watched (watchedHandler env users) (some ws.watched) client addr
        bufSize bytes w.watched = ran)
      (hrelay : .relay true ctx rest server ∈ ran.events) :
      IsSession env users ws
        { ctx := ⟨w.requestId, host, addr, false⟩
          events := ran.events
          began := Relay.start ran.state.ext ctx fromClient fromServer
          relay := ts.foldl (relayFramed ws.watched)
            (Relay.start ran.state.ext ctx fromClient fromServer) }
  | tls {w : World ω} {host : Str} {addr : SocketAddr} {request : Request}
      {ran : Ran Event (World (Watched ω)) Fault Bool} {ctx : HttpContext}
      (fromClient fromServer : List Item) (ts : List (Direction × Bool))
      (hran : serveRequest env.watched (watchedHandler env users) (some ws.watched) host addr
        request w.watched = ran)
      (hrelay : .relayUpgraded true ctx ∈ ran.events) :
      IsSession env users ws
        { ctx := ⟨w.requestId, host, addr, true⟩
          events := ran.events
          began := Relay.start ran.state.ext ctx fromClient fromServer
          relay := ts.foldl (relayUpgraded ws.watched)
            (Relay.start ran.state.ext ctx fromClient fromServer) }

namespace Session

/-- The calls that the handler has got. -/
def calls (s : Session ω) : List WsCall := s.relay.ext.2

/-- **What a handler is promised**: `on_upgrade` first, for the request that is then forwarded as it
returns it; `on_frame` for each message that has been consumed; `on_close` when the relay has ended,
and nothing after it; and the context of the request at each call. -/
def KeepsPromise (s : Session ω) : Prop :=
  ∃ req out order frames,
    s.calls = .upgrade s.ctx req out :: frames ++ (if s.relay.running then [] else [.close s.ctx]) ∧
    (.toServer (serializeRequest out) ∈ s.events ∨ .wsConnect out ∈ s.events) ∧
    List.Forall₂ (fun (x : Transit) c => ∃ a, c = WsCall.frame s.ctx x.2 x.1 a) order frames ∧
    ∀ d, ∃ last, s.began.pending d = (along d order).map .ok ++ last ++ s.relay.pending d ∧
      (last = [] ∨ ∃ e, last = [.error e])

end Session

end HexbufferProxy
