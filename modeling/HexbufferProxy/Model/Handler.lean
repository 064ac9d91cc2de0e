import HexbufferProxy.Model.Http
import HexbufferProxy.Rust.Proc

/-!
# Handlers (`handler.rs`, `builder.rs`)

Handlers are user code. A user's handler is any function of the context, the message and
the world `ω`, which holds whatever state handlers and network share; it may change the
context and the world whatever it answers. A call to the `i`-th registered handler leaves an
event in the trace.

`HandlerStack`, `EnabledWrapperHandler` and the choice `ProxyBuilder::build` makes are the
repository's.
-/

namespace HexbufferProxy

open Rust

structure SocketAddr where
  ip : String
  port : UInt16
deriving DecidableEq

/-- `HttpContext`. -/
structure HttpContext where
  id : UInt64
  host : Str
  clientAddr : SocketAddr
  isHttps : Bool

inductive RequestOrResponse where
  | request (req : Request)
  | response (res : Response)

/-- What a handler made of a request. -/
inductive Decision where
  | forward
  | shortCircuit
  | error
deriving DecidableEq

def decision : Except ProxyError RequestOrResponse → Decision
  | .ok (.request _) => .forward
  | .ok (.response _) => .shortCircuit
  | .error _ => .error

/-- What the proxy does, as its handlers, its client and its upstreams see it. -/
inductive Event where
  /-- The `i`-th handler's `handle_request` was called. -/
  | request (i : ℕ) (ctx : HttpContext) (req : Request) (d : Decision)
  /-- The `i`-th handler's `handle_response` was called. -/
  | response (i : ℕ) (ctx : HttpContext) (res : Response)
  /-- The `i`-th handler's `should_intercept_tls` was called. -/
  | intercept (i : ℕ) (host : Str) (answer : Bool)
  /-- `TcpStream::connect`. -/
  | connect (target : Str)
  /-- The pooled client sends a request upstream. -/
  | sendRequest (req : Request)
  /-- `connect_async_tls_with_config`. -/
  | wsConnect (req : Request)
  | toServer (bs : Bytes)
  | toClient (bs : Bytes)
  | shutdownClient
  /-- A response handed to the HTTP server of a TLS tunnel, which sends it. -/
  | reply (res : Response)
  /-- The tunnel of `handle_https` starts, with what is still to come from each side. -/
  | tunnel (target : Str) (client server : Source)
  /-- The TLS acceptor starts to read from the client. -/
  | tlsAccept (host : Str) (client : Source)
  /-- A relay starts after an upgrade on the plain path. -/
  | relay (framed : Bool) (ctx : HttpContext) (client server : Source)
  /-- A relay starts after an upgrade inside TLS. -/
  | relayUpgraded (framed : Bool) (ctx : HttpContext)

/-- The state the proxy runs in: the outside world and the `REQUEST_ID` counter. -/
structure World (ω : Type) where
  ext : ω
  requestId : UInt64

/-- A procedure of the proxy. -/
abbrev P (ω α : Type) := Proc Event (World ω) Fault α

variable {ω : Type}

/-- Something the outside world decides. -/
def external {α : Type} (f : ω → α × ω) : P ω α :=
  Proc.call fun w => ((f w.ext).1, { w with ext := (f w.ext).2 })

/-- `HttpHandler`. A method returns its result and the context as it leaves it. -/
structure HttpHandler (ω : Type) where
  handleRequest : HttpContext → Request → P ω (Except ProxyError RequestOrResponse × HttpContext)
  handleResponse : HttpContext → Response → P ω (Except ProxyError Response × HttpContext)
  shouldInterceptTls : Str → P ω Bool

/-- A handler that the user of the library registers. -/
structure UserHandler (ω : Type) where
  handleRequest : HttpContext → Request → ω →
    (Except ProxyError RequestOrResponse × HttpContext) × ω
  handleResponse : HttpContext → Response → ω → (Except ProxyError Response × HttpContext) × ω
  shouldInterceptTls : Str → ω → Bool × ω

/-- The user's handler as the `i`-th handler of the proxy. -/
def UserHandler.toHandler (h : UserHandler ω) (i : ℕ) : HttpHandler ω where
  handleRequest ctx req := do
    let r ← external (h.handleRequest ctx req)
    Proc.emit (.request i ctx req (decision r.1))
    pure r
  handleResponse ctx res := do
    Proc.emit (.response i ctx res)
    external (h.handleResponse ctx res)
  shouldInterceptTls host := do
    let answer ← external (h.shouldInterceptTls host)
    Proc.emit (.intercept i host answer)
    pure answer

/-- `NoopHandler`. -/
def NoopHandler : HttpHandler ω where
  handleRequest ctx req := pure (.ok (.request req), ctx)
  handleResponse ctx res := pure (.ok res, ctx)
  shouldInterceptTls _ := pure true

namespace HandlerStack

/-- `HandlerStack::handle_request`: the first handler that does not forward ends it. -/
def handleRequest : List (HttpHandler ω) → HttpContext → Request →
    P ω (Except ProxyError RequestOrResponse × HttpContext)
  | [], ctx, req => pure (.ok (.request req), ctx)
  | h :: hs, ctx, req => do
    let r ← h.handleRequest ctx req
    match r with
    | (.error e, ctx) => pure (.error e, ctx)
    | (.ok (.request req), ctx) => handleRequest hs ctx req
    | (.ok (.response res), ctx) => pure (.ok (.response res), ctx)

/-- `HandlerStack::handle_response`. -/
def handleResponse : List (HttpHandler ω) → HttpContext → Response →
    P ω (Except ProxyError Response × HttpContext)
  | [], ctx, res => pure (.ok res, ctx)
  | h :: hs, ctx, res => do
    let r ← h.handleResponse ctx res
    match r with
    | (.error e, ctx) => pure (.error e, ctx)
    | (.ok res, ctx) => handleResponse hs ctx res

/-- `HandlerStack::should_intercept_tls`. -/
def shouldInterceptTls : List (HttpHandler ω) → Str → P ω Bool
  | [], _ => pure true
  | h :: hs, host => do
    let answer ← h.shouldInterceptTls host
    if answer then shouldInterceptTls hs host else pure false

end HandlerStack

/-- `HandlerStack`. -/
def HandlerStack (hs : List (HttpHandler ω)) : HttpHandler ω where
  handleRequest := HandlerStack.handleRequest hs
  handleResponse := HandlerStack.handleResponse hs
  shouldInterceptTls := HandlerStack.shouldInterceptTls hs

/-- `EnabledWrapperHandler`: the flag decides about TLS interception only. -/
def EnabledWrapperHandler (enabled : ω → Bool) (inner : HttpHandler ω) : HttpHandler ω where
  handleRequest := inner.handleRequest
  handleResponse := inner.handleResponse
  shouldInterceptTls host := do
    let on ← external fun w => (enabled w, w)
    if on then inner.shouldInterceptTls host else pure false

/-- The handler that `ProxyBuilder::build` makes of the registered ones. -/
def buildHandler (enabled : ω → Bool) (handlers : List (HttpHandler ω)) : HttpHandler ω :=
  EnabledWrapperHandler enabled
    (match handlers with
    | [] => NoopHandler
    | [h] => h
    | hs => HandlerStack hs)

/-- The handler of a proxy with the given user handlers, in order of registration. -/
def proxyHandler (enabled : ω → Bool) (users : List (UserHandler ω)) : HttpHandler ω :=
  buildHandler enabled (users.zipIdx.map fun p => p.1.toHandler p.2)

/-- `tungstenite::Message`. -/
inductive Message where
  | text (s : Str)
  | binary (bs : Bytes)
  | ping (bs : Bytes)
  | pong (bs : Bytes)
  | close (frame : Option (UInt16 × Str))
  | frame (raw : Bytes)
deriving DecidableEq

def Message.isClose : Message → Bool
  | .close _ => true
  | _ => false

inductive Direction where
  | clientToServer
  | serverToClient
deriving DecidableEq

/-- `WebSocketHandler`. -/
structure WebSocketHandler (ω : Type) where
  onUpgrade : HttpContext → Request → ω → (Request × HttpContext) × ω
  onFrame : HttpContext → Message → Direction → ω → (Option Message × HttpContext) × ω
  onClose : HttpContext → ω → HttpContext × ω

/-- `NoopWebSocketHandler`, whose methods are the trait's own. -/
def NoopWebSocketHandler : WebSocketHandler ω where
  onUpgrade ctx req w := ((req, ctx), w)
  onFrame ctx msg _ w := ((some msg, ctx), w)
  onClose ctx w := (ctx, w)

end HexbufferProxy
