import HexbufferProxy.Model.Flow

/-!
# The proxy over time (`builder.rs`)

A proxy serves many connections at once, and `Proxy::set_enabled` may be called at any time. What
happens is a list of actions in the order in which they take effect: a call of `set_enabled`, a
CONNECT, a request on a tunnel that the proxy has taken for itself, a request on a plain
connection, the end of a tunnel. The flag is read in one place, so that it may as well stay what
it is during an action.

An action is one step here, where the tasks of other connections may run whenever it awaits
something. What is said of runs is about the events of single actions, and about what has been done
before them. Where it matters what comes in between, as it does for the numbers of requests, an
action is taken apart (`Model.Begun`).
-/

namespace HexbufferProxy

open Rust

/-- A tunnel whose requests the proxy decrypts. -/
structure TlsTunnel where
  host : Str
  clientAddr : SocketAddr
  /-- Its client may still send requests. -/
  live : Bool

/-- A running proxy. -/
structure Server (ω : Type) where
  /-- The flag of `Proxy::set_enabled`. -/
  enabled : Bool
  world : World ω
  /-- The tunnels, in the order in which they have been opened. -/
  tunnels : List TlsTunnel

inductive Action where
  | setEnabled (enabled : Bool)
  | connect (client : Source) (target : Str) (clientAddr : SocketAddr)
  /-- A request arrives on the `i`-th tunnel. -/
  | request (i : ℕ) (req : Request)
  | plain (client : Source) (clientAddr : SocketAddr) (requestBytes : Bytes)
  /-- The client of the `i`-th tunnel closes it. -/
  | close (i : ℕ)

section

variable {ω : Type} (env : Env ω)

/-- The environment with this flag. -/
def Env.flagged (enabled : Bool) : Env ω := { env with enabled := fun _ => enabled }

/-- `handle_https`, up to the requests of the tunnel: those that it is going to serve, if it takes
the tunnel for itself. -/
def openTunnel (handler : HttpHandler ω) (client : Source) (target : Str) :
    P ω (Option (List Request)) := do
  let host := targetHost target
  writeClient env established
  let intercept ← handler.shouldInterceptTls host
  if !intercept then do
    connectServer env target
    let server ← external fun w => (env.serverStream w, w)
    Proc.emit (.tunnel target client server)
    pure none
  else do
    let cert ← external (env.forgeCertificate host)
    let cert ← Proc.lift cert
    Proc.emit (.tlsAccept host client)
    let reqs ← external (env.tlsAccept cert client)
    let reqs ← Proc.lift (reqs.mapError .error)
    pure (some reqs)

namespace Server

variable (users : List (UserHandler ω)) (wsHandler : Option (WebSocketHandler ω)) (bufSize : ℕ)

/-- The handler that `ProxyBuilder::build` has made, with the flag as it is. -/
def handler (s : Server ω) : HttpHandler ω := proxyHandler (env.flagged s.enabled).enabled users

/-- The tunnels once the `i`-th is closed. -/
def closed (s : Server ω) (i : ℕ) : List TlsTunnel :=
  s.tunnels.modify i fun t => { t with live := false }

/-- One action: the proxy afterwards, and what it has done. -/
def step (s : Server ω) : Action → Server ω × List Event
  | .setEnabled b => ({ s with enabled := b }, [])
  | .connect client target addr =>
    let r := openTunnel (env.flagged s.enabled) (s.handler env users) client target s.world
    ({ s with
        world := r.state
        tunnels := s.tunnels ++
          match r.result with
          | .ok (some _) => [⟨targetHost target, addr, true⟩]
          | _ => [] }, r.events)
  | .request i req =>
    match s.tunnels[i]? with
    | some ⟨host, addr, true⟩ =>
      let r := serveRequest (env.flagged s.enabled) (s.handler env users) wsHandler host addr req
        s.world
      ({ s with
          world := r.state
          tunnels :=
            match r.result with
            | .ok true => s.tunnels
            | _ => s.closed i }, r.events)
    | _ => (s, [])
  | .plain client addr raw =>
    let r := handleHttp (env.flagged s.enabled) (s.handler env users) wsHandler client addr bufSize
      raw s.world
    ({ s with world := r.state }, r.events)
  | .close i => ({ s with tunnels := s.closed i }, [])

/-- A run. -/
def run (s : Server ω) : List Action → Server ω × List Event
  | [] => (s, [])
  | a :: as =>
    let p := s.step env users wsHandler bufSize a
    let q := run p.1 as
    (q.1, p.2 ++ q.2)

end Server

end

end HexbufferProxy
