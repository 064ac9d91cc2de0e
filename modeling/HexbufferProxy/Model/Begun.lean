import HexbufferProxy.Model.Server

/-!
# Requests under way (`http_proxy.rs`, `https_proxy.rs`)

A request takes its number from `REQUEST_ID`, and then calls the handlers. These are two steps:
tasks run side by side, so that others may take numbers between them, and show their requests to
the handlers first. An action that takes a number is only its first step here. The request goes on
at any time after that, whatever has become of its connection.
-/

namespace HexbufferProxy

open Rust

/-- A request that has its number, and has not been shown to any handler. -/
structure Begun where
  ctx : HttpContext
  req : Request
  /-- The client of a plain request, or the tunnel of another. -/
  origin : Source ⊕ ℕ

/-- A running proxy, with the requests that have begun. -/
structure Busy (ω : Type) where
  server : Server ω
  begun : List Begun

inductive Move where
  | action (a : Action)
  /-- The `k`-th of the requests that have begun goes on. -/
  | goOn (k : ℕ)

section

variable {ω : Type} (env : Env ω)

namespace Server

/-- The request that an action begins, if it takes a number. -/
def begins (s : Server ω) : Action → Option Begun
  | .request i req =>
    match s.tunnels[i]? with
    | some ⟨host, addr, true⟩ => some ⟨⟨s.world.requestId, host, addr, true⟩, req, .inr i⟩
    | _ => none
  | .plain client addr raw =>
    match parseRawRequest env.http raw with
    | .error _ => none
    | .ok req => (extractHost req raw).map fun host =>
      ⟨⟨s.world.requestId, host, addr, false⟩, req, .inl client⟩
  | _ => none

variable (users : List (UserHandler ω)) (wsHandler : Option (WebSocketHandler ω)) (bufSize : ℕ)

/-- What is left of `handle_http` or of a request of a tunnel. -/
def finish (s : Server ω) (b : Begun) : Server ω × List Event :=
  let env := env.flagged s.enabled
  let handler := proxyHandler env.enabled users
  match b.origin with
  | .inl client =>
    let r := (requestOrFail handler b.ctx b.req >>= answerHttp env handler wsHandler client bufSize
      b.ctx.host (isWebsocketUpgrade env.unicode b.req)) s.world
    ({ s with world := r.state }, r.events)
  | .inr i =>
    let r := (handler.handleRequest b.ctx b.req >>= fun r =>
      answerHttps env handler wsHandler b.ctx.host r >>= sendReply) s.world
    ({ s with
        world := r.state
        tunnels :=
          match r.result with
          | .ok true => s.tunnels
          | _ => s.closed i }, r.events)

end Server

namespace Busy

variable (users : List (UserHandler ω)) (wsHandler : Option (WebSocketHandler ω)) (bufSize : ℕ)

/-- One move: the proxy afterwards, and what it has done. -/
def step (b : Busy ω) : Move → Busy ω × List Event
  | .action a =>
    match b.server.begins env a with
    | some r => (⟨{ b.server with world := b.server.world.numbered }, b.begun ++ [r]⟩, [])
    | none =>
      let p := b.server.step env users wsHandler bufSize a
      (⟨p.1, b.begun⟩, p.2)
  | .goOn k =>
    match b.begun[k]? with
    | none => (b, [])
    | some r =>
      let p := b.server.finish env users wsHandler bufSize r
      (⟨p.1, b.begun.eraseIdx k⟩, p.2)

end Busy

end

end HexbufferProxy
