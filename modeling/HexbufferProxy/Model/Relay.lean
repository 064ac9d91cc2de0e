import HexbufferProxy.Model.Handler

/-!
# WebSocket relays (`ws_proxy.rs`)

`relay_framed` and `relay_upgraded` run one loop: wait for a message of either side, let the handler
have it, forward what it returns, and leave after a Close, or when a side ends or fails.
`relay_raw_upgraded` does so without a handler. `Relay` is the state between two rounds of the loop.
A round takes the side that `select!` picks and whether the forwarding send succeeds; the loop itself
looks at neither the other side nor the outcome of the send.

A side that is not picked loses nothing: its stream is as it was.
-/

namespace HexbufferProxy

/-- What a WebSocket stream yields until it ends. -/
abbrev Item := Except String Message

/-- What the handler of a relay is asked. -/
inductive Callback where
  /-- `on_frame`, for a message going in direction `d`, and what it returned. -/
  | frame (d : Direction) (msg : Message) (out : Option Message)
  /-- `on_close`. -/
  | close
deriving DecidableEq

structure Relay (ω : Type) where
  /-- The handler's own state, and the context it is shown. -/
  ext : ω
  ctx : HttpContext
  /-- What the sender of a direction still has to say. -/
  pending : Direction → List Item
  /-- What has been sent to the receiver of a direction. -/
  sent : Direction → List Message
  log : List Callback
  /-- Still in the loop. -/
  running : Bool
  /-- `client_ws.close(None)` has been called. -/
  clientClosed : Bool

variable {ω : Type}

namespace Relay

def start (ext : ω) (ctx : HttpContext) (client server : List Item) : Relay ω where
  ext := ext
  ctx := ctx
  pending
    | .clientToServer => client
    | .serverToClient => server
  sent _ := []
  log := []
  running := true
  clientClosed := false

/-- `on_frame` is asked about the first message of a side. What it returns, if anything, is sent
on; a send that fails leaves nothing behind. -/
def onFrame (frame : HttpContext → Message → Direction → ω → (Option Message × HttpContext) × ω)
    (r : Relay ω) (d : Direction) (ok : Bool) (msg : Message) (rest : List Item) : Relay ω :=
  let a := frame r.ctx msg d r.ext
  { r with
    ext := a.2
    ctx := a.1.2
    pending := Function.update r.pending d rest
    sent := Function.update r.sent d (r.sent d ++ if ok then a.1.1.toList else [])
    log := r.log ++ [.frame d msg a.1.1] }

/-- One round of the loop, when `select!` picks the sender of direction `t.1`. `leave` is what
stands behind the loop. -/
def turn (frame : HttpContext → Message → Direction → ω → (Option Message × HttpContext) × ω)
    (leave : Relay ω → Relay ω) (r : Relay ω) (t : Direction × Bool) : Relay ω :=
  if r.running then
    match r.pending t.1 with
    | .ok msg :: rest =>
      let r := onFrame frame r t.1 t.2 msg rest
      if msg.isClose then leave r else r
    | .error _ :: rest => leave { r with pending := Function.update r.pending t.1 rest }
    | [] => leave r
  else r

/-- `handler.on_close(ctx).await`, behind the loop. -/
def onClose (ws : WebSocketHandler ω) (r : Relay ω) : Relay ω :=
  let a := ws.onClose r.ctx r.ext
  { r with ext := a.2, ctx := a.1, log := r.log ++ [.close], running := false }

end Relay

/-- A round of `relay_framed`. -/
def relayFramed (ws : WebSocketHandler ω) : Relay ω → Direction × Bool → Relay ω :=
  Relay.turn ws.onFrame fun r => { Relay.onClose ws r with clientClosed := true }

/-- A round of `relay_upgraded`. -/
def relayUpgraded (ws : WebSocketHandler ω) : Relay ω → Direction × Bool → Relay ω :=
  Relay.turn ws.onFrame (Relay.onClose ws)

/-- A round of `relay_raw_upgraded`, which forwards every message as it is, and has no handler. -/
def relayRawUpgraded (r : Relay ω) (t : Direction × Bool) : Relay ω :=
  if r.running then
    match r.pending t.1 with
    | .ok msg :: rest =>
      let r := { r with
        pending := Function.update r.pending t.1 rest
        sent := Function.update r.sent t.1 (r.sent t.1 ++ if t.2 then [msg] else []) }
      if msg.isClose then { r with running := false } else r
    | .error _ :: rest => { r with pending := Function.update r.pending t.1 rest, running := false }
    | [] => { r with running := false }
  else r

end HexbufferProxy
