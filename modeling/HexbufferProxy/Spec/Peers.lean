import HexbufferProxy.Spec.Closing

/-!
# What the two peers of a relay see

A peer sees the messages that are sent to it, and whether the relay still reads what it says. Two
relays that are the same to both peers differ in nothing else that matters outside. A relay that
ends while the stream of a peer is open should have sent it a Close.
-/

namespace HexbufferProxy

variable {ω : Type}

/-- **What a relay can deliver to client and server** in the runs that end, over all orders of its
rounds and all ways for sends to fail. -/
def deliveries (round : Relay ω → Direction × Bool → Relay ω) (r : Relay ω) :
    Set (List Message × List Message) :=
  {p | ∃ ts : List (Direction × Bool), (ts.foldl round r).running = false ∧
    p = ((ts.foldl round r).sent .serverToClient, (ts.foldl round r).sent .clientToServer)}

/-- The other way. -/
def Direction.back : Direction → Direction
  | clientToServer => serverToClient
  | serverToClient => clientToServer

/-- The receiver of direction `d` has been sent a Close. -/
def SentClose (r : Relay ω) (d : Direction) : Prop :=
  (∃ msg ∈ r.sent d, msg.isClose = true) ∨ d = .serverToClient ∧ r.clientClosed = true

/-- **In the round `t` behind the rounds `ts`, the relay ends**: the sender of direction `t.1` has
closed, ended or failed, and the stream of the other peer is still open. -/
structure EndsAgainst (round : Relay ω → Direction × Bool → Relay ω) (r : Relay ω)
    (ts : List (Direction × Bool)) (t : Direction × Bool) : Prop where
  running : (ts.foldl round r).running = true
  ended : (round (ts.foldl round r) t).running = false
  still_open : ¬ StreamEnded ((round (ts.foldl round r) t).pending t.1.back)

section

variable (frame : HttpContext → Message → Direction → ω → (Option Message × HttpContext) × ω)

/-- The handler gives a Close for `msg`, and it can be sent. -/
def ForwardsClose (ctx : HttpContext) (msg : Message) (t : Direction × Bool) (w : ω) : Prop :=
  t.2 = true ∧ ∃ out, (frame ctx msg t.1 w).1.1 = some out ∧ out.isClose = true

/-- **One of the messages that are taken gives a Close in direction `d`**: the handler is shown
what the peers say, in the order of the rounds, up to the first Close or the first stream to end. -/
def ForwardsCloseIn (d : Direction) :
    (Direction → List Item) → HttpContext → ω → List (Direction × Bool) → Prop
  | _, _, _, [] => False
  | pending, ctx, w, t :: ts =>
    match pending t.1 with
    | .ok msg :: rest => t.1 = d ∧ ForwardsClose frame ctx msg t w ∨
      msg.isClose = false ∧ ForwardsCloseIn d (Function.update pending t.1 rest)
        (frame ctx msg t.1 w).1.2 (frame ctx msg t.1 w).2 ts
    | _ => False

end

end HexbufferProxy
