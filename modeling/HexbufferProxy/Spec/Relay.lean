import HexbufferProxy.Model.Relay

/-!
# What a relay has done

A relay is told by the order in which it has consumed the messages of its two sides. The handler
sees them one by one, in its changing state; what it returns goes on in the same direction.
-/

namespace HexbufferProxy

variable {ω : Type}

/-- A message in transit: where it goes, and what it says. -/
abbrev Transit := Direction × Message

/-- The messages that go in direction `d`. -/
def along (d : Direction) (order : List Transit) : List Message :=
  (order.filter (·.1 = d)).map Prod.snd

section

variable (frame : HttpContext → Message → Direction → ω → (Option Message × HttpContext) × ω)

/-- The context and the handler's state after a message. -/
def after (s : HttpContext × ω) (x : Transit) : HttpContext × ω :=
  ((frame s.1 x.2 x.1 s.2).1.2, (frame s.1 x.2 x.1 s.2).2)

/-- The calls of `on_frame` for messages consumed in this order, with their results. -/
def callbacks : HttpContext × ω → List Transit → List Callback
  | _, [] => []
  | s, x :: xs => .frame x.1 x.2 (frame s.1 x.2 x.1 s.2).1.1 :: callbacks (after frame s x) xs

/-- What a call leaves to send in direction `d`. -/
def Callback.forwarded (d : Direction) : Callback → Option Message
  | .frame d' _ out => if d' = d then out else none
  | .close => none

/-- **What a relay that began as `r₀` has done when it is at `r`**, having consumed the messages
`order`. -/
structure Relayed (r₀ r : Relay ω) (order : List Transit) : Prop where
  /-- Each side's messages have been consumed in order, none left out; an error counts as
  consumed, and is the end. -/
  consumed : ∀ d, ∃ last, r₀.pending d = (along d order).map .ok ++ last ++ r.pending d ∧
    (last = [] ∨ r.running = false ∧ ∃ e, last = [.error e])
  /-- The handler has been asked about each of them once, in that order, and is asked to close
  when the loop ends. -/
  asked : r.log = callbacks frame (r₀.ctx, r₀.ext) order ++ if r.running then [] else [.close]
  /-- What it returned has been sent on, and nothing else. -/
  forwarded : ∀ d,
    r.sent d = (callbacks frame (r₀.ctx, r₀.ext) order).filterMap (Callback.forwarded d)
  /-- The handler's state has passed from call to call. -/
  threaded : r.running = true → (r.ctx, r.ext) = order.foldl (after frame) (r₀.ctx, r₀.ext)
  /-- A Close can only be the last message, and ends the loop. -/
  close_last : ∀ x ∈ order.dropLast, x.2.isClose = false
  close_ends : r.running = true → ∀ x ∈ order, x.2.isClose = false
  /-- The loop has ended for a reason: a Close, the end of a side, or its failure. -/
  ended : r.running = false → (∃ x, order.getLast? = some x ∧ x.2.isClose = true) ∨
    ∃ d, r₀.pending d = (along d order).map .ok ∨
      ∃ e rest, r₀.pending d = (along d order).map .ok ++ .error e :: rest

end

/-- What is promised of a relay, whose rounds are `round`, after any number of rounds in which
sends succeed. A round in the loop takes the first item of the side that is picked. -/
def KeepsOrder (ws : WebSocketHandler ω) (round : Relay ω → Direction × Bool → Relay ω)
    (r₀ : Relay ω) (ts : List (Direction × Bool)) : Prop :=
  (∃ order, Relayed ws.onFrame r₀ (ts.foldl round r₀) order) ∧
  ((ts.foldl round r₀).running = false →
    ∀ more, (ts ++ more).foldl round r₀ = ts.foldl round r₀) ∧
  (∀ t item rest, (ts.foldl round r₀).running = true →
    (ts.foldl round r₀).pending t.1 = item :: rest →
    (round (ts.foldl round r₀) t).pending =
      Function.update (ts.foldl round r₀).pending t.1 rest) ∧
  ∀ t, (round (ts.foldl round r₀) t).running = true →
    ∃ msg rest, (ts.foldl round r₀).pending t.1 = .ok msg :: rest ∧ msg.isClose = false

/-- The two relays are the same to both peers. -/
structure SameToPeers {ω' : Type} (r : Relay ω) (r' : Relay ω') : Prop where
  pending : r.pending = r'.pending
  sent : r.sent = r'.sent
  running : r.running = r'.running
  clientClosed : r.clientClosed = r'.clientClosed

end HexbufferProxy
