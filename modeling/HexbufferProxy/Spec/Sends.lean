import HexbufferProxy.Spec.Closing

/-!
# Sends that fail

A message that a relay has accepted goes on, or the handler drops it. When it should go on and the
send fails, it is lost; the sender cannot know.
-/

namespace HexbufferProxy

variable {ω : Type}

/-- What `relay_raw_upgraded` has in the place of a handler. -/
def passOn (ctx : HttpContext) (msg : Message) (_ : Direction) (w : ω) :
    (Option Message × HttpContext) × ω := ((some msg, ctx), w)

/-- The round takes a message. -/
def Takes (r : Relay ω) (t : Direction × Bool) : Prop :=
  r.running = true ∧ ∃ msg rest, r.pending t.1 = .ok msg :: rest

section

variable (frame : HttpContext → Message → Direction → ω → (Option Message × HttpContext) × ω)

/-- What a round has to send: the handler's answer to the message that it takes. -/
def toSend (r : Relay ω) (t : Direction × Bool) : Option Message :=
  match r.running, r.pending t.1 with
  | true, .ok msg :: _ => (frame r.ctx msg t.1 r.ext).1.1
  | _, _ => none

/-- **What is to be sent in direction `d`** of what a relay accepts in these rounds. -/
def accepted (round : Relay ω → Direction × Bool → Relay ω) (d : Direction) :
    Relay ω → List (Direction × Bool) → List Message
  | _, [] => []
  | r, t :: ts =>
    (if t.1 = d then (toSend frame r t).toList else []) ++ accepted round d (round r t) ts

/-- The round has something to send, and the send fails. -/
def SendFails (r : Relay ω) (t : Direction × Bool) : Prop :=
  t.2 = false ∧ (toSend frame r t).isSome

/-- **A relay heeds a send that fails**: from then on it takes nothing more from that sender. So all
that it accepts in a direction is sent there, but for one message. -/
structure Heeds (round : Relay ω → Direction × Bool → Relay ω) (r : Relay ω)
    (ts : List (Direction × Bool)) : Prop where
  stops : ∀ before t between u after, ts = before ++ t :: (between ++ u :: after) →
    SendFails frame (before.foldl round r) t → u.1 = t.1 →
    ¬ Takes ((before ++ t :: between).foldl round r) u
  delivers : ∀ d,
    (accepted frame round d r ts).length ≤ ((ts.foldl round r).sent d).length + 1

/-- **A send fails only for a Close, or for the last message of a stream.** -/
def FailsLast (r : Relay ω) (t : Direction × Bool) : Prop :=
  SendFails frame r t → ∀ msg rest, r.pending t.1 = .ok msg :: rest →
    msg.isClose = true ∨ StreamEnded rest

/-- Every round of a run is such. -/
def FailsLastIn (round : Relay ω → Direction × Bool → Relay ω) (r : Relay ω)
    (ts : List (Direction × Bool)) : Prop :=
  ∀ before t after, ts = before ++ t :: after → FailsLast frame (before.foldl round r) t

/-- **A relay heeds the sends that fail where nothing follows, and no others**: behind any other, the
next round can take a message that it should not. -/
structure HeedsLast (round : Relay ω → Direction × Bool → Relay ω) (r : Relay ω) : Prop where
  heeds : ∀ ts, FailsLastIn frame round r ts → Heeds frame round r ts
  ignores : ∀ ts t ok, ¬ FailsLast frame (ts.foldl round r) t →
    ¬ Heeds frame round r (ts ++ [t, (t.1, ok)])

end

end HexbufferProxy
