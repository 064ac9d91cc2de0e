import HexbufferProxy.Model.Relay
import HexbufferProxy.Model.Tunnel
import HexbufferProxy.Rust.Progress

/-!
# How long tunnels and relays go on

A byte of a tunnel moves three times: its sender sends it, the copy loop reads it and writes it. A
direction ends twice: its sender closes its side, and the copy loop returns. A relay takes one
message, or one end, in each round. All of that can be counted.
-/

namespace HexbufferProxy

open Rust

/-- How many moves a direction has left. -/
def Pipe.left (p : Pipe) : ℕ :=
  3 * p.unsent.length + 2 * p.arrived.length + p.buf.length + (if p.fin then 0 else 1) +
    (if p.done then 0 else 1)

def Tunnel.left (t : Tunnel) : ℕ :=
  (t.pipe .clientToServer).left + (t.pipe .serverToClient).left

/-- The tunnel is over when its copy loops say so. -/
def Tunnel.Ongoing (ends : (Direction → Bool) → Bool) (t : Tunnel) : Prop :=
  t.status ≠ .failed ∧ (t.status = .running → (ends fun d => (t.pipe d).done) = false)

/-- How many rounds a relay has left. -/
def Relay.left {ω : Type} (r : Relay ω) : ℕ :=
  if r.running then
    (r.pending .clientToServer).length + (r.pending .serverToClient).length + 1
  else 0

/-- The message that `on_frame` is called for, if it goes in direction `d`. -/
def Callback.askedIn (d : Direction) : Callback → Option Message
  | .frame d' msg _ => if d' = d then some msg else none
  | .close => none

/-- **What the handler of a relay has been asked**, of streams that began with `items`: in each
direction for one message after the other, as they stand there, and to close once, at last. -/
structure Relay.Accounts {ω : Type} (items : Direction → List Item) (r : Relay ω) : Prop where
  inLoop : r.running = true → Callback.close ∉ r.log ∧
    ∀ d, items d = (r.log.filterMap (Callback.askedIn d)).map .ok ++ r.pending d
  behind : r.running = false → ∃ frames, r.log = frames ++ [.close] ∧ Callback.close ∉ frames ∧
    ∀ d, (frames.filterMap (Callback.askedIn d)).map .ok <+: items d

end HexbufferProxy
