import HexbufferProxy.Spec.Relay

/-!
# Closing without loss

Each peer ends its messages with a Close of its own. A relay that waits for both can deliver what
either has said before its Close, also what was on its way when the other's arrived.
-/

namespace HexbufferProxy

variable {ω : Type}

/-- A handler that returns every frame unchanged. -/
def WebSocketHandler.Unchanging (ws : WebSocketHandler ω) : Prop :=
  ∀ ctx msg d w, (ws.onFrame ctx msg d w).1.1 = some msg

/-- The stream has ended, or fails. -/
def StreamEnded : List Item → Prop
  | [] => True
  | .error _ :: _ => True
  | .ok _ :: _ => False

/-- What a peer says before its own Close, as far as its stream goes. -/
def beforeClose : List Item → List Message
  | .ok msg :: items => if msg.isClose then [] else msg :: beforeClose items
  | _ => []

/-- The next message is a Close. -/
def ClosesNext : List Item → Prop
  | .ok msg :: _ => msg.isClose = true
  | _ => False

section

variable (round : Relay ω → Direction × Bool → Relay ω)

/-- The loop has found a stream that has ended. -/
def FindsEnd : Relay ω → List (Direction × Bool) → Prop
  | _, [] => False
  | r, t :: ts => r.running = true ∧ StreamEnded (r.pending t.1) ∨ FindsEnd (round r t) ts

/-- **Closing loses no data**: when the relay from `r` has ended, all that either peer had to say
before its own Close has been forwarded; and it has ended only after a Close was relayed in each
direction or a stream had ended. -/
def ClosesCleanly (r : Relay ω) (ts : List (Direction × Bool)) : Prop :=
  (ts.foldl round r).running = false →
    (∀ d, beforeClose (r.pending d) <+: (ts.foldl round r).sent d) ∧
    ((∀ d, ∃ msg ∈ (ts.foldl round r).sent d, msg.isClose = true) ∨ FindsEnd round r ts)

/-- **No round of the loop takes a Close, and one that finds the end of a stream leaves nothing
behind** that comes before a Close. -/
def Harmless : Relay ω → List (Direction × Bool) → Prop
  | _, [] => True
  | r, t :: ts =>
    (r.running = true → ¬ ClosesNext (r.pending t.1) ∧
      (StreamEnded (r.pending t.1) → ∀ d, beforeClose (r.pending d) = [])) ∧
    Harmless (round r t) ts

end

end HexbufferProxy
