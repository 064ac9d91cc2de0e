import HexbufferProxy.Model.Server

/-!
# What disabling a proxy should do

`Proxy::set_enabled` switches interception off and on at runtime, on all connections: while the flag
is false, no request is decrypted and shown to the handlers.
-/

namespace HexbufferProxy

open Rust

variable {ω : Type}

/-- The first handler is shown a request that has come through TLS. -/
def Event.Decrypted (e : Event) : Prop :=
  ∃ ctx req d, e = .request 0 ctx req d ∧ ctx.isHttps = true

namespace Server

section

variable (env : Env ω) (users : List (UserHandler ω)) (wsHandler : Option (WebSocketHandler ω))
  (bufSize : ℕ)

/-- **While the flag is false, nothing is decrypted for the handlers.** -/
def HonoursFlag (s : Server ω) (a : Action) : Prop :=
  s.enabled = false → ∀ e ∈ (s.step env users wsHandler bufSize a).2, ¬ e.Decrypted

/-- Something holds of every action of a run, in the state that it finds. -/
def Always (p : Server ω → Action → Prop) (s : Server ω) : List Action → Prop
  | [] => True
  | a :: as => p s a ∧ Always p (s.step env users wsHandler bufSize a).1 as

end

/-- No request arrives, while the flag is false, on a tunnel that the proxy has taken for itself
and that is still open. -/
def NoLateRequest (s : Server ω) (a : Action) : Prop :=
  s.enabled = false → ∀ i req, a = .request i req → ∀ t, s.tunnels[i]? = some t → t.live = false

/-- All tunnels are closed. -/
def AllClosed (s : Server ω) : Prop := ∀ t ∈ s.tunnels, t.live = false

end Server

end HexbufferProxy
