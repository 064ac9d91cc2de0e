import HexbufferProxy.Spec.Toggle
import HexbufferProxy.Spec.Upstream

/-!
# What the handlers have agreed to

A handler is asked about a host when a tunnel is opened, and about a request before it goes
anywhere. What a proxy does on its own can only be what they have agreed to; here that is said of
every action of a run, with all that has gone before.
-/

namespace HexbufferProxy

open Rust

variable {ω : Type}

namespace Server

section

variable (env : Env ω) (users : List (UserHandler ω)) (ws : Option (WebSocketHandler ω)) (n : ℕ)

/-- **The proxy has been let into the tunnels of a client to a host**, in a run of these actions
with these events: the client has asked for one, when the flag was true, and every handler has agreed
since. -/
def LetInto (s : Server ω) (actions : List Action) (events : List Event) (host : Str)
    (addr : SocketAddr) : Prop :=
  ∃ before client target after since,
    actions = before ++ .connect client target addr :: after ∧ targetHost target = host ∧
      (s.run env users ws n before).1.enabled = true ∧
      events = (s.run env users ws n before).2 ++ since ∧
      ∀ i < users.length, Event.intercept i host true ∈ since

end

/-- **What an action may contact**, given what it has done before. A CONNECT that is not
intercepted reaches its own target; a request reaches an upstream when all handlers have forwarded
it. -/
def MayContact (n : ℕ) (s : Server ω) (before : List Event) (e : Event) : Action → Prop
  | .connect _ target _ => e = .connect target ∧
      (s.enabled = false ∨ ∃ i < n, Event.intercept i (targetHost target) false ∈ before)
  | .request _ _ | .plain _ _ _ => ∀ i < n, ∃ ctx req, Event.request i ctx req .forward ∈ before
  | _ => False

end Server

/-- An action that may contact an upstream. -/
def Action.asks : Action → Bool
  | .connect .. | .request .. | .plain .. => true
  | _ => false

/-- The handler never agrees to an interception of this host. -/
def UserHandler.Refuses (u : UserHandler ω) (host : Str) : Prop :=
  ∀ w, (u.shouldInterceptTls host w).1 = false

/-- The proxy has looked into a tunnel to this host: it has begun a TLS handshake in its name, or
shown a request from inside to the first handler. -/
def Event.LooksInto (host : Str) (e : Event) : Prop :=
  (∃ client, e = .tlsAccept host client) ∨
    ∃ ctx req d, e = .request 0 ctx req d ∧ ctx.isHttps = true ∧ ctx.host = host

end HexbufferProxy
