import HexbufferProxy.Spec.Endpoint

/-!
# The host that handlers are told

`HttpContext.host` is all a handler has to go by if it decides by host. What it should name is the
host that the proxy contacts.
-/

namespace HexbufferProxy

open Rust

variable {ω : Type}

/-- The host that a contact is made with. -/
def Event.contactHost (e : Event) : Option Str := e.endpoint.map Prod.fst

/-- Digits, and the sign that the number parser takes before them. -/
def IsPortText (p : Str) : Prop := ∀ c ∈ p, c.isDigit = true ∨ c = '+'

instance (p : Str) : Decidable (IsPortText p) := inferInstanceAs (Decidable (∀ c ∈ p, _))

/-- `host` is the host `h`, with a port or without. -/
def SameHost (host h : Str) : Prop := host = h ∨ ∃ p, host = h ++ ':' :: p ∧ IsPortText p

/-- `host` is a host, or a host, a colon and a port, and has nothing of any other part of a
URI. -/
def IsHostValue (host : Str) : Prop :=
  (∀ c ∈ host, c ∉ "/?#@".toList) ∧
    (host.drop (Uri.authorityHost host).length = [] ∨
      ∃ p, host.drop (Uri.authorityHost host).length = ':' :: p ∧ IsPortText p)

/-- What is put behind the host is not read as part of it: it is an address in brackets, or has a
port. -/
def EndsItself (host : Str) : Prop := if host.head? = some '[' then ']' ∈ host else ':' ∈ host

/-- **When the front `t` of a target, put behind the host, leaves it alone**: with user information it
names a host of its own; else the host ends itself, or `t` is empty, or a port. -/
def AppendedAgrees (host t : Str) : Prop :=
  if '@' ∈ t then SameHost host (Uri.authorityHost t)
  else IsHostValue host ∧
    (t = [] ∨ EndsItself host ∨ host.head? ≠ some '[' ∧ t.head? = some ':')

/-- **When the target of a request leaves the host alone**: an absolute target names a host of its
own; a path comes behind a host; an authority and the asterisk are put behind the host without
anything in between. -/
def TargetAgrees (host : Str) : Uri → Prop
  | .absolute _ a _ => SameHost host (Uri.authorityHost a)
  | .origin _ => IsHostValue host
  | .authority a => AppendedAgrees host (authorityOf a)
  | .asterisk => IsHostValue host ∧ EndsItself host

/-- When a request on the plain path contacts the host that its handlers see. -/
def PlainAgrees (env : Env ω) (host : Str) (req : Request) : Prop :=
  isWebsocketUpgrade env.unicode req = true ∨ TargetAgrees host req.uri

/-- When a request inside TLS does. -/
def InsideAgrees (env : Env ω) (host : Str) (req : Request) : Prop :=
  if env.isUpgradeRequest req = true then IsHostValue host else TargetAgrees host req.uri

/-- The host that each contact is made with is the host that each handler was told, exactly when
`agrees` has it. -/
def TellsHost (agrees : Str → Request → Prop) (es : List Event) : Prop :=
  ∀ e ∈ es, ∀ h, e.contactHost = some h → ∀ i ctx req d, Event.request i ctx req d ∈ es →
    (SameHost ctx.host h ↔ agrees ctx.host req)

/-- A user's handler that leaves the request and its host alone when it forwards. -/
def UserHandler.Unchanging (u : UserHandler ω) : Prop :=
  ∀ ctx req w q ctx' w', u.handleRequest ctx req w = ((.ok (.request q), ctx'), w') →
    q = req ∧ ctx'.host = ctx.host

end HexbufferProxy
