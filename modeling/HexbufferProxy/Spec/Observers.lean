import HexbufferProxy.Model.Server
import HexbufferProxy.Rust.Mirrors

/-!
# Handlers that only look on

An observer lets everything pass as it is, and leaves the world as it is: what it writes down goes
into a state `τ` of its own, which nothing else reads. Observers may stand anywhere between the
other handlers of a proxy. What should be seen of the proxy then, by its clients, its upstreams and
the other handlers, is what would be seen without them.
-/

namespace HexbufferProxy

open Rust Rust.Proc

variable {ω α : Type} (τ : Type)

/-- The same, with the state of the observers beside the world. -/
def beside (f : ω → α × ω) : ω × τ → α × (ω × τ) := fun w => ((f w.1).1, (f w.1).2, w.2)

def UserHandler.beside (u : UserHandler ω) : UserHandler (ω × τ) where
  handleRequest ctx req := HexbufferProxy.beside τ (u.handleRequest ctx req)
  handleResponse ctx res := HexbufferProxy.beside τ (u.handleResponse ctx res)
  shouldInterceptTls host := HexbufferProxy.beside τ (u.shouldInterceptTls host)

def WebSocketHandler.beside (ws : WebSocketHandler ω) : WebSocketHandler (ω × τ) where
  onUpgrade ctx req := HexbufferProxy.beside τ (ws.onUpgrade ctx req)
  onFrame ctx msg d := HexbufferProxy.beside τ (ws.onFrame ctx msg d)
  onClose ctx w := ((ws.onClose ctx w.1).1, (ws.onClose ctx w.1).2, w.2)

def Env.beside (env : Env ω) : Env (ω × τ) where
  http := env.http
  unicode := env.unicode
  enabled w := env.enabled w.1
  clientWrite bs := HexbufferProxy.beside τ (env.clientWrite bs)
  clientShutdown := HexbufferProxy.beside τ env.clientShutdown
  connect target := HexbufferProxy.beside τ (env.connect target)
  serverWrite bs := HexbufferProxy.beside τ (env.serverWrite bs)
  serverStream w := env.serverStream w.1
  sendRequest req := HexbufferProxy.beside τ (env.sendRequest req)
  forgeCertificate host := HexbufferProxy.beside τ (env.forgeCertificate host)
  tlsAccept cert client := HexbufferProxy.beside τ (env.tlsAccept cert client)
  isUpgradeRequest := env.isUpgradeRequest
  upgrade := env.upgrade
  upgraded := HexbufferProxy.beside τ env.upgraded
  generateKey := HexbufferProxy.beside τ env.generateKey
  wsConnect req := HexbufferProxy.beside τ (env.wsConnect req)

variable {τ}

/-- **The handler only looks on**: it forwards what it is given, with the context it is given, has
nothing against interception, and changes nothing but its own state. -/
structure UserHandler.Observes (o : UserHandler (ω × τ)) : Prop where
  request : ∀ ctx req w, (o.handleRequest ctx req w).1 = (.ok (.request req), ctx) ∧
    (o.handleRequest ctx req w).2.1 = w.1
  response : ∀ ctx res w, (o.handleResponse ctx res w).1 = (.ok res, ctx) ∧
    (o.handleResponse ctx res w).2.1 = w.1
  intercept : ∀ host w, (o.shouldInterceptTls host w).1 = true ∧
    (o.shouldInterceptTls host w).2.1 = w.1

/-- A place in the list of handlers: for one that may do anything, or for an observer. -/
inductive Slot (ω τ : Type) where
  | user (u : UserHandler ω)
  | observer (o : {o : UserHandler (ω × τ) // o.Observes})

namespace Slot

/-- The handler in the place. -/
def handler : Slot ω τ → UserHandler (ω × τ)
  | user u => u.beside τ
  | observer o => o.1

/-- The handler that would be in the place without the observers. -/
def user? : Slot ω τ → Option (UserHandler ω)
  | user u => some u
  | observer _ => none

def isUser : Slot ω τ → Bool
  | user _ => true
  | observer _ => false

/-- The number that the handler in place `i` would have without the observers. -/
def number? (slots : List (Slot ω τ)) (i : ℕ) : Option ℕ :=
  match slots[i]? with
  | some (user _) => some ((slots.take i).countP isUser)
  | _ => none

end Slot

/-- What is left of an event for those who do not know of the observers. -/
def Event.seen (slots : List (Slot ω τ)) : Event → List Event
  | .request i ctx req d => ((Slot.number? slots i).map fun j => request j ctx req d).toList
  | .response i ctx res => ((Slot.number? slots i).map fun j => response j ctx res).toList
  | .intercept i host answer =>
    ((Slot.number? slots i).map fun j => intercept j host answer).toList
  | e => [e]

def World.bare (x : World (ω × τ)) : World ω := ⟨x.ext.1, x.requestId⟩

/-- A running proxy, without the state of the observers. -/
def Server.bare (s : Server (ω × τ)) : Server ω := ⟨s.enabled, s.world.bare, s.tunnels⟩

/-- The procedure with the observers does what it would do without them. -/
def Unnoticed {β : Type} (slots : List (Slot ω τ)) (m' : P (ω × τ) β) (m : P ω β) : Prop :=
  Mirrors World.bare (Event.seen slots) m' m Eq

end HexbufferProxy
