import HexbufferProxy.Model.Builder
import HexbufferProxy.Spec.Reply

/-!
# Handlers in the order of their registration

`passRequest` and `passResponse` are what a list of handlers makes of a message, as a function of
the context and of the handlers' state: one handler after the other, each given what the one before
it has left. `inOrder` is the handler that does this, and says whom it asks.
-/

namespace HexbufferProxy

open Rust

variable {ω Ca : Type}

/-- The handler a call registers. -/
def BuilderCall.handler? : BuilderCall ω Ca → Option (HttpHandler ω)
  | .withHttpHandler h | .addHttpHandler h => some h
  | _ => none

/-- The call makes the builder forget its handlers. -/
def BuilderCall.replaces : BuilderCall ω Ca → Bool
  | .withHttpHandler _ => true
  | _ => false

/-- **The handlers registered since the last `with_http_handler`**, with its own. -/
def registered : List (BuilderCall ω Ca) → List (HttpHandler ω)
  | [] => []
  | c :: cs =>
    if cs.any BuilderCall.replaces then registered cs
    else (c :: cs).filterMap BuilderCall.handler?

/-- What the handlers make of a request, up to the first that does not forward it. -/
def passRequest : List (UserHandler ω) → HttpContext → Request → ω →
    (Except ProxyError RequestOrResponse × HttpContext) × ω
  | [], ctx, req, w => ((.ok (.request req), ctx), w)
  | u :: us, ctx, req, w =>
    match u.handleRequest ctx req w with
    | ((.ok (.request req), ctx), w) => passRequest us ctx req w
    | r => r

/-- What the handlers make of a response, up to the first that fails. -/
def passResponse : List (UserHandler ω) → HttpContext → Response → ω →
    (Except ProxyError Response × HttpContext) × ω
  | [], ctx, res, w => ((.ok res, ctx), w)
  | u :: us, ctx, res, w =>
    match u.handleResponse ctx res w with
    | ((.ok res, ctx), w) => passResponse us ctx res w
    | r => r

/-- The calls of `handle_request` on the way, the first of them on handler `i`. -/
def requestCalls : List (UserHandler ω) → ℕ → HttpContext → Request → ω → List Event
  | [], _, _, _, _ => []
  | u :: us, i, ctx, req, w =>
    .request i ctx req (decision (u.handleRequest ctx req w).1.1) ::
      match u.handleRequest ctx req w with
      | ((.ok (.request req), ctx), w) => requestCalls us (i + 1) ctx req w
      | _ => []

/-- The calls of `handle_response` on the way, the first of them on handler `i`. -/
def responseCalls : List (UserHandler ω) → ℕ → HttpContext → Response → ω → List Event
  | [], _, _, _, _ => []
  | u :: us, i, ctx, res, w =>
    .response i ctx res ::
      match u.handleResponse ctx res w with
      | ((.ok res, ctx), w) => responseCalls us (i + 1) ctx res w
      | _ => []

/-- **The handlers one after the other**, for requests and for responses. -/
def inOrder (enabled : ω → Bool) (users : List (UserHandler ω)) : HttpHandler ω where
  handleRequest ctx req x :=
    ⟨.ok (passRequest users ctx req x.ext).1,
      { x with ext := (passRequest users ctx req x.ext).2 }, requestCalls users 0 ctx req x.ext⟩
  handleResponse ctx res x :=
    ⟨.ok (passResponse users ctx res x.ext).1,
      { x with ext := (passResponse users ctx res x.ext).2 }, responseCalls users 0 ctx res x.ext⟩
  shouldInterceptTls := (proxyHandler enabled users).shouldInterceptTls

/-- The handlers, in order, make `out` of `res`. -/
def PassesAs (users : List (UserHandler ω)) (res out : Response) : Prop :=
  ∃ ctx w, (passResponse users ctx res w).1.1 = .ok out

/-- **Once an upstream has been contacted, the first head that the client is given is as `P` says**,
after what has happened before it. -/
def FirstHead (P : List Event → Event → Prop) (es : List Event) : Prop :=
  ∀ pre e post, es = pre ++ e :: post → e.givesHead = true →
    (∀ e' ∈ pre, e'.givesHead = false) → (∃ c ∈ pre, c.isContact = true) → P pre e

/-- **The head shows what the handlers, in order, have made of the upstream's reply.** -/
def ShowsInOrder (env : Env ω) (users : List (UserHandler ω)) (n : ℕ) (pre : List Event)
    (e : Event) : Prop :=
  ∃ res out, Replied env n pre res ∧ PassesAs users res out ∧ e.Shows env.http out

/-- Inside TLS it may also be our own 502. -/
def ShowsInOrderTls (env : Env ω) (users : List (UserHandler ω)) (n : ℕ) (pre : List Event)
    (e : Event) : Prop :=
  ShowsInOrder env users n pre e ∨ e.Shows env.http badGateway ∧ Unanswered env users n pre

end HexbufferProxy
