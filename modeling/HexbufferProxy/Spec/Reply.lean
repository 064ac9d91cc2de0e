import HexbufferProxy.Spec.Status
import HexbufferProxy.Spec.Upstream

/-!
# The reply to a request, from the upstream to the client

A reply goes through `handle_response` of every handler, in order, and what comes out of the last
one is what the client should see.
-/

namespace HexbufferProxy

open Rust

variable {ω : Type}

/-- The calls of `handle_response` for a response, one handler after the other from number `i` on,
and what comes out: nothing if a handler fails. -/
inductive ResponseCalls :
    List (UserHandler ω) → ℕ → Response → List Event → Option Response → Prop
  | done (i : ℕ) (res : Response) : ResponseCalls [] i res [] (some res)
  | next (u : UserHandler ω) (us : List (UserHandler ω)) (i : ℕ) (ctx : HttpContext)
      (res out : Response) (w : ω) (es : List Event) (final : Option Response)
      (h : (u.handleResponse ctx res w).1.1 = .ok out) (hc : ResponseCalls us (i + 1) out es final) :
      ResponseCalls (u :: us) i res (.response i ctx res :: es) final
  | fail (u : UserHandler ω) (us : List (UserHandler ω)) (i : ℕ) (ctx : HttpContext)
      (res : Response) (w : ω) (e : ProxyError) (h : (u.handleResponse ctx res w).1.1 = .error e) :
      ResponseCalls (u :: us) i res [.response i ctx res] none

namespace Event

/-- A response head goes to the client. -/
def givesHead : Event → Bool
  | toClient _ | reply _ => true
  | _ => false

/-- What the client is given is this response, or begins with its head. -/
def Shows (http : HttpCrate) (out : Response) : Event → Prop
  | toClient bs => serializeResponseHead http out <+: bs
  | reply res => res = out
  | _ => False

end Event

/-- `res` is what an upstream replies that has been asked in these events. -/
def Replied (env : Env ω) (n : ℕ) (es : List Event) (res : Response) : Prop :=
  (∃ q w, Event.sendRequest q ∈ es ∧ (env.sendRequest q w).1 = .ok res) ∨
    ∃ target w, Event.connect target ∈ es ∧
      upstreamReply env.unicode (env.serverStream w) n = .ok res

/-- There is nothing to show to the client: the upstream that has been asked fails, or a handler
does. -/
def Unanswered (env : Env ω) (users : List (UserHandler ω)) (n : ℕ) (es : List Event) : Prop :=
  (es.filter Event.isResponseCall = [] ∧
      ∃ q w f, Event.sendRequest q ∈ es ∧ (env.sendRequest q w).1 = .error f) ∨
    ∃ res, Replied env n es res ∧ ResponseCalls users 0 res (es.filter Event.isResponseCall) none

/-- There is no reply: nobody has been asked, or asking fails. -/
inductive Unreplied (env : Env ω) (n : ℕ) (es : List Event) : Prop
  | unasked (h : ∀ e ∈ es, e.isContact = false)
  | exchange (q : Request) (w : ω) (f : AnyError) (h : Event.sendRequest q ∈ es)
      (hf : (env.sendRequest q w).1 = .error f)
  | connecting (target : Str) (w : ω) (f : IoError) (h : Event.connect target ∈ es)
      (hf : (env.connect target w).1 = .error f)
  | writing (bs : Bytes) (w : ω) (f : IoError) (h : Event.toServer bs ∈ es)
      (hf : (env.serverWrite bs w).1 = .error f)
  | reading (target : Str) (w : ω) (f : Fault) (h : Event.connect target ∈ es)
      (hf : upstreamReply env.unicode (env.serverStream w) n = .error f)

/-- **A reply is shown to every handler once**, one after the other, up to one that fails. Where there
is none, no handler is shown anything. -/
def ShownOnce (env : Env ω) (users : List (UserHandler ω)) (n : ℕ) (es : List Event) : Prop :=
  (Unreplied env n es ∧ es.filter Event.isResponseCall = []) ∨
    ∃ res final, Replied env n es res ∧
      ResponseCalls users 0 res (es.filter Event.isResponseCall) final

/-- **Every handler is shown the upstream's reply, once, before the client is given a head**, and the
head is what they have made of it. Our own 502 stands for a reply that there is not. -/
structure PassesHandlers (env : Env ω) (users : List (UserHandler ω)) (n : ℕ) (es : List Event) :
    Prop where
  once : ShownOnce env users n es
  first : ∀ pre e post, es = pre ++ e :: post → e.givesHead = true →
    (∀ e' ∈ pre, e'.givesHead = false) →
    (∃ res out, Replied env n pre res ∧
        ResponseCalls users 0 res (pre.filter Event.isResponseCall) (some out) ∧
        e.Shows env.http out ∧ ∀ e' ∈ post, e'.isResponseCall = false) ∨
      e.Shows env.http badGateway ∧ Unanswered env users n pre

/-- All handlers forward a request, as `q`. -/
def Forwards (handler : HttpHandler ω) (ctx : HttpContext) (req : Request) (x : World ω)
    (q : Request) : Prop :=
  ∃ ctx', (handler.handleRequest ctx req x).result = .ok (.ok (.request q), ctx')

/-- The proxy accepts this request as an upgrade inside TLS. -/
def AcceptsInside (env : Env ω) (host : Str) (req : Request) : Prop :=
  env.isUpgradeRequest req = true ∧ ∃ q u res, absoluteRequest env "https".toList host req = some q ∧
    q.uri.withScheme "wss".toList = some u ∧ env.upgrade { q with uri := u } = .ok res

end HexbufferProxy
