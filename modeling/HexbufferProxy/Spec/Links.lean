import HexbufferProxy.Model.Decoder
import HexbufferProxy.Model.Server
import HexbufferProxy.Rust.Runs
import HexbufferProxy.Spec.Upstream

/-!
# What a handler is handed

A handler behind another is handed what that one has made, directly. What comes between the two in
other tasks of the proxy does not count: an event is looked at among those of its own action. A
`DecodeHandler` is a handler like any other: what stands behind it sees decoded messages.
-/

namespace HexbufferProxy

open Rust

variable {ω : Type}

/-- What each action of a run does, by itself. -/
def Server.deeds (env : Env ω) (users : List (UserHandler ω)) (ws : Option (WebSocketHandler ω))
    (n : ℕ) (s : Server ω) (actions : List Action) : List (List Event) :=
  outputs (fun s a => s.step env users ws n a) s actions

variable (users : List (UserHandler ω))

/-- The `i`-th handler has forwarded a request, as `req'`. -/
def Forwarded (i : ℕ) (ctx : HttpContext) (req : Request) (ctx' : HttpContext) (req' : Request) :
    Prop :=
  ∃ u w, users[i]? = some u ∧ (u.handleRequest ctx req w).1 = (.ok (.request req'), ctx')

/-- The `i`-th handler has made `res'` of a response. -/
def Returned (i : ℕ) (ctx : HttpContext) (res : Response) (ctx' : HttpContext) (res' : Response) :
    Prop :=
  ∃ u w, users[i]? = some u ∧ (u.handleResponse ctx res w).1 = (.ok res', ctx')

/-- The `i`-th handler decides so about a request. -/
def Decides (i : ℕ) (ctx : HttpContext) (req : Request) (d : Decision) : Prop :=
  ∃ u w, users[i]? = some u ∧ decision (u.handleRequest ctx req w).1.1 = d

/-- **How an event follows from the one before**: at a handler behind the first, a message is what
the handler before has made of its own; so is a request that leaves the proxy, which may have got
an absolute URI. -/
def Event.FollowsFrom (last : Option Event) : Event → Prop
  | request 0 ctx req d => Decides users 0 ctx req d
  | request (i + 1) ctx req d => Decides users (i + 1) ctx req d ∧
      ∃ ctx₀ req₀, last = some (.request i ctx₀ req₀ .forward) ∧ Forwarded users i ctx₀ req₀ ctx req
  | response (i + 1) ctx res =>
      ∃ ctx₀ res₀, last = some (.response i ctx₀ res₀) ∧ Returned users i ctx₀ res₀ ctx res
  | sendRequest q => ∃ i ctx₀ req₀ ctx req, i + 1 = users.length ∧
      last = some (.request i ctx₀ req₀ .forward) ∧ Forwarded users i ctx₀ req₀ ctx req ∧
      q = { req with uri := q.uri }
  | _ => True

/-- `DecodeHandler`, as a user registers it. -/
def UserHandler.decoder (C : Codecs) : UserHandler ω where
  handleRequest ctx req w := (((decodeRequest C req).map .request, ctx), w)
  handleResponse ctx res w := ((decodeResponse C res, ctx), w)
  shouldInterceptTls _ w := (true, w)

/-- **What the decoder at `j` of `k` handlers does for those behind it**, given what its action has
done before an event. A message that it cannot decode goes no further. -/
structure BehindDecoder (C : Codecs) (j k : ℕ) (before : List Event) (e : Event) : Prop where
  own : ∀ ctx q d, e = .request j ctx q d →
    (d = .forward ∧ ∃ req, decodeRequest C q = .ok req) ∨
      d = .error ∧ ∃ err, decodeRequest C q = .error err
  request : ∀ ctx req d, e = .request (j + 1) ctx req d →
    ∃ pre q, before = pre ++ [.request j ctx q .forward] ∧ decodeRequest C q = .ok req ∧
      shouldDecode req.headers = false
  response : ∀ ctx res, e = .response (j + 1) ctx res →
    ∃ pre r, before = pre ++ [.response j ctx r] ∧ decodeResponse C r = .ok res ∧
      shouldDecode res.headers = false
  send : ∀ q, e = .sendRequest q → j + 1 = k →
    ∃ pre ctx r req, before = pre ++ [.request j ctx r .forward] ∧ decodeRequest C r = .ok req ∧
      q.headers = req.headers ∧ q.body = req.body ∧ shouldDecode q.headers = false

end HexbufferProxy
