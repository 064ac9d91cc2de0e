import HexbufferProxy.Spec.Reader
import HexbufferProxy.Spec.Reply

/-!
# The two stages of the plain path

`handle_http` first finds out what to answer (`prepare`): it parses the request, asks the handlers,
and gets the upstream's reply through them. Then it writes to the client (`deliver`). Everything
that may fail on the far side fails in the first stage, but for a response body that is streamed.
-/

namespace HexbufferProxy

open Rust

variable {ω : Type} (env : Env ω)

/-- What `handle_http` has for the client. -/
inductive Prepared where
  /-- The request has no host. -/
  | noHost
  /-- A handler answers by itself. -/
  | own (res : Response)
  /-- The upstream's reply, as the handlers have made it. -/
  | reply (res : Response)
  /-- The upstream's reply to an upgrade, and the two streams. -/
  | upgrade (res : Response) (ctx : HttpContext) (server : Source)

/-- The exchange of the normal branch, up to the handlers' response. -/
def prepareRequest (handler : HttpHandler ω) (ctx : HttpContext) (host : Str) (req : Request) :
    P ω Prepared :=
  match absoluteRequest env "http".toList host req with
  | none => Proc.fail (.error (.msg "invalid absolute URI"))
  | some req => do
    let r ← sendRequest env req
    let response ← Proc.lift (r.mapError .error)
    let (modified, _) ← responseOrFail handler ctx response
    pure (.reply modified)

/-- The exchange of the upgrade branch, up to the handlers' response. -/
def prepareUpgrade (handler : HttpHandler ω) (bufSize : ℕ) (ctx : HttpContext) (host : Str)
    (req : Request) : P ω Prepared := do
  connectServer env (upgradeTarget host)
  writeServer env (serializeRequest req)
  let server ← external fun w => (env.serverStream w, w)
  let fullResponse ← Proc.lift (readFullResponse env.unicode server bufSize).1
  let response ← Proc.lift (parseRawResponse fullResponse)
  let (modified, ctx) ← responseOrFail handler ctx response
  pure (.upgrade modified ctx (readFullResponse env.unicode server bufSize).2)

/-- What follows on the handlers' answer. -/
def prepareAnswer (handler : HttpHandler ω) (bufSize : ℕ) (host : Str) (isWs : Bool) :
    RequestOrResponse × HttpContext → P ω Prepared
  | (.response res, _) => pure (.own res)
  | (.request req, ctx) =>
    if isWs then prepareUpgrade env handler bufSize ctx host req
    else prepareRequest env handler ctx host req

/-- **The first stage.** -/
def prepare (handler : HttpHandler ω) (clientAddr : SocketAddr) (bufSize : ℕ)
    (requestBytes : Bytes) : P ω Prepared := do
  let request ← Proc.lift (parseRawRequest env.http requestBytes)
  match extractHost request requestBytes with
  | none => pure .noHost
  | some host => do
    let id ← nextRequestId
    let r ← requestOrFail handler ⟨id, host, clientAddr, false⟩ request
    prepareAnswer env handler bufSize host (isWebsocketUpgrade env.unicode request) r

/-- **The second stage.** -/
def deliver (wsHandler : Option (WebSocketHandler ω)) (client : Source) : Prepared → P ω Unit
  | .noHost => do
    writeClient env badRequest
    shutdownClient env
  | .own res => do
    writeClient env (serializeResponse env.http res)
    shutdownClient env
  | .reply res => forwardResponse env res
  | .upgrade res ctx server => do
    writeClient env (serializeResponse env.http res)
    if isWebsocketResponse res then Proc.emit (.relay wsHandler.isSome ctx client server)
    else shutdownClient env

/-- The response that is written to the client, and comes from an upstream. -/
def Prepared.upstream? : Prepared → Option Response
  | reply res | upgrade res _ _ => some res
  | _ => none

/-- What is written with `serialize_response`: a handler's own response, and the reply to an
upgrade. -/
def Prepared.serialized? : Prepared → Option Response
  | own res | upgrade res _ _ => some res
  | _ => none

/-- No byte of the body comes in a frame. -/
def Body.NothingStreams : Body → Prop
  | full _ => True
  | streaming frames => ∀ bs, .ok (.data bs) ∈ frames → bs = []

/-- The client's end takes all that is written to it. -/
structure Env.ClientTakes (env : Env ω) : Prop where
  write : ∀ bs w, (env.clientWrite bs w).1 = .ok ()
  shutdown : ∀ w, (env.clientShutdown w).1 = .ok ()

/-- **The client has received a complete HTTP error response**, and nothing else. -/
def ErrorReceived (bytes : Bytes) : Prop :=
  ∃ code body, 400 ≤ code ∧ code < 600 ∧ ReadsReply bytes code body

/-- The frames of a body break off with an error, behind these data. -/
inductive BreaksOff : List (Except String Frame) → Bytes → Prop
  | here (e : String) (fs : List (Except String Frame)) : BreaksOff (.error e :: fs) []
  | data (bs b : Bytes) (fs : List (Except String Frame)) (h : BreaksOff fs b) :
      BreaksOff (.ok (.data bs) :: fs) (bs ++ b)
  | trailers (m : HeaderMap) (b : Bytes) (fs : List (Except String Frame)) (h : BreaksOff fs b) :
      BreaksOff (.ok (.trailers m) :: fs) b

end HexbufferProxy
