import HexbufferProxy.Model.Decoder
import HexbufferProxy.Model.Message
import HexbufferProxy.Rust.Interleave

/-!
# A handler that records the traffic (`examples/test_app`)

The inspector shows what passes through a proxy. It is told of a request and of its response in two
calls, which may be far apart, and has only the number of the context to bring them together again.
What it shares between all connections is behind locks: the history, the channel to the dashboard,
and the requests that have no response yet. Each step below holds one of the locks.
-/

namespace HexbufferProxy

open Rust

namespace HeaderMap

/-- `HeaderMap::insert`: in the place of all values that the name has. -/
def insert : HeaderMap → HeaderName → HeaderValue → HeaderMap
  | [], n, v => [(n, v)]
  | p :: m, n, v => if p.1 = n then (n, v) :: remove m n else p :: insert m n v

end HeaderMap

namespace Uri

/-- `Uri::path`. -/
def path : Uri → Str
  | authority _ => []
  | asterisk => ['*']
  | absolute _ _ pq | origin pq =>
    if splitFirst '?' pq.1 = [] then ['/'] else splitFirst '?' pq.1

/-- `Uri::port_u16`. -/
def portU16 : Uri → Option ℕ
  | absolute _ a _ | authority a => authorityPort a
  | _ => none

end Uri

/-- `Display` for `SocketAddr`. -/
def SocketAddr.display (a : SocketAddr) : Str :=
  let ip := if ':' ∈ a.ip.toList then "[".toList ++ a.ip.toList ++ "]".toList else a.ip.toList
  ip ++ ":".toList ++ displayNat a.port.toNat

/-! ## Records (`models.rs`) -/

structure HeaderEntry where
  name : Str
  value : Str

structure WsFrameEntry where
  id : UInt64
  time : Str
  direction : Str
  opcode : Str
  payload : Str

structure TrafficRecord where
  id : UInt64
  timestamp : Str
  protocol : Str
  method : Str
  url : Str
  status : ℕ
  statusText : Str
  durationMs : ℕ
  clientAddr : Str
  reqHeaders : List HeaderEntry
  resHeaders : List HeaderEntry
  reqBody : Str
  resBody : Str
  shortCircuited : Bool
  wsFrames : List WsFrameEntry

/-! ## Shared state (`handlers.rs`) -/

/-- `{:02}`. -/
def displayTwo (n : ℕ) : Str := if n < 10 then '0' :: displayNat n else displayNat n

/-- `time_now_str`, so many seconds after the epoch. -/
def timeNowStr (secs : ℕ) : Str :=
  displayTwo (secs % 86400 / 3600) ++ ":".toList ++ displayTwo (secs % 86400 % 3600 / 60) ++
    ":".toList ++ displayTwo (secs % 86400 % 60)

/-- What is remembered of a request until its response comes. -/
structure RequestMetadata where
  /-- In milliseconds. -/
  start : ℕ
  reqHeaders : List HeaderEntry
  reqBody : Str

/-- What the handlers of the application share. -/
structure Inspector where
  history : List TrafficRecord
  /-- What has been sent on `tx`. -/
  sent : List TrafficRecord
  reqStart : UInt64 → Option RequestMetadata
  /-- The counter of the WebSocket handler. -/
  counter : UInt64

namespace Inspector

/-- `InspectorHttpHandler::new` and `InspectorWsHandler::new`, on an empty history. -/
def new : Inspector := ⟨[], [], fun _ => none, 1⟩

/-- `record_traffic`, under the lock of the history. -/
def recordTraffic (record : TrafficRecord) (s : Inspector) : Inspector :=
  { s with
    history := (if 100 ≤ s.history.length then s.history.tail else s.history) ++ [record]
    sent := s.sent ++ [record] }

/-- `AppState::clear` (`dashboard.rs`). -/
def clear (s : Inspector) : Inspector := { s with history := [] }

end Inspector

/-! ## Requests and responses -/

/-- What the clocks say during one exchange: `Instant::now()`, in milliseconds, and the time of
day. -/
structure Clocks where
  /-- When `handle_request` begins. -/
  begun : ℕ
  /-- When `handle_response` finds no request. -/
  fallback : ℕ
  /-- When the time of an exchange is taken. -/
  ended : ℕ
  secs : ℕ

def headerEntries (m : HeaderMap) : List HeaderEntry :=
  m.map fun p => ⟨p.1.1, p.2.toStr.getD "<binary>".toList⟩

def bodyText : Body → Str
  | .full bs => fromUtf8Lossy bs
  | .streaming _ => "<streaming>".toList

def interceptedName : HeaderName := ⟨"x-hexbuffer-intercepted".toList, by decide⟩

def processedName : HeaderName := ⟨"x-hexbuffer-response-header".toList, by decide⟩

def originalUriName : HeaderName := ⟨"x-original-uri".toList, by decide⟩

def mockName : HeaderName := ⟨"x-hexbuffer-mock".toList, by decide⟩

def contentTypeName : HeaderName := ⟨"content-type".toList, by decide⟩

/-- A header value of the application. -/
def valueOfText (s : String) (h : (lit s).all isValueByte = true) : HeaderValue := ⟨lit s, h⟩

/-- What marks a response. -/
def processedValue : HeaderValue := valueOfText "processed" (by decide +kernel)

/-- `StatusCode::OK` is a status. -/
theorem ok_inRange : 100 ≤ 200 ∧ 200 < 1000 := by decide

def mockJson : String :=
  "\x7b\"mocked\": true, \"message\": \"Synthetic response generated directly by hexbuffer-proxy " ++
    "without contacting upstream!\", \"status\": \"intercepted_and_short_circuited\"\x7d"

def mockResponse : Response :=
  ⟨⟨200, ok_inRange⟩,
    [(contentTypeName, valueOfText "application/json" (by decide +kernel)),
      (mockName, valueOfText "active" (by decide +kernel))],
    .full (lit mockJson)⟩

def protocolName (ctx : HttpContext) : Str := if ctx.isHttps then "HTTPS".toList else "HTTP".toList

/-- Traffic of the dashboard itself, by the host of the context. -/
def isDashboardHost (ctx : HttpContext) : Bool := contains ":8081".toList ctx.host

/-- Traffic of the dashboard itself, for a request. -/
def isDashboard (ctx : HttpContext) (req : Request) : Bool :=
  isDashboardHost ctx || req.uri.portU16 = some 8081

/-- The request as the handler forwards it. -/
def intercepted (req : Request) : Request :=
  { req with
    headers := req.headers.insert interceptedName (valueOfText "true" (by decide +kernel)) }

def isMockPath (req : Request) : Bool := req.uri.path = "/mock/synthetic-short-circuit".toList

/-- The record of a request that the handler answers. -/
def mockRecord (clocks : Clocks) (ctx : HttpContext) (req : Request) : TrafficRecord where
  id := ctx.id
  timestamp := timeNowStr clocks.secs
  protocol := protocolName ctx
  method := req.method.1
  url := req.uri.display
  status := 200
  statusText := "OK (Synthetic Mock)".toList
  durationMs := clocks.ended - clocks.begun
  clientAddr := ctx.clientAddr.display
  reqHeaders := headerEntries req.headers
  resHeaders := [⟨"Content-Type".toList, "application/json".toList⟩,
    ⟨"X-Hexbuffer-Mock".toList, "active".toList⟩]
  reqBody := bodyText req.body
  resBody := mockJson.toList
  shortCircuited := true
  wsFrames := []

/-- The record of a response, of which this is the head and the body. -/
def responseRecord (http : HttpCrate) (clocks : Clocks) (ctx : HttpContext) (m : RequestMetadata)
    (status : StatusCode) (headers : HeaderMap) (bytes : Bytes) : TrafficRecord where
  id := ctx.id
  timestamp := timeNowStr clocks.secs
  protocol := protocolName ctx
  method := "FORWARD".toList
  url := "http".toList ++ (if ctx.isHttps then "s".toList else []) ++ "://".toList ++ ctx.host ++
    (((headers.get originalUriName).bind HeaderValue.toStr).getD ['/'])
  status := status.1
  statusText := (http.canonicalReason status.1).getD "Unknown".toList
  durationMs := clocks.ended - m.start
  clientAddr := ctx.clientAddr.display
  reqHeaders := m.reqHeaders
  resHeaders := headerEntries headers
  reqBody := m.reqBody
  resBody := fromUtf8Lossy bytes
  shortCircuited := false
  wsFrames := []

/-- What is taken for a request that is not remembered. -/
def RequestMetadata.missing (clocks : Clocks) : RequestMetadata := ⟨clocks.fallback, [], []⟩

/-- The first step of `handle_response`: the request, which is then forgotten. -/
def takeRequest (clocks : Clocks) (ctx : HttpContext) (s : Inspector) :
    RequestMetadata × Inspector :=
  ((s.reqStart ctx.id).getD (.missing clocks),
    { s with reqStart := Function.update s.reqStart ctx.id none })

/-- What it does then: it takes the whole body of the response, and makes a record. -/
def recordResponse (http : HttpCrate) (clocks : Clocks) (ctx : HttpContext) (m : RequestMetadata)
    (res : Response) (s : Inspector) : Except ProxyError Response × Inspector :=
  let headers := res.headers.insert processedName processedValue
  match res.body.intoBytes with
  | .error e => (.error e, s)
  | .ok bytes =>
    (.ok ⟨res.status, headers, .full bytes⟩,
      s.recordTraffic (responseRecord http clocks ctx m res.status headers bytes))

/-- `InspectorHttpHandler`, when the clocks say this. -/
def InspectorHttpHandler (http : HttpCrate) (clocks : Clocks) : UserHandler Inspector where
  handleRequest ctx req s :=
    if isDashboard ctx req then ((.ok (.request req), ctx), s)
    else if isMockPath (intercepted req) then
      ((.ok (.response mockResponse), ctx),
        s.recordTraffic (mockRecord clocks ctx (intercepted req)))
    else
      ((.ok (.request (intercepted req)), ctx),
        { s with
          reqStart := Function.update s.reqStart ctx.id
            (some ⟨clocks.begun, headerEntries (intercepted req).headers,
              bodyText (intercepted req).body⟩) })
  handleResponse ctx res s :=
    if isDashboardHost ctx then ((.ok res, ctx), s)
    else
      let p := takeRequest clocks ctx s
      let q := recordResponse http clocks ctx p.1 res p.2
      ((q.1, ctx), q.2)
  shouldInterceptTls _ s := (true, s)

/-! ## WebSocket frames -/

/-- `{:?}` for a slice of bytes. -/
def debugBytes (bs : Bytes) : Str :=
  "[".toList ++ ", ".toList.intercalate (bs.map fun b => displayNat b.toNat) ++ "]".toList

def directionName : Direction → Str
  | .clientToServer => "Client → Server".toList
  | .serverToClient => "Server → Client".toList

/-- The opcode of a message, and what is shown of it. -/
def describe : Message → Str × Str
  | .text t => ("Text".toList, t)
  | .binary b =>
    ("Binary".toList, displayNat b.length ++ " bytes: ".toList ++ debugBytes (b.take 32))
  | _ => ("Control".toList, "<control frame>".toList)

/-- The record of a frame. As everywhere here, a sum that does not fit panics. -/
def frameRecord (secs : ℕ) (ctx : HttpContext) (msg : Message) (direction : Direction)
    (frameId : UInt64) : Except Fault TrafficRecord :=
  if 2 ^ 64 ≤ ctx.id.toNat + frameId.toNat then .error (.panic "attempt to add with overflow")
  else .ok {
    id := ctx.id + frameId
    timestamp := timeNowStr secs
    protocol := "WS".toList
    method := "FRAME".toList
    url := "ws://".toList ++ ctx.host ++ "/ws".toList
    status := 101
    statusText := "Switching Protocols".toList
    durationMs := 1
    clientAddr := ctx.clientAddr.display
    reqHeaders := []
    resHeaders := []
    reqBody := "[".toList ++ directionName direction ++ "] ".toList ++ (describe msg).2
    resBody := []
    shortCircuited := false
    wsFrames := [⟨frameId, timeNowStr secs, directionName direction, (describe msg).1,
      (describe msg).2⟩] }

/-- `fetch_add` on the counter, which wraps around. -/
def takeFrameId (s : Inspector) : UInt64 × Inspector :=
  (s.counter, { s with counter := s.counter + 1 })

/-- What `on_frame` does with the number that it has taken. -/
def recordFrame (secs : ℕ) (ctx : HttpContext) (msg : Message) (direction : Direction)
    (frameId : UInt64) (s : Inspector) : Except Fault (Option Message × HttpContext) × Inspector :=
  match frameRecord secs ctx msg direction frameId with
  | .error f => (.error f, s)
  | .ok record => (.ok (some msg, ctx), s.recordTraffic record)

/-- `InspectorWsHandler::on_frame`, when the clock says this. -/
def InspectorWsHandler.onFrame (secs : ℕ) (ctx : HttpContext) (msg : Message)
    (direction : Direction) (s : Inspector) :
    Except Fault (Option Message × HttpContext) × Inspector :=
  let p := takeFrameId s
  recordFrame secs ctx msg direction p.1 p.2

/-! ## All connections at once -/

/-- A request that the proxy shows to the handler, and the response that it shows to it later, if
there is one. -/
structure Exchange where
  clocks : Clocks
  ctx : HttpContext
  req : Request
  reply : Option Response

/-- Something that uses the shared state. -/
inductive Inspected where
  | exchange (e : Exchange)
  | frame (secs : ℕ) (ctx : HttpContext) (msg : Message) (direction : Direction)
  | clear

/-- What it does next. -/
inductive Inspect where
  | request (e : Exchange)
  /-- The request has been forwarded. -/
  | response (e : Exchange)
  | record (e : Exchange) (m : RequestMetadata) (res : Response)
  | exchanged (e : Exchange)
  | count (secs : ℕ) (ctx : HttpContext) (msg : Message) (direction : Direction)
  | note (secs : ℕ) (ctx : HttpContext) (msg : Message) (direction : Direction) (frameId : UInt64)
  | noted (secs : ℕ) (ctx : HttpContext) (msg : Message) (direction : Direction) (frameId : UInt64)
  | clear
  | cleared

def inspectStep (http : HttpCrate) (s : Inspector) : Inspect → Inspector × Inspect
  | .request e =>
    match (InspectorHttpHandler http e.clocks).handleRequest e.ctx e.req s with
    | ((.ok (.request _), _), s) => (s, .response e)
    | (_, s) => (s, .exchanged e)
  | .response e =>
    match e.reply with
    | none => (s, .response e)
    | some res =>
      if isDashboardHost e.ctx then (s, .exchanged e)
      else
        let p := takeRequest e.clocks e.ctx s
        (p.2, .record e p.1 res)
  | .record e m res => ((recordResponse http e.clocks e.ctx m res s).2, .exchanged e)
  | .exchanged e => (s, .exchanged e)
  | .count secs ctx msg direction =>
    let p := takeFrameId s
    (p.2, .note secs ctx msg direction p.1)
  | .note secs ctx msg direction frameId =>
    ((recordFrame secs ctx msg direction frameId s).2, .noted secs ctx msg direction frameId)
  | .noted secs ctx msg direction frameId => (s, .noted secs ctx msg direction frameId)
  | .clear => (s.clear, .cleared)
  | .cleared => (s, .cleared)

/-- The handlers of the application, called any number of times, on any connections. -/
def inspector (http : HttpCrate) : Machine Inspector Inspect Inspected where
  start
    | .exchange e => .request e
    | .frame secs ctx msg direction => .count secs ctx msg direction
    | .clear => .clear
  step _ := inspectStep http

end HexbufferProxy
