import HexbufferProxy.Model.Handler
import HexbufferProxy.Model.Read

/-!
# Serving a client (`proxy.rs`, `http_proxy.rs`, `https_proxy.rs`, `ws_proxy.rs`)

`handle_client` and everything it calls up to the point where a relay or a tunnel takes the two
streams over: those are state machines of their own (`Model.Tunnel`, `Model.Relay`). Sockets,
the pooled client, the TLS acceptor and the WebSocket library are the environment's.
-/

namespace HexbufferProxy

open Rust

/-- What the proxy runs on. Each operation may look at the outside world and change it. -/
structure Env (ω : Type) where
  http : HttpCrate
  unicode : Unicode
  /-- The flag that `Proxy::set_enabled` writes. -/
  enabled : ω → Bool
  clientWrite : Bytes → ω → Except IoError Unit × ω
  clientShutdown : ω → Except IoError Unit × ω
  connect : Str → ω → Except IoError Unit × ω
  serverWrite : Bytes → ω → Except IoError Unit × ω
  /-- All that the connected server will send from now on. -/
  serverStream : ω → Source
  /-- `CLIENT.call`. -/
  sendRequest : Request → ω → Except AnyError Response × ω
  /-- `CertificationAuthority::forge_certificate`. -/
  forgeCertificate : Str → ω → Except Fault (Bytes × Bytes) × ω
  /-- The TLS handshake with the client under the forged certificate, and the requests that the
  HTTP server then decodes from the tunnel. -/
  tlsAccept : Bytes × Bytes → Source → ω → Except AnyError (List Request) × ω
  /-- `hyper_tungstenite::is_upgrade_request`. -/
  isUpgradeRequest : Request → Bool
  /-- The response of `hyper_tungstenite::upgrade`. -/
  upgrade : Request → Except AnyError Response
  /-- `ws_fut.await`. -/
  upgraded : ω → Except AnyError Unit × ω
  generateKey : ω → Str × ω
  /-- `connect_async_tls_with_config`. -/
  wsConnect : Request → ω → Except AnyError Unit × ω

/-- An environment in which everything succeeds: one upstream, which sends `server` to those who
connect and `reply` to those who ask, and a client that sends `requests` inside TLS. -/
def Env.basic {ω : Type} (enabled : ω → Bool) (server : Source) (reply : Response)
    (requests : List Request) : Env ω where
  http := HttpCrate.basic
  unicode := Unicode.basic
  enabled := enabled
  clientWrite _ w := (.ok (), w)
  clientShutdown w := (.ok (), w)
  connect _ w := (.ok (), w)
  serverWrite _ w := (.ok (), w)
  serverStream _ := server
  sendRequest _ w := (.ok reply, w)
  forgeCertificate _ w := (.ok ([], []), w)
  tlsAccept _ _ w := (.ok requests, w)
  isUpgradeRequest _ := false
  upgrade _ := .ok reply
  upgraded w := (.ok (), w)
  generateKey w := ("AAAAAAAAAAAAAAAAAAAAAA==".toList, w)
  wsConnect _ w := (.ok (), w)

section

variable {ω : Type} (env : Env ω)

/-- `client_stream.write_all(bs).await?`. -/
def writeClient (bs : Bytes) : P ω Unit := do
  Proc.emit (.toClient bs)
  let r ← external (env.clientWrite bs)
  Proc.lift (r.mapError fun e => .error (.io e))

/-- `client_stream.shutdown().await?`. -/
def shutdownClient : P ω Unit := do
  Proc.emit .shutdownClient
  let r ← external env.clientShutdown
  Proc.lift (r.mapError fun e => .error (.io e))

/-- `TcpStream::connect(target).await?`. -/
def connectServer (target : Str) : P ω Unit := do
  Proc.emit (.connect target)
  let r ← external (env.connect target)
  Proc.lift (r.mapError fun e => .error (.io e))

/-- `server_stream.write_all(bs).await?`. -/
def writeServer (bs : Bytes) : P ω Unit := do
  Proc.emit (.toServer bs)
  let r ← external (env.serverWrite bs)
  Proc.lift (r.mapError fun e => .error (.io e))

/-- `upstream::send_request`. -/
def sendRequest (req : Request) : P ω (Except AnyError Response) := do
  Proc.emit (.sendRequest req)
  external (env.sendRequest req)

/-- `REQUEST_ID.fetch_add(1)`, which wraps around. -/
def nextRequestId : P ω UInt64 :=
  Proc.call fun w => (w.requestId, { w with requestId := w.requestId + 1 })

/-- The state once the number `x.requestId` is given away. -/
def World.numbered (x : World ω) : World ω := { x with requestId := x.requestId + 1 }

/-- `handler.handle_request(ctx, req).await?`. -/
def requestOrFail (handler : HttpHandler ω) (ctx : HttpContext) (req : Request) :
    P ω (RequestOrResponse × HttpContext) := do
  let r ← handler.handleRequest ctx req
  match r with
  | (.ok r, ctx) => pure (r, ctx)
  | (.error e, _) => Proc.fail (.error (.proxy e))

/-- `handler.handle_response(ctx, res).await?`. -/
def responseOrFail (handler : HttpHandler ω) (ctx : HttpContext) (res : Response) :
    P ω (Response × HttpContext) := do
  let r ← handler.handleResponse ctx res
  match r with
  | (.ok r, ctx) => pure (r, ctx)
  | (.error e, _) => Proc.fail (.error (.proxy e))

/-! ## Plain HTTP -/

def hostName : HeaderName := ⟨"host".toList, by decide⟩

def upgradeName : HeaderName := ⟨"upgrade".toList, by decide⟩

def connectionName : HeaderName := ⟨"connection".toList, by decide⟩

/-- The host of an absolute target, as `extract_host` cuts it out of the text. -/
def hostOfTarget (uri : Str) : Option Str :=
  if startsWith "http://".toList uri then some (splitFirst '/' (uri.drop 7))
  else if startsWith "https://".toList uri then some (splitFirst '/' (uri.drop 8))
  else none

/-- `extract_host`: the Host header, or the host of an absolute target. -/
def extractHost (req : Request) (raw : Bytes) : Option Str :=
  match (HeaderMap.get req.headers hostName).bind HeaderValue.toStr with
  | some host => some host
  | none =>
    ((lines (fromUtf8Lossy raw)).head?.bind fun l => (splitWhitespace l)[1]?).bind hostOfTarget

/-- `is_websocket_upgrade`. -/
def isWebsocketUpgrade (U : Unicode) (req : Request) : Bool :=
  let has (n : HeaderName) (word : Str) : Bool :=
    match (HeaderMap.get req.headers n).bind HeaderValue.toStr with
    | some v => contains word (U.toLowercase v)
    | none => false
  has upgradeName "websocket".toList && has connectionName "upgrade".toList

/-- `is_websocket_response`. -/
def isWebsocketResponse (res : Response) : Bool := res.status.1 = 101

def badRequest : Bytes :=
  lit "HTTP/1.1 400 Bad Request\r\nContent-Length: 0\r\nConnection: close\r\n\r\n"

/-- The address the upgrade branch connects to: the host with port 80 if it has none. -/
def upgradeTarget (host : Str) : Str := if ':' ∈ host then host else host ++ ":80".toList

/-- `write_body_to_stream`. -/
def writeFrames : List (Except String Frame) → P ω Unit
  | [] => pure ()
  | .ok (.data bs) :: fs => do writeClient env bs; writeFrames fs
  | .ok (.trailers _) :: fs => writeFrames fs
  | .error e :: _ => Proc.fail (.error (.msg ("body stream error: " ++ e)))

def writeBodyToStream : Body → P ω Unit
  | .full bs => writeClient env bs
  | .streaming frames => writeFrames env frames

/-- The end of the normal branch: the head, the body, and the end of the connection. -/
def forwardResponse (res : Response) : P ω Unit := do
  writeClient env (serializeResponseHead env.http res)
  writeBodyToStream env res.body
  shutdownClient env

/-- The request with the absolute URI that the pooled client needs. -/
def absoluteRequest (scheme host : Str) (req : Request) : Option Request :=
  match req.uri.scheme with
  | some _ => some req
  | none =>
    (env.http.parseUri (scheme ++ "://".toList ++ host ++ req.uri.display)).map
      fun u => { req with uri := u }

/-- The normal branch of `handle_http`. -/
def forwardRequest (handler : HttpHandler ω) (ctx : HttpContext) (host : Str) (req : Request) :
    P ω Unit :=
  match absoluteRequest env "http".toList host req with
  | none => Proc.fail (.error (.msg "invalid absolute URI"))
  | some req => do
    let r ← sendRequest env req
    let response ← Proc.lift (r.mapError .error)
    let (modified, _) ← responseOrFail handler ctx response
    forwardResponse env modified

/-- The WebSocket branch of `handle_http`. -/
def forwardUpgrade (handler : HttpHandler ω) (wsHandler : Option (WebSocketHandler ω))
    (client : Source) (bufSize : ℕ) (ctx : HttpContext) (host : Str) (req : Request) :
    P ω Unit := do
  let bytes := serializeRequest req
  connectServer env (upgradeTarget host)
  writeServer env bytes
  let server ← external fun w => (env.serverStream w, w)
  let (full, server) := readFullResponse env.unicode server bufSize
  let fullResponse ← Proc.lift full
  let response ← Proc.lift (parseRawResponse fullResponse)
  let (modified, ctx) ← responseOrFail handler ctx response
  writeClient env (serializeResponse env.http modified)
  if isWebsocketResponse modified then
    Proc.emit (.relay wsHandler.isSome ctx client server)
  else shutdownClient env

/-- What `handle_http` does with the handlers' answer. -/
def answerHttp (handler : HttpHandler ω) (wsHandler : Option (WebSocketHandler ω))
    (client : Source) (bufSize : ℕ) (host : Str) (isWs : Bool) :
    RequestOrResponse × HttpContext → P ω Unit
  | (.response res, _) => do
    writeClient env (serializeResponse env.http res)
    shutdownClient env
  | (.request req, ctx) =>
    if isWs then forwardUpgrade env handler wsHandler client bufSize ctx host req
    else forwardRequest env handler ctx host req

/-- `handle_http`. -/
def handleHttp (handler : HttpHandler ω) (wsHandler : Option (WebSocketHandler ω))
    (client : Source) (clientAddr : SocketAddr) (bufSize : ℕ) (requestBytes : Bytes) :
    P ω Unit := do
  let request ← Proc.lift (parseRawRequest env.http requestBytes)
  match extractHost request requestBytes with
  | none => do
    writeClient env badRequest
    shutdownClient env
  | some host => do
    let id ← nextRequestId
    let isWs := isWebsocketUpgrade env.unicode request
    let r ← requestOrFail handler ⟨id, host, clientAddr, false⟩ request
    answerHttp env handler wsHandler client bufSize host isWs r

/-! ## Inside TLS -/

def originName : HeaderName := ⟨"origin".toList, by decide⟩

def cookieName : HeaderName := ⟨"cookie".toList, by decide⟩

def badGateway : Response := ⟨⟨502, by decide⟩, [], .full (lit "Bad Gateway")⟩

/-- A header of the upstream handshake; the builder's error becomes a panic. -/
def headerOf (name : String) (value : Str) : List (Str × Str) := [(name.toList, value)]

/-- The clean handshake request that the spawned task sends upstream, or `none` where the
task panics. -/
def upstreamHandshake (targetHost path key : Str) (origin cookie : Option Str) :
    Option Request :=
  match env.http.parseUri ("wss://".toList ++ targetHost ++ path),
    buildHeaders [] (headerOf "Host" targetHost ++ headerOf "Upgrade" "websocket".toList ++
      headerOf "Connection" "Upgrade".toList ++ headerOf "Sec-WebSocket-Version" "13".toList ++
      headerOf "Sec-WebSocket-Key" key ++ (origin.elim [] (headerOf "Origin")) ++
      (cookie.elim [] (headerOf "Cookie"))) with
  | some u, some h => some ⟨.get, u, h, .full []⟩
  | _, _ => none

/-- The task that `handle_https_websocket` spawns. Its failures are printed, or end the task
alone. -/
def upgradeTask (wsHandler : Option (WebSocketHandler ω)) (ctx : HttpContext)
    (targetHost path : Str) (origin cookie : Option Str) : P ω Unit := do
  let key ← external env.generateKey
  match upstreamHandshake env targetHost path key origin cookie with
  | none => pure ()
  | some req => do
    let client ← external env.upgraded
    match client with
    | .error _ => pure ()
    | .ok _ => do
      Proc.emit (.wsConnect req)
      let server ← external (env.wsConnect req)
      match server with
      | .error _ => pure ()
      | .ok _ =>
        Proc.emit (.relayUpgraded wsHandler.isSome
          ⟨ctx.id, ctx.host, ⟨"0.0.0.0", 0⟩, true⟩)

/-- `handle_https_websocket`: the 101 for the client, and the task it spawns. -/
def handleHttpsWebsocket (wsHandler : Option (WebSocketHandler ω)) (ctx : HttpContext)
    (targetHost : Str) (req : Request) : P ω (Response × Option (P ω Unit)) :=
  match absoluteRequest env "https".toList targetHost req with
  | none => Proc.fail (.error (.msg "[ws] invalid absolute URI"))
  | some req =>
    match req.uri.withScheme "wss".toList with
    | none => Proc.fail (.error (.msg "[ws] invalid URI"))
    | some uri => do
      let req := { req with uri := uri }
      let res ← Proc.lift ((env.upgrade req).mapError .error)
      let path := req.uri.pathAndQuery.getD ['/']
      let text (n : HeaderName) := (HeaderMap.get req.headers n).bind HeaderValue.toStr
      pure (⟨res.status, res.headers, .full []⟩,
        some (upgradeTask env wsHandler ctx targetHost path (text originName) (text cookieName)))

/-- What `handle_https_request` does with the handlers' answer. -/
def answerHttps (handler : HttpHandler ω) (wsHandler : Option (WebSocketHandler ω))
    (targetHost : Str) : Except ProxyError RequestOrResponse × HttpContext →
    P ω (Response × Option (P ω Unit))
  | (.ok (.response res), _) => pure (res, none)
  | (.error _, _) => pure (badGateway, none)
  | (.ok (.request req), ctx) =>
    if env.isUpgradeRequest req then handleHttpsWebsocket env wsHandler ctx targetHost req
    else
      match absoluteRequest env "https".toList targetHost req with
      | none => Proc.fail (.error (.msg "invalid absolute URI"))
      | some req => do
        let r ← sendRequest env req
        match r with
        | .error _ => pure (badGateway, none)
        | .ok response => do
          let m ← handler.handleResponse ctx response
          match m with
          | (.error _, _) => pure (badGateway, none)
          | (.ok modified, _) => pure (modified, none)

/-- `handle_https_request`: the response for the server to send, and a spawned task, if
any. -/
def handleHttpsRequest (handler : HttpHandler ω) (wsHandler : Option (WebSocketHandler ω))
    (targetHost : Str) (clientAddr : SocketAddr) (req : Request) :
    P ω (Response × Option (P ω Unit)) := do
  let id ← nextRequestId
  let r ← handler.handleRequest ⟨id, targetHost, clientAddr, true⟩ req
  answerHttps env handler wsHandler targetHost r

/-- The server sends the response; after an upgrade the connection is the spawned task's. -/
def sendReply : Response × Option (P ω Unit) → P ω Bool
  | (res, none) => do
    Proc.emit (.reply res)
    pure true
  | (res, some task) => do
    Proc.emit (.reply res)
    task
    pure false

/-- One request of a tunnel. -/
def serveRequest (handler : HttpHandler ω) (wsHandler : Option (WebSocketHandler ω))
    (targetHost : Str) (clientAddr : SocketAddr) (req : Request) : P ω Bool := do
  let a ← handleHttpsRequest env handler wsHandler targetHost clientAddr req
  sendReply a

/-- The requests of a tunnel, one after the other. -/
def serveConnection (handler : HttpHandler ω) (wsHandler : Option (WebSocketHandler ω))
    (targetHost : Str) (clientAddr : SocketAddr) : List Request → P ω Unit
  | [] => pure ()
  | req :: reqs => do
    let more ← serveRequest env handler wsHandler targetHost clientAddr req
    if more then serveConnection handler wsHandler targetHost clientAddr reqs else pure ()

/-! ## CONNECT -/

def established : Bytes := lit "HTTP/1.1 200 Connection Established\r\n\r\n"

/-- The host of a CONNECT target, for the certificate and the context. -/
def targetHost (target : Str) : Str := splitFirst ':' target

/-- `handle_https`. -/
def handleHttps (handler : HttpHandler ω) (wsHandler : Option (WebSocketHandler ω))
    (client : Source) (target : Str) (clientAddr : SocketAddr) : P ω Unit := do
  let host := targetHost target
  writeClient env established
  let intercept ← handler.shouldInterceptTls host
  if !intercept then do
    connectServer env target
    let server ← external fun w => (env.serverStream w, w)
    Proc.emit (.tunnel target client server)
  else do
    let cert ← external (env.forgeCertificate host)
    let cert ← Proc.lift cert
    Proc.emit (.tlsAccept host client)
    let reqs ← external (env.tlsAccept cert client)
    let reqs ← Proc.lift (reqs.mapError .error)
    serveConnection env handler wsHandler host clientAddr reqs

/-- The target of a CONNECT request, with port 443 if it names none. -/
def connectTarget (buffer : Bytes) : Option Str :=
  ((lines (fromUtf8Lossy buffer)).head?.bind fun l => (splitWhitespace l)[1]?).map fun target =>
    if ':' ∈ target then target else target ++ ":443".toList

/-- `handle_client`. -/
def handleClient (handler : HttpHandler ω) (wsHandler : Option (WebSocketHandler ω))
    (peerAddr : Option SocketAddr) (client : Source) (bufSize : ℕ) : P ω Unit :=
  match client.read 4096 with
  | (.error e, _) => Proc.fail (.error (.io e))
  | (.ok buffer, client) =>
    let clientAddr := peerAddr.getD ⟨"127.0.0.1", 0⟩
    if (lit "CONNECT").isPrefixOf buffer then
      match connectTarget buffer with
      | none => Proc.fail (.error (.msg "malformed CONNECT request: missing target host"))
      | some target => handleHttps env handler wsHandler client target clientAddr
    else handleHttp env handler wsHandler client clientAddr bufSize buffer

end

end HexbufferProxy
