import HexbufferProxy.Rust.Keeps
import HexbufferProxy.Spec.Session
import HexbufferProxy.Proof.Order
import HexbufferProxy.Proof.Upgrade

/-!
# `on_upgrade` is never called

* `handleHttp_unheard`, `serveRequest_unheard`: up to the relay the WebSocket handler gets no call.
* `turn_noUpgrade`: a round of a relay adds calls of `on_frame` and `on_close` only.
* `session_noUpgrade`: sessions.
-/

namespace HexbufferProxy

open Rust Rust.Proc

variable {ω α : Type}

/-- The calls that have been written down. -/
def heard (w : World (Watched ω)) : List WsCall := w.ext.2

/-! ## Up to the relay -/

theorem keeps_unheard (f : ω → α × ω) :
    Keeps heard (external (unheard f) : P (Watched ω) α) fun _ => True :=
  keeps_call fun _ => rfl

/-- An operation of the environment that may fail. -/
theorem keeps_operation {β : Type} (e : Event) (f : ω → α × ω) (g : α → Except Fault β) :
    Keeps heard (do Proc.emit e; let r ← external (unheard f); Proc.lift (g r) : P (Watched ω) β)
      fun _ => True := by
  refine keeps_bind (keeps_emit e) fun _ _ => ?_
  exact keeps_bind (keeps_unheard f) fun r _ => keeps_lift (g r)

theorem passRequest_unheard (users : List (UserHandler ω)) (ctx : HttpContext) (req : Request)
    (w : Watched ω) :
    (passRequest (users.map UserHandler.watched) ctx req w).2.2 = w.2 := by
  induction users generalizing ctx req w with
  | nil => rfl
  | cons u us ih =>
    rw [List.map_cons, passRequest]
    split
    · rename_i req' ctx' w' heq
      have hw : w'.2 = w.2 := (congrArg (fun r => r.2.2) heq).symm
      rw [ih, hw]
    · rfl

theorem passResponse_unheard (users : List (UserHandler ω)) (ctx : HttpContext) (res : Response)
    (w : Watched ω) :
    (passResponse (users.map UserHandler.watched) ctx res w).2.2 = w.2 := by
  induction users generalizing ctx res w with
  | nil => rfl
  | cons u us ih =>
    rw [List.map_cons, passResponse]
    split
    · rename_i res' ctx' w' heq
      have hw : w'.2 = w.2 := (congrArg (fun r => r.2.2) heq).symm
      rw [ih, hw]
    · rfl

section

variable (env : Env ω) (users : List (UserHandler ω)) (ws : Option (WebSocketHandler (Watched ω)))

theorem keeps_handleRequest (ctx : HttpContext) (req : Request) :
    Keeps heard ((watchedHandler env users).handleRequest ctx req) fun _ => True := by
  unfold watchedHandler
  rw [proxyHandler_inOrder]
  exact fun s => ⟨passRequest_unheard users ctx req s.ext, fun _ _ => trivial⟩

theorem keeps_handleResponse (ctx : HttpContext) (res : Response) :
    Keeps heard ((watchedHandler env users).handleResponse ctx res) fun _ => True := by
  unfold watchedHandler
  rw [proxyHandler_inOrder]
  exact fun s => ⟨passResponse_unheard users ctx res s.ext, fun _ _ => trivial⟩

theorem keeps_requestOrFail (ctx : HttpContext) (req : Request) :
    Keeps heard (requestOrFail (watchedHandler env users) ctx req) fun _ => True := by
  refine keeps_bind (keeps_handleRequest env users ctx req) fun r _ => ?_
  obtain ⟨_ | _, _⟩ := r
  · exact keeps_fail _
  · exact keeps_pure trivial

theorem keeps_responseOrFail (ctx : HttpContext) (res : Response) :
    Keeps heard (responseOrFail (watchedHandler env users) ctx res) fun _ => True := by
  refine keeps_bind (keeps_handleResponse env users ctx res) fun r _ => ?_
  obtain ⟨_ | _, _⟩ := r
  · exact keeps_fail _
  · exact keeps_pure trivial

theorem keeps_writeClient (bs : Bytes) : Keeps heard (writeClient env.watched bs) fun _ => True :=
  keeps_operation (.toClient bs) (env.clientWrite bs) _

theorem keeps_shutdownClient : Keeps heard (shutdownClient env.watched) fun _ => True :=
  keeps_operation .shutdownClient env.clientShutdown _

theorem keeps_sendRequest (req : Request) :
    Keeps heard (sendRequest env.watched req) fun _ => True :=
  keeps_bind (keeps_emit _) fun _ _ => keeps_unheard (env.sendRequest req)

theorem keeps_nextRequestId : Keeps heard (nextRequestId : P (Watched ω) UInt64) fun _ => True :=
  keeps_call fun _ => rfl

theorem keeps_writeFrames (fs : List (Except String Frame)) :
    Keeps heard (writeFrames env.watched fs) fun _ => True := by
  induction fs with
  | nil => exact keeps_pure trivial
  | cons f fs ih =>
    cases f with
    | error e => exact keeps_fail _
    | ok f =>
      cases f with
      | data bs => exact keeps_bind (keeps_writeClient env bs) fun _ _ => ih
      | trailers m => exact ih

theorem keeps_forwardResponse (res : Response) :
    Keeps heard (forwardResponse env.watched res) fun _ => True := by
  refine keeps_bind (keeps_writeClient env _) fun _ _ => ?_
  refine keeps_bind (R := fun _ => True) ?_ fun _ _ => keeps_shutdownClient env
  cases res.body with
  | full bs => exact keeps_writeClient env bs
  | streaming fs => exact keeps_writeFrames env fs

theorem keeps_forwardRequest (ctx : HttpContext) (host : Str) (req : Request) :
    Keeps heard (forwardRequest env.watched (watchedHandler env users) ctx host req)
      fun _ => True := by
  unfold forwardRequest
  cases absoluteRequest env.watched "http".toList host req with
  | none => exact keeps_fail _
  | some req =>
    refine keeps_bind (keeps_sendRequest env req) fun _ _ => ?_
    refine keeps_bind (keeps_lift _) fun _ _ => ?_
    refine keeps_bind (keeps_responseOrFail env users ctx _) fun r _ => ?_
    exact keeps_forwardResponse env r.1

theorem keeps_forwardUpgrade (client : Source) (bufSize : ℕ) (ctx : HttpContext) (host : Str)
    (req : Request) : Keeps heard
      (forwardUpgrade env.watched (watchedHandler env users) ws client bufSize ctx host req)
      fun _ => True := by
  -- the exchange with the upstream, then the handlers, then the client
  refine keeps_bind (keeps_operation _ (env.connect (upgradeTarget host)) _) fun _ _ => ?_
  refine keeps_bind (keeps_operation _ (env.serverWrite (serializeRequest req)) _) fun _ _ => ?_
  refine keeps_bind (keeps_call fun _ => rfl) fun server _ => ?_
  refine keeps_bind (keeps_lift _) fun _ _ => ?_
  refine keeps_bind (keeps_lift _) fun response _ => ?_
  refine keeps_bind (keeps_responseOrFail env users ctx response) fun r _ => ?_
  refine keeps_bind (keeps_writeClient env _) fun _ _ => ?_
  cases hswitched : isWebsocketResponse r.1 with
  -- the relay is only announced here: its calls come when it runs
  | true =>
    rw [if_pos rfl]
    exact keeps_emit _
  | false =>
    rw [if_neg Bool.false_ne_true]
    exact keeps_shutdownClient env

/-- **On the plain path the WebSocket handler is not called before the relay.** -/
theorem handleHttp_unheard (client : Source) (addr : SocketAddr) (bufSize : ℕ) (bytes : Bytes) :
    Keeps heard (handleHttp env.watched (watchedHandler env users) ws client addr bufSize bytes)
      fun _ => True := by
  refine keeps_bind (keeps_lift _) fun request _ => ?_
  cases extractHost request bytes with
  | none => exact keeps_bind (keeps_writeClient env _) fun _ _ => keeps_shutdownClient env
  | some host =>
    refine keeps_bind keeps_nextRequestId fun id _ => ?_
    refine keeps_bind (keeps_requestOrFail env users _ request) fun r _ => ?_
    obtain ⟨req | res, ctx⟩ := r
    · show Keeps heard (if isWebsocketUpgrade env.watched.unicode request then
        forwardUpgrade env.watched (watchedHandler env users) ws client bufSize ctx host req
        else forwardRequest env.watched (watchedHandler env users) ctx host req) fun _ => True
      split
      · exact keeps_forwardUpgrade env users ws client bufSize ctx host req
      · exact keeps_forwardRequest env users ctx host req
    · exact keeps_bind (keeps_writeClient env _) fun _ _ => keeps_shutdownClient env

theorem keeps_upgradeTask (ctx : HttpContext) (host path : Str) (origin cookie : Option Str) :
    Keeps heard (upgradeTask env.watched ws ctx host path origin cookie) fun _ => True := by
  refine keeps_bind (keeps_unheard env.generateKey) fun key _ => ?_
  cases upstreamHandshake env.watched host path key origin cookie with
  | none => exact keeps_pure trivial
  | some req =>
    refine keeps_bind (keeps_unheard env.upgraded) fun client _ => ?_
    cases client with
    | error e => exact keeps_pure trivial
    | ok _ =>
      refine keeps_bind (keeps_emit _) fun _ _ => ?_
      refine keeps_bind (keeps_unheard (env.wsConnect req)) fun server _ => ?_
      cases server with
      | error e => exact keeps_pure trivial
      | ok _ => exact keeps_emit _

/-- A reply whose task, if there is one, makes no call. -/
def SilentTask (a : Response × Option (P (Watched ω) Unit)) : Prop :=
  ∀ task, a.2 = some task → Keeps heard task fun _ => True

theorem silentTask_none (res : Response) : SilentTask (ω := ω) (res, none) :=
  fun _ h => nomatch h

theorem keeps_handleHttpsWebsocket (ctx : HttpContext) (host : Str) (req : Request) :
    Keeps heard (handleHttpsWebsocket env.watched ws ctx host req) SilentTask := by
  unfold handleHttpsWebsocket
  cases absoluteRequest env.watched "https".toList host req with
  | none => exact keeps_fail _
  | some req =>
    simp only
    cases req.uri.withScheme "wss".toList with
    | none => exact keeps_fail _
    | some uri =>
      refine keeps_bind (keeps_lift _) fun res _ => keeps_pure ?_
      intro task htask
      rw [← Option.some.inj htask]
      exact keeps_upgradeTask env ws ctx host _ _ _

/-- **Nor is it inside TLS.** -/
theorem serveRequest_unheard (host : Str) (addr : SocketAddr) (req : Request) :
    Keeps heard (serveRequest env.watched (watchedHandler env users) ws host addr req)
      fun _ => True := by
  refine keeps_bind (R := SilentTask) ?_ fun a ha => ?_
  · refine keeps_bind keeps_nextRequestId fun id _ => ?_
    refine keeps_bind (keeps_handleRequest env users _ req) fun r _ => ?_
    obtain ⟨e | req | res, ctx⟩ := r
    · exact keeps_pure (silentTask_none _)
    · show Keeps heard (if env.watched.isUpgradeRequest req then
        handleHttpsWebsocket env.watched ws ctx host req else _) SilentTask
      split
      · exact keeps_handleHttpsWebsocket env ws ctx host req
      cases absoluteRequest env.watched "https".toList host req with
      | none => exact keeps_fail _
      | some req =>
        refine keeps_bind (keeps_sendRequest env req) fun r _ => ?_
        cases r with
        | error e => exact keeps_pure (silentTask_none _)
        | ok response =>
          refine keeps_bind (keeps_handleResponse env users ctx response) fun m _ => ?_
          obtain ⟨_ | _, _⟩ := m
          · exact keeps_pure (silentTask_none _)
          · exact keeps_pure (silentTask_none _)
    · exact keeps_pure (silentTask_none _)
  · -- the answer goes out, and the task is run behind it
    obtain ⟨res, _ | task⟩ := a
    · exact keeps_bind (keeps_emit _) fun _ _ => keeps_pure trivial
    · refine keeps_bind (keeps_emit _) fun _ _ => ?_
      exact keeps_bind (ha task rfl) fun _ _ => keeps_pure trivial

end

/-! ## The relay -/

/-- The call is not one of `on_upgrade`. -/
def WsCall.NotUpgrade (c : WsCall) : Prop := ∀ ctx req out, c ≠ .upgrade ctx req out

/-- No call of `on_upgrade` so far. -/
def NoUpgrade (r : Relay (Watched ω)) : Prop := ∀ c ∈ r.ext.2, c.NotUpgrade

theorem noUpgrade_append {calls : List WsCall} (h : ∀ c ∈ calls, c.NotUpgrade) {c : WsCall}
    (hc : c.NotUpgrade) : ∀ c' ∈ calls ++ [c], c'.NotUpgrade := by
  intro c' hc'
  rcases List.mem_append.1 hc' with hold | hnew
  · exact h c' hold
  · rw [List.mem_singleton.1 hnew]
    exact hc

/-- **A round of a relay makes no call of `on_upgrade`.** -/
theorem turn_noUpgrade {ws : WebSocketHandler ω}
    {leave : Relay (Watched ω) → Relay (Watched ω)} (hl : ∀ r, NoUpgrade r → NoUpgrade (leave r))
    {r : Relay (Watched ω)} (h : NoUpgrade r) (t : Direction × Bool) :
    NoUpgrade (Relay.turn ws.watched.onFrame leave r t) := by
  unfold Relay.turn
  cases r.running with
  | false => exact h
  | true =>
    rw [if_pos rfl]
    cases r.pending t.1 with
    | nil => exact hl r h
    | cons item rest =>
      cases item with
      | error e => exact hl _ h
      | ok msg =>
        have hnext : NoUpgrade (Relay.onFrame ws.watched.onFrame r t.1 t.2 msg rest) :=
          noUpgrade_append h fun _ _ _ h => nomatch h
        simp only
        split
        · exact hl _ hnext
        · exact hnext

theorem turns_noUpgrade {ws : WebSocketHandler ω}
    {leave : Relay (Watched ω) → Relay (Watched ω)} (hl : ∀ r, NoUpgrade r → NoUpgrade (leave r))
    {r : Relay (Watched ω)} (h : NoUpgrade r) (ts : List (Direction × Bool)) :
    NoUpgrade (ts.foldl (Relay.turn ws.watched.onFrame leave) r) := by
  induction ts generalizing r with
  | nil => exact h
  | cons t ts ih => exact ih (turn_noUpgrade hl h t)

theorem onClose_noUpgrade (ws : WebSocketHandler ω) (r : Relay (Watched ω)) (h : NoUpgrade r) :
    NoUpgrade (Relay.onClose ws.watched r) :=
  noUpgrade_append h fun _ _ _ h => nomatch h

theorem closeFramed_noUpgrade (ws : WebSocketHandler ω) (r : Relay (Watched ω))
    (h : NoUpgrade r) : NoUpgrade { Relay.onClose ws.watched r with clientClosed := true } :=
  onClose_noUpgrade ws r h

/-! ## Sessions -/

/-- A promise that is kept begins with `on_upgrade`. -/
theorem Session.KeepsPromise.upgrade {s : Session ω} (h : s.KeepsPromise) :
    ∃ c ∈ s.calls, ¬ c.NotUpgrade := by
  obtain ⟨req, out, order, frames, hcalls, -⟩ := h
  refine ⟨.upgrade s.ctx req out, ?_, fun hnot => hnot _ _ _ rfl⟩
  rw [hcalls]
  exact List.mem_append_left _ List.mem_cons_self

theorem start_noUpgrade {w : World (Watched ω)} (h : heard w = []) (ctx : HttpContext)
    (client server : List Item) : NoUpgrade (Relay.start w.ext ctx client server) := by
  intro c hc
  have hmem : c ∈ heard w := hc
  rw [h] at hmem
  exact absurd hmem List.not_mem_nil

/-- **In no session is `on_upgrade` called, so that none goes as promised.** -/
theorem session_noUpgrade (env : Env ω) (users : List (UserHandler ω)) (ws : WebSocketHandler ω)
    (s : Session ω) (h : IsSession env users ws s) :
    (∀ c ∈ s.calls, ∀ ctx req out, c ≠ .upgrade ctx req out) ∧ ¬ s.KeepsPromise := by
  have hnone : ∀ c ∈ s.calls, c.NotUpgrade := by
    -- before the relay there is no call, and its rounds add none of `on_upgrade`
    cases h with
    | @plain w client addr bufSize bytes _ _ ran ctx _ _ fromClient fromServer ts _ _ hran _ =>
      have hheard := (handleHttp_unheard env users (some ws.watched) client addr bufSize bytes
        w.watched).1
      rw [hran] at hheard
      exact turns_noUpgrade (closeFramed_noUpgrade ws)
        (start_noUpgrade hheard ctx fromClient fromServer) ts
    | @tls w host addr request ran ctx fromClient fromServer ts hran _ =>
      have hheard := (serveRequest_unheard env users (some ws.watched) host addr request
        w.watched).1
      rw [hran] at hheard
      exact turns_noUpgrade (onClose_noUpgrade ws)
        (start_noUpgrade hheard ctx fromClient fromServer) ts
  refine ⟨hnone, fun hkept => ?_⟩
  obtain ⟨c, hc, hupgrade⟩ := hkept.upgrade
  exact hupgrade (hnone c hc)

/-- A proxy in front of `lateServer`, with a handler that lets everything pass. -/
def noopRun : Ran Event (World (Watched Unit)) Fault Unit :=
  handleHttp (upgradeEnv lateServer).watched (watchedHandler (upgradeEnv lateServer) [])
    (some NoopWebSocketHandler.watched) ⟨[], none⟩ ⟨"127.0.0.1", 0⟩ 4096 exampleUpgrade
    (World.watched ⟨(), 0⟩)

/-- The context of `exampleUpgrade`. -/
def noopContext : HttpContext := ⟨0, "a.example".toList, ⟨"127.0.0.1", 0⟩, false⟩

/-- The client says one word and closes. -/
def noopSession : Session Unit where
  ctx := noopContext
  events := noopRun.events
  began := Relay.start noopRun.state.ext noopContext [.ok (.text ['a']), .ok (.close none)] []
  relay := [(Direction.clientToServer, true), (Direction.clientToServer, true)].foldl
    (relayFramed NoopWebSocketHandler.watched)
    (Relay.start noopRun.state.ext noopContext [.ok (.text ['a']), .ok (.close none)] [])

/-- A framed relay starts, with `noopContext`. -/
def startsNoop : Event → Bool
  | .relay true ctx _ _ =>
    ctx.id == 0 && ctx.host == "a.example".toList && ctx.clientAddr == ⟨"127.0.0.1", 0⟩ &&
      !ctx.isHttps
  | _ => false

theorem startsNoop_relay {e : Event} (h : startsNoop e = true) :
    ∃ rest server, e = .relay true noopContext rest server := by
  cases e with
  | relay framed ctx rest server =>
    obtain ⟨id, host, addr, isHttps⟩ := ctx
    cases framed with
    | false => exact absurd h Bool.false_ne_true
    | true =>
      simp only [startsNoop, Bool.and_eq_true, beq_iff_eq, Bool.not_eq_true'] at h
      obtain ⟨⟨⟨rfl, rfl⟩, rfl⟩, rfl⟩ := h
      exact ⟨rest, server, rfl⟩
  | _ => exact absurd h Bool.false_ne_true

theorem noopSession_isSession :
    IsSession (upgradeEnv lateServer) [] NoopWebSocketHandler noopSession := by
  have hrelay : noopRun.events.any startsNoop = true := by decide +kernel
  obtain ⟨e, he, hstarts⟩ := List.any_eq_true.1 hrelay
  obtain ⟨rest, server, rfl⟩ := startsNoop_relay hstarts
  have hhost : (parseRawRequest HttpCrate.basic exampleUpgrade).toOption.bind
      (extractHost · exampleUpgrade) = some "a.example".toList := by decide +kernel
  cases hrequest : parseRawRequest HttpCrate.basic exampleUpgrade with
  | error e =>
    rw [hrequest] at hhost
    exact nomatch hhost
  | ok request =>
    rw [hrequest] at hhost
    exact .plain (w := ⟨(), 0⟩) [.ok (.text ['a']), .ok (.close none)] []
      [(.clientToServer, true), (.clientToServer, true)] hrequest hhost rfl he

/-- The first call of the session is one of `on_frame`. -/
theorem session_unannounced : IsSession (upgradeEnv lateServer) [] NoopWebSocketHandler noopSession ∧
    noopSession.calls.length = 3 ∧ ¬ noopSession.KeepsPromise := by
  refine ⟨noopSession_isSession, by decide +kernel, ?_⟩
  rintro ⟨req, out, order, frames, hcalls, -⟩
  have hframe : noopSession.calls.head?.any (fun | .upgrade _ _ _ => true | _ => false) = false := by
    decide +kernel
  rw [hcalls] at hframe
  exact absurd hframe.symm Bool.false_ne_true

/-- None of its calls is one of `on_upgrade`. -/
theorem session_noUpgrade_noop :
    (∀ c ∈ noopSession.calls, ∀ ctx req out, c ≠ .upgrade ctx req out) ∧
      ¬ noopSession.KeepsPromise :=
  session_noUpgrade (upgradeEnv lateServer) [] NoopWebSocketHandler noopSession
    noopSession_isSession

end HexbufferProxy
