import HexbufferProxy.Proof.Handlers

/-!
# What each procedure does

One lemma for each procedure of `Model.Flow`: which events it may leave, for any property `Q`
that the events have, and how many of them contact an upstream. Handlers enter by what they
ensure themselves.

* `ensures_forwardRequest`, `ensures_forwardUpgrade`: the two branches of `handle_http`.
* `ensures_upgradeTask`: the task that an upgrade inside TLS spawns.
* `ensures_answerHttp`, `ensures_answerHttps`: a request that all handlers have forwarded.
* `ensures_handleHttp`, `ensures_serveRequest`, `ensures_handleHttps`: the paths as a whole.
* `handleHttp_events`, `serveRequest_events`: the same for properties that leave the handlers
  out of account.
-/

namespace HexbufferProxy

open Rust Rust.Proc

variable {ω : Type} {env : Env ω} {Q : Event → Prop} {k : ℕ}

theorem ensures_external {α : Type} {f : ω → α × ω} {R : α → Prop} (h : ∀ w, R (f w).1) :
    Ensures Event.isContact k (external f) R Q := ensures_call fun w => h w.ext

theorem ensures_external_any {α : Type} (f : ω → α × ω) :
    Ensures Event.isContact k (external f) (fun _ => True) Q := ensures_external fun _ => trivial

theorem ensures_lift_any {α : Type} (x : Except Fault α) :
    Ensures Event.isContact k (Proc.lift x : P ω α) (fun _ => True) Q :=
  ensures_lift fun _ _ => trivial

/-- A write: an event, and an outcome that ends the procedure if it is an error. -/
theorem ensures_write {e : Event} {f : ω → Except IoError Unit × ω} (he : Q e)
    (hk : e.isContact = false ∨ 0 < k) :
    Ensures Event.isContact k
      (Proc.emit e >>= fun _ => external f >>= fun r =>
        (Proc.lift (r.mapError fun e => .error (.io e)) : P ω Unit)) (fun _ => True) Q := by
  apply ensures_bind_last (ensures_emit he hk)
  intro _ _
  apply ensures_bind (ensures_external_any _)
  intro _ _
  exact ensures_lift_any _

section

variable (hQ : ∀ e, e.isTransfer = true → Q e)

include hQ

theorem ensures_writeClient (bs : Bytes) :
    Ensures Event.isContact k (writeClient env bs) (fun _ => True) Q :=
  ensures_write (hQ _ rfl) (Or.inl rfl)

theorem ensures_shutdownClient :
    Ensures Event.isContact k (shutdownClient env) (fun _ => True) Q :=
  ensures_write (hQ _ rfl) (Or.inl rfl)

theorem ensures_writeServer (bs : Bytes) :
    Ensures Event.isContact k (writeServer env bs) (fun _ => True) Q :=
  ensures_write (hQ _ rfl) (Or.inl rfl)

theorem ensures_writeFrames : ∀ frames : List (Except String Frame),
    Ensures Event.isContact k (writeFrames env frames) (fun _ => True) Q := by
  intro frames
  induction frames with
  | nil => exact ensures_pure trivial
  | cons f fs ih =>
    rcases f with e | bs | m
    · exact ensures_fail _
    · unfold writeFrames
      apply ensures_bind (ensures_writeClient hQ bs)
      intro _ _
      exact ih
    · exact ih

theorem ensures_writeBodyToStream (body : Body) :
    Ensures Event.isContact k (writeBodyToStream env body) (fun _ => True) Q := by
  cases body with
  | full bs => exact ensures_writeClient hQ bs
  | streaming frames => exact ensures_writeFrames hQ frames

theorem ensures_forwardResponse (res : Response) :
    Ensures Event.isContact k (forwardResponse env res) (fun _ => True) Q := by
  unfold forwardResponse
  apply ensures_bind (ensures_writeClient hQ _)
  intro _ _
  apply ensures_bind (ensures_writeBodyToStream hQ _)
  intro _ _
  exact ensures_shutdownClient hQ

end

/-- `?` on a handler's response ends the procedure on an error. -/
theorem ensures_responseOrFail {handler : HttpHandler ω} {ctx : HttpContext} {res : Response}
    (hres : Ensures Event.isContact 0 (handler.handleResponse ctx res) (fun _ => True) Q) :
    Ensures Event.isContact 0 (responseOrFail handler ctx res) (fun _ => True) Q := by
  unfold responseOrFail
  apply ensures_bind hres
  rintro ⟨r, ctx'⟩ -
  rcases r with e | res'
  · exact ensures_fail _
  · exact ensures_pure trivial

section

variable {handler : HttpHandler ω} (hQ : ∀ e, e.isTransfer = true → Q e)
  (hres : ∀ ctx res, Ensures Event.isContact 0 (handler.handleResponse ctx res)
    (fun _ => True) Q)

include hQ hres

/-- **The normal branch of `handle_http`** contacts an upstream once, with the absolute
request. -/
theorem ensures_forwardRequest {ctx : HttpContext} {host : Str} {req : Request}
    (hsend : ∀ q, absoluteRequest env "http".toList host req = some q → Q (.sendRequest q)) :
    Ensures Event.isContact 1 (forwardRequest env handler ctx host req) (fun _ => True) Q := by
  unfold forwardRequest
  cases hq : absoluteRequest env "http".toList host req with
  | none => exact ensures_fail _
  | some q =>
    simp only
    unfold sendRequest
    rw [bind_assoc]
    apply ensures_bind_last (ensures_emit (hsend q hq) (Or.inr Nat.one_pos))
    intro _ _
    apply ensures_bind (ensures_external_any _)
    intro r _
    apply ensures_bind (ensures_lift_any _)
    intro response _
    apply ensures_bind (ensures_responseOrFail (hres ctx response))
    rintro ⟨modified, ctx'⟩ -
    exact ensures_forwardResponse hQ modified

/-- **The WebSocket branch of `handle_http`** contacts the upstream of the host once. The relay
gets what the response reader leaves of the upstream's stream. -/
theorem ensures_forwardUpgrade {ws : Option (WebSocketHandler ω)} {client : Source} {n : ℕ}
    {ctx : HttpContext} {host : Str} {req : Request} (hconnect : Q (.connect (upgradeTarget host)))
    (hrelay : ∀ w ctx',
      Q (.relay ws.isSome ctx' client (readFullResponse env.unicode (env.serverStream w) n).2)) :
    Ensures Event.isContact 1 (forwardUpgrade env handler ws client n ctx host req)
      (fun _ => True) Q := by
  unfold forwardUpgrade
  apply ensures_bind_last (ensures_write hconnect (Or.inr Nat.one_pos))
  intro _ _
  apply ensures_bind (ensures_writeServer hQ _)
  intro _ _
  apply ensures_bind (ensures_external (R := fun s => ∃ w, s = env.serverStream w)
    fun w => ⟨w, rfl⟩)
  rintro _ ⟨w, rfl⟩
  apply ensures_bind (ensures_lift_any _)
  intro full _
  apply ensures_bind (ensures_lift_any _)
  intro response _
  apply ensures_bind (ensures_responseOrFail (hres ctx response))
  rintro ⟨modified, ctx'⟩ -
  apply ensures_bind (ensures_writeClient hQ _)
  intro _ _
  split
  · exact ensures_emit (hrelay w ctx') (Or.inl rfl)
  · exact ensures_shutdownClient hQ

end

/-- **A request that the handlers forward**, on the plain path: the branch is chosen by the
request as it came in. -/
theorem ensures_answerHttp {handler : HttpHandler ω} {ws : Option (WebSocketHandler ω)}
    {client : Source} {n : ℕ} {host : Str} {isWs : Bool} {req : Request} {ctx : HttpContext}
    (hQ : ∀ e, e.isTransfer = true → Q e)
    (hres : ∀ ctx res, Ensures Event.isContact 0 (handler.handleResponse ctx res)
      (fun _ => True) Q)
    (hconnect : isWs = true → Q (.connect (upgradeTarget host)))
    (hrelay : isWs = true → ∀ w ctx',
      Q (.relay ws.isSome ctx' client (readFullResponse env.unicode (env.serverStream w) n).2))
    (hsend : isWs = false → ∀ q, absoluteRequest env "http".toList host req = some q →
      Q (.sendRequest q)) :
    Ensures Event.isContact 1 (answerHttp env handler ws client n host isWs (.request req, ctx))
      (fun _ => True) Q := by
  unfold answerHttp
  cases isWs with
  | true => exact ensures_forwardUpgrade hQ hres (hconnect rfl) (hrelay rfl)
  | false => exact ensures_forwardRequest hQ hres (hsend rfl)

/-- A handler's own response goes to the client. -/
theorem ensures_answerHttp_response (hQ : ∀ e, e.isTransfer = true → Q e)
    (handler : HttpHandler ω) (ws : Option (WebSocketHandler ω)) (client : Source) (n : ℕ)
    (host : Str) (isWs : Bool) (res : Response) (ctx : HttpContext) :
    Ensures Event.isContact 0 (answerHttp env handler ws client n host isWs (.response res, ctx))
      (fun _ => True) Q := by
  unfold answerHttp
  apply ensures_bind (ensures_writeClient hQ _)
  intro _ _
  exact ensures_shutdownClient hQ

/-- **`handle_http`**, for any handler: `Good` is what its answer ensures. -/
theorem ensures_handleHttp {handler : HttpHandler ω} {ws : Option (WebSocketHandler ω)}
    {client : Source} {addr : SocketAddr} {n : ℕ} {bytes : Bytes}
    (hQ : ∀ e, e.isTransfer = true → Q e)
    (Good : Request → Str → Except ProxyError RequestOrResponse × HttpContext → Prop)
    (hreq : ∀ request host id, parseRawRequest env.http bytes = .ok request →
      extractHost request bytes = some host → Ensures Event.isContact 0
        (handler.handleRequest ⟨id, host, addr, false⟩ request) (Good request host) Q)
    (hans : ∀ request host r ctx, parseRawRequest env.http bytes = .ok request →
      extractHost request bytes = some host → Good request host (.ok r, ctx) →
      Ensures Event.isContact 1 (answerHttp env handler ws client n host
        (isWebsocketUpgrade env.unicode request) (r, ctx)) (fun _ => True) Q) :
    Ensures Event.isContact 1 (handleHttp env handler ws client addr n bytes)
      (fun _ => True) Q := by
  unfold handleHttp
  apply ensures_bind (ensures_lift fun _ h => h)
  intro request hparse
  rcases hhost : extractHost request bytes with _ | host
  · apply ensures_bind (ensures_writeClient hQ _)
    intro _ _
    exact ensures_shutdownClient hQ
  · apply ensures_bind (R := fun _ => True) (ensures_call fun _ => trivial)
    intro id _
    unfold requestOrFail
    simp only [bind_assoc]
    apply ensures_bind (hreq request host id hparse hhost)
    rintro ⟨r, ctx⟩ hgood
    rcases r with e | r
    · apply ensures_bind (R := fun _ => False) (ensures_fail _)
      intro _ h
      exact h.elim
    · exact hans request host r ctx hparse hhost hgood

/-! ## Inside TLS -/

section

variable {handler : HttpHandler ω} {ws : Option (WebSocketHandler ω)}
  (hQ : ∀ e, e.isTransfer = true → Q e)

include hQ

theorem ensures_upgradeTask {ctx : HttpContext} {host path : Str} {origin cookie : Option Str}
    (hws : ∀ key r, upstreamHandshake env host path key origin cookie = some r →
      Q (.wsConnect r)) :
    Ensures Event.isContact 1 (upgradeTask env ws ctx host path origin cookie)
      (fun _ => True) Q := by
  unfold upgradeTask
  apply ensures_bind (ensures_external_any _)
  intro key _
  cases hr : upstreamHandshake env host path key origin cookie with
  | none => exact ensures_pure trivial
  | some r =>
    simp only
    apply ensures_bind (ensures_external_any _)
    intro client _
    rcases client with e | u
    · exact ensures_pure trivial
    apply ensures_bind_last (ensures_emit (hws key r hr) (Or.inr Nat.one_pos))
    intro _ _
    apply ensures_bind (ensures_external_any _)
    intro server _
    rcases server with e | u
    · exact ensures_pure trivial
    · exact ensures_emit (hQ _ rfl) (Or.inl rfl)

omit hQ in
theorem ensures_handleHttpsWebsocket {ctx : HttpContext} {host : Str} {req : Request}
    (htask : ∀ q u path origin cookie, absoluteRequest env "https".toList host req = some q →
      q.uri.withScheme "wss".toList = some u → path = u.pathAndQuery.getD ['/'] →
      Ensures Event.isContact 1 (upgradeTask env ws ctx host path origin cookie)
        (fun _ => True) Q) :
    Ensures Event.isContact 0 (handleHttpsWebsocket env ws ctx host req)
      (fun a => ∀ t, a.2 = some t → Ensures Event.isContact 1 t (fun _ => True) Q) Q := by
  unfold handleHttpsWebsocket
  cases hq : absoluteRequest env "https".toList host req with
  | none => exact ensures_fail _
  | some q =>
    simp only
    cases hu : q.uri.withScheme "wss".toList with
    | none => exact ensures_fail _
    | some u =>
      simp only
      apply ensures_bind (ensures_lift_any _)
      intro res _
      apply ensures_pure
      intro t ht
      rw [← Option.some.inj ht]
      exact htask q u _ _ _ hq hu rfl

theorem ensures_sendReply {a : Response × Option (P ω Unit)}
    (ha : ∀ t, a.2 = some t → Ensures Event.isContact k t (fun _ => True) Q) :
    Ensures Event.isContact k (sendReply a) (fun _ => True) Q := by
  obtain ⟨res, task⟩ := a
  unfold sendReply
  rcases task with _ | t
  · apply ensures_bind (ensures_emit (hQ _ rfl) (Or.inl rfl))
    intro _ _
    exact ensures_pure trivial
  · apply ensures_bind (ensures_emit (hQ _ rfl) (Or.inl rfl))
    intro _ _
    apply ensures_bind_last (ha t rfl)
    intro _ _
    exact ensures_pure trivial

/-- **A request that the handlers forward**, inside TLS: the upstream is contacted before the
response goes out, or by the task that the response leaves behind. -/
theorem ensures_answerHttps {host : Str} {req : Request} {ctx : HttpContext}
    (hres : ∀ ctx res, Ensures Event.isContact 0 (handler.handleResponse ctx res)
      (fun _ => True) Q)
    (hws : env.isUpgradeRequest req = true → ∀ q u path origin cookie key r,
      absoluteRequest env "https".toList host req = some q →
      q.uri.withScheme "wss".toList = some u → path = u.pathAndQuery.getD ['/'] →
      upstreamHandshake env host path key origin cookie = some r → Q (.wsConnect r))
    (hsend : env.isUpgradeRequest req = false → ∀ q,
      absoluteRequest env "https".toList host req = some q → Q (.sendRequest q)) :
    Ensures Event.isContact 1
      (answerHttps env handler ws host (.ok (.request req), ctx) >>= sendReply)
      (fun _ => True) Q := by
  simp only [answerHttps]
  rcases hup : env.isUpgradeRequest req with _ | _
  case true =>
    rw [if_pos rfl]
    -- the contact is made by the task, when the answer is out
    have htask : Ensures Event.isContact 0 (handleHttpsWebsocket env ws ctx host req)
        (fun a => ∀ t, a.2 = some t → Ensures Event.isContact 1 t (fun _ => True) Q) Q := by
      apply ensures_handleHttpsWebsocket
      intro q u path origin cookie hq hu hp
      apply ensures_upgradeTask hQ
      intro key r hr
      exact hws hup q u path origin cookie key r hq hu hp hr
    apply ensures_bind htask
    intro a ha
    exact ensures_sendReply hQ ha
  case false =>
    rw [if_neg Bool.false_ne_true]
    cases hq : absoluteRequest env "https".toList host req with
    | none =>
      apply ensures_bind (R := fun _ => False) (ensures_fail _)
      intro _ h
      exact h.elim
    | some q =>
      simp only
      -- the upstream is contacted here, and no task is left behind
      apply ensures_bind_last (R := fun a => a.2 = none)
      · unfold sendRequest
        rw [bind_assoc]
        apply ensures_bind_last (ensures_emit (hsend hup q hq) (Or.inr Nat.one_pos))
        intro _ _
        apply ensures_bind (ensures_external_any _)
        intro r _
        rcases r with e | response
        · exact ensures_pure rfl
        apply ensures_bind (hres ctx response)
        rintro ⟨m, ctx'⟩ -
        rcases m with e | modified
        · exact ensures_pure rfl
        · exact ensures_pure rfl
      · intro a ha
        exact ensures_sendReply hQ fun t ht => by rw [ha] at ht; exact nomatch ht

/-- Anything else the handlers answer goes to the client. -/
theorem ensures_answerHttps_refused {host : Str}
    {r : Except ProxyError RequestOrResponse × HttpContext} (hr : decision r.1 ≠ .forward) :
    Ensures Event.isContact 0 (answerHttps env handler ws host r >>= sendReply)
      (fun _ => True) Q := by
  obtain ⟨r, ctx⟩ := r
  have hnone : Ensures Event.isContact 0 (answerHttps env handler ws host (r, ctx))
      (fun a => a.2 = none) Q := by
    rcases r with e | req | res
    · exact ensures_pure rfl
    · exact absurd rfl hr
    · exact ensures_pure rfl
  apply ensures_bind hnone
  intro a ha
  exact ensures_sendReply hQ fun t ht => by rw [ha] at ht; exact nomatch ht

end

section

variable {handler : HttpHandler ω} {ws : Option (WebSocketHandler ω)}

/-- **One request of a tunnel**, for any handler: `Good` is what its answer ensures. -/
theorem ensures_serveRequest {host : Str} {addr : SocketAddr} {req : Request}
    (Good : Except ProxyError RequestOrResponse × HttpContext → Prop)
    (hreq : ∀ id, Ensures Event.isContact 0
      (handler.handleRequest ⟨id, host, addr, true⟩ req) Good Q)
    (hans : ∀ r, Good r → Ensures Event.isContact 1
      (answerHttps env handler ws host r >>= sendReply) (fun _ => True) Q) :
    Ensures Event.isContact 1 (serveRequest env handler ws host addr req) (fun _ => True) Q := by
  unfold serveRequest handleHttpsRequest
  simp only [bind_assoc]
  apply ensures_bind (R := fun _ => True) (ensures_call fun _ => trivial)
  intro id _
  exact ensures_bind (hreq id) hans

theorem ensures_serveConnection {host : Str} {addr : SocketAddr} {reqs : List Request}
    (h : ∀ req ∈ reqs, Ensures Event.isContact 1 (serveRequest env handler ws host addr req)
      (fun _ => True) Q) :
    Ensures (fun _ => false) 0 (serveConnection env handler ws host addr reqs)
      (fun _ => True) Q := by
  induction reqs with
  | nil => exact ensures_pure trivial
  | cons req reqs ih =>
    unfold serveConnection
    apply ensures_bind (h req List.mem_cons_self).uncounted
    intro more _
    rcases more with _ | _
    · exact ensures_pure trivial
    · exact ih fun r hr => h r (List.mem_cons_of_mem _ hr)

/-- **A tunnel that the proxy takes for itself**: TLS with the client, and its requests. -/
theorem ensures_intercepted {client : Source} {host : Str} {addr : SocketAddr}
    (htls : Q (.tlsAccept host client))
    (hreqs : ∀ cert w reqs, (env.tlsAccept cert client w).1 = .ok reqs → ∀ req ∈ reqs,
      Ensures Event.isContact 1 (serveRequest env handler ws host addr req) (fun _ => True) Q) :
    Ensures (fun _ => false) 0
      (external (env.forgeCertificate host) >>= fun cert => Proc.lift cert >>= fun cert =>
        Proc.emit (.tlsAccept host client) >>= fun _ =>
        external (env.tlsAccept cert client) >>= fun reqs =>
        Proc.lift (reqs.mapError .error) >>= fun reqs =>
        serveConnection env handler ws host addr reqs : P ω Unit) (fun _ => True) Q := by
  have hlift : ∀ {α : Type} (x : Except Fault α), Ensures (fun _ => false) 0
      (Proc.lift x : P ω α) (fun _ => True) Q := fun x => ensures_lift fun _ _ => trivial
  apply ensures_bind (R := fun _ => True) (ensures_call fun _ => trivial)
  intro cert _
  apply ensures_bind (hlift cert)
  intro cert _
  apply ensures_bind (ensures_emit htls (Or.inl rfl))
  intro _ _
  apply ensures_bind (R := fun r => ∃ w, r = (env.tlsAccept cert client w).1)
    (ensures_external (k := 0) fun w => ⟨w, rfl⟩).uncounted
  rintro r ⟨w, rfl⟩
  rcases hr : (env.tlsAccept cert client w).1 with e | reqs
  · have hfail : ∀ a, Except.mapError Fault.error (.error e : Except AnyError (List Request)) =
        .ok a → False := by
      intro a h
      simp [Except.mapError] at h
    apply ensures_bind (R := fun _ => False) (ensures_lift hfail)
    intro _ h
    exact h.elim
  · apply ensures_bind (R := fun a => reqs = a) (ensures_lift fun _ h => Except.ok.inj h)
    rintro _ rfl
    exact ensures_serveConnection (hreqs cert w reqs hr)

/-- **`handle_https`**: a tunnel to the target, or TLS with the client and its requests. -/
theorem ensures_handleHttps {client : Source} {target : Str} {addr : SocketAddr}
    (hQ : ∀ e, e.isTransfer = true → Q e)
    (hintercept : Ensures Event.isContact 0 (handler.shouldInterceptTls (targetHost target))
      (fun _ => True) Q)
    (hconnect : Q (.connect target)) (htunnel : ∀ server, Q (.tunnel target client server))
    (htls : Q (.tlsAccept (targetHost target) client))
    (hreqs : ∀ cert w reqs, (env.tlsAccept cert client w).1 = .ok reqs → ∀ req ∈ reqs,
      Ensures Event.isContact 1 (serveRequest env handler ws (targetHost target) addr req)
        (fun _ => True) Q) :
    Ensures (fun _ => false) 0 (handleHttps env handler ws client target addr)
      (fun _ => True) Q := by
  unfold handleHttps
  apply ensures_bind (ensures_writeClient (k := 0) hQ _).uncounted
  intro _ _
  apply ensures_bind hintercept.uncounted
  intro answer _
  rcases answer with _ | _
  · rw [if_pos (by rfl)]
    apply ensures_bind (ensures_write (k := 1) hconnect (Or.inr Nat.one_pos)).uncounted
    intro _ _
    apply ensures_bind (R := fun _ => True) (ensures_call fun _ => trivial)
    intro server _
    exact ensures_emit (htunnel server) (Or.inl rfl)
  · rw [if_neg (by decide)]
    exact ensures_intercepted htls hreqs

end

/-! ## With the handlers of a proxy

For properties that do not depend on what the handlers answer.
-/

/-- A stream of the client or of an upstream is handed over. -/
def Event.handsOver : Event → Bool
  | tunnel .. | tlsAccept .. | relay .. => true
  | _ => false

/-- Nothing of this happens inside TLS. -/
def Event.isOutside : Event → Bool
  | connect .. => true
  | e => e.handsOver

section

variable {users : List (UserHandler ω)} {ws : Option (WebSocketHandler ω)}

section

variable (hQ : ∀ e, e.isOutside = false → Q e)

include hQ

theorem transfer_events : ∀ e : Event, e.isTransfer = true → Q e := by
  intro e he
  apply hQ
  cases e <;> first | rfl | exact absurd he Bool.false_ne_true

theorem request_events (ctx : HttpContext) (req : Request) :
    Ensures Event.isContact 0 ((proxyHandler env.enabled users).handleRequest ctx req)
      (fun _ => True) Q := by
  rw [proxyHandler_request]
  refine (stack_calls users 0 ctx req).mono (Nat.le_refl 0) (fun _ h => h) ?_
  intro e he
  apply hQ
  cases e <;> first | rfl | exact absurd he Bool.false_ne_true

theorem response_events (ctx : HttpContext) (res : Response) :
    Ensures Event.isContact 0 ((proxyHandler env.enabled users).handleResponse ctx res)
      (fun _ => True) Q :=
  ensures_handleResponse env.enabled users (fun _ _ _ => hQ _ rfl) ctx res

/-- A request inside TLS calls no target itself, and hands no stream over. -/
theorem serveRequest_events {host : Str} {addr : SocketAddr} {req : Request} :
    Ensures Event.isContact 1
      (serveRequest env (proxyHandler env.enabled users) ws host addr req)
      (fun _ => True) Q := by
  have htransfer := transfer_events hQ
  apply ensures_serveRequest (fun _ => True)
  · intro id
    exact request_events hQ _ req
  · rintro ⟨r, ctx⟩ -
    by_cases hd : decision r = .forward
    · rcases r with e | q | res
      · exact Decision.noConfusion hd
      · refine ensures_answerHttps htransfer (response_events hQ) ?_ ?_
        · intros; exact hQ _ rfl
        · intros; exact hQ _ rfl
      · exact Decision.noConfusion hd
    · exact (ensures_answerHttps_refused htransfer hd).mono (Nat.zero_le 1) (fun _ h => h)
        (fun _ h => h)

end

/-- On the plain path, a relay's streams are the only ones to be handed over. -/
theorem handleHttp_events (hQ : ∀ e, e.handsOver = false → Q e) {client : Source}
    {addr : SocketAddr} {n : ℕ} {bytes : Bytes} (hrelay : ∀ w ctx,
      Q (.relay ws.isSome ctx client (readFullResponse env.unicode (env.serverStream w) n).2)) :
    Ensures Event.isContact 1
      (handleHttp env (proxyHandler env.enabled users) ws client addr n bytes)
      (fun _ => True) Q := by
  have hinside : ∀ e, e.isOutside = false → Q e := by
    intro e he
    apply hQ
    cases e <;> first | rfl | exact absurd he.symm Bool.false_ne_true
  have htransfer := transfer_events hinside
  apply ensures_handleHttp htransfer (fun _ _ _ => True)
  · intro request host id _ _
    exact request_events hinside _ request
  · intro request host r ctx _ _ _
    rcases r with req | res
    · refine ensures_answerHttp htransfer (response_events hinside) ?_ ?_ ?_
      · exact fun _ => hQ _ rfl
      · exact fun _ => hrelay
      · exact fun _ _ _ => hQ _ rfl
    · exact (ensures_answerHttp_response htransfer (proxyHandler env.enabled users) ws client n host
        (isWebsocketUpgrade env.unicode request) res ctx).mono (Nat.zero_le 1) (fun _ h => h)
        (fun _ h => h)

end

end HexbufferProxy
