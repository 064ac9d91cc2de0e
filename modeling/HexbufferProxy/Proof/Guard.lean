import HexbufferProxy.Proof.Flow

/-!
# Handlers stand between the client and every upstream

* `guarded_handlers`: a procedure that asks the handlers first and keeps to their answer.
* `upstream_guarded`: `handle_http` and each request inside TLS are such procedures.
-/

namespace HexbufferProxy

open Rust Rust.Proc

variable {ω : Type} {n : ℕ}

/-- Without a handler's call, nothing may be contacted. -/
theorem guarded_quiet {es : List Event} (h : ∀ e ∈ es, e.isRequestCall = false)
    (hc : es.countP Event.isContact ≤ 0) : Guarded n es := by
  have hcontact : ∀ e ∈ es, e.isContact = false := by
    intro e he
    have h0 : es.countP Event.isContact = 0 := Nat.le_zero.1 hc
    rw [List.countP_eq_zero] at h0
    simpa using h0 e he
  have hcall : ∀ {i ctx req d}, Event.request i ctx req d ∉ es := by
    intro i ctx req d hm
    exact absurd (h _ hm) (by simp [Event.isRequestCall])
  refine ⟨by omega, ?_, ?_, ?_, ?_⟩
  · intro pre e post hes he
    have hm : e ∈ es := by rw [hes]; simp
    rw [hcontact e hm] at he; exact absurd he Bool.false_ne_true
  · intro pre i ctx req d post hes
    have hm : Event.request i ctx req d ∈ es := by rw [hes]; simp
    exact absurd hm hcall
  · intro i ctx req d hm
    exact absurd hm hcall
  · intro i ctx req d hm
    exact absurd hm hcall

section

variable {α β : Type}

theorem guarded_lift {x : Except Fault α} {f : α → P ω β}
    (h : ∀ a, x = .ok a → ∀ s, Guarded n (f a s).events) (s : World ω) :
    Guarded n ((Proc.lift x >>= f) s).events := by
  rcases x with e | a
  · exact guarded_quiet (fun _ he => absurd he List.not_mem_nil) (Nat.le_refl 0)
  · rw [bind_ok (a := a) rfl]
    exact h a rfl s

theorem guarded_call {g : World ω → α × World ω} {f : α → P ω β}
    (h : ∀ a s, Guarded n (f a s).events) (s : World ω) :
    Guarded n ((Proc.call g >>= f) s).events := by
  rw [bind_ok (a := (g s).1) rfl]
  exact h _ _

end

/-- **A procedure that asks the handlers first**, and then contacts one upstream at most, if all
of them forward, and none otherwise. -/
theorem guarded_handlers {α : Type} {enabled : ω → Bool} {users : List (UserHandler ω)}
    {ctx : HttpContext} {req : Request}
    {f : Except ProxyError RequestOrResponse × HttpContext → P ω α}
    (hf : ∀ r, decision r.1 = .forward →
      Ensures Event.isContact 1 (f r) (fun _ => True) (fun e => e.isRequestCall = false))
    (hs : ∀ r, decision r.1 ≠ .forward → Ensures Event.isContact 0 (f r) (fun _ => True)
      (fun e => e.isRequestCall = false ∧ e.isResponseCall = false)) (s : World ω) :
    Guarded users.length
      (((proxyHandler enabled users).handleRequest ctx req >>= f) s).events := by
  rw [proxyHandler_request]
  obtain ⟨r, hr, hcalls⟩ := stack_requestCalls users 0 ctx req s
  rw [bind_ok hr]
  rw [Nat.zero_add] at hcalls
  set s' := (HandlerStack.handleRequest (numbered users 0) ctx req s).state
  by_cases hd : decision r.1 = .forward
  · obtain ⟨hc, he, -⟩ := hf r hd s'
    refine hcalls.guarded he hc ?_
    intro hb
    rw [decide_eq_false_iff_not] at hb
    exact absurd hd hb
  · obtain ⟨hc, he, -⟩ := hs r hd s'
    refine hcalls.guarded (fun e hm => (he e hm).1) (hc.trans (Nat.zero_le 1)) ?_
    intro _ e hm
    have h0 : (f r s').events.countP Event.isContact = 0 := Nat.le_zero.1 hc
    rw [List.countP_eq_zero] at h0
    exact ⟨(he e hm).2, by simpa using h0 e hm⟩

section

variable (env : Env ω) (users : List (UserHandler ω)) (ws : Option (WebSocketHandler ω))

/-- Neither the proxy's own writes nor response handlers ask a request handler. -/
theorem transfer_notRequest : ∀ e : Event, e.isTransfer = true → e.isRequestCall = false := by
  intro e he
  cases e <;> first | rfl | exact absurd he Bool.false_ne_true

theorem transfer_notCall : ∀ e : Event, e.isTransfer = true →
    e.isRequestCall = false ∧ e.isResponseCall = false := by
  intro e he
  cases e <;> first | exact ⟨rfl, rfl⟩ | exact absurd he Bool.false_ne_true

theorem response_notRequest (ctx : HttpContext) (res : Response) :
    Ensures Event.isContact 0 ((proxyHandler env.enabled users).handleResponse ctx res)
      (fun _ => True) (fun e => e.isRequestCall = false) :=
  ensures_handleResponse env.enabled users (fun _ _ _ => rfl) ctx res

theorem handleHttp_guarded (client : Source) (addr : SocketAddr) (bufSize : ℕ) (bytes : Bytes)
    (s : World ω) : Guarded users.length
      (handleHttp env (proxyHandler env.enabled users) ws client addr bufSize bytes s).events := by
  unfold handleHttp
  refine guarded_lift ?_ s
  intro request _ s
  cases extractHost request bytes with
  | none =>
    have h : Ensures Event.isContact 0 (writeClient env badRequest >>= fun _ => shutdownClient env)
        (fun _ => True) (fun e => e.isRequestCall = false) := by
      apply ensures_bind (ensures_writeClient transfer_notRequest _)
      intro _ _
      exact ensures_shutdownClient transfer_notRequest
    obtain ⟨hc, he, -⟩ := h s
    exact guarded_quiet he hc
  | some host =>
    simp only
    refine guarded_call ?_ s
    intro id s
    unfold requestOrFail
    rw [bind_assoc]
    refine guarded_handlers ?_ ?_ s
    · rintro ⟨r, ctx⟩ hd
      rcases r with e | req | res
      · exact Decision.noConfusion hd
      · refine ensures_answerHttp transfer_notRequest (response_notRequest env users) ?_ ?_ ?_
        · exact fun _ => rfl
        · exact fun _ _ _ => rfl
        · exact fun _ _ _ => rfl
      · exact Decision.noConfusion hd
    · rintro ⟨r, ctx⟩ hd
      rcases r with e | req | res
      · apply ensures_bind (R := fun _ => False) (ensures_fail _)
        intro _ h
        exact h.elim
      · exact absurd rfl hd
      · exact ensures_answerHttp_response transfer_notCall (proxyHandler env.enabled users) ws
          client bufSize host (isWebsocketUpgrade env.unicode request) res ctx

theorem serveRequest_guarded (host : Str) (addr : SocketAddr) (req : Request) (s : World ω) :
    Guarded users.length
      (serveRequest env (proxyHandler env.enabled users) ws host addr req s).events := by
  unfold serveRequest handleHttpsRequest
  simp only [bind_assoc]
  refine guarded_call ?_ s
  intro id s
  refine guarded_handlers ?_ ?_ s
  · rintro ⟨r, ctx⟩ hd
    rcases r with e | q | res
    · exact Decision.noConfusion hd
    · refine ensures_answerHttps transfer_notRequest (response_notRequest env users) ?_ ?_
      · intros; rfl
      · intros; rfl
    · exact Decision.noConfusion hd
  · intro r hd
    exact ensures_answerHttps_refused transfer_notCall hd

/-- The events of a tunnel are those of its requests, one after the other. -/
theorem serveConnection_guarded (host : Str) (addr : SocketAddr) : ∀ (reqs : List Request)
    (s : World ω), ∃ ess : List (List Event), ess.length ≤ reqs.length ∧
      (serveConnection env (proxyHandler env.enabled users) ws host addr reqs s).events =
        ess.flatten ∧ ∀ es ∈ ess, Guarded users.length es := by
  intro reqs
  induction reqs with
  | nil => intro s; exact ⟨[], Nat.le_refl 0, rfl, fun _ h => absurd h List.not_mem_nil⟩
  | cons req reqs ih =>
    intro s
    have hg := serveRequest_guarded env users ws host addr req s
    unfold serveConnection
    set m := serveRequest env (proxyHandler env.enabled users) ws host addr req with hm
    rcases hr : (m s).result with e | more
    · rw [bind_error hr]
      exact ⟨[(m s).events], by simp, by simp, by simpa using hg⟩
    · rw [bind_ok hr]
      rcases more with _ | _
      · exact ⟨[(m s).events], by simp, by simp; rfl, by simpa using hg⟩
      · obtain ⟨ess, hlen, hes, hall⟩ := ih (m s).state
        refine ⟨(m s).events :: ess, by simpa using hlen, ?_, ?_⟩
        · rw [List.flatten_cons, ← hes]; rfl
        · intro es he
          rcases List.mem_cons.1 he with rfl | he
          · exact hg
          · exact hall es he

/-- **No request reaches an upstream past its handlers.** On the plain path and inside TLS, for
ordinary requests and upgrades: the upstream is contacted once at most, after all handlers have
forwarded the request; a handler that answers or fails ends the request for all others. -/
theorem upstream_guarded :
    (∀ client addr bufSize bytes s, Guarded users.length
      (handleHttp env (proxyHandler env.enabled users) ws client addr bufSize bytes s).events) ∧
    (∀ host addr req s, Guarded users.length
      (serveRequest env (proxyHandler env.enabled users) ws host addr req s).events) ∧
    ∀ host addr reqs s, ∃ ess : List (List Event), ess.length ≤ reqs.length ∧
      (serveConnection env (proxyHandler env.enabled users) ws host addr reqs s).events =
        ess.flatten ∧ ∀ es ∈ ess, Guarded users.length es :=
  ⟨handleHttp_guarded env users ws, serveRequest_guarded env users ws,
    serveConnection_guarded env users ws⟩

end

end HexbufferProxy
