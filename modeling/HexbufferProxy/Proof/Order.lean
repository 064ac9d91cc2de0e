import HexbufferProxy.Proof.Reply
import HexbufferProxy.Proof.Stack

/-!
# The order of the handlers

* `proxyHandler_inOrder`: a proxy asks its handlers in the order of their registration, for
  requests and for responses alike.
* `handlers_in_order`: with it, what the client is shown.
-/

namespace HexbufferProxy

open Rust Rust.Proc

variable {ω : Type} {env : Env ω} {users : List (UserHandler ω)}

/-! ## One handler after the other -/

theorem stack_request_inOrder : ∀ (users : List (UserHandler ω)) (i : ℕ) (ctx : HttpContext)
    (req : Request) (x : World ω), HandlerStack.handleRequest (numbered users i) ctx req x =
      ⟨.ok (passRequest users ctx req x.ext).1,
        { x with ext := (passRequest users ctx req x.ext).2 },
        requestCalls users i ctx req x.ext⟩ := by
  intro users
  induction users with
  | nil => intro i ctx req x; rfl
  | cons u us ih =>
    intro i ctx req x
    have hcall : ((u.toHandler i).handleRequest ctx req x).result =
        .ok (u.handleRequest ctx req x.ext).1 := rfl
    rw [numbered_cons, HandlerStack.handleRequest, bind_ok hcall, toHandler_request]
    rcases hu : u.handleRequest ctx req x.ext with ⟨⟨e | req' | res, ctx'⟩, w⟩
    · simp only [passRequest, requestCalls, hu]
      rfl
    · simp only [passRequest, requestCalls, hu]
      rw [ih]
      rfl
    · simp only [passRequest, requestCalls, hu]
      rfl

theorem stack_response_inOrder : ∀ (users : List (UserHandler ω)) (i : ℕ) (ctx : HttpContext)
    (res : Response) (x : World ω), HandlerStack.handleResponse (numbered users i) ctx res x =
      ⟨.ok (passResponse users ctx res x.ext).1,
        { x with ext := (passResponse users ctx res x.ext).2 },
        responseCalls users i ctx res x.ext⟩ := by
  intro users
  induction users with
  | nil => intro i ctx res x; rfl
  | cons u us ih =>
    intro i ctx res x
    have hcall : (u.toHandler i).handleResponse ctx res x =
        ⟨.ok (u.handleResponse ctx res x.ext).1,
          { x with ext := (u.handleResponse ctx res x.ext).2 }, [.response i ctx res]⟩ := rfl
    have hok : ((u.toHandler i).handleResponse ctx res x).result =
        .ok (u.handleResponse ctx res x.ext).1 := rfl
    rw [numbered_cons, HandlerStack.handleResponse, bind_ok hok, hcall]
    rcases hu : u.handleResponse ctx res x.ext with ⟨⟨e | res', ctx'⟩, w⟩
    · simp only [passResponse, responseCalls, hu]
      rfl
    · simp only [passResponse, responseCalls, hu]
      rw [ih]
      rfl

/-- **A proxy asks its handlers in the order of their registration**, for requests and for
responses. -/
theorem proxyHandler_inOrder (enabled : ω → Bool) (users : List (UserHandler ω)) :
    proxyHandler enabled users = inOrder enabled users := by
  have hreq : (proxyHandler enabled users).handleRequest =
      (inOrder enabled users).handleRequest := by
    rw [proxyHandler_request]
    funext ctx req x
    exact stack_request_inOrder users 0 ctx req x
  have hres : (proxyHandler enabled users).handleResponse =
      (inOrder enabled users).handleResponse := by
    rw [proxyHandler_response]
    funext ctx res x
    exact stack_response_inOrder users 0 ctx res x
  exact handler_eq hreq hres rfl

/-- The handler registered last is shown what the others have made of a response, and has the last
word. -/
theorem passResponse_last (us : List (UserHandler ω)) (u : UserHandler ω) (ctx : HttpContext)
    (res : Response) (w : ω) : passResponse (us ++ [u]) ctx res w =
      match passResponse us ctx res w with
      | ((.ok res, ctx), w) => u.handleResponse ctx res w
      | r => r := by
  induction us generalizing ctx res w with
  | nil =>
    simp only [List.nil_append, passResponse]
    rcases u.handleResponse ctx res w with ⟨⟨e | res', ctx'⟩, w'⟩ <;> rfl
  | cons v us ih =>
    rw [List.cons_append, passResponse, passResponse]
    rcases hv : v.handleResponse ctx res w with ⟨⟨e | res', ctx'⟩, w'⟩
    · rfl
    · exact ih ctx' res' w'

/-! ## What the client is shown -/

section

variable {n : ℕ}

/-- Asking the handlers about a response: their calls, and what they make of it in order. -/
theorem traces_response (ctx : HttpContext) (res : Response) :
    Traces ((proxyHandler env.enabled users).handleResponse ctx res) fun es r =>
      ∃ a, r = .ok a ∧ ResponseCalls users 0 res es a.1.toOption ∧
        ∀ out, a.1 = .ok out → PassesAs users res out := by
  intro x
  rw [proxyHandler_response]
  obtain ⟨a, ha, hcalls⟩ := stack_responses users 0 ctx res x
  refine ⟨a, ha, hcalls, ?_⟩
  intro out hout
  rw [stack_response_inOrder] at ha
  exact ⟨ctx, x.ext, (congrArg Prod.fst (Except.ok.inj ha)).trans hout⟩

theorem traces_responseOrFail_order (ctx : HttpContext) (res : Response) :
    Traces (responseOrFail (proxyHandler env.enabled users) ctx res) fun es r =>
      (∀ e ∈ es, e.givesHead = false) ∧
        ∀ out ctx', r = .ok (out, ctx') → PassesAs users res out := by
  unfold responseOrFail
  refine traces_bind (traces_response ctx res) ?_ ?_
  · rintro es e ⟨a, h, -⟩
    exact nomatch h
  · rintro es ⟨r, ctx'⟩ ⟨_, ⟨⟩, hcalls, hpass⟩
    have hquiet : ∀ e ∈ es ++ [], e.givesHead = false := by
      rw [List.append_nil]
      exact fun e he => (hcalls.noHead e he).1
    rcases r with e | out
    · exact traces_fail ⟨hquiet, fun _ _ h => nomatch h⟩
    · refine traces_pure ⟨hquiet, ?_⟩
      rintro _ _ ⟨⟩
      exact hpass out rfl

/-- The ways to come to a first head, of which `P` is true. -/
inductive OrderTrace (P : List Event → Event → Prop) : List Event → Prop
  | headless (es : List Event) (h : ∀ e ∈ es, e.givesHead = false) : OrderTrace P es
  /-- The proxy answers without an upstream. -/
  | uncontacted (pre : List Event) (e : Event) (post : List Event)
      (hpre : ∀ e' ∈ pre, e'.givesHead = false) (he : e.givesHead = true)
      (hno : ∀ e' ∈ pre, e'.isContact = false) : OrderTrace P (pre ++ e :: post)
  | shown (pre : List Event) (e : Event) (post : List Event)
      (hpre : ∀ e' ∈ pre, e'.givesHead = false) (he : e.givesHead = true) (h : P pre e) :
      OrderTrace P (pre ++ e :: post)

theorem OrderTrace.first {P : List Event → Event → Prop} {es : List Event} (h : OrderTrace P es) :
    FirstHead P es := by
  intro pre e post heq he hpre hcontact
  cases h with
  | headless _ h =>
    have hfalse : e.givesHead = false :=
      h e (heq ▸ List.mem_append_right pre List.mem_cons_self)
    rw [he] at hfalse
    exact absurd hfalse.symm Bool.false_ne_true
  | uncontacted pre' e' post' hpre' he' hno =>
    obtain ⟨rfl, rfl, rfl⟩ := first_unique heq hpre' hpre he' he
    obtain ⟨c, hc, hcon⟩ := hcontact
    rw [hno c hc] at hcon
    exact absurd hcon Bool.false_ne_true
  | shown pre' e' post' hpre' he' h =>
    obtain ⟨rfl, rfl, rfl⟩ := first_unique heq hpre' hpre he' he
    exact h

/-- Calls of `handle_request` may come before. -/
theorem OrderTrace.behind {P : List Event → Event → Prop} {es es₀ : List Event}
    (h : OrderTrace P es) (h₀ : ∀ e ∈ es₀, e.isRequestCall = true)
    (hP : ∀ pre e, P pre e → P (es₀ ++ pre) e) : OrderTrace P (es₀ ++ es) := by
  have hheads : ∀ {pre : List Event}, (∀ e ∈ pre, e.givesHead = false) →
      ∀ e ∈ es₀ ++ pre, e.givesHead = false := by
    intro pre hpre e he
    rcases List.mem_append.1 he with he | he
    · exact (requestCall_quiet (h₀ e he)).1
    · exact hpre e he
  cases h with
  | headless _ h => exact .headless _ (hheads h)
  | uncontacted pre e post hpre he hno =>
    rw [← List.append_assoc]
    refine .uncontacted _ e post (hheads hpre) he ?_
    intro e' he'
    rcases List.mem_append.1 he' with he' | he'
    · exact (requestCall_quiet (h₀ e' he')).2.2
    · exact hno e' he'
  | shown pre e post hpre he h =>
    rw [← List.append_assoc]
    exact .shown _ e post (hheads hpre) he (hP pre e h)

theorem ShowsInOrder.behind {pre : List Event} {e : Event} (h : ShowsInOrder env users n pre e)
    (es₀ : List Event) : ShowsInOrder env users n (es₀ ++ pre) e := by
  obtain ⟨res, out, hreplied, hpass, hshows⟩ := h
  exact ⟨res, out, hreplied.behind es₀, hpass, hshows⟩

/-- The handlers have a reply in order, and the client is given what comes out. -/
theorem traces_shown_order {pre : List Event} {ctx : HttpContext} {res : Response}
    {f : Response × HttpContext → P ω Unit} (hpre : ∀ e ∈ pre, e.givesHead = false)
    (hreplied : Replied env n pre res)
    (hf : ∀ out ctx', Traces (f (out, ctx')) (GivesResponse env out)) :
    Traces (responseOrFail (proxyHandler env.enabled users) ctx res >>= f)
      fun es _ => OrderTrace (ShowsInOrder env users n) (pre ++ es) := by
  have hheads : ∀ {calls : List Event}, (∀ e ∈ calls, e.givesHead = false) →
      ∀ e ∈ pre ++ calls, e.givesHead = false := by
    intro calls hquiet e he
    rcases List.mem_append.1 he with he | he
    · exact hpre e he
    · exact hquiet e he
  refine traces_bind (traces_responseOrFail_order ctx res) ?_ ?_
  · rintro es e ⟨hquiet, -⟩
    exact OrderTrace.headless _ (hheads hquiet)
  rintro calls ⟨out, ctx'⟩ ⟨hquiet, hpass⟩
  refine (hf out ctx').mono ?_
  rintro es r ⟨bs, post, rfl, hhead, -⟩
  rw [← List.append_assoc]
  exact OrderTrace.shown _ _ post (hheads hquiet) rfl
    ⟨res, out, hreplied.after calls, hpass out ctx' rfl, hhead⟩

/-- The normal branch of `handle_http`. -/
theorem forwardRequest_order (ctx : HttpContext) (host : Str) (req : Request) :
    Traces (forwardRequest env (proxyHandler env.enabled users) ctx host req)
      fun es _ => OrderTrace (ShowsInOrder env users n) es := by
  unfold forwardRequest
  cases hq : absoluteRequest env "http".toList host req with
  | none => exact traces_fail (OrderTrace.headless [] fun _ h => absurd h List.not_mem_nil)
  | some q =>
    have hquiet : ∀ e ∈ [Event.sendRequest q], e.givesHead = false :=
      fun e he => (asked_quiet q e he).1
    refine traces_asked (fun _ _ _ _ => OrderTrace.headless _ hquiet) ?_
    intro w res hres
    exact traces_shown_order hquiet (Or.inl ⟨q, w, List.mem_cons_self, hres⟩)
      fun out _ => traces_forwardResponse out

/-- The WebSocket branch of `handle_http`. -/
theorem forwardUpgrade_order (ws : Option (WebSocketHandler ω)) (client : Source)
    (ctx : HttpContext) (host : Str) (req : Request) :
    Traces (forwardUpgrade env (proxyHandler env.enabled users) ws client n ctx host req)
      fun es _ => OrderTrace (ShowsInOrder env users n) es := by
  have hquiet : ∀ e ∈ upgradeAsked host req, e.givesHead = false :=
    fun e he => (upgradeAsked_quiet host req e he).1
  refine traces_forwardUpgrade ?_ ?_
  · exact fun es _ hes _ => OrderTrace.headless es fun e he => hquiet e (hes.subset he)
  intro w res hreply
  exact traces_shown_order hquiet (Or.inr ⟨_, w, List.mem_cons_self, hreply⟩)
    fun out ctx' => traces_upgradeReply ws client ctx' out _

/-- A request inside TLS, once it is forwarded. -/
theorem answerHttps_order (ws : Option (WebSocketHandler ω)) (host : Str) (ctx : HttpContext)
    (req : Request) :
    Traces (answerHttps env (proxyHandler env.enabled users) ws host (.ok (.request req), ctx) >>=
      sendReply) fun es _ => OrderTrace (ShowsInOrderTls env users n) es := by
  have hsilent : OrderTrace (ShowsInOrderTls env users n) [] :=
    OrderTrace.headless [] fun _ h => absurd h List.not_mem_nil
  by_cases hacc : AcceptsInside env host req
  · -- the client is answered before an upstream is contacted
    obtain ⟨res, path, origin, cookie, -, hrun⟩ :=
      answerHttps_accepts (proxyHandler env.enabled users) ws ctx hacc
    rw [hrun]
    intro x
    exact OrderTrace.uncontacted [] _ _ (fun _ h => absurd h List.not_mem_nil) rfl
      fun _ h => absurd h List.not_mem_nil
  by_cases hup : env.isUpgradeRequest req = true
  · refine (answerHttps_refused _ ws ctx hup hacc).mono ?_
    rintro es _ rfl
    exact hsilent
  rw [answerHttps_ordinary hup]
  cases hq : absoluteRequest env "https".toList host req with
  | none => exact fun _ => hsilent
  | some q =>
    have hsent := asked_quiet q
    rw [bind_assoc]
    refine traces_bind (traces_sendRequest q) ?_ ?_
    · rintro es e ⟨-, w, h⟩
      exact nomatch h
    rintro es r ⟨rfl, w, hr⟩
    have hr' : r = (env.sendRequest q w).1 := Except.ok.inj hr
    rcases r with f | res
    · intro x
      exact OrderTrace.shown [.sendRequest q] _ _ (fun e he => (hsent e he).1) rfl
        (Or.inr ⟨rfl, Or.inl ⟨rfl, q, w, f, List.mem_cons_self, hr'.symm⟩⟩)
    rw [bind_assoc]
    refine traces_bind (traces_response ctx res) ?_ ?_
    · rintro es e ⟨a, h, -⟩
      exact nomatch h
    rintro calls ⟨r, ctx'⟩ ⟨_, ⟨⟩, hcalls, hpass⟩
    have hquiet : ∀ e ∈ [Event.sendRequest q] ++ calls, e.givesHead = false := by
      intro e he
      rcases List.mem_append.1 he with he | he
      · exact (hsent e he).1
      · exact (hcalls.noHead e he).1
    have hreplied : Replied env n ([.sendRequest q] ++ calls) res :=
      Or.inl ⟨q, w, List.mem_append_left _ List.mem_cons_self, hr'.symm⟩
    rcases r with e | out
    · intro x
      rw [← List.append_assoc]
      refine OrderTrace.shown _ _ _ hquiet rfl (Or.inr ⟨rfl, Or.inr ⟨res, hreplied, ?_⟩⟩)
      rw [filter_responseCalls (fun e he => (hsent e he).2) hcalls]
      exact hcalls
    · intro x
      rw [← List.append_assoc]
      exact OrderTrace.shown _ _ _ hquiet rfl (Or.inl ⟨res, out, hreplied, hpass out rfl, rfl⟩)

theorem ownAnswer_order (bs : Bytes) :
    Traces (writeClient env bs >>= fun _ => shutdownClient env)
      fun es _ => OrderTrace (ShowsInOrder env users n) es := by
  refine (traces_ownAnswer bs).mono ?_
  rintro es _ ⟨post, rfl⟩
  exact OrderTrace.uncontacted [] _ post (fun _ h => absurd h List.not_mem_nil) rfl
    fun _ h => absurd h List.not_mem_nil

/-- What follows on the handlers' answer on the plain path. -/
theorem answerHttp_order (ws : Option (WebSocketHandler ω)) (client : Source) (host : Str)
    (isWs : Bool) (r : RequestOrResponse × HttpContext) :
    Traces (answerHttp env (proxyHandler env.enabled users) ws client n host isWs r)
      fun es _ => OrderTrace (ShowsInOrder env users n) es := by
  rcases r with ⟨q | res, ctx⟩
  · cases isWs with
    | true => exact forwardUpgrade_order ws client ctx host q
    | false => exact forwardRequest_order ctx host q
  · exact ownAnswer_order _

/-- **Every run of `handle_http`.** -/
theorem handleHttp_order (ws : Option (WebSocketHandler ω)) (client : Source) (addr : SocketAddr)
    (raw : Bytes) :
    Traces (handleHttp env (proxyHandler env.enabled users) ws client addr n raw)
      fun es _ => OrderTrace (ShowsInOrder env users n) es := by
  intro x
  cases hparse : parseRawRequest env.http raw with
  | error f =>
    rw [handleHttp_unparsed hparse]
    exact OrderTrace.headless [] fun _ h => absurd h List.not_mem_nil
  | ok req =>
    cases hhost : extractHost req raw with
    | none =>
      rw [handleHttp_hostless hparse hhost]
      exact ownAnswer_order badRequest x
    | some host =>
      set ctx : HttpContext := ⟨x.requestId, host, addr, false⟩
      have hcalls : ∀ e ∈ ((proxyHandler env.enabled users).handleRequest ctx req
          x.numbered).events, e.isRequestCall = true := fun e he =>
        (requestCalls_quiet env.enabled users ctx req x.numbered e he).1
      have hrun : handleHttp env (proxyHandler env.enabled users) ws client addr n raw x =
          (requestOrFail (proxyHandler env.enabled users) ctx req >>=
            answerHttp env (proxyHandler env.enabled users) ws client n host
              (isWebsocketUpgrade env.unicode req)) x.numbered := handleHttp_run hparse hhost
      obtain ⟨⟨r, ctx'⟩, hr, -⟩ := stack_requestCalls users 0 ctx req x.numbered
      rw [← proxyHandler_request env.enabled] at hr
      rw [hrun]
      rcases r with e | r
      · -- a handler fails: the client is given nothing
        have hfail := requestOrFail_error hr
        have herr : (requestOrFail (proxyHandler env.enabled users) ctx req x.numbered).result =
            .error (.error (.proxy e)) := by rw [hfail]
        rw [bind_error herr, hfail]
        exact OrderTrace.headless _ fun e he => (requestCall_quiet (hcalls e he)).1
      · have hasked := requestOrFail_ok hr
        have hok : (requestOrFail (proxyHandler env.enabled users) ctx req x.numbered).result =
            .ok (r, ctx') := by rw [hasked]
        rw [bind_ok hok, hasked]
        exact (answerHttp_order ws client host _ (r, ctx') _).behind hcalls
          fun _ _ h => h.behind _

/-- **Every request inside TLS.** -/
theorem serveRequest_order (ws : Option (WebSocketHandler ω)) (host : Str) (addr : SocketAddr)
    (req : Request) :
    Traces (serveRequest env (proxyHandler env.enabled users) ws host addr req)
      fun es _ => OrderTrace (ShowsInOrderTls env users n) es := by
  intro x
  set ctx : HttpContext := ⟨x.requestId, host, addr, true⟩
  have hcalls : ∀ e ∈ ((proxyHandler env.enabled users).handleRequest ctx req x.numbered).events,
      e.isRequestCall = true := fun e he =>
    (requestCalls_quiet env.enabled users ctx req x.numbered e he).1
  obtain ⟨⟨r, ctx'⟩, hr, -⟩ := stack_requestCalls users 0 ctx req x.numbered
  rw [← proxyHandler_request env.enabled] at hr
  rw [serveRequest_run, bind_ok hr]
  refine OrderTrace.behind ?_ hcalls fun pre e h => ?_
  have hself : ∀ res : Response, OrderTrace (ShowsInOrderTls env users n) [.reply res] := fun res =>
    OrderTrace.uncontacted [] _ [] (fun _ h => absurd h List.not_mem_nil) rfl
      fun _ h => absurd h List.not_mem_nil
  · rcases r with e | q | res
    · exact hself badGateway
    · exact answerHttps_order ws host ctx' q _
    · exact hself res
  · rcases h with h | ⟨hshows, hun⟩
    · exact .inl (h.behind _)
    · exact .inr ⟨hshows, hun.behind fun e he => (requestCall_quiet (hcalls e he)).2.1⟩

end

/-- **Requests and responses pass the handlers in the order of their registration**: the handler
registered last is asked last, about a response too, and what it makes of what the others have made
is what the client is shown, on the plain path and inside TLS. -/
theorem handlers_in_order (env : Env ω) (users : List (UserHandler ω))
    (ws : Option (WebSocketHandler ω)) (client : Source) (addr : SocketAddr) (n : ℕ) :
    proxyHandler env.enabled users = inOrder env.enabled users ∧
    (∀ us (u : UserHandler ω) ctx res w, passResponse (us ++ [u]) ctx res w =
      match passResponse us ctx res w with
      | ((.ok res, ctx), w) => u.handleResponse ctx res w
      | r => r) ∧
    (∀ raw x, FirstHead (ShowsInOrder env users n)
      (handleHttp env (proxyHandler env.enabled users) ws client addr n raw x).events) ∧
    ∀ host req x, FirstHead (ShowsInOrderTls env users n)
      (serveRequest env (proxyHandler env.enabled users) ws host addr req x).events :=
  ⟨proxyHandler_inOrder env.enabled users, passResponse_last,
    fun raw x => (handleHttp_order ws client addr raw x).first,
    fun host req x => (serveRequest_order ws host addr req x).first⟩

/-- A handler that sets the status of every response. -/
def statusSetter (code : StatusCode) : UserHandler Unit where
  handleRequest ctx req w := ((.ok (.request req), ctx), w)
  handleResponse ctx res w := ((.ok { res with status := code }, ctx), w)
  shouldInterceptTls _ w := (true, w)

/-- Of two handlers that set the status, the one registered last has its way. -/
theorem handlers_not_reversed :
    ¬ ∀ (enabled : Unit → Bool) (users : List (UserHandler Unit)), 2 ≤ users.length →
      ∀ ctx res x, ((proxyHandler enabled users).handleResponse ctx res x).result =
        .ok (passResponse users.reverse ctx res x.ext).1 := by
  intro hall
  have h := hall (fun _ => true) [statusSetter ⟨201, by decide⟩, statusSetter ⟨202, by decide⟩]
    (by decide) ⟨1, "a.example".toList, ⟨"127.0.0.1", 5000⟩, false⟩ badGateway ⟨(), 0⟩
  have hstatus : (202 : ℕ) = 201 := by
    have hok := congrArg (fun r => r.map fun a => a.1.map fun res : Response => res.status.1) h
    exact Except.ok.inj (Except.ok.inj hok)
  exact absurd hstatus (by decide)

end HexbufferProxy
