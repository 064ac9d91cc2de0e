import HexbufferProxy.Proof.Flow
import HexbufferProxy.Proof.Forward
import HexbufferProxy.Proof.Host
import HexbufferProxy.Spec.Reply

/-!
# How a reply gets to the client

* `traces_responseOrFail`, `traces_forwardResponse`, `traces_upgradeReply`: the steps of both
  branches of `handle_http`.
* `HttpTrace`, `traces_shown`: all that happens once there is a reply on the plain path, and with
  `forwardRequest_trace`, `forwardUpgrade_trace` once a request is forwarded.
* `HttpsTrace`, `answerHttps_trace`, `answerHttps_accepts`: the same inside TLS.
* `handleHttp_run`, `serveRequest_run`: from the request to the handlers' answer.
* `reply_passes_iff`: every reply goes through `handle_response` first, but for upgrades inside
  TLS.
-/

namespace HexbufferProxy

open Rust Rust.Proc

variable {ω : Type} {env : Env ω} {users : List (UserHandler ω)}

/-! ## The steps -/

/-- `?` on a handler's response: the calls, and what comes out of them. -/
theorem traces_responseOrFail (ctx : HttpContext) (res : Response) :
    Traces (responseOrFail (proxyHandler env.enabled users) ctx res) fun es r =>
      ((∃ f, r = .error f) ∧ ResponseCalls users 0 res es none) ∨
        ∃ out ctx', r = .ok (out, ctx') ∧ ResponseCalls users 0 res es (some out) := by
  unfold responseOrFail
  rw [proxyHandler_response]
  refine traces_bind (T := fun es r => ∃ a, r = .ok a ∧ ResponseCalls users 0 res es a.1.toOption)
    (fun s => stack_responses users 0 ctx res s) ?_ ?_
  · rintro es e ⟨a, h, -⟩
    exact nomatch h
  · rintro es ⟨r, ctx'⟩ ⟨_, ⟨⟩, hcalls⟩
    rcases r with e | out
    · exact traces_fail (Or.inl ⟨⟨_, rfl⟩, by rw [List.append_nil]; exact hcalls⟩)
    · exact traces_pure (Or.inr ⟨out, ctx', rfl, by rw [List.append_nil]; exact hcalls⟩)

/-- What asks an upstream neither answers the client nor asks for a response. -/
theorem asked_quiet (q : Request) :
    ∀ e ∈ [Event.sendRequest q], e.givesHead = false ∧ e.isResponseCall = false := by
  intro e he
  rw [List.mem_singleton.1 he]
  exact ⟨rfl, rfl⟩

theorem upgradeAsked_quiet (host : Str) (req : Request) :
    ∀ e ∈ upgradeAsked host req, e.givesHead = false ∧ e.isResponseCall = false := by
  intro e he
  rcases List.mem_cons.1 he with rfl | he
  · exact ⟨rfl, rfl⟩
  · rw [List.mem_singleton.1 he]
    exact ⟨rfl, rfl⟩

/-- The client is given a response, its head first, and no handler is asked. -/
def GivesResponse (env : Env ω) (out : Response) (es : List Event) (r : Except Fault Unit) : Prop :=
  ∃ bs post, es = .toClient bs :: post ∧ serializeResponseHead env.http out <+: bs ∧
    (∀ e ∈ post, e.isResponseCall = false) ∧
    (r = .ok () → ∀ b, out.body = .full b →
      bs ++ clientBytes post = serializeResponseHead env.http out ++ b)

/-- Writing the reply to a request. -/
theorem traces_forwardResponse (out : Response) :
    Traces (forwardResponse env out) (GivesResponse env out) := by
  have hquiet : ∀ e : Event, e.isTransfer = true → e.isResponseCall = false := by
    intro e he
    cases e <;> first | rfl | exact absurd he Bool.false_ne_true
  have hrest : Traces (writeBodyToStream env out.body >>= fun _ => shutdownClient env) fun es r =>
      (∀ e ∈ es, e.isResponseCall = false) ∧ (r = .ok () → clientBytes es = out.body.data) := by
    have hens : Ensures Event.isContact 0 (writeBodyToStream env out.body >>= fun _ =>
        shutdownClient env) (fun _ => True) (fun e => e.isResponseCall = false) := by
      apply ensures_bind (ensures_writeBodyToStream hquiet _)
      intro _ _
      exact ensures_shutdownClient hquiet
    have hwrites : Writes Event.written (writeBodyToStream env out.body >>= fun _ =>
        shutdownClient env) (out.body.data ++ []) (fun _ => True) := by
      apply writes_bind (writes_writeBodyToStream out.body)
      intro _ _
      exact writes_shutdownClient
    intro s
    refine ⟨(hens s).2.1, ?_⟩
    intro hr
    rw [List.append_nil] at hwrites
    exact (hwrites s () hr).1
  unfold forwardResponse
  refine traces_bind (traces_writeClient (serializeResponseHead env.http out)) ?_ ?_
  · rintro es e rfl
    exact ⟨_, [], rfl, List.prefix_rfl, fun _ h => absurd h List.not_mem_nil, fun h => nomatch h⟩
  rintro es _ rfl
  refine hrest.mono ?_
  rintro post r ⟨hpost, hdata⟩
  refine ⟨_, post, rfl, List.prefix_rfl, hpost, ?_⟩
  intro hrun b hb
  rw [hdata hrun, hb]
  rfl

/-- An answer of our own. -/
theorem traces_ownAnswer (bs : Bytes) :
    Traces (writeClient env bs >>= fun _ => shutdownClient env) fun es _ =>
      ∃ post, es = .toClient bs :: post := by
  refine traces_bind (traces_writeClient bs) ?_ ?_
  · rintro es e rfl
    exact ⟨[], rfl⟩
  · rintro es _ rfl
    exact fun y => ⟨_, rfl⟩

/-- Writing the reply to an upgrade, and what comes of the connection. -/
theorem traces_upgradeReply (ws : Option (WebSocketHandler ω)) (client : Source)
    (ctx : HttpContext) (out : Response) (server : Source) :
    Traces (writeClient env (serializeResponse env.http out) >>= fun _ =>
      (if isWebsocketResponse out = true then Proc.emit (.relay ws.isSome ctx client server)
        else shutdownClient env : P ω Unit)) (GivesResponse env out) := by
  have hhead : serializeResponseHead env.http out <+: serializeResponse env.http out :=
    List.prefix_append _ _
  have hlast : Traces (if isWebsocketResponse out = true then
      Proc.emit (.relay ws.isSome ctx client server) else shutdownClient env : P ω Unit)
      fun es _ => ∃ e, es = [e] ∧ e.isResponseCall = false ∧ e.written = [] := by
    split
    · exact traces_emit ⟨_, rfl, rfl, rfl⟩
    · exact traces_write.mono fun es _ h => ⟨_, h.1, rfl, rfl⟩
  refine traces_bind (traces_writeClient (serializeResponse env.http out)) ?_ ?_
  · rintro es e rfl
    exact ⟨_, [], rfl, hhead, fun _ h => absurd h List.not_mem_nil, fun h => nomatch h⟩
  rintro es _ rfl
  refine hlast.mono ?_
  rintro es r ⟨e, rfl, he, hw⟩
  refine ⟨_, [e], rfl, hhead, ?_, ?_⟩
  · intro e' he'
    rw [List.mem_singleton.1 he']
    exact he
  · intro _ b hb
    unfold clientBytes serializeResponse
    rw [hb, List.flatMap_singleton, hw, List.append_nil]
    rfl

theorem Replied.behind {n : ℕ} {es : List Event} {res : Response} (h : Replied env n es res)
    (es₀ : List Event) : Replied env n (es₀ ++ es) res := by
  rcases h with ⟨q, w, hmem, hres⟩ | ⟨target, w, hmem, hres⟩
  · exact Or.inl ⟨q, w, List.mem_append_right es₀ hmem, hres⟩
  · exact Or.inr ⟨target, w, List.mem_append_right es₀ hmem, hres⟩

theorem Replied.after {n : ℕ} {es : List Event} {res : Response} (h : Replied env n es res)
    (es₁ : List Event) : Replied env n (es ++ es₁) res := by
  rcases h with ⟨q, w, hmem, hres⟩ | ⟨target, w, hmem, hres⟩
  · exact Or.inl ⟨q, w, List.mem_append_left es₁ hmem, hres⟩
  · exact Or.inr ⟨target, w, List.mem_append_left es₁ hmem, hres⟩

theorem Unanswered.behind {n : ℕ} {es es₀ : List Event} (h : Unanswered env users n es)
    (h₀ : ∀ e ∈ es₀, e.isResponseCall = false) : Unanswered env users n (es₀ ++ es) := by
  have hfilter : (es₀ ++ es).filter Event.isResponseCall = es.filter Event.isResponseCall := by
    rw [List.filter_append, List.filter_eq_nil_iff.2 fun e he => by rw [h₀ e he]; simp,
      List.nil_append]
  unfold Unanswered
  rw [hfilter]
  rcases h with ⟨hnone, q, w, f, hmem, hres⟩ | ⟨res, hreplied, hcalls⟩
  · exact Or.inl ⟨hnone, q, w, f, List.mem_append_right es₀ hmem, hres⟩
  · exact Or.inr ⟨res, hreplied.behind es₀, hcalls⟩

theorem ResponseCalls.noHead {i : ℕ} {res : Response} {es : List Event} {final : Option Response}
    (h : ResponseCalls users i res es final) :
    ∀ e ∈ es, e.givesHead = false ∧ e.isResponseCall = true := by
  intro e he
  obtain ⟨_, _, _, rfl, -⟩ := h.mem e he
  exact ⟨rfl, rfl⟩

/-- The calls of `handle_response` among the events. -/
theorem filter_responseCalls {pre calls : List Event} {res : Response} {final : Option Response}
    (hpre : ∀ e ∈ pre, e.isResponseCall = false)
    (hcalls : ResponseCalls users 0 res calls final) :
    (pre ++ calls).filter Event.isResponseCall = calls := by
  have h1 : pre.filter Event.isResponseCall = [] := by
    rw [List.filter_eq_nil_iff]
    intro e he
    rw [hpre e he]
    exact Bool.false_ne_true
  have h2 : calls.filter Event.isResponseCall = calls := by
    rw [List.filter_eq_self]
    exact fun e he => (hcalls.noHead e he).2
  rw [List.filter_append, h1, h2, List.nil_append]

/-- What comes behind the calls, and makes none, is no matter. -/
theorem shownOnce_replied {n : ℕ} {pre calls post : List Event} {res : Response}
    {final : Option Response} (hpre : ∀ e ∈ pre, e.isResponseCall = false)
    (hreplied : Replied env n pre res) (hcalls : ResponseCalls users 0 res calls final)
    (hpost : ∀ e ∈ post, e.isResponseCall = false) :
    ShownOnce env users n (pre ++ (calls ++ post)) := by
  refine .inr ⟨res, final, hreplied.after _, ?_⟩
  have hnone : post.filter Event.isResponseCall = [] := by
    rw [List.filter_eq_nil_iff]
    intro e he
    rw [hpost e he]
    exact Bool.false_ne_true
  rw [← List.append_assoc, List.filter_append, filter_responseCalls hpre hcalls, hnone,
    List.append_nil]
  exact hcalls

theorem shownOnce_unreplied {n : ℕ} {es : List Event} (h : Unreplied env n es)
    (hes : ∀ e ∈ es, e.isResponseCall = false) : ShownOnce env users n es := by
  refine .inl ⟨h, ?_⟩
  rw [List.filter_eq_nil_iff]
  intro e he
  rw [hes e he]
  exact Bool.false_ne_true

theorem shownOnce_silent {n : ℕ} : ShownOnce env users n [] :=
  shownOnce_unreplied (.unasked fun _ he => absurd he List.not_mem_nil)
    fun _ he => absurd he List.not_mem_nil

theorem requestCall_quiet {e : Event} (h : e.isRequestCall = true) :
    e.givesHead = false ∧ e.isResponseCall = false ∧ e.isContact = false := by
  cases e <;> first | exact ⟨rfl, rfl, rfl⟩ | exact absurd h Bool.false_ne_true

/-- Calls of `handle_request` may come before. -/
theorem ShownOnce.behind {n : ℕ} {es es₀ : List Event} (h : ShownOnce env users n es)
    (h₀ : ∀ e ∈ es₀, e.isRequestCall = true) : ShownOnce env users n (es₀ ++ es) := by
  have hnone : es₀.filter Event.isResponseCall = [] := by
    rw [List.filter_eq_nil_iff]
    intro e he
    rw [(requestCall_quiet (h₀ e he)).2.1]
    exact Bool.false_ne_true
  have hmem : ∀ {e : Event}, e ∈ es → e ∈ es₀ ++ es := fun he => List.mem_append_right es₀ he
  unfold ShownOnce
  rw [List.filter_append, hnone, List.nil_append]
  rcases h with ⟨hun, hcalls⟩ | ⟨res, final, hreplied, hcalls⟩
  · refine .inl ⟨?_, hcalls⟩
    cases hun with
    | unasked h =>
      refine .unasked fun e he => ?_
      rcases List.mem_append.1 he with he | he
      · exact (requestCall_quiet (h₀ e he)).2.2
      · exact h e he
    | exchange q w f h hf => exact .exchange q w f (hmem h) hf
    | connecting target w f h hf => exact .connecting target w f (hmem h) hf
    | writing bs w f h hf => exact .writing bs w f (hmem h) hf
    | reading target w f h hf => exact .reading target w f (hmem h) hf
  · exact .inr ⟨res, final, hreplied.behind es₀, hcalls⟩

/-! ## The plain path -/

/-- What happens to a forwarded request on the plain path. -/
inductive HttpTrace (env : Env ω) (users : List (UserHandler ω)) (n : ℕ) (Reply : Response → Prop) :
    List Event → Except Fault Unit → Prop
  /-- It fails, and the client is given nothing. -/
  | failed (es : List Event) (f : Fault) (h : ∀ e ∈ es, e.givesHead = false)
      (honce : ShownOnce env users n es) : HttpTrace env users n Reply es (.error f)
  /-- The upstream is asked, the handlers are shown its reply, and the client is given what comes
  out. -/
  | answered (pre calls : List Event) (bs : Bytes) (post : List Event) (res out : Response)
      (r : Except Fault Unit) (hpre : ∀ e ∈ pre, e.givesHead = false ∧ e.isResponseCall = false)
      (hreply : Reply res) (hreplied : Replied env n pre res)
      (hcalls : ResponseCalls users 0 res calls (some out))
      (hhead : serializeResponseHead env.http out <+: bs)
      (hpost : ∀ e ∈ post, e.isResponseCall = false)
      (hbytes : r = .ok () → ∀ b, out.body = .full b →
        bs ++ clientBytes post = serializeResponseHead env.http out ++ b) :
      HttpTrace env users n Reply (pre ++ (calls ++ .toClient bs :: post)) r

/-- **The handlers are shown the reply**, and the client is given what comes out. -/
theorem traces_shown {n : ℕ} {Reply : Response → Prop} {pre : List Event} {ctx : HttpContext}
    {res : Response} {f : Response × HttpContext → P ω Unit}
    (hpre : ∀ e ∈ pre, e.givesHead = false ∧ e.isResponseCall = false) (hreply : Reply res)
    (hreplied : Replied env n pre res)
    (hf : ∀ out ctx', Traces (f (out, ctx')) (GivesResponse env out)) :
    Traces (responseOrFail (proxyHandler env.enabled users) ctx res >>= f)
      fun es r => HttpTrace env users n Reply (pre ++ es) r := by
  refine traces_bind (traces_responseOrFail ctx res) ?_ ?_
  · rintro es e (⟨-, hcalls⟩ | ⟨out, ctx', h, -⟩)
    · apply HttpTrace.failed
      · intro e' he'
        rcases List.mem_append.1 he' with he' | he'
        · exact (hpre e' he').1
        · exact (hcalls.noHead e' he').1
      · have honce := shownOnce_replied (fun e he => (hpre e he).2) hreplied hcalls
          fun e he => absurd he List.not_mem_nil
        rwa [List.append_nil] at honce
    · exact nomatch h
  rintro calls a (⟨⟨f', h⟩, -⟩ | ⟨out, ctx', h, hcalls⟩)
  · exact nomatch h
  obtain rfl : a = (out, ctx') := Except.ok.inj h
  refine (hf out ctx').mono ?_
  rintro es r ⟨bs, post, rfl, hhead, hpost, hbytes⟩
  exact HttpTrace.answered pre calls bs post res out r hpre hreply hreplied hcalls hhead hpost
    hbytes

/-- **The normal branch of `handle_http`.** -/
theorem forwardRequest_trace (n : ℕ) (ctx : HttpContext) (host : Str) (req : Request) :
    Traces (forwardRequest env (proxyHandler env.enabled users) ctx host req)
      (HttpTrace env users n fun res => ∃ q w, (env.sendRequest q w).1 = .ok res) := by
  unfold forwardRequest
  cases hq : absoluteRequest env "http".toList host req with
  | none =>
    exact traces_fail (HttpTrace.failed [] _ (fun _ h => absurd h List.not_mem_nil) shownOnce_silent)
  | some q =>
    refine traces_asked ?_ ?_
    · exact fun w f e hf => HttpTrace.failed _ e (fun e he => (asked_quiet q e he).1)
        (shownOnce_unreplied (.exchange q w f List.mem_cons_self hf) fun e he => (asked_quiet q e he).2)
    intro w res hres
    exact traces_shown (asked_quiet q) ⟨q, w, hres⟩ (Or.inl ⟨q, w, List.mem_cons_self, hres⟩)
      fun out _ => traces_forwardResponse out

/-- **The upgrade branch of `handle_http`.** -/
theorem forwardUpgrade_trace (ws : Option (WebSocketHandler ω)) (client : Source) (n : ℕ)
    (ctx : HttpContext) (host : Str) (req : Request) :
    Traces (forwardUpgrade env (proxyHandler env.enabled users) ws client n ctx host req)
      (HttpTrace env users n fun res =>
        ∃ w, upstreamReply env.unicode (env.serverStream w) n = .ok res) := by
  have hquiet := upgradeAsked_quiet host req
  refine traces_forwardUpgrade ?_ ?_
  · exact fun es f hes hun => HttpTrace.failed es f (fun e he => (hquiet e (hes.subset he)).1)
      (shownOnce_unreplied hun fun e he => (hquiet e (hes.subset he)).2)
  intro w res hreply
  exact traces_shown hquiet ⟨w, hreply⟩ (Or.inr ⟨_, w, List.mem_cons_self, hreply⟩)
    fun out ctx' => traces_upgradeReply ws client ctx' out _

/-- Calls of `handle_request` may come before. -/
theorem HttpTrace.behind {n : ℕ} {Reply : Response → Prop} {es es₀ : List Event}
    {r : Except Fault Unit} (h : HttpTrace env users n Reply es r)
    (h₀ : ∀ e ∈ es₀, e.isRequestCall = true) : HttpTrace env users n Reply (es₀ ++ es) r := by
  cases h with
  | failed _ f h honce =>
    refine HttpTrace.failed _ _ (fun e he => ?_) (honce.behind h₀)
    rcases List.mem_append.1 he with he | he
    · exact (requestCall_quiet (h₀ e he)).1
    · exact h e he
  | answered pre calls bs post res out _ hpre hreply hreplied hcalls hhead hpost hbytes =>
    rw [← List.append_assoc]
    refine HttpTrace.answered (es₀ ++ pre) calls bs post res out r ?_ hreply ?_ hcalls hhead hpost
      hbytes
    · intro e he
      rcases List.mem_append.1 he with he | he
      · exact ⟨(requestCall_quiet (h₀ e he)).1, (requestCall_quiet (h₀ e he)).2.1⟩
      · exact hpre e he
    · exact hreplied.behind es₀

/-! ## Inside TLS -/

theorem answerHttps_upgrade {handler : HttpHandler ω} {ws : Option (WebSocketHandler ω)}
    {host : Str} {ctx : HttpContext} {req : Request} (h : env.isUpgradeRequest req = true) :
    answerHttps env handler ws host (.ok (.request req), ctx) =
      handleHttpsWebsocket env ws ctx host req := if_pos h

/-- A request that is no upgrade is sent upstream. -/
theorem answerHttps_ordinary {handler : HttpHandler ω} {ws : Option (WebSocketHandler ω)}
    {host : Str} {ctx : HttpContext} {req : Request} (h : ¬ env.isUpgradeRequest req = true) :
    answerHttps env handler ws host (.ok (.request req), ctx) =
      match absoluteRequest env "https".toList host req with
      | none => Proc.fail (.error (.msg "invalid absolute URI"))
      | some req => sendRequest env req >>= fun r =>
        match r with
        | .error _ => pure (badGateway, none)
        | .ok response => handler.handleResponse ctx response >>= fun m =>
          match m with
          | (.error _, _) => pure (badGateway, none)
          | (.ok modified, _) => pure (modified, none) := if_neg h

/-- An upgrade that is not accepted fails before anything is done. -/
theorem answerHttps_refused (handler : HttpHandler ω) (ws : Option (WebSocketHandler ω))
    {host : Str} (ctx : HttpContext) {req : Request} (hup : env.isUpgradeRequest req = true)
    (h : ¬ AcceptsInside env host req) :
    Traces (answerHttps env handler ws host (.ok (.request req), ctx) >>= sendReply)
      fun es _ => es = [] := by
  intro s
  rw [answerHttps_upgrade hup]
  unfold handleHttpsWebsocket
  cases hq : absoluteRequest env "https".toList host req with
  | none => rfl
  | some q =>
    dsimp only
    cases hu : q.uri.withScheme "wss".toList with
    | none => rfl
    | some u =>
      dsimp only
      cases hres : env.upgrade { q with uri := u } with
      | error e => rfl
      | ok res => exact absurd ⟨hup, q, u, res, hq, hu, hres⟩ h

/-- A tunnel answers an upgrade that it accepts before it does anything else, and leaves the rest
to the task. -/
theorem answerHttps_accepts (handler : HttpHandler ω) (ws : Option (WebSocketHandler ω))
    {host : Str} (ctx : HttpContext) {req : Request} (h : AcceptsInside env host req) :
    ∃ res path origin cookie, (∃ q r, env.upgrade q = .ok r ∧ res.status = r.status) ∧
      (answerHttps env handler ws host (.ok (.request req), ctx) >>= sendReply) =
        Proc.emit (.reply res) >>= fun _ =>
          upgradeTask env ws ctx host path origin cookie >>= fun _ => pure false := by
  obtain ⟨hup, q, u, res, hq, hu, hres⟩ := h
  rw [answerHttps_upgrade hup]
  unfold handleHttpsWebsocket
  simp only [hq, hu, hres, Except.mapError]
  exact ⟨⟨res.status, res.headers, .full []⟩, _, _, _, ⟨_, res, hres, rfl⟩, rfl⟩

/-- What happens to a forwarded request inside TLS that is not an accepted upgrade. -/
inductive HttpsTrace (env : Env ω) (users : List (UserHandler ω)) (n : ℕ) : List Event → Prop
  /-- The server is given no response to send. -/
  | silent : HttpsTrace env users n []
  /-- The client is given what the handlers have made of the reply. -/
  | answered (pre calls : List Event) (res out : Response)
      (hpre : ∀ e ∈ pre, e.givesHead = false ∧ e.isResponseCall = false)
      (hreplied : Replied env n pre res) (hcalls : ResponseCalls users 0 res calls (some out)) :
      HttpsTrace env users n (pre ++ (calls ++ [.reply out]))
  /-- There is nothing to show. -/
  | gateway (pre : List Event) (hpre : ∀ e ∈ pre, e.givesHead = false)
      (hun : Unanswered env users n pre) : HttpsTrace env users n (pre ++ [.reply badGateway])

/-- **A request inside TLS**, but for the upgrades that the proxy accepts. -/
theorem answerHttps_trace (n : ℕ) (ws : Option (WebSocketHandler ω)) (host : Str)
    (ctx : HttpContext) (req : Request) (h : ¬ AcceptsInside env host req) :
    Traces (answerHttps env (proxyHandler env.enabled users) ws host (.ok (.request req), ctx) >>=
      sendReply) fun es _ => HttpsTrace env users n es := by
  by_cases hup : env.isUpgradeRequest req = true
  · refine (answerHttps_refused _ ws ctx hup h).mono ?_
    rintro es _ rfl
    exact HttpsTrace.silent
  rw [answerHttps_ordinary hup]
  cases hq : absoluteRequest env "https".toList host req with
  | none => exact fun _ => HttpsTrace.silent
  | some q =>
    have hsent := asked_quiet q
    rw [bind_assoc]
    refine traces_bind (traces_sendRequest q) ?_ ?_
    · rintro es e ⟨-, w, h⟩
      exact nomatch h
    rintro es r ⟨rfl, w, hr⟩
    have hr' : r = (env.sendRequest q w).1 := Except.ok.inj hr
    rcases r with f | res
    · intro s
      refine HttpsTrace.gateway [.sendRequest q] (fun e he => (hsent e he).1) (Or.inl ⟨rfl, ?_⟩)
      exact ⟨q, w, f, List.mem_cons_self, hr'.symm⟩
    have hreplied : Replied env n [.sendRequest q] res :=
      Or.inl ⟨q, w, List.mem_cons_self, hr'.symm⟩
    rw [proxyHandler_response, bind_assoc]
    refine traces_bind (T := fun es r => ∃ a, r = .ok a ∧ ResponseCalls users 0 res es a.1.toOption)
      (fun s => stack_responses users 0 ctx res s) ?_ ?_
    · rintro es e ⟨a, h, -⟩
      exact nomatch h
    rintro calls ⟨r, ctx'⟩ ⟨_, ⟨⟩, hcalls⟩
    rcases r with e | out
    · intro s
      rw [← List.append_assoc]
      refine HttpsTrace.gateway _ ?_ (Or.inr ⟨res, ?_, ?_⟩)
      · intro e' he'
        rcases List.mem_append.1 he' with he' | he'
        · exact (hsent e' he').1
        · exact (hcalls.noHead e' he').1
      · exact Or.inl ⟨q, w, List.mem_append_left _ List.mem_cons_self, hr'.symm⟩
      · rw [filter_responseCalls (fun e he => (hsent e he).2) hcalls]
        exact hcalls
    · exact fun s => HttpsTrace.answered [.sendRequest q] calls res out hsent hreplied hcalls

/-! ## The order -/

variable {n : ℕ}

/-- Where no head is given, it is enough that the reply is shown. -/
theorem passes_headless {es : List Event} (h : ∀ e ∈ es, e.givesHead = false)
    (honce : ShownOnce env users n es) : PassesHandlers env users n es := by
  refine ⟨honce, ?_⟩
  rintro pre e post rfl he -
  have hfalse : e.givesHead = false := h e (List.mem_append_right pre List.mem_cons_self)
  rw [he] at hfalse
  exact absurd hfalse.symm Bool.false_ne_true

/-- Of the heads, it is enough to look at the first. -/
theorem passes_first {pre post : List Event} {e : Event} (he : e.givesHead = true)
    (hpre : ∀ e' ∈ pre, e'.givesHead = false) (honce : ShownOnce env users n (pre ++ e :: post))
    (h : (∃ res out, Replied env n pre res ∧
        ResponseCalls users 0 res (pre.filter Event.isResponseCall) (some out) ∧
        e.Shows env.http out ∧ ∀ e' ∈ post, e'.isResponseCall = false) ∨
      e.Shows env.http badGateway ∧ Unanswered env users n pre) :
    PassesHandlers env users n (pre ++ e :: post) := by
  refine ⟨honce, ?_⟩
  intro pre' e' post' heq he' hpre'
  obtain ⟨rfl, rfl, rfl⟩ := first_unique heq hpre hpre' he he'
  exact h

theorem givesHead_notCall {e : Event} (h : e.givesHead = true) : e.isResponseCall = false := by
  cases e <;> first | rfl | exact absurd h Bool.false_ne_true

/-- Behind its calls, the handlers' response comes first. -/
theorem passes_answered {pre calls post : List Event} {e : Event} {res out : Response}
    (he : e.givesHead = true)
    (hpre : ∀ e' ∈ pre, e'.givesHead = false ∧ e'.isResponseCall = false)
    (hreplied : Replied env n pre res) (hcalls : ResponseCalls users 0 res calls (some out))
    (hshows : e.Shows env.http out) (hpost : ∀ e' ∈ post, e'.isResponseCall = false) :
    PassesHandlers env users n (pre ++ (calls ++ e :: post)) := by
  have honce : ShownOnce env users n (pre ++ (calls ++ e :: post)) := by
    refine shownOnce_replied (fun e he => (hpre e he).2) hreplied hcalls fun e' he' => ?_
    rcases List.mem_cons.1 he' with rfl | he'
    · exact givesHead_notCall he
    · exact hpost e' he'
  rw [← List.append_assoc] at honce ⊢
  refine passes_first he ?_ honce ?_
  · intro e' he'
    rcases List.mem_append.1 he' with he' | he'
    · exact (hpre e' he').1
    · exact (hcalls.noHead e' he').1
  · refine Or.inl ⟨res, out, hreplied.after calls, ?_, hshows, hpost⟩
    rw [filter_responseCalls (fun e he => (hpre e he).2) hcalls]
    exact hcalls

theorem HttpTrace.passes {Reply : Response → Prop} {es : List Event} {r : Except Fault Unit}
    (h : HttpTrace env users n Reply es r) : PassesHandlers env users n es := by
  cases h with
  | failed _ f h honce => exact passes_headless h honce
  | answered pre calls bs post res out _ hpre _ hreplied hcalls hhead hpost _ =>
    exact passes_answered rfl hpre hreplied hcalls hhead hpost

/-- Where there is nothing to show, what there is has been shown. -/
theorem Unanswered.shownOnce {es : List Event} (h : Unanswered env users n es) {res : Response} :
    ShownOnce env users n (es ++ [.reply res]) := by
  unfold ShownOnce
  rw [List.filter_append, show [Event.reply res].filter Event.isResponseCall = [] from rfl,
    List.append_nil]
  rcases h with ⟨hcalls, q, w, f, hmem, hf⟩ | ⟨res, hreplied, hcalls⟩
  · exact .inl ⟨.exchange q w f (List.mem_append_left _ hmem) hf, hcalls⟩
  · exact .inr ⟨res, none, hreplied.after _, hcalls⟩

/-- The same holds if calls of `handle_request` come before. -/
theorem HttpsTrace.passes {es es₀ : List Event} (h : HttpsTrace env users n es)
    (h₀ : ∀ e ∈ es₀, e.isRequestCall = true) : PassesHandlers env users n (es₀ ++ es) := by
  have hquiet : ∀ e ∈ es₀, e.givesHead = false ∧ e.isResponseCall = false :=
    fun e he => ⟨(requestCall_quiet (h₀ e he)).1, (requestCall_quiet (h₀ e he)).2.1⟩
  cases h with
  | silent =>
    refine passes_headless (fun e he => ?_) (shownOnce_silent.behind h₀)
    rw [List.append_nil] at he
    exact (hquiet e he).1
  | answered pre calls res out hpre hreplied hcalls =>
    rw [← List.append_assoc]
    refine passes_answered rfl ?_ (hreplied.behind es₀) hcalls rfl
      fun _ h => absurd h List.not_mem_nil
    intro e he
    rcases List.mem_append.1 he with he | he
    · exact hquiet e he
    · exact hpre e he
  | gateway pre hpre hun =>
    have hbehind := hun.behind fun e he => (hquiet e he).2
    rw [← List.append_assoc]
    refine passes_first rfl ?_ hbehind.shownOnce (Or.inr ⟨rfl, hbehind⟩)
    intro e he
    rcases List.mem_append.1 he with he | he
    · exact (hquiet e he).1
    · exact hpre e he

/-! ## From the handlers' answer on -/

section

variable {handler : HttpHandler ω} {ws : Option (WebSocketHandler ω)} {client : Source}
  {addr : SocketAddr} {raw : Bytes} {req : Request} {host : Str} {x : World ω}

/-- A request with a host is shown to the handlers, and they decide. -/
theorem handleHttp_run (hparse : parseRawRequest env.http raw = .ok req)
    (hhost : extractHost req raw = some host) :
    handleHttp env handler ws client addr n raw x =
      (requestOrFail handler ⟨x.requestId, host, addr, false⟩ req >>=
        answerHttp env handler ws client n host (isWebsocketUpgrade env.unicode req))
        x.numbered := by
  unfold handleHttp
  rw [hparse, lift_bind]
  simp only [hhost]
  rfl

theorem handleHttp_unparsed {f : Fault} (hparse : parseRawRequest env.http raw = .error f) :
    handleHttp env handler ws client addr n raw x = ⟨.error f, x, []⟩ := by
  unfold handleHttp
  rw [hparse]
  rfl

theorem handleHttp_hostless (hparse : parseRawRequest env.http raw = .ok req)
    (hhost : extractHost req raw = none) :
    handleHttp env handler ws client addr n raw =
      writeClient env badRequest >>= fun _ => shutdownClient env := by
  unfold handleHttp
  rw [hparse, lift_bind]
  simp only [hhost]

theorem serveRequest_run :
    serveRequest env handler ws host addr req x =
      (handler.handleRequest ⟨x.requestId, host, addr, true⟩ req >>= fun r =>
        answerHttps env handler ws host r >>= sendReply) x.numbered := by
  unfold serveRequest handleHttpsRequest nextRequestId
  rw [bind_assoc, call_bind, bind_assoc]
  rfl

theorem requestOrFail_ok {ctx ctx' : HttpContext} {r : RequestOrResponse}
    (h : (handler.handleRequest ctx req x).result = .ok (.ok r, ctx')) :
    requestOrFail handler ctx req x = ⟨.ok (r, ctx'), (handler.handleRequest ctx req x).state,
      (handler.handleRequest ctx req x).events⟩ := by
  unfold requestOrFail
  rw [bind_ok h]
  exact congrArg (Ran.mk _ _) (List.append_nil _)

theorem requestOrFail_error {ctx ctx' : HttpContext} {e : ProxyError}
    (h : (handler.handleRequest ctx req x).result = .ok (.error e, ctx')) :
    requestOrFail handler ctx req x = ⟨.error (.error (.proxy e)),
      (handler.handleRequest ctx req x).state, (handler.handleRequest ctx req x).events⟩ := by
  unfold requestOrFail
  rw [bind_ok h]
  exact congrArg (Ran.mk _ _) (List.append_nil _)

theorem handleHttp_forwarded (ws : Option (WebSocketHandler ω)) (client : Source) (n : ℕ)
    {ctx' : HttpContext} {q : Request}
    (hparse : parseRawRequest env.http raw = .ok req) (hhost : extractHost req raw = some host)
    (h : (handler.handleRequest ⟨x.requestId, host, addr, false⟩ req x.numbered).result =
      .ok (.ok (.request q), ctx')) :
    ∃ y, (handleHttp env handler ws client addr n raw x).events =
        (handler.handleRequest ⟨x.requestId, host, addr, false⟩ req x.numbered).events ++
          (answerHttp env handler ws client n host (isWebsocketUpgrade env.unicode req)
            (.request q, ctx') y).events ∧
      (handleHttp env handler ws client addr n raw x).result =
        (answerHttp env handler ws client n host (isWebsocketUpgrade env.unicode req)
          (.request q, ctx') y).result := by
  have hasked := requestOrFail_ok h
  have hok : (requestOrFail handler ⟨x.requestId, host, addr, false⟩ req x.numbered).result =
      .ok (.request q, ctx') := by rw [hasked]
  rw [handleHttp_run hparse hhost, bind_ok hok, hasked]
  exact ⟨_, rfl, rfl⟩

end

/-- The calls of `handle_request` are quiet. -/
theorem requestCalls_quiet (enabled : ω → Bool) (users : List (UserHandler ω)) (ctx : HttpContext)
    (req : Request) (x : World ω) :
    ∀ e ∈ ((proxyHandler enabled users).handleRequest ctx req x).events,
      e.isRequestCall = true ∧ e.givesHead = false ∧ e.isResponseCall = false := by
  rw [proxyHandler_request]
  intro e he
  obtain ⟨r, -, hcalls⟩ := stack_requestCalls users 0 ctx req x
  obtain ⟨_, _, _, _, rfl, -⟩ := hcalls.mem e he
  exact ⟨rfl, rfl, rfl⟩

/-- **A forwarded request on the plain path.** -/
theorem answerHttp_trace (users : List (UserHandler ω)) (ws : Option (WebSocketHandler ω))
    (client : Source) (n : ℕ) (host : Str) (isWs : Bool) (req : Request) (ctx : HttpContext) :
    Traces (answerHttp env (proxyHandler env.enabled users) ws client n host isWs
      (.request req, ctx)) (HttpTrace env users n fun _ => True) := by
  have hweak : ∀ {Reply : Response → Prop} {es : List Event} {r : Except Fault Unit},
      HttpTrace env users n Reply es r → HttpTrace env users n (fun _ => True) es r := by
    intro Reply es r h
    cases h with
    | failed _ f h honce => exact HttpTrace.failed _ f h honce
    | answered pre calls bs post res out _ hpre _ hreplied hcalls hhead hpost hbytes =>
      exact HttpTrace.answered pre calls bs post res out _ hpre trivial hreplied hcalls hhead hpost
        hbytes
  cases isWs with
  | true => exact (forwardUpgrade_trace ws client n ctx host req).mono fun _ _ => hweak
  | false => exact (forwardRequest_trace n ctx host req).mono fun _ _ => hweak

/-- A head that is given when only `handle_request` has been called has passed nobody. -/
theorem unasked_not_passes {calls post : List Event} {e : Event}
    (hcalls : ∀ e ∈ calls, e.isRequestCall = true ∧ e.givesHead = false ∧
      e.isResponseCall = false) (he : e.givesHead = true) :
    ¬ PassesHandlers env users n (calls ++ e :: post) := by
  intro hpass
  -- so far nobody has been asked but the handlers
  have hnone : ∀ e ∈ calls, (∀ q, e ≠ .sendRequest q) ∧ ∀ t, e ≠ .connect t := by
    intro e he
    have hcall := (hcalls e he).1
    refine ⟨?_, ?_⟩
    · rintro q rfl
      exact absurd hcall Bool.false_ne_true
    · rintro t rfl
      exact absurd hcall Bool.false_ne_true
  have hreplied : ∀ res, ¬ Replied env n calls res := by
    rintro res (⟨q, w, hmem, -⟩ | ⟨t, w, hmem, -⟩)
    · exact (hnone _ hmem).1 q rfl
    · exact (hnone _ hmem).2 t rfl
  rcases hpass.first calls e post rfl he (fun e he => (hcalls e he).2.1) with
    ⟨r, out, h, -⟩ | ⟨-, (⟨-, q, w, f, hmem, -⟩ | ⟨r, h, -⟩)⟩
  · exact hreplied r h
  · exact (hnone _ hmem).1 q rfl
  · exact hreplied r h

/-- **A forwarded request passes the handlers on its way back**: on the plain path always, and
inside TLS unless it is an upgrade that the proxy accepts. -/
theorem reply_passes_iff (env : Env ω) (users : List (UserHandler ω))
    (ws : Option (WebSocketHandler ω)) (client : Source) (addr : SocketAddr) (n : ℕ)
    (x : World ω) :
    (∀ raw req host q, parseRawRequest env.http raw = .ok req → extractHost req raw = some host →
      Forwards (proxyHandler env.enabled users) ⟨x.requestId, host, addr, false⟩ req x.numbered q →
      PassesHandlers env users n
        (handleHttp env (proxyHandler env.enabled users) ws client addr n raw x).events) ∧
    ∀ host req q,
      Forwards (proxyHandler env.enabled users) ⟨x.requestId, host, addr, true⟩ req x.numbered q →
      (PassesHandlers env users n
          (serveRequest env (proxyHandler env.enabled users) ws host addr req x).events ↔
        ¬ AcceptsInside env host q) := by
  refine ⟨?_, ?_⟩
  · rintro raw req host q hparse hhost ⟨ctx', hfwd⟩
    obtain ⟨y, hes, -⟩ := handleHttp_forwarded ws client n hparse hhost hfwd
    rw [hes]
    apply HttpTrace.passes
    apply (answerHttp_trace users ws client n host _ q ctx' y).behind
    exact fun e he => (requestCalls_quiet env.enabled users _ req x.numbered e he).1
  · rintro host req q ⟨ctx', hfwd⟩
    have hquiet := requestCalls_quiet env.enabled users ⟨x.requestId, host, addr, true⟩ req
      x.numbered
    rw [serveRequest_run, bind_ok hfwd]
    set calls := ((proxyHandler env.enabled users).handleRequest
      ⟨x.requestId, host, addr, true⟩ req x.numbered).events
    set y := ((proxyHandler env.enabled users).handleRequest
      ⟨x.requestId, host, addr, true⟩ req x.numbered).state
    refine ⟨?_, ?_⟩
    · intro hpass hacc
      obtain ⟨res, path, origin, cookie, -, hrun⟩ :=
        answerHttps_accepts (proxyHandler env.enabled users) ws ctx' hacc
      rw [hrun] at hpass
      exact unasked_not_passes hquiet rfl hpass
    · intro hacc
      exact (answerHttps_trace n ws host ctx' q hacc y).passes fun e he => (hquiet e he).1

/-! ## A handshake inside TLS -/

def keyName : HeaderName := ⟨"sec-websocket-key".toList, by decide⟩

def versionName : HeaderName := ⟨"sec-websocket-version".toList, by decide⟩

def acceptName : HeaderName := ⟨"sec-websocket-accept".toList, by decide⟩

def sampleKey : HeaderValue := ⟨lit "dGhlIHNhbXBsZSBub25jZQ==", by decide⟩

theorem version_bytes : (lit "13").all isValueByte = true := by decide

def versionValue : HeaderValue := ⟨lit "13", version_bytes⟩

/-- The answer to a handshake with `sampleKey`. -/
def switchingReply : Response :=
  ⟨⟨101, by decide⟩, [(connectionName, upgradeValue), (upgradeName, websocketValue),
    (acceptName, ⟨lit "s3pPLMBiTxaQ9kYGzzhZRbK+xOo=", by decide⟩)], .full []⟩

/-- The library takes a request for an upgrade by its two fields, and accepts it if it has a key and
the version 13. -/
def switchEnv : Env Unit :=
  { Env.basic (fun _ => true) ⟨[], none⟩ badGateway [] with
    isUpgradeRequest := isWebsocketUpgrade Unicode.basic
    upgrade := fun req =>
      if req.headers.get keyName = none then
        .error (.upstream "Missing \"Sec-WebSocket-Key\" header")
      else if req.headers.get versionName ≠ some versionValue then
        .error (.upstream "Missing \"Sec-WebSocket-Version: 13\" header")
      else .ok switchingReply }

/-- A WebSocket handshake for `/ws`, as the server decodes it from a tunnel. -/
def insideUpgrade : Request :=
  ⟨.get, .origin ⟨"/ws".toList, by decide⟩,
    [(hostName, exampleHost), (upgradeName, websocketValue), (connectionName, upgradeValue),
      (keyName, sampleKey), (versionName, versionValue)], .full []⟩

theorem insideUpgrade_accepted : AcceptsInside switchEnv "a.example".toList insideUpgrade :=
  ⟨by decide +kernel, _, _, _, rfl, rfl, rfl⟩

/-- The client gets its 101 before any handler has seen a response. -/
theorem serveRequest_unseen_response :
    ¬ ∀ (env : Env Unit) (users : List (UserHandler Unit)) (ws : Option (WebSocketHandler Unit))
      (client : Source) (addr : SocketAddr) (n : ℕ) (x : World Unit),
      (∀ raw req host q, parseRawRequest env.http raw = .ok req →
        extractHost req raw = some host →
        Forwards (proxyHandler env.enabled users) ⟨x.requestId, host, addr, false⟩ req x.numbered q →
        PassesHandlers env users n
          (handleHttp env (proxyHandler env.enabled users) ws client addr n raw x).events) ∧
      ∀ host req q,
        Forwards (proxyHandler env.enabled users) ⟨x.requestId, host, addr, true⟩ req x.numbered q →
        PassesHandlers env users n
          (serveRequest env (proxyHandler env.enabled users) ws host addr req x).events := by
  intro hall
  have hpass := (hall switchEnv [forwarder] none ⟨[], none⟩ ⟨"127.0.0.1", 0⟩ 4096 ⟨(), 0⟩).2
    "a.example".toList insideUpgrade insideUpgrade ⟨_, rfl⟩
  rw [serveRequest_run, bind_ok (a := (.ok (.request insideUpgrade), _)) rfl] at hpass
  obtain ⟨res, path, origin, cookie, -, hrun⟩ :=
    answerHttps_accepts (proxyHandler switchEnv.enabled [forwarder]) none
      ⟨0, "a.example".toList, ⟨"127.0.0.1", 0⟩, true⟩ insideUpgrade_accepted
  have hquiet := requestCalls_quiet switchEnv.enabled [forwarder]
    ⟨0, "a.example".toList, ⟨"127.0.0.1", 0⟩, true⟩ insideUpgrade ⟨(), 1⟩
  exact unasked_not_passes hquiet rfl (hrun ▸ hpass)

/-- The same handler sees the response to a plain request. -/
theorem reply_passes_plain : PassesHandlers hostEnv [forwarder] 4096
    (plainRun (lit "GET / HTTP/1.1\r\nHost: a.example\r\n\r\n")) :=
  (reply_passes_iff hostEnv [forwarder] none ⟨[], none⟩ ⟨"127.0.0.1", 0⟩ 4096 ⟨(), 0⟩).1 _
    ⟨.get, .origin .slash, [(hostName, exampleHost)], .full []⟩ "a.example".toList _
    (by rfl) (by decide +kernel) ⟨_, rfl⟩

end HexbufferProxy
