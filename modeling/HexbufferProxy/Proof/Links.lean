import HexbufferProxy.Proof.Consent
import HexbufferProxy.Proof.Decoder
import HexbufferProxy.Rust.Chains
import HexbufferProxy.Spec.Links

/-!
# Messages are handed on

* `stack_hands`, `stack_returns`: in the stack each handler is asked about what the one before has
  made.
* `handleHttp_links`, `serveRequest_links`, `step_links`: so it is whatever the proxy does with the
  answer.
* `run_linked`: and in every action of a run.
* `run_decoded`: what stands behind a `DecodeHandler` never sees an encoded message.
-/

namespace HexbufferProxy

open Rust Rust.Proc

variable {ω : Type} {env : Env ω} {all : List (UserHandler ω)} {ws : Option (WebSocketHandler ω)}
  {n : ℕ} {last : Option Event}

/-- The events of `m` follow from each other, behind `last`. -/
abbrev HandsOn {α : Type} (all : List (UserHandler ω)) (last : Option Event) (m : P ω α) : Prop :=
  Follows (Event.FollowsFrom all) last m

/-! ## The stack -/

/-- The request in front of the `i`-th handler is what the handler before has made. -/
def InFront (all : List (UserHandler ω)) (last : Option Event) (ctx : HttpContext) (req : Request) :
    ℕ → Prop
  | 0 => True
  | i + 1 => ∃ ctx₀ req₀, last = some (.request i ctx₀ req₀ .forward) ∧
      Forwarded all i ctx₀ req₀ ctx req

/-- So is the response. -/
def ResponseInFront (all : List (UserHandler ω)) (last : Option Event) (ctx : HttpContext)
    (res : Response) : ℕ → Prop
  | 0 => True
  | i + 1 => ∃ ctx₀ res₀, last = some (.response i ctx₀ res₀) ∧ Returned all i ctx₀ res₀ ctx res

theorem InFront.follows {ctx : HttpContext} {req : Request} {i : ℕ} (h : InFront all last ctx req i)
    {d : Decision} (hd : Decides all i ctx req d) :
    Event.FollowsFrom all last (.request i ctx req d) := by
  cases i with
  | zero => exact hd
  | succ i => exact ⟨hd, h⟩

theorem ResponseInFront.follows {ctx : HttpContext} {res : Response} {i : ℕ}
    (h : ResponseInFront all last ctx res i) :
    Event.FollowsFrom all last (.response i ctx res) := by
  cases i with
  | zero => exact trivial
  | succ i => exact h

/-- **The stack hands a request on**, from the `i`-th handler to the last. -/
theorem stack_hands : ∀ (us pre : List (UserHandler ω)), all = pre ++ us →
    ∀ (ctx : HttpContext) (req : Request) (s : World ω) (last : Option Event),
    InFront all last ctx req pre.length →
    Chained (Event.FollowsFrom all) last
        (HandlerStack.handleRequest (numbered us pre.length) ctx req s).events ∧
      ∀ q ctx', (HandlerStack.handleRequest (numbered us pre.length) ctx req s).result =
          .ok (.ok (.request q), ctx') →
        InFront all (lastAfter last
          (HandlerStack.handleRequest (numbered us pre.length) ctx req s).events) ctx' q all.length := by
  intro us
  induction us with
  | nil =>
    intro pre hall ctx req s last hfront
    refine ⟨trivial, fun q ctx' h => ?_⟩
    obtain ⟨hreq, hctx⟩ := Prod.mk.inj (Except.ok.inj h)
    obtain rfl : req = q := RequestOrResponse.request.inj (Except.ok.inj hreq)
    obtain rfl : ctx = ctx' := hctx
    rw [List.append_nil] at hall
    rw [hall] at hfront ⊢
    exact hfront
  | cons u us ih =>
    intro pre hall ctx req s last hfront
    rw [numbered_cons]
    unfold HandlerStack.handleRequest
    obtain ⟨r, ctx₁, w, hu⟩ : ∃ r ctx₁ w, u.handleRequest ctx req s.ext = ((r, ctx₁), w) :=
      ⟨_, _, _, rfl⟩
    have hcall := toHandler_request u pre.length ctx req s
    rw [hu] at hcall
    have hget : all[pre.length]? = some u := by
      rw [hall, List.getElem?_append_right le_rfl, Nat.sub_self]
      rfl
    have hfirst : Event.FollowsFrom all last (.request pre.length ctx req (decision r)) :=
      hfront.follows ⟨u, s.ext, hget, by rw [hu]⟩
    rw [bind_ok (a := (r, ctx₁)) (by rw [hcall]), hcall]
    cases r with
    | error e =>
      refine ⟨⟨hfirst, trivial⟩, fun q ctx' h => ?_⟩
      cases h
    | ok r =>
      cases r with
      | response res =>
        refine ⟨⟨hfirst, trivial⟩, fun q ctx' h => ?_⟩
        cases h
      | request req₁ =>
        have hnext := ih (pre ++ [u]) (by rw [hall, List.append_assoc]; rfl) ctx₁ req₁
          { s with ext := w } (some (.request pre.length ctx req .forward))
          (by
            rw [List.length_append]
            exact ⟨ctx, req, rfl, u, s.ext, hget, by rw [hu]⟩)
        rw [List.length_append] at hnext
        exact ⟨⟨hfirst, hnext.1⟩, hnext.2⟩

/-- **The stack hands a response on**. -/
theorem stack_returns : ∀ (us pre : List (UserHandler ω)), all = pre ++ us →
    ∀ (ctx : HttpContext) (res : Response) (s : World ω) (last : Option Event),
    ResponseInFront all last ctx res pre.length →
    Chained (Event.FollowsFrom all) last
      (HandlerStack.handleResponse (numbered us pre.length) ctx res s).events := by
  intro us
  induction us with
  | nil =>
    intro pre _ ctx res s last _
    exact trivial
  | cons u us ih =>
    intro pre hall ctx res s last hfront
    rw [numbered_cons]
    unfold HandlerStack.handleResponse
    obtain ⟨r, ctx₁, w, hu⟩ : ∃ r ctx₁ w, u.handleResponse ctx res s.ext = ((r, ctx₁), w) :=
      ⟨_, _, _, rfl⟩
    have hcall : (u.toHandler pre.length).handleResponse ctx res s =
        ⟨.ok (u.handleResponse ctx res s.ext).1,
          { s with ext := (u.handleResponse ctx res s.ext).2 }, [.response pre.length ctx res]⟩ := rfl
    rw [hu] at hcall
    rw [bind_ok (a := (r, ctx₁)) (by rw [hcall]), hcall]
    cases r with
    | error e => exact ⟨hfront.follows, trivial⟩
    | ok res₁ =>
      have hget : all[pre.length]? = some u := by
        rw [hall, List.getElem?_append_right le_rfl, Nat.sub_self]
        rfl
      have hnext := ih (pre ++ [u]) (by rw [hall, List.append_assoc]; rfl) ctx₁ res₁
        { s with ext := w } (some (.response pre.length ctx res))
        (by
          rw [List.length_append]
          exact ⟨ctx, res, rfl, u, s.ext, hget, by rw [hu]⟩)
      rw [List.length_append] at hnext
      exact ⟨hfront.follows, hnext⟩

/-- What the handlers of a proxy do with a response. -/
theorem response_links (ctx : HttpContext) (res : Response) :
    HandsOn all last ((proxyHandler env.enabled all).handleResponse ctx res) := by
  intro s
  rw [proxyHandler_response]
  exact stack_returns all [] rfl ctx res s last trivial

/-! ## The answer -/

/-- What is not the handlers', nor the request that leaves the proxy, may come anywhere. -/
theorem transfer_free : ∀ e : Event, e.isTransfer = true → ∀ last, Event.FollowsFrom all last e := by
  intro e he last
  cases e <;> first | exact trivial | exact absurd he Bool.false_ne_true

theorem transfers_links {α : Type} {R : α → Prop} {m : P ω α}
    (h : Ensures Event.isContact 0 m R fun e => ∀ last, Event.FollowsFrom all last e) :
    HandsOn all last m := follows_free h

theorem connect_links (target : Str) : HandsOn all last (connectServer env target) :=
  follows_bind (follows_emit trivial) fun _ _ =>
    follows_bind (follows_call _) fun _ _ => follows_lift _

/-- **The request that leaves the proxy** is what the last handler has made, but for its URI. -/
theorem sendRequest_links {scheme host : Str} {ctx : HttpContext} {req q : Request}
    (hfront : InFront all last ctx req all.length) (hne : all ≠ [])
    (hq : absoluteRequest env scheme host req = some q) : HandsOn all last (sendRequest env q) := by
  have huri : q = { req with uri := q.uri } := by
    unfold absoluteRequest at hq
    split at hq
    · obtain rfl := Option.some.inj hq
      rfl
    · obtain ⟨u, -, rfl⟩ := Option.map_eq_some_iff.1 hq
      rfl
  refine follows_bind (follows_emit ?_) fun _ _ => follows_call _
  obtain ⟨i, hi⟩ : ∃ i, i + 1 = all.length := ⟨all.length - 1, Nat.succ_pred_eq_of_pos
    (List.length_pos_iff.2 hne)⟩
  rw [← hi] at hfront
  obtain ⟨ctx₀, req₀, hlast, hfwd⟩ := hfront
  exact ⟨i, ctx₀, req₀, ctx, req, hi, hlast, hfwd, huri⟩

theorem responseOrFail_links (ctx : HttpContext) (res : Response) :
    HandsOn all last (responseOrFail (proxyHandler env.enabled all) ctx res) := by
  refine follows_bind (response_links ctx res) ?_
  rintro ⟨r, ctx'⟩ _
  cases r with
  | error e => exact follows_fail _
  | ok out => exact follows_pure _

/-- The normal branch of `handle_http`. -/
theorem forwardRequest_links {ctx : HttpContext} {host : Str} {req : Request}
    (hfront : InFront all last ctx req all.length) (hne : all ≠ []) :
    HandsOn all last (forwardRequest env (proxyHandler env.enabled all) ctx host req) := by
  unfold forwardRequest
  cases hq : absoluteRequest env "http".toList host req with
  | none => exact follows_fail _
  | some q =>
    refine follows_bind (sendRequest_links hfront hne hq) fun r _ => ?_
    refine follows_bind (follows_lift _) fun response _ => ?_
    refine follows_bind (responseOrFail_links ctx response) fun p _ => ?_
    exact transfers_links (ensures_forwardResponse transfer_free p.1)

/-- The WebSocket branch of `handle_http`. -/
theorem forwardUpgrade_links (client : Source) (ctx : HttpContext) (host : Str) (req : Request) :
    HandsOn all last
      (forwardUpgrade env (proxyHandler env.enabled all) ws client n ctx host req) := by
  unfold forwardUpgrade
  refine follows_bind (connect_links (upgradeTarget host)) fun _ _ => ?_
  refine follows_bind (transfers_links (ensures_writeServer transfer_free _)) fun _ _ => ?_
  refine follows_bind (follows_call _) fun server _ => ?_
  refine follows_bind (follows_lift _) fun full _ => ?_
  refine follows_bind (follows_lift _) fun response _ => ?_
  refine follows_bind (responseOrFail_links ctx response) fun p _ => ?_
  refine follows_bind (transfers_links (ensures_writeClient transfer_free _)) fun _ _ => ?_
  split
  · exact follows_emit trivial
  · exact transfers_links (ensures_shutdownClient transfer_free)

/-- **`handle_http`.** -/
theorem handleHttp_links (hne : all ≠ []) (client : Source) (addr : SocketAddr) (bytes : Bytes) :
    HandsOn all last (handleHttp env (proxyHandler env.enabled all) ws client addr n bytes) := by
  unfold handleHttp
  refine follows_bind (follows_lift _) fun request _ => ?_
  cases extractHost request bytes with
  | none =>
    refine follows_bind (transfers_links (ensures_writeClient transfer_free _)) fun _ _ => ?_
    exact transfers_links (ensures_shutdownClient transfer_free)
  | some host =>
    refine follows_bind (follows_call _) fun id last => ?_
    unfold requestOrFail
    rw [bind_assoc, proxyHandler_request]
    have hstack := fun s => @stack_hands ω all all [] rfl ⟨id, host, addr, false⟩ request s last trivial
    refine follows_bind_result (fun s => (hstack s).1) ?_
    rintro s ⟨r, ctx⟩ hr
    cases r with
    | error e => exact trivial
    | ok r =>
      cases r with
      | response res =>
        refine follows_bind (transfers_links (ensures_writeClient transfer_free _)) (fun _ _ => ?_) _
        exact transfers_links (ensures_shutdownClient transfer_free)
      | request q =>
        have hfront := (hstack s).2 q ctx hr
        show Chained _ _ (answerHttp env (proxyHandler env.enabled all) ws client n host
          (isWebsocketUpgrade env.unicode request) (.request q, ctx) _).events
        unfold answerHttp
        cases isWebsocketUpgrade env.unicode request with
        | true => exact forwardUpgrade_links client ctx host q _
        | false => exact forwardRequest_links hfront hne _

/-! ## Inside TLS -/

/-- What is left of a request when the answer is there: its answer and maybe a task. -/
theorem sendReply_links {a : Response × Option (P ω Unit)}
    (ha : ∀ t, a.2 = some t → ∀ last, HandsOn all last t) : HandsOn all last (sendReply a) := by
  obtain ⟨res, task⟩ := a
  cases task with
  | none => exact follows_bind (follows_emit trivial) fun _ _ => follows_pure _
  | some t =>
    refine follows_bind (follows_emit trivial) fun _ _ => ?_
    exact follows_bind (ha t rfl _) fun _ _ => follows_pure _

/-- The answer to an upgrade, and its task. -/
theorem upgrade_links (ctx : HttpContext) (host : Str) (req : Request) :
    HandsOn all last (handleHttpsWebsocket env ws ctx host req >>= sendReply) := by
  have hens : Ensures Event.isContact 0 (handleHttpsWebsocket env ws ctx host req)
      (fun a => ∀ t, a.2 = some t → Ensures Event.isContact 1 t (fun _ => True)
        fun e => ∀ last, Event.FollowsFrom all last e)
      fun e => ∀ last, Event.FollowsFrom all last e := by
    apply ensures_handleHttpsWebsocket
    intro q u path origin cookie _ _ _
    exact ensures_upgradeTask transfer_free fun _ _ _ _ => trivial
  refine follows_bind_result (transfers_links hens) fun s a ha => ?_
  exact sendReply_links (fun t ht last => follows_free ((hens s).2.2 a ha t ht)) _

/-- **What the proxy does with the handlers' answer**, inside TLS. -/
theorem answerHttps_links {host : Str} {r : Except ProxyError RequestOrResponse} {ctx : HttpContext}
    (hfront : ∀ q, r = .ok (.request q) → InFront all last ctx q all.length) (hne : all ≠ []) :
    HandsOn all last
      (answerHttps env (proxyHandler env.enabled all) ws host (r, ctx) >>= sendReply) := by
  have hreply : ∀ (last : Option Event) (res : Response),
      HandsOn all last (sendReply ((res, none) : Response × Option (P ω Unit))) :=
    fun last res => sendReply_links fun t ht => by cases ht
  cases r with
  | error e => exact hreply last badGateway
  | ok r =>
    cases r with
    | response res => exact hreply last res
    | request q =>
      unfold answerHttps
      dsimp only
      split
      · exact upgrade_links ctx host q
      · cases hq : absoluteRequest env "https".toList host q with
        | none => exact follows_bind_result (follows_fail _) fun s a ha => by cases ha
        | some q' =>
          dsimp only
          rw [bind_assoc]
          refine follows_bind (sendRequest_links (hfront q rfl) hne hq) fun x last => ?_
          cases x with
          | error e => exact hreply last badGateway
          | ok response =>
            rw [bind_assoc]
            refine follows_bind (response_links ctx response) ?_
            rintro ⟨m, ctx'⟩ last
            cases m with
            | error e => exact hreply last badGateway
            | ok modified => exact hreply last modified

/-- **A request of a tunnel.** -/
theorem serveRequest_links (hne : all ≠ []) (host : Str) (addr : SocketAddr) (req : Request) :
    HandsOn all last (serveRequest env (proxyHandler env.enabled all) ws host addr req) := by
  unfold serveRequest handleHttpsRequest
  rw [bind_assoc]
  refine follows_bind (follows_call _) fun id last => ?_
  rw [bind_assoc, proxyHandler_request]
  have hstack := fun s => @stack_hands ω all all [] rfl ⟨id, host, addr, true⟩ req s last trivial
  refine follows_bind_result (fun s => (hstack s).1) ?_
  rintro s ⟨r, ctx⟩ hr
  refine answerHttps_links (fun q hq => ?_) hne _
  subst hq
  exact (hstack s).2 q ctx hr

/-- A CONNECT. -/
theorem openTunnel_links (client : Source) (target : Str) :
    HandsOn all last (openTunnel env (proxyHandler env.enabled all) client target) := by
  unfold openTunnel
  refine follows_bind (transfers_links (ensures_writeClient transfer_free _)) fun _ _ => ?_
  have hanswers : ∀ e : Event, e.isIntercept = true → ∀ last, Event.FollowsFrom all last e := by
    intro e he last
    cases e <;> first | exact trivial | exact absurd he Bool.false_ne_true
  refine follows_bind (transfers_links ((proxyHandler_intercept env.enabled all _).mono
    (Nat.le_refl 0) (fun _ h => h) hanswers)) fun intercept _ => ?_
  cases intercept with
  | false =>
    refine follows_bind (connect_links target) fun _ _ => ?_
    refine follows_bind (follows_call _) fun server _ => ?_
    exact follows_bind (follows_emit trivial) fun _ _ => follows_pure _
  | true =>
    refine follows_bind (follows_call _) fun cert _ => ?_
    refine follows_bind (follows_lift _) fun cert _ => ?_
    refine follows_bind (follows_emit trivial) fun _ _ => ?_
    refine follows_bind (follows_call _) fun reqs _ => ?_
    exact follows_bind (follows_lift _) fun reqs _ => follows_pure _

namespace Server

/-- One action. -/
theorem step_links (hne : all ≠ []) (s : Server ω) (a : Action) :
    Chained (Event.FollowsFrom all) none (s.step env all ws n a).2 := by
  cases a with
  | setEnabled b => exact trivial
  | close i => exact trivial
  | connect client target addr =>
    exact @openTunnel_links ω (env.flagged s.enabled) all none client target _
  | plain client addr raw =>
    exact @handleHttp_links ω (env.flagged s.enabled) all ws n none hne client addr raw _
  | request i req =>
    rcases s.tunnel_cases i with hdead | ⟨host, addr, ht⟩
    · rw [step_dead hdead]
      exact trivial
    · rw [step_live ht req rfl]
      exact @serveRequest_links ω (env.flagged s.enabled) all ws none hne host addr req _

theorem deeds_flatten (s : Server ω) (actions : List Action) :
    (s.deeds env all ws n actions).flatten = (s.run env all ws n actions).2 := by
  rw [run_eq]
  exact flatten_outputs actions s

/-- **Every action of a run hands messages on**, from each handler to the next and from the last
upstream. -/
theorem run_linked (hne : all ≠ []) (s : Server ω) (actions : List Action) :
    ∀ own ∈ s.deeds env all ws n actions, Chained (Event.FollowsFrom all) none own :=
  outputs_forall (fun s a => step_links hne s a) actions s

end Server

/-! ## The decoder -/

theorem decoded_plain {C : Codecs} {m m' : HeaderMap} {body body' : Body}
    (h : decodeParts C m body = .ok (m', body')) : shouldDecode m' = false := by
  unfold decodeParts at h
  by_cases hm : shouldDecode m = true
  · rw [if_pos hm] at h
    cases hbody : decodeBody C (encodings m) body with
    | error e =>
      rw [hbody] at h
      cases h
    | ok plain =>
      rw [hbody] at h
      obtain ⟨rfl, -⟩ := Prod.mk.inj (Except.ok.inj h)
      unfold shouldDecode HeaderMap.containsKey
      rw [(stripped m).encoding]
      rfl
  · rw [if_neg hm] at h
    obtain ⟨rfl, -⟩ := Prod.mk.inj (Except.ok.inj h)
    exact Bool.eq_false_iff.2 hm

theorem decodeRequest_plain {C : Codecs} {q req : Request} (h : decodeRequest C q = .ok req) :
    shouldDecode req.headers = false := by
  unfold decodeRequest at h
  cases hparts : decodeParts C q.headers q.body with
  | error e =>
    rw [hparts] at h
    cases h
  | ok p =>
    rw [hparts] at h
    obtain rfl := Except.ok.inj h
    exact decoded_plain hparts

theorem decodeResponse_plain {C : Codecs} {r res : Response} (h : decodeResponse C r = .ok res) :
    shouldDecode res.headers = false := by
  unfold decodeResponse at h
  cases hparts : decodeParts C r.headers r.body with
  | error e =>
    rw [hparts] at h
    cases h
  | ok p =>
    rw [hparts] at h
    obtain rfl := Except.ok.inj h
    exact decoded_plain hparts

section

variable {C : Codecs} {j : ℕ} (hj : all[j]? = some (UserHandler.decoder C))

include hj

theorem decoder_forwarded {ctx ctx' : HttpContext} {q req : Request}
    (h : Forwarded all j ctx q ctx' req) : ctx' = ctx ∧ decodeRequest C q = .ok req := by
  obtain ⟨u, w, hu, hreq⟩ := h
  rw [hj] at hu
  obtain rfl := Option.some.inj hu
  have hmap : (decodeRequest C q).map RequestOrResponse.request = .ok (.request req) :=
    congrArg Prod.fst hreq
  refine ⟨(congrArg Prod.snd hreq).symm, ?_⟩
  cases hdec : decodeRequest C q with
  | error e =>
    rw [hdec] at hmap
    cases hmap
  | ok req' =>
    rw [hdec] at hmap
    exact congrArg Except.ok (RequestOrResponse.request.inj (Except.ok.inj hmap))

theorem decoder_returned {ctx ctx' : HttpContext} {r res : Response}
    (h : Returned all j ctx r ctx' res) : ctx' = ctx ∧ decodeResponse C r = .ok res := by
  obtain ⟨u, w, hu, hres⟩ := h
  rw [hj] at hu
  obtain rfl := Option.some.inj hu
  exact ⟨(congrArg Prod.snd hres).symm, congrArg Prod.fst hres⟩

theorem decoder_decides {ctx : HttpContext} {q : Request} {d : Decision}
    (h : Decides all j ctx q d) : (d = .forward ∧ ∃ req, decodeRequest C q = .ok req) ∨
      d = .error ∧ ∃ err, decodeRequest C q = .error err := by
  obtain ⟨u, w, hu, hd⟩ := h
  rw [hj] at hu
  obtain rfl := Option.some.inj hu
  have hmap : decision ((decodeRequest C q).map RequestOrResponse.request) = d := hd
  cases hdec : decodeRequest C q with
  | error e =>
    rw [hdec] at hmap
    exact .inr ⟨hmap.symm, e, rfl⟩
  | ok req =>
    rw [hdec] at hmap
    exact .inl ⟨hmap.symm, req, rfl⟩

/-- One event. -/
theorem behind_decoder {pre : List Event} {e : Event}
    (h : Event.FollowsFrom all (lastAfter none pre) e) :
    BehindDecoder C j all.length pre e := by
  constructor
  · rintro ctx q d rfl
    cases j with
    | zero => exact decoder_decides hj h
    | succ j => exact decoder_decides hj h.1
  · rintro ctx req d rfl
    obtain ⟨-, ctx₀, q, hlast, hfwd⟩ := h
    obtain ⟨pre', rfl⟩ := lastAfter_some hlast
    obtain ⟨rfl, hdec⟩ := decoder_forwarded hj hfwd
    exact ⟨pre', q, rfl, hdec, decodeRequest_plain hdec⟩
  · rintro ctx res rfl
    obtain ⟨ctx₀, r, hlast, hret⟩ := h
    obtain ⟨pre', rfl⟩ := lastAfter_some hlast
    obtain ⟨rfl, hdec⟩ := decoder_returned hj hret
    exact ⟨pre', r, rfl, hdec, decodeResponse_plain hdec⟩
  · rintro q rfl hlen
    obtain ⟨i, ctx₀, r, ctx, req, hi, hlast, hfwd, hq⟩ := h
    obtain rfl : i = j := Nat.succ_injective (hi.trans hlen.symm)
    obtain ⟨pre', rfl⟩ := lastAfter_some hlast
    obtain ⟨rfl, hdec⟩ := decoder_forwarded hj hfwd
    have hheaders : q.headers = req.headers := by rw [hq]
    refine ⟨pre', ctx, r, req, rfl, hdec, hheaders, by rw [hq], ?_⟩
    rw [hheaders]
    exact decodeRequest_plain hdec

end

/-- **Behind a `DecodeHandler` no message is encoded**, in every run, wherever it stands among the
handlers. A handler right behind it is shown what it has made of the message it was shown itself,
and the action does nothing between the two; if it is the last, so is the upstream. What it cannot
decode it refuses. -/
theorem run_decoded (env : Env ω) (users : List (UserHandler ω)) (ws : Option (WebSocketHandler ω))
    (n : ℕ) (C : Codecs) {j : ℕ} (hj : users[j]? = some (UserHandler.decoder C)) (s : Server ω)
    (actions : List Action) :
    (s.run env users ws n actions).2 = (s.deeds env users ws n actions).flatten ∧
      ∀ own ∈ s.deeds env users ws n actions, ∀ pre e post, own = pre ++ e :: post →
        BehindDecoder C j users.length pre e := by
  have hne : users ≠ [] := by
    rintro rfl
    cases hj
  refine ⟨(Server.deeds_flatten s actions).symm, ?_⟩
  rintro own hown pre e post rfl
  have hchained := Server.run_linked hne s actions _ hown
  exact behind_decoder hj (chained_append.1 hchained).2.1

/-- The request without its codings. -/
def plainRequest : Request :=
  { encodedRequest with
    headers := stripEncodingHeaders encodedRequest.headers
    body := .full (lit "hello") }

theorem run_decoded_deflate : BehindDecoder sampleCodecs 0 2
    [.request 0 ⟨0, "a.example".toList, ⟨"127.0.0.1", 0⟩, true⟩ encodedRequest .forward]
    (.request 1 ⟨0, "a.example".toList, ⟨"127.0.0.1", 0⟩, true⟩ plainRequest .forward) :=
  (run_decoded toggleEnv [UserHandler.decoder sampleCodecs, forwarder] none 4096 sampleCodecs rfl
    started [connectExample, .request 0 encodedRequest]).2 _ (List.mem_cons_of_mem _
      List.mem_cons_self) _ _ _ rfl

/-- A user's decoder is a `DecodeHandler` whose calls are seen. -/
theorem decoder_handler (C : Codecs) (i : ℕ) (ctx : HttpContext) (s : World ω) :
    (∀ req, (((UserHandler.decoder C).toHandler i).handleRequest ctx req s).result =
        ((DecodeHandler C).handleRequest ctx req s).result) ∧
      ∀ res, (((UserHandler.decoder C).toHandler i).handleResponse ctx res s).result =
        ((DecodeHandler C).handleResponse ctx res s).result :=
  ⟨fun _ => rfl, fun _ => rfl⟩

end HexbufferProxy
