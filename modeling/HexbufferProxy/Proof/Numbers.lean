import HexbufferProxy.Proof.Consent
import HexbufferProxy.Proof.Order
import HexbufferProxy.Rust.Keeps
import HexbufferProxy.Rust.Runs
import HexbufferProxy.Spec.Numbers

/-!
# Requests are numbered one by one

* `keeps_answerHttp`, `keeps_answerHttps`: the counter is not touched once a request has its number.
* `begins_id`, `finish_shows`: a request takes the next number, and is shown under it.
* `step_unnumbered`: other actions take none.
* `finish_begun`, `run_atOnce`: the two steps of a request, put together, are what `Server.step` does.
* `run_numbers`: so the numbers of a run are taken one by one, whoever is shown first.
-/

namespace HexbufferProxy

open Rust Rust.Proc

variable {ω : Type} {env : Env ω} {users : List (UserHandler ω)}
  {ws : Option (WebSocketHandler ω)} {n : ℕ}

/-! ## The counter -/

theorem keeps_external {α : Type} (f : ω → α × ω) :
    Keeps World.requestId (external f : P ω α) fun _ => True := keeps_call fun _ => rfl

/-- An operation of the environment, with what the proxy makes of its result. -/
theorem keeps_performed {α β : Type} (e : Event) (f : ω → α × ω) (g : α → Except Fault β) :
    Keeps World.requestId (do Proc.emit e; let r ← external f; Proc.lift (g r) : P ω β)
      fun _ => True := by
  refine keeps_bind (keeps_emit e) fun _ _ => ?_
  exact keeps_bind (keeps_external f) fun r _ => keeps_lift (g r)

theorem keeps_handlerRequest (ctx : HttpContext) (req : Request) :
    Keeps World.requestId ((proxyHandler env.enabled users).handleRequest ctx req)
      fun _ => True := by
  rw [proxyHandler_inOrder]
  exact fun _ => ⟨rfl, fun _ _ => trivial⟩

theorem keeps_handlerResponse (ctx : HttpContext) (res : Response) :
    Keeps World.requestId ((proxyHandler env.enabled users).handleResponse ctx res)
      fun _ => True := by
  rw [proxyHandler_inOrder]
  exact fun _ => ⟨rfl, fun _ _ => trivial⟩

theorem keeps_handlersResponse (ctx : HttpContext) (res : Response) :
    Keeps World.requestId (responseOrFail (proxyHandler env.enabled users) ctx res)
      fun _ => True := by
  refine keeps_bind (keeps_handlerResponse ctx res) fun r _ => ?_
  obtain ⟨_ | _, _⟩ := r
  · exact keeps_fail _
  · exact keeps_pure trivial

theorem keeps_writes (bs : Bytes) : Keeps World.requestId (writeClient env bs) fun _ => True :=
  keeps_performed (.toClient bs) (env.clientWrite bs) _

theorem keeps_shutdown : Keeps World.requestId (shutdownClient env) fun _ => True :=
  keeps_performed .shutdownClient env.clientShutdown _

theorem keeps_sends (req : Request) : Keeps World.requestId (sendRequest env req) fun _ => True :=
  keeps_bind (keeps_emit _) fun _ _ => keeps_external (env.sendRequest req)

theorem keeps_frames (fs : List (Except String Frame)) :
    Keeps World.requestId (writeFrames env fs) fun _ => True := by
  induction fs with
  | nil => exact keeps_pure trivial
  | cons f fs ih =>
    cases f with
    | error e => exact keeps_fail _
    | ok f =>
      cases f with
      | data bs => exact keeps_bind (keeps_writes bs) fun _ _ => ih
      | trailers m => exact ih

theorem keeps_forward (ctx : HttpContext) (host : Str) (req : Request) :
    Keeps World.requestId (forwardRequest env (proxyHandler env.enabled users) ctx host req)
      fun _ => True := by
  unfold forwardRequest
  cases absoluteRequest env "http".toList host req with
  | none => exact keeps_fail _
  | some req =>
    refine keeps_bind (keeps_sends req) fun _ _ => ?_
    refine keeps_bind (keeps_lift _) fun _ _ => ?_
    refine keeps_bind (keeps_handlersResponse ctx _) fun r _ => ?_
    refine keeps_bind (keeps_writes _) fun _ _ => ?_
    refine keeps_bind (R := fun _ => True) ?_ fun _ _ => keeps_shutdown
    cases r.1.body with
    | full bs => exact keeps_writes bs
    | streaming fs => exact keeps_frames fs

theorem keeps_upgrade (client : Source) (ctx : HttpContext) (host : Str) (req : Request) :
    Keeps World.requestId
      (forwardUpgrade env (proxyHandler env.enabled users) ws client n ctx host req)
      fun _ => True := by
  refine keeps_bind (keeps_performed _ (env.connect (upgradeTarget host)) _) fun _ _ => ?_
  refine keeps_bind (keeps_performed _ (env.serverWrite (serializeRequest req)) _) fun _ _ => ?_
  refine keeps_bind (keeps_call fun _ => rfl) fun server _ => ?_
  refine keeps_bind (keeps_lift _) fun _ _ => ?_
  refine keeps_bind (keeps_lift _) fun response _ => ?_
  refine keeps_bind (keeps_handlersResponse ctx response) fun r _ => ?_
  refine keeps_bind (keeps_writes _) fun _ _ => ?_
  cases hswitched : isWebsocketResponse r.1 with
  | true =>
    rw [if_pos rfl]
    exact keeps_emit _
  | false =>
    rw [if_neg Bool.false_ne_true]
    exact keeps_shutdown

/-- On the plain path, whatever the handlers answer. -/
theorem keeps_answerHttp (client : Source) (host : Str) (isWs : Bool)
    (r : RequestOrResponse × HttpContext) : Keeps World.requestId
      (answerHttp env (proxyHandler env.enabled users) ws client n host isWs r) fun _ => True := by
  obtain ⟨req | res, ctx⟩ := r
  · show Keeps World.requestId (if isWs then
      forwardUpgrade env (proxyHandler env.enabled users) ws client n ctx host req
      else forwardRequest env (proxyHandler env.enabled users) ctx host req) fun _ => True
    split
    · exact keeps_upgrade client ctx host req
    · exact keeps_forward ctx host req
  · exact keeps_bind (keeps_writes _) fun _ _ => keeps_shutdown

theorem keeps_task (ctx : HttpContext) (host path : Str) (origin cookie : Option Str) :
    Keeps World.requestId (upgradeTask env ws ctx host path origin cookie) fun _ => True := by
  refine keeps_bind (keeps_external env.generateKey) fun key _ => ?_
  cases upstreamHandshake env host path key origin cookie with
  | none => exact keeps_pure trivial
  | some req =>
    refine keeps_bind (keeps_external env.upgraded) fun client _ => ?_
    cases client with
    | error e => exact keeps_pure trivial
    | ok _ =>
      refine keeps_bind (keeps_emit _) fun _ _ => ?_
      refine keeps_bind (keeps_external (env.wsConnect req)) fun server _ => ?_
      cases server with
      | error e => exact keeps_pure trivial
      | ok _ => exact keeps_emit _

/-- A reply whose task, if there is one, takes no number. -/
def TakesNone (a : Response × Option (P ω Unit)) : Prop :=
  ∀ task, a.2 = some task → Keeps World.requestId task fun _ => True

theorem takesNone_none (res : Response) : TakesNone (ω := ω) (res, none) := by
  intro task h
  cases h

/-- Inside TLS, whatever the handlers answer. -/
theorem keeps_answerHttps (host : Str) (r : Except ProxyError RequestOrResponse × HttpContext) :
    Keeps World.requestId (answerHttps env (proxyHandler env.enabled users) ws host r)
      TakesNone := by
  obtain ⟨e | req | res, ctx⟩ := r
  · exact keeps_pure (takesNone_none _)
  · show Keeps World.requestId (if env.isUpgradeRequest req then
      handleHttpsWebsocket env ws ctx host req else _) TakesNone
    split
    · unfold handleHttpsWebsocket
      cases absoluteRequest env "https".toList host req with
      | none => exact keeps_fail _
      | some req =>
        simp only
        cases req.uri.withScheme "wss".toList with
        | none => exact keeps_fail _
        | some uri =>
          refine keeps_bind (keeps_lift _) fun res _ => keeps_pure ?_
          intro task htask
          rw [← Option.some.inj htask]
          exact keeps_task ctx host _ _ _
    cases absoluteRequest env "https".toList host req with
    | none => exact keeps_fail _
    | some req =>
      refine keeps_bind (keeps_sends req) fun r _ => ?_
      cases r with
      | error e => exact keeps_pure (takesNone_none _)
      | ok response =>
        refine keeps_bind (keeps_handlerResponse ctx response) fun m _ => ?_
        obtain ⟨_ | _, _⟩ := m
        · exact keeps_pure (takesNone_none _)
        · exact keeps_pure (takesNone_none _)
  · exact keeps_pure (takesNone_none _)

theorem keeps_sendReply {a : Response × Option (P ω Unit)} (ha : TakesNone a) :
    Keeps World.requestId (sendReply a) fun _ => True := by
  obtain ⟨res, _ | task⟩ := a
  · exact keeps_bind (keeps_emit _) fun _ _ => keeps_pure trivial
  · refine keeps_bind (keeps_emit _) fun _ _ => ?_
    exact keeps_bind (ha task rfl) fun _ _ => keeps_pure trivial

theorem keeps_openTunnel (env : Env ω) (users : List (UserHandler ω)) (client : Source)
    (target : Str) :
    Keeps World.requestId (openTunnel env (proxyHandler env.enabled users) client target)
      fun _ => True := by
  have hstack : ∀ (users : List (UserHandler ω)) (i : ℕ) (host : Str), Keeps World.requestId
      (HandlerStack.shouldInterceptTls (numbered users i) host) fun _ => True := by
    intro users
    induction users with
    | nil => exact fun i host => keeps_pure trivial
    | cons u us ih =>
      intro i host
      rw [numbered_cons]
      refine keeps_bind (R := fun _ => True) ?_ fun answer _ => ?_
      · refine keeps_bind (keeps_external _) fun answer _ => ?_
        exact keeps_bind (keeps_emit _) fun _ _ => keeps_pure trivial
      · cases answer with
        | true => exact ih (i + 1) host
        | false => exact keeps_pure trivial
  refine keeps_bind (keeps_writes _) fun _ _ => ?_
  refine keeps_bind (R := fun _ => True) ?_ fun intercept _ => ?_
  · unfold proxyHandler
    rw [buildHandler_stack]
    refine keeps_bind (keeps_external _) fun on _ => ?_
    cases on with
    | true => exact hstack users 0 _
    | false => exact keeps_pure trivial
  cases intercept with
  | false =>
    refine keeps_bind (keeps_performed _ (env.connect target) _) fun _ _ => ?_
    refine keeps_bind (keeps_call fun _ => rfl) fun server _ => ?_
    exact keeps_bind (keeps_emit _) fun _ _ => keeps_pure trivial
  | true =>
    refine keeps_bind (keeps_external _) fun cert _ => ?_
    refine keeps_bind (keeps_lift _) fun cert _ => ?_
    refine keeps_bind (keeps_emit _) fun _ _ => ?_
    refine keeps_bind (keeps_external _) fun reqs _ => ?_
    exact keeps_bind (keeps_lift _) fun reqs _ => keeps_pure trivial

/-! ## The numbers that are shown -/

theorem shownId_quiet {es : List Event} (h : ∀ e ∈ es, e.isRequestCall = false) :
    es.flatMap Event.shownId = [] := by
  rw [List.flatMap_eq_nil_iff]
  intro e he
  have hcall := h e he
  cases e with
  | request => exact Bool.noConfusion hcall
  | _ => rfl

/-- The first handler is asked once, under the number of the context. -/
theorem shownId_asked {α : Type} {u : UserHandler ω} {us : List (UserHandler ω)} {ctx : HttpContext}
    {req : Request} {f : Except ProxyError RequestOrResponse × HttpContext → P ω α}
    (hf : ∀ r x, ∀ e ∈ (f r x).events, e.isRequestCall = false) (x : World ω) :
    (((proxyHandler env.enabled (u :: us)).handleRequest ctx req >>= f) x).events.flatMap
      Event.shownId = [ctx.id] := by
  rw [proxyHandler_request]
  obtain ⟨r, hr, -⟩ := stack_requestCalls (u :: us) 0 ctx req x
  obtain ⟨d, rest, hevents, hrest⟩ := stack_first u us 0 ctx req x
  have hothers : rest.flatMap Event.shownId = [] := by
    rw [List.flatMap_eq_nil_iff]
    intro e he
    unfold Event.shownId
    split
    · exact absurd (hrest _ _ _ _ he) (Nat.lt_irrefl 0)
    · rfl
  rw [bind_ok hr]
  dsimp only
  rw [List.flatMap_append, shownId_quiet (hf r _), hevents, List.append_nil, List.flatMap_cons,
    hothers]
  rfl

theorem answerHttp_quiet (client : Source) (host : Str) (isWs : Bool)
    (r : RequestOrResponse × HttpContext) (x : World ω) :
    ∀ e ∈ (answerHttp env (proxyHandler env.enabled users) ws client n host isWs r x).events,
      e.isRequestCall = false := by
  obtain ⟨req | res, ctx⟩ := r
  · have hens : Ensures Event.isContact 1 (answerHttp env (proxyHandler env.enabled users) ws client
        n host isWs (.request req, ctx)) (fun _ => True) (fun e => e.isRequestCall = false) := by
      refine ensures_answerHttp transfer_notRequest (response_notRequest env users) ?_ ?_ ?_
      · exact fun _ => rfl
      · exact fun _ _ _ => rfl
      · exact fun _ _ _ => rfl
    exact (hens x).2.1
  · have hens : Ensures Event.isContact 0 (answerHttp env (proxyHandler env.enabled users) ws client
        n host isWs (.response res, ctx)) (fun _ => True)
        (fun e => e.isRequestCall = false ∧ e.isResponseCall = false) :=
      ensures_answerHttp_response transfer_notCall _ ws client n host isWs res ctx
    exact fun e he => ((hens x).2.1 e he).1

theorem answerHttps_quiet (host : Str) (r : Except ProxyError RequestOrResponse × HttpContext)
    (x : World ω) :
    ∀ e ∈ ((answerHttps env (proxyHandler env.enabled users) ws host r >>= sendReply) x).events,
      e.isRequestCall = false := by
  have hens : Ensures Event.isContact 1
      (answerHttps env (proxyHandler env.enabled users) ws host r >>= sendReply) (fun _ => True)
      (fun e => e.isRequestCall = false) := by
    obtain ⟨e | req | res, ctx⟩ := r
    · exact (ensures_answerHttps_refused transfer_notRequest fun h => Decision.noConfusion h).mono
        (Nat.zero_le 1) (fun _ h => h) (fun _ h => h)
    · refine ensures_answerHttps transfer_notRequest (response_notRequest env users) ?_ ?_
      · intros
        rfl
      · intros
        rfl
    · exact (ensures_answerHttps_refused transfer_notRequest fun h => Decision.noConfusion h).mono
        (Nat.zero_le 1) (fun _ h => h) (fun _ h => h)
  exact (hens x).2.1

/-! ## Requests -/

/-- The first handler has been shown a request under this number, and no number has been taken. -/
def ShowsOnly {α : Type} (x : World ω) (id : UInt64) (r : Ran Event (World ω) Fault α) : Prop :=
  r.events.flatMap Event.shownId = [id] ∧ r.state.requestId = x.requestId

/-- The handlers are asked, and something that is quiet follows. -/
theorem asked_showsOnly {α : Type} {u : UserHandler ω} {us : List (UserHandler ω)}
    {ctx : HttpContext} {req : Request}
    {f : Except ProxyError RequestOrResponse × HttpContext → P ω α} {x : World ω}
    (hf : ∀ r x, ∀ e ∈ (f r x).events, e.isRequestCall = false)
    (hkeeps : ∀ r, Keeps World.requestId (f r) fun _ => True) :
    ShowsOnly x ctx.id (((proxyHandler env.enabled (u :: us)).handleRequest ctx req >>= f) x) :=
  ⟨shownId_asked hf x, (keeps_bind (keeps_handlerRequest ctx req) (fun r _ => hkeeps r) x).1⟩

namespace Server

variable {s : Server ω}

/-- **A request that goes on** is shown to the first handler under its number. -/
theorem finish_shows (u : UserHandler ω) (us : List (UserHandler ω)) (b : Begun) :
    (s.finish env (u :: us) ws n b).2.flatMap Event.shownId = [b.ctx.id] ∧
      (s.finish env (u :: us) ws n b).1.world.requestId = s.world.requestId := by
  obtain ⟨ctx, req, client | i⟩ := b
  · unfold finish requestOrFail
    dsimp only
    rw [bind_assoc]
    apply asked_showsOnly
    · rintro ⟨e | r, ctx⟩ y
      · exact fun e he => absurd he List.not_mem_nil
      · exact answerHttp_quiet client _ _ (r, ctx) y
    · rintro ⟨e | r, ctx⟩
      · exact keeps_fail _
      · exact keeps_answerHttp client _ _ (r, ctx)
  · apply asked_showsOnly
    · exact fun r y => answerHttps_quiet _ r y
    · exact fun r => keeps_bind (keeps_answerHttps _ r) fun a ha => keeps_sendReply ha

/-- The number that a request takes is the next one. -/
theorem begins_id {a : Action} {b : Begun} (h : s.begins env a = some b) :
    b.ctx.id = s.world.requestId := by
  cases a with
  | request i req =>
    unfold begins at h
    dsimp only at h
    split at h
    · exact Option.some.inj h ▸ rfl
    · cases h
  | plain client addr raw =>
    unfold begins at h
    dsimp only at h
    cases hparse : parseRawRequest env.http raw with
    | error f =>
      rw [hparse] at h
      cases h
    | ok req =>
      rw [hparse] at h
      obtain ⟨host, -, rfl⟩ := Option.map_eq_some_iff.1 h
      rfl
  | _ => cases h

/-- **An action that begins no request** takes no number, and shows none. -/
theorem step_unnumbered (u : UserHandler ω) (us : List (UserHandler ω)) {a : Action}
    (h : s.begins env a = none) :
    (s.step env (u :: us) ws n a).2.flatMap Event.shownId = [] ∧
      (s.step env (u :: us) ws n a).1.world.requestId = s.world.requestId := by
  cases a with
  | setEnabled b => exact ⟨rfl, rfl⟩
  | close i => exact ⟨rfl, rfl⟩
  | connect client target addr =>
    refine ⟨?_, ?_⟩
    · exact shownId_quiet (@openTunnel_quiet ω (env.flagged s.enabled) (u :: us) client target s.world)
    · exact (keeps_openTunnel (env.flagged s.enabled) (u :: us) client target s.world).1
  | request i req =>
    rcases s.tunnel_cases i with hdead | ⟨host, addr, hi⟩
    · rw [step_dead hdead]
      exact ⟨rfl, rfl⟩
    · unfold begins at h
      dsimp only at h
      rw [hi] at h
      cases h
  | plain client addr raw =>
    show (handleHttp (env.flagged s.enabled) _ ws client addr n raw s.world).events.flatMap _ = _ ∧
      (handleHttp (env.flagged s.enabled) _ ws client addr n raw s.world).state.requestId = _
    have hhttp : (env.flagged s.enabled).http = env.http := rfl
    cases hparse : parseRawRequest env.http raw with
    | error f =>
      rw [handleHttp_unparsed (hhttp ▸ hparse)]
      exact ⟨rfl, rfl⟩
    | ok req =>
      unfold begins at h
      dsimp only at h
      rw [hparse] at h
      rw [handleHttp_hostless (hhttp ▸ hparse) (Option.map_eq_none_iff.1 h)]
      have hens : Ensures Event.isContact 0
          (writeClient (env.flagged s.enabled) badRequest >>= fun _ =>
            shutdownClient (env.flagged s.enabled))
          (fun _ => True) (fun e => e.isRequestCall = false) := by
        apply ensures_bind (ensures_writeClient transfer_notRequest _)
        intro _ _
        exact ensures_shutdownClient transfer_notRequest
      exact ⟨shownId_quiet (hens s.world).2.1,
        (keeps_bind (keeps_writes _) (fun _ _ => keeps_shutdown) s.world).1⟩

/-- **A request that nothing comes between** is what `Server.step` does. -/
theorem finish_begun {a : Action} {b : Begun} (h : s.begins env a = some b) :
    Server.finish env users ws n { s with world := s.world.numbered } b =
      s.step env users ws n a := by
  cases a with
  | request i req =>
    unfold begins at h
    dsimp only at h
    split at h
    · next host addr hi =>
      rw [step_live hi req rfl, serveRequest_run, ← Option.some.inj h]
      rfl
    · cases h
  | plain client addr raw =>
    unfold begins at h
    dsimp only at h
    cases hparse : parseRawRequest env.http raw with
    | error f =>
      rw [hparse] at h
      cases h
    | ok req =>
      rw [hparse] at h
      obtain ⟨host, hhost, rfl⟩ := Option.map_eq_some_iff.1 h
      unfold step finish
      dsimp only
      rw [show s.handler env users = proxyHandler (env.flagged s.enabled).enabled users from rfl,
        handleHttp_run (show parseRawRequest (env.flagged s.enabled).http raw = .ok req from hparse)
          hhost]
  | _ => cases h

end Server

/-! ## Runs -/

theorem idsFrom_one (id : UInt64) : idsFrom id 1 = [id] := by
  show [id + UInt64.ofNat 0] = [id]
  rw [show UInt64.ofNat 0 = 0 from rfl, UInt64.add_zero]

theorem idsFrom_append (id : UInt64) (j k : ℕ) :
    idsFrom id (j + k) = idsFrom id j ++ idsFrom (id + UInt64.ofNat j) k := by
  unfold idsFrom
  rw [List.range_add, List.map_append, List.map_map]
  congr 1
  apply List.map_congr_left
  intro i _
  show id + UInt64.ofNat (j + i) = id + UInt64.ofNat j + UInt64.ofNat i
  rw [UInt64.ofNat_add, UInt64.add_assoc]

/-- The counter comes back to a number after 2^64 requests, not before. -/
theorem idsFrom_nodup (id : UInt64) {k : ℕ} (hk : k ≤ 2 ^ 64) : (idsFrom id k).Nodup := by
  refine List.Nodup.map_on ?_ List.nodup_range
  intro i hi j hj h
  have hij : UInt64.ofNat i = UInt64.ofNat j := by
    have hsub : id + UInt64.ofNat i - id = id + UInt64.ofNat j - id := congrArg (· - id) h
    rwa [UInt64.add_comm id, UInt64.add_comm id, UInt64.add_sub_cancel, UInt64.add_sub_cancel]
      at hsub
  have hnat := congrArg UInt64.toNat hij
  rw [UInt64.toNat_ofNat', UInt64.toNat_ofNat',
    Nat.mod_eq_of_lt ((List.mem_range.1 hi).trans_le hk),
    Nat.mod_eq_of_lt ((List.mem_range.1 hj).trans_le hk)] at hnat
  exact hnat

namespace Busy

/-- One move takes one number, or none, and shows one, or none. -/
theorem step_numbers (env : Env ω) (u : UserHandler ω) (us : List (UserHandler ω))
    (ws : Option (WebSocketHandler ω)) (n : ℕ) (b : Busy ω) (m : Move) :
    ∃ k ≤ 1, ((b.step env (u :: us) ws n m).2.flatMap Event.shownId ++
        (b.step env (u :: us) ws n m).1.waiting).Perm
          (b.waiting ++ idsFrom b.server.world.requestId k) ∧
      (b.step env (u :: us) ws n m).1.server.world.requestId =
        b.server.world.requestId + UInt64.ofNat k := by
  have hzero : b.server.world.requestId + UInt64.ofNat 0 = b.server.world.requestId := by
    rw [show UInt64.ofNat 0 = 0 from rfl, UInt64.add_zero]
  have hsame : b.waiting.Perm (b.waiting ++ idsFrom b.server.world.requestId 0) := by
    show b.waiting.Perm (b.waiting ++ [])
    rw [List.append_nil]
  cases m with
  | action a =>
    unfold step
    dsimp only
    cases hbegins : b.server.begins env a with
    | none =>
      obtain ⟨hshown, hcount⟩ := @Server.step_unnumbered ω env ws n b.server u us a hbegins
      dsimp only
      rw [hshown, hcount]
      exact ⟨0, Nat.zero_le 1, hsame, hzero.symm⟩
    | some r =>
      refine ⟨1, Nat.le_refl 1, ?_, rfl⟩
      show ((b.begun ++ [r]).map fun r => r.ctx.id).Perm (b.waiting ++ idsFrom _ 1)
      rw [List.map_append, List.map_singleton, Server.begins_id hbegins, idsFrom_one]
      exact .refl _
  | goOn k =>
    refine ⟨0, Nat.zero_le 1, ?_⟩
    rw [hzero]
    unfold step
    dsimp only
    cases hr : b.begun[k]? with
    | none => exact ⟨hsame, rfl⟩
    | some r =>
      obtain ⟨hshown, hcount⟩ := @Server.finish_shows ω env ws n b.server u us r
      dsimp only
      rw [hshown, hcount]
      refine ⟨.trans ?_ hsame, rfl⟩
      obtain ⟨hk, rfl⟩ := List.getElem?_eq_some_iff.1 hr
      exact (List.getElem_cons_eraseIdx_perm hk).map fun r => r.ctx.id

theorem run_taken (env : Env ω) (u : UserHandler ω) (us : List (UserHandler ω))
    (ws : Option (WebSocketHandler ω)) (n : ℕ) (b : Busy ω) (moves : List Move) :
    let r := runOf (fun (b : Busy ω) m => b.step env (u :: us) ws n m) b moves
    ∃ k ≤ moves.length, (r.2.flatMap Event.shownId ++ r.1.waiting).Perm
        (b.waiting ++ idsFrom b.server.world.requestId k) ∧
      r.1.server.world.requestId = b.server.world.requestId + UInt64.ofNat k := by
  induction moves generalizing b with
  | nil =>
    refine ⟨0, Nat.le_refl 0, ?_, (UInt64.add_zero _).symm⟩
    show b.waiting.Perm (b.waiting ++ [])
    rw [List.append_nil]
  | cons m moves ih =>
    obtain ⟨j, hj, htaken, hcount⟩ := step_numbers env u us ws n b m
    obtain ⟨k, hk, htaken', hcount'⟩ := ih (b.step env (u :: us) ws n m).1
    rw [hcount] at htaken' hcount'
    refine ⟨j + k, ?_, ?_, ?_⟩
    · rw [List.length_cons, Nat.add_comm j]
      exact Nat.add_le_add hk hj
    · rw [runOf_cons]
      dsimp only
      rw [List.flatMap_append, idsFrom_append, List.append_assoc, ← List.append_assoc b.waiting]
      refine .trans (htaken'.append_left _) ?_
      rw [← List.append_assoc]
      exact htaken.append_right _
    · rw [UInt64.ofNat_add, ← UInt64.add_assoc]
      exact hcount'

/-- An action is one move, or two if it begins a request. -/
theorem step_atOnce (s : Server ω) (a : Action) : ∃ moves,
    runOf (fun (b : Busy ω) m => b.step env users ws n m) ⟨s, []⟩ moves =
      (⟨(s.step env users ws n a).1, []⟩, (s.step env users ws n a).2) := by
  cases hbegins : s.begins env a with
  | none =>
    refine ⟨[.action a], ?_⟩
    rw [runOf_single]
    unfold step
    dsimp only
    rw [hbegins]
  | some b =>
    refine ⟨[.action a, .goOn 0], ?_⟩
    have hbegin : Busy.step env users ws n ⟨s, []⟩ (.action a) =
        (⟨{ s with world := s.world.numbered }, [b]⟩, []) := by
      unfold step
      dsimp only
      rw [hbegins]
      rfl
    rw [runOf_cons, hbegin, runOf_single, ← Server.finish_begun hbegins]
    rfl

/-- **Every run of the server is one of these**, in which each request goes on as soon as it has
begun. -/
theorem run_atOnce (s : Server ω) (as : List Action) : ∃ moves,
    runOf (fun (b : Busy ω) m => b.step env users ws n m) ⟨s, []⟩ moves =
      (⟨(s.run env users ws n as).1, []⟩, (s.run env users ws n as).2) := by
  have hstep : ∀ (s : Server ω) (b : Busy ω) a, b = ⟨s, []⟩ → ∃ moves, True ∧
      (runOf (fun (b : Busy ω) m => b.step env users ws n m) b moves).1 =
        ⟨(s.step env users ws n a).1, []⟩ ∧
      (runOf (fun (b : Busy ω) m => b.step env users ws n m) b moves).2 =
        (s.step env users ws n a).2 := by
    rintro s b a rfl
    obtain ⟨moves, hmoves⟩ := @step_atOnce ω env users ws n s a
    exact ⟨moves, trivial, congrArg Prod.fst hmoves, congrArg Prod.snd hmoves⟩
  obtain ⟨parts, hparts, hrun⟩ := runOf_simulated hstep as rfl
  obtain ⟨hstate, hout⟩ := hrun as.length
  rw [List.take_length, hparts.length_eq, List.take_length] at hstate hout
  refine ⟨parts.flatten, Prod.ext ?_ ?_⟩
  · rw [hstate, Server.run_eq]
  · rw [hout, Server.run_eq]

end Busy

/-- **Requests are numbered one by one**, on whatever connections they come, plain or inside TLS, and
whichever goes on first: in every run the numbers under which requests have been shown to the first
handler, with those of the requests that have begun and have not been shown, are the numbers from the
counter's value on, each once. No number comes twice before there have been 2^64 requests. -/
theorem run_numbers (env : Env ω) (u : UserHandler ω) (us : List (UserHandler ω))
    (ws : Option (WebSocketHandler ω)) (n : ℕ) (s : Server ω) (moves : List Move) :
    let r := runOf (fun (b : Busy ω) m => b.step env (u :: us) ws n m) ⟨s, []⟩ moves
    ∃ k ≤ moves.length,
      (r.2.flatMap Event.shownId ++ r.1.waiting).Perm (idsFrom s.world.requestId k) ∧
      r.1.server.world.requestId = s.world.requestId + UInt64.ofNat k ∧
      (k ≤ 2 ^ 64 → (r.2.flatMap Event.shownId ++ r.1.waiting).Nodup) := by
  obtain ⟨k, hk, htaken, hcount⟩ := Busy.run_taken env u us ws n ⟨s, []⟩ moves
  exact ⟨k, hk, htaken, hcount, fun h => htaken.nodup_iff.2 (idsFrom_nodup _ h)⟩

/-- A request on the plain path. -/
def plainExample : Action :=
  .plain ⟨[], none⟩ ⟨"127.0.0.1", 0⟩ (lit "GET / HTTP/1.1\r\nHost: a.example\r\n\r\n")

/-- The second of two requests may be shown before the first. -/
example :
    (runOf (fun b m => b.step hostEnv [forwarder] none 4096 m) (⟨⟨true, ⟨(), 7⟩, []⟩, []⟩ : Busy Unit)
      [.action plainExample, .action plainExample, .goOn 1, .goOn 0]).2.flatMap Event.shownId =
        [8, 7] := by
  decide +kernel

end HexbufferProxy
