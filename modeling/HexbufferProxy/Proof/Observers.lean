import HexbufferProxy.Proof.Stack
import HexbufferProxy.Proof.Toggle
import HexbufferProxy.Spec.Observers

/-!
# Observers are not noticed

* `unnoticed_stack`: a stack of handlers and observers does what the handlers do alone.
* `unnoticed_handleHttp`, `unnoticed_serveRequest`, `unnoticed_handleHttps`: so everything that asks
  the handlers does.
* `observers_unnoticed`: connections, and whole runs of a proxy.
-/

namespace HexbufferProxy

open Rust Rust.Proc

variable {ω τ : Type} {slots : List (Slot ω τ)}

/-! ## Single operations -/

/-- What the world is asked, it answers in the same way. -/
theorem unnoticed_external {α : Type} (f : ω → α × ω) :
    Unnoticed slots (external (beside τ f)) (external f) := mirrors_call fun _ => ⟨rfl, rfl⟩

/-- An operation on a socket that may fail. -/
theorem unnoticed_operation {α : Type} {e : Event} (he : e.seen slots = [e]) (f : ω → α × ω)
    (g : α → Except Fault Unit) :
    Unnoticed slots (do Proc.emit e; let r ← external (beside τ f); Proc.lift (g r) : P (ω × τ) Unit)
      (do Proc.emit e; let r ← external f; Proc.lift (g r)) := by
  refine mirrors_bind (mirrors_emit he) fun _ _ _ => ?_
  refine mirrors_bind (unnoticed_external f) fun r' r hr => ?_
  rw [hr]
  exact mirrors_lift (g r)

/-! ## Stacks -/

theorem number_user (pre rest : List (Slot ω τ)) (u : UserHandler ω) :
    Slot.number? (pre ++ .user u :: rest) pre.length = some (pre.countP Slot.isUser) := by
  unfold Slot.number?
  rw [List.getElem?_append_right le_rfl, Nat.sub_self, List.getElem?_cons_zero, List.take_left]

theorem number_observer (pre rest : List (Slot ω τ)) (o : {o : UserHandler (ω × τ) // o.Observes}) :
    Slot.number? (pre ++ .observer o :: rest) pre.length = none := by
  unfold Slot.number?
  rw [List.getElem?_append_right le_rfl, Nat.sub_self, List.getElem?_cons_zero]

/-- The handlers behind a place, with the numbers that they have with and without the observers. -/
def handlersFrom (pre rest : List (Slot ω τ)) : List (HttpHandler (ω × τ)) :=
  numbered (rest.map Slot.handler) pre.length

def bareHandlersFrom (pre rest : List (Slot ω τ)) : List (HttpHandler ω) :=
  numbered (rest.filterMap Slot.user?) (pre.countP Slot.isUser)

theorem handlersFrom_cons (pre rest : List (Slot ω τ)) (x : Slot ω τ) :
    handlersFrom pre (x :: rest) = x.handler.toHandler pre.length :: handlersFrom (pre ++ [x]) rest := by
  unfold handlersFrom
  rw [List.map_cons, numbered_cons, List.length_append, List.length_singleton]

theorem bareHandlersFrom_user (pre rest : List (Slot ω τ)) (u : UserHandler ω) :
    bareHandlersFrom pre (.user u :: rest) =
      u.toHandler (pre.countP Slot.isUser) :: bareHandlersFrom (pre ++ [.user u]) rest := by
  have hcount : (pre ++ [Slot.user u]).countP (Slot.isUser (τ := τ)) =
      pre.countP Slot.isUser + 1 := by
    rw [List.countP_append, List.countP_singleton]
    exact congrArg (_ + ·) (if_pos rfl)
  unfold bareHandlersFrom
  rw [hcount]
  exact numbered_cons u _ _

theorem bareHandlersFrom_observer (pre rest : List (Slot ω τ))
    (o : {o : UserHandler (ω × τ) // o.Observes}) :
    bareHandlersFrom pre (.observer o :: rest) = bareHandlersFrom (pre ++ [.observer o]) rest := by
  have hcount : (pre ++ [Slot.observer o]).countP Slot.isUser = pre.countP Slot.isUser := by
    rw [List.countP_append, List.countP_singleton]
    exact congrArg (_ + ·) (if_neg Bool.false_ne_true)
  unfold bareHandlersFrom
  rw [hcount]
  rfl

/-- A handler that the proxy asks by its methods. -/
structure UnnoticedHandler (slots : List (Slot ω τ)) (h' : HttpHandler (ω × τ))
    (h : HttpHandler ω) : Prop where
  request : ∀ ctx req, Unnoticed slots (h'.handleRequest ctx req) (h.handleRequest ctx req)
  response : ∀ ctx res, Unnoticed slots (h'.handleResponse ctx res) (h.handleResponse ctx res)
  intercept : ∀ host, Unnoticed slots (h'.shouldInterceptTls host) (h.shouldInterceptTls host)

/-- A handler that may do anything does it here as there, under its other number. -/
theorem unnoticed_user {i j : ℕ} (hi : Slot.number? slots i = some j) (u : UserHandler ω) :
    UnnoticedHandler slots ((u.beside τ).toHandler i) (u.toHandler j) where
  request ctx req := by
    refine mirrors_bind (unnoticed_external _) fun r' r hr => ?_
    rw [hr]
    refine mirrors_bind (mirrors_emit ?_) fun _ _ _ => mirrors_pure rfl
    show ((Slot.number? slots i).map _).toList = _
    rw [hi]
    rfl
  response ctx res := by
    refine mirrors_bind (mirrors_emit ?_) fun _ _ _ => unnoticed_external _
    show ((Slot.number? slots i).map _).toList = _
    rw [hi]
    rfl
  intercept host := by
    refine mirrors_bind (unnoticed_external _) fun answer' answer hanswer => ?_
    rw [hanswer]
    refine mirrors_bind (mirrors_emit ?_) fun _ _ _ => mirrors_pure rfl
    show ((Slot.number? slots i).map _).toList = _
    rw [hi]
    rfl

section

variable {i : ℕ} (hi : Slot.number? slots i = none) {o : UserHandler (ω × τ)} (ho : o.Observes)

include hi ho

/-- An observer is asked in vain. -/
theorem observer_request (ctx : HttpContext) (req : Request) :
    Mirrors World.bare (Event.seen slots) ((o.toHandler i).handleRequest ctx req)
      (pure () : P ω Unit) fun r _ => r = (.ok (.request req), ctx) := by
  intro x
  refine ⟨.ok (ho.request ctx req x.ext).1, ?_, ?_⟩
  · exact congrArg (World.mk · x.requestId) (ho.request ctx req x.ext).2
  · show ((Slot.number? slots i).map _).toList ++ [] = []
    rw [hi]
    rfl

theorem observer_response (ctx : HttpContext) (res : Response) :
    Mirrors World.bare (Event.seen slots) ((o.toHandler i).handleResponse ctx res)
      (pure () : P ω Unit) fun r _ => r = (.ok res, ctx) := by
  intro x
  refine ⟨.ok (ho.response ctx res x.ext).1, ?_, ?_⟩
  · exact congrArg (World.mk · x.requestId) (ho.response ctx res x.ext).2
  · show ((Slot.number? slots i).map _).toList ++ [] = []
    rw [hi]
    rfl

theorem observer_intercept (host : Str) :
    Mirrors World.bare (Event.seen slots) ((o.toHandler i).shouldInterceptTls host)
      (pure () : P ω Unit) fun answer _ => answer = true := by
  intro x
  refine ⟨.ok (ho.intercept host x.ext).1, ?_, ?_⟩
  · exact congrArg (World.mk · x.requestId) (ho.intercept host x.ext).2
  · show ((Slot.number? slots i).map _).toList ++ [] = []
    rw [hi]
    rfl

end

/-- **A stack of handlers and observers does what the handlers do alone.** The induction is on what
is behind a place. -/
theorem unnoticed_stack : ∀ (rest pre : List (Slot ω τ)), slots = pre ++ rest →
    UnnoticedHandler slots (HandlerStack (handlersFrom pre rest))
      (HandlerStack (bareHandlersFrom pre rest)) := by
  intro rest
  induction rest with
  | nil => exact fun _ _ => ⟨fun _ _ => mirrors_pure rfl, fun _ _ => mirrors_pure rfl,
      fun _ => mirrors_pure rfl⟩
  | cons x rest ih =>
    intro pre hslots
    have hrest := ih (pre ++ [x]) (by rw [hslots, List.append_assoc, List.singleton_append])
    rw [handlersFrom_cons]
    cases x with
    | user u =>
      have hu := unnoticed_user (hslots ▸ number_user pre rest u) u
      rw [bareHandlersFrom_user]
      refine ⟨fun ctx req => ?_, fun ctx res => ?_, fun host => ?_⟩
      · refine mirrors_bind (hu.request ctx req) fun r' r hr => ?_
        rw [hr]
        obtain ⟨e | q | res, ctx'⟩ := r
        · exact mirrors_pure rfl
        · exact hrest.request ctx' q
        · exact mirrors_pure rfl
      · refine mirrors_bind (hu.response ctx res) fun r' r hr => ?_
        rw [hr]
        obtain ⟨e | out, ctx'⟩ := r
        · exact mirrors_pure rfl
        · exact hrest.response ctx' out
      · refine mirrors_bind (hu.intercept host) fun answer' answer hanswer => ?_
        rw [hanswer]
        cases answer with
        | false => exact mirrors_pure rfl
        | true => exact hrest.intercept host
    | observer o =>
      have hi := hslots ▸ number_observer pre rest o
      rw [bareHandlersFrom_observer]
      refine ⟨fun ctx req => ?_, fun ctx res => ?_, fun host => ?_⟩
      · refine mirrors_skip (observer_request hi o.2 ctx req) fun r hr => ?_
        rw [hr]
        exact hrest.request ctx req
      · refine mirrors_skip (observer_response hi o.2 ctx res) fun r hr => ?_
        rw [hr]
        exact hrest.response ctx res
      · refine mirrors_skip (observer_intercept hi o.2 host) fun answer hanswer => ?_
        rw [hanswer]
        exact hrest.intercept host

/-- **So does the handler of a proxy**, enabled or not. -/
theorem unnoticed_proxyHandler (enabled : ω → Bool) (slots : List (Slot ω τ)) :
    UnnoticedHandler slots (proxyHandler (fun w => enabled w.1) (slots.map Slot.handler))
      (proxyHandler enabled (slots.filterMap Slot.user?)) := by
  have hstack : UnnoticedHandler slots (HandlerStack (handlersFrom [] slots))
      (HandlerStack (bareHandlersFrom [] slots)) := unnoticed_stack slots [] rfl
  have hbig : proxyHandler (fun w : ω × τ => enabled w.1) (slots.map Slot.handler) =
      EnabledWrapperHandler (fun w => enabled w.1) (HandlerStack (handlersFrom [] slots)) :=
    buildHandler_stack _ _
  have hsmall : proxyHandler enabled (slots.filterMap Slot.user?) =
      EnabledWrapperHandler enabled (HandlerStack (bareHandlersFrom [] slots)) := buildHandler_stack _ _
  rw [hbig, hsmall]
  refine ⟨hstack.request, hstack.response, fun host => ?_⟩
  refine mirrors_bind (mirrors_call fun _ => ⟨rfl, rfl⟩) fun on' on (hon : on' = on) => ?_
  rw [hon]
  cases on with
  | false => exact mirrors_pure rfl
  | true => exact hstack.intercept host

/-! ## Procedures -/

section

variable (env : Env ω) {h' : HttpHandler (ω × τ)} {h : HttpHandler ω}
  (hh : UnnoticedHandler slots h' h) (ws : Option (WebSocketHandler ω))

theorem unnoticed_writeClient (bs : Bytes) :
    Unnoticed slots (writeClient (env.beside τ) bs) (writeClient env bs) :=
  unnoticed_operation rfl (env.clientWrite bs) _

theorem unnoticed_shutdownClient :
    Unnoticed slots (shutdownClient (env.beside τ)) (shutdownClient env) :=
  unnoticed_operation rfl env.clientShutdown _

theorem unnoticed_connectServer (target : Str) :
    Unnoticed slots (connectServer (env.beside τ) target) (connectServer env target) :=
  unnoticed_operation rfl (env.connect target) _

theorem unnoticed_writeServer (bs : Bytes) :
    Unnoticed slots (writeServer (env.beside τ) bs) (writeServer env bs) :=
  unnoticed_operation rfl (env.serverWrite bs) _

theorem unnoticed_serverStream :
    Unnoticed slots (external fun w => ((env.beside τ).serverStream w, w))
      (external fun w => (env.serverStream w, w)) := mirrors_call fun _ => ⟨rfl, rfl⟩

theorem unnoticed_sendRequest (req : Request) :
    Unnoticed slots (sendRequest (env.beside τ) req) (sendRequest env req) :=
  mirrors_bind (mirrors_emit rfl) fun _ _ _ => unnoticed_external (env.sendRequest req)

theorem unnoticed_nextRequestId :
    Unnoticed slots (nextRequestId : P (ω × τ) UInt64) nextRequestId :=
  mirrors_call fun _ => ⟨rfl, rfl⟩

include hh in
theorem unnoticed_requestOrFail (ctx : HttpContext) (req : Request) :
    Unnoticed slots (requestOrFail h' ctx req) (requestOrFail h ctx req) := by
  refine mirrors_bind (hh.request ctx req) fun r' r hr => ?_
  rw [hr]
  obtain ⟨_ | _, _⟩ := r
  · exact mirrors_fail _
  · exact mirrors_pure rfl

include hh in
theorem unnoticed_responseOrFail (ctx : HttpContext) (res : Response) :
    Unnoticed slots (responseOrFail h' ctx res) (responseOrFail h ctx res) := by
  refine mirrors_bind (hh.response ctx res) fun r' r hr => ?_
  rw [hr]
  obtain ⟨_ | _, _⟩ := r
  · exact mirrors_fail _
  · exact mirrors_pure rfl

theorem unnoticed_writeFrames (fs : List (Except String Frame)) :
    Unnoticed slots (writeFrames (env.beside τ) fs) (writeFrames env fs) := by
  induction fs with
  | nil => exact mirrors_pure rfl
  | cons f fs ih =>
    cases f with
    | error e => exact mirrors_fail _
    | ok f =>
      cases f with
      | data bs => exact mirrors_bind (unnoticed_writeClient env bs) fun _ _ _ => ih
      | trailers m => exact ih

theorem unnoticed_forwardResponse (res : Response) :
    Unnoticed slots (forwardResponse (env.beside τ) res) (forwardResponse env res) := by
  refine mirrors_bind (unnoticed_writeClient env _) fun _ _ _ => ?_
  refine mirrors_bind (R := Eq) ?_ fun _ _ _ => unnoticed_shutdownClient env
  cases res.body with
  | full bs => exact unnoticed_writeClient env bs
  | streaming fs => exact unnoticed_writeFrames env fs

include hh in
theorem unnoticed_forwardRequest (ctx : HttpContext) (host : Str) (req : Request) :
    Unnoticed slots (forwardRequest (env.beside τ) h' ctx host req)
      (forwardRequest env h ctx host req) := by
  unfold forwardRequest
  have habsolute : absoluteRequest (env.beside τ) "http".toList host req =
      absoluteRequest env "http".toList host req := rfl
  rw [habsolute]
  cases absoluteRequest env "http".toList host req with
  | none => exact mirrors_fail _
  | some req =>
    refine mirrors_bind (unnoticed_sendRequest env req) fun r' r hr => ?_
    rw [hr]
    refine mirrors_bind (mirrors_lift _) fun res' res hres => ?_
    rw [hres]
    refine mirrors_bind (unnoticed_responseOrFail hh ctx res) fun a' a ha => ?_
    rw [ha]
    exact unnoticed_forwardResponse env a.1

include hh in
theorem unnoticed_forwardUpgrade (client : Source) (bufSize : ℕ) (ctx : HttpContext) (host : Str)
    (req : Request) :
    Unnoticed slots
      (forwardUpgrade (env.beside τ) h' (ws.map (WebSocketHandler.beside τ)) client bufSize ctx host
        req)
      (forwardUpgrade env h ws client bufSize ctx host req) := by
  refine mirrors_bind (unnoticed_connectServer env _) fun _ _ _ => ?_
  refine mirrors_bind (unnoticed_writeServer env _) fun _ _ _ => ?_
  refine mirrors_bind (unnoticed_serverStream env) fun server' server hserver => ?_
  rw [hserver]
  refine mirrors_bind (mirrors_lift _) fun full' full hfull => ?_
  rw [hfull]
  refine mirrors_bind (mirrors_lift _) fun res' res hres => ?_
  rw [hres]
  refine mirrors_bind (unnoticed_responseOrFail hh ctx res) fun a' a ha => ?_
  rw [ha]
  refine mirrors_bind (unnoticed_writeClient env _) fun _ _ _ => ?_
  rw [Option.isSome_map]
  cases isWebsocketResponse a.1 with
  | true => exact mirrors_emit rfl
  | false => exact unnoticed_shutdownClient env

include hh in
/-- **The plain path.** -/
theorem unnoticed_handleHttp (client : Source) (addr : SocketAddr) (bufSize : ℕ) (bytes : Bytes) :
    Unnoticed slots
      (handleHttp (env.beside τ) h' (ws.map (WebSocketHandler.beside τ)) client addr bufSize bytes)
      (handleHttp env h ws client addr bufSize bytes) := by
  have hanswer : ∀ res : Response, Unnoticed slots
      (do writeClient (env.beside τ) (serializeResponse env.http res); shutdownClient (env.beside τ))
      (do writeClient env (serializeResponse env.http res); shutdownClient env) := fun _ =>
    mirrors_bind (unnoticed_writeClient env _) fun _ _ _ => unnoticed_shutdownClient env
  refine mirrors_bind (mirrors_lift _) fun request' request hrequest => ?_
  rw [hrequest]
  cases extractHost request bytes with
  | none => exact mirrors_bind (unnoticed_writeClient env _) fun _ _ _ => unnoticed_shutdownClient env
  | some host =>
    refine mirrors_bind unnoticed_nextRequestId fun id' id hid => ?_
    rw [hid]
    refine mirrors_bind (unnoticed_requestOrFail hh _ request) fun r' r hr => ?_
    rw [hr]
    obtain ⟨req | res, ctx⟩ := r
    · show Unnoticed slots (if isWebsocketUpgrade env.unicode request then _ else _)
        (if isWebsocketUpgrade env.unicode request then _ else _)
      split
      · exact unnoticed_forwardUpgrade env hh ws client bufSize ctx host req
      · exact unnoticed_forwardRequest env hh ctx host req
    · exact hanswer res

theorem unnoticed_upgradeTask (ctx : HttpContext) (host path : Str) (origin cookie : Option Str) :
    Unnoticed slots
      (upgradeTask (env.beside τ) (ws.map (WebSocketHandler.beside τ)) ctx host path origin cookie)
      (upgradeTask env ws ctx host path origin cookie) := by
  refine mirrors_bind (unnoticed_external env.generateKey) fun key' key hkey => ?_
  rw [hkey]
  have hhandshake : upstreamHandshake (env.beside τ) host path key origin cookie =
      upstreamHandshake env host path key origin cookie := rfl
  rw [hhandshake]
  cases upstreamHandshake env host path key origin cookie with
  | none => exact mirrors_pure rfl
  | some req =>
    refine mirrors_bind (unnoticed_external env.upgraded) fun client' client hclient => ?_
    rw [hclient]
    cases client with
    | error e => exact mirrors_pure rfl
    | ok _ =>
      refine mirrors_bind (mirrors_emit rfl) fun _ _ _ => ?_
      refine mirrors_bind (unnoticed_external (env.wsConnect req)) fun server' server hserver => ?_
      rw [hserver]
      cases server with
      | error e => exact mirrors_pure rfl
      | ok _ =>
        rw [Option.isSome_map]
        exact mirrors_emit rfl

/-- The same response, and tasks that do the same. -/
inductive SameReply (slots : List (Slot ω τ)) : Response × Option (P (ω × τ) Unit) →
    Response × Option (P ω Unit) → Prop
  | response (res : Response) : SameReply slots (res, none) (res, none)
  | task (res : Response) {task' : P (ω × τ) Unit} {task : P ω Unit}
      (h : Unnoticed slots task' task) : SameReply slots (res, some task') (res, some task)

theorem unnoticed_handleHttpsWebsocket (ctx : HttpContext) (host : Str) (req : Request) :
    Mirrors World.bare (Event.seen slots)
      (handleHttpsWebsocket (env.beside τ) (ws.map (WebSocketHandler.beside τ)) ctx host req)
      (handleHttpsWebsocket env ws ctx host req) (SameReply slots) := by
  unfold handleHttpsWebsocket
  have habsolute : absoluteRequest (env.beside τ) "https".toList host req =
      absoluteRequest env "https".toList host req := rfl
  rw [habsolute]
  cases absoluteRequest env "https".toList host req with
  | none => exact mirrors_fail _
  | some req =>
    simp only
    cases req.uri.withScheme "wss".toList with
    | none => exact mirrors_fail _
    | some uri =>
      refine mirrors_bind (mirrors_lift _) fun res' res hres => mirrors_pure ?_
      rw [hres]
      exact .task _ (unnoticed_upgradeTask env ws ctx host _ _ _)

include hh in
/-- **A request inside TLS.** -/
theorem unnoticed_serveRequest (host : Str) (addr : SocketAddr) (req : Request) :
    Unnoticed slots
      (serveRequest (env.beside τ) h' (ws.map (WebSocketHandler.beside τ)) host addr req)
      (serveRequest env h ws host addr req) := by
  refine mirrors_bind (R := SameReply slots) ?_ fun a' a ha => ?_
  · refine mirrors_bind unnoticed_nextRequestId fun id' id hid => ?_
    rw [hid]
    refine mirrors_bind (hh.request _ req) fun r' r hr => ?_
    rw [hr]
    obtain ⟨e | q | res, ctx⟩ := r
    · exact mirrors_pure (.response _)
    · show Mirrors _ _ (if env.isUpgradeRequest q then _ else _)
        (if env.isUpgradeRequest q then _ else _) (SameReply slots)
      split
      · exact unnoticed_handleHttpsWebsocket env ws ctx host q
      have habsolute : absoluteRequest (env.beside τ) "https".toList host q =
          absoluteRequest env "https".toList host q := rfl
      rw [habsolute]
      cases absoluteRequest env "https".toList host q with
      | none => exact mirrors_fail _
      | some q =>
        refine mirrors_bind (unnoticed_sendRequest env q) fun r' r hr => ?_
        rw [hr]
        cases r with
        | error e => exact mirrors_pure (.response _)
        | ok response =>
          refine mirrors_bind (hh.response ctx response) fun m' m hm => ?_
          rw [hm]
          obtain ⟨_ | _, _⟩ := m
          · exact mirrors_pure (.response _)
          · exact mirrors_pure (.response _)
    · exact mirrors_pure (.response _)
  · -- the reply goes out, and the task is run behind it
    cases ha with
    | response res => exact mirrors_bind (mirrors_emit rfl) fun _ _ _ => mirrors_pure rfl
    | task res htask =>
      refine mirrors_bind (mirrors_emit rfl) fun _ _ _ => ?_
      exact mirrors_bind htask fun _ _ _ => mirrors_pure rfl

include hh in
theorem unnoticed_serveConnection (host : Str) (addr : SocketAddr) (reqs : List Request) :
    Unnoticed slots
      (serveConnection (env.beside τ) h' (ws.map (WebSocketHandler.beside τ)) host addr reqs)
      (serveConnection env h ws host addr reqs) := by
  induction reqs with
  | nil => exact mirrors_pure rfl
  | cons req reqs ih =>
    refine mirrors_bind (unnoticed_serveRequest env hh ws host addr req) fun more' more hmore => ?_
    rw [hmore]
    cases more with
    | false => exact mirrors_pure rfl
    | true => exact ih

include hh in
/-- **The beginning of a tunnel.** -/
theorem unnoticed_openTunnel (client : Source) (target : Str) :
    Unnoticed slots (openTunnel (env.beside τ) h' client target) (openTunnel env h client target) := by
  refine mirrors_bind (unnoticed_writeClient env _) fun _ _ _ => ?_
  refine mirrors_bind (hh.intercept _) fun intercept' intercept hintercept => ?_
  rw [hintercept]
  cases intercept with
  | false =>
    refine mirrors_bind (unnoticed_connectServer env _) fun _ _ _ => ?_
    refine mirrors_bind (unnoticed_serverStream env) fun server' server hserver => ?_
    rw [hserver]
    exact mirrors_bind (mirrors_emit rfl) fun _ _ _ => mirrors_pure rfl
  | true =>
    refine mirrors_bind (unnoticed_external (env.forgeCertificate _)) fun cert' cert hcert => ?_
    rw [hcert]
    refine mirrors_bind (mirrors_lift _) fun pair' pair hpair => ?_
    rw [hpair]
    refine mirrors_bind (mirrors_emit rfl) fun _ _ _ => ?_
    refine mirrors_bind (unnoticed_external (env.tlsAccept _ _)) fun reqs' reqs hreqs => ?_
    rw [hreqs]
    exact mirrors_bind (mirrors_lift _) fun _ _ hr => mirrors_pure (congrArg some hr)

include hh in
theorem unnoticed_handleHttps (client : Source) (target : Str) (addr : SocketAddr) :
    Unnoticed slots
      (handleHttps (env.beside τ) h' (ws.map (WebSocketHandler.beside τ)) client target addr)
      (handleHttps env h ws client target addr) := by
  rw [handleHttps_opens, handleHttps_opens]
  refine mirrors_bind (unnoticed_openTunnel env hh client target) fun o' o ho => ?_
  rw [ho]
  cases o with
  | none => exact mirrors_pure rfl
  | some reqs => exact unnoticed_serveConnection env hh ws _ addr reqs

include hh in
/-- **A connection.** -/
theorem unnoticed_handleClient (peer : Option SocketAddr) (client : Source) (bufSize : ℕ) :
    Unnoticed slots
      (handleClient (env.beside τ) h' (ws.map (WebSocketHandler.beside τ)) peer client bufSize)
      (handleClient env h ws peer client bufSize) := by
  unfold handleClient
  obtain ⟨read, client'⟩ := client.read 4096
  cases read with
  | error e => exact mirrors_fail _
  | ok buffer =>
    simp only
    split
    · cases connectTarget buffer with
      | none => exact mirrors_fail _
      | some target => exact unnoticed_handleHttps env hh ws client' target _
    · exact unnoticed_handleHttp env hh ws client' _ bufSize buffer

end

/-! ## Runs of a proxy -/

namespace Server

variable (env : Env ω) (slots : List (Slot ω τ)) (ws : Option (WebSocketHandler ω)) (n : ℕ)

/-- The proxy with the observers, and the proxy without them. -/
structure SameStep (p' : Server (ω × τ) × List Event) (p : Server ω × List Event) : Prop where
  server : p'.1.bare = p.1
  events : p'.2.flatMap (Event.seen slots) = p.2

/-- One action. -/
theorem step_unnoticed (s : Server (ω × τ)) (a : Action) :
    SameStep slots
      (s.step (env.beside τ) (slots.map Slot.handler) (ws.map (WebSocketHandler.beside τ)) n a)
      (s.bare.step env (slots.filterMap Slot.user?) ws n a) := by
  have hh := unnoticed_proxyHandler (env.flagged s.enabled).enabled slots
  cases a with
  | setEnabled b => exact ⟨rfl, rfl⟩
  | close i => exact ⟨rfl, rfl⟩
  | plain client addr raw =>
    obtain ⟨-, hstate, hevents⟩ :=
      unnoticed_handleHttp (env.flagged s.enabled) hh ws client addr n raw s.world
    exact ⟨congrArg (Server.mk s.enabled · s.tunnels) hstate, hevents⟩
  | connect client target addr =>
    have h : SameRun World.bare (Event.seen slots) Eq
        (openTunnel ((env.beside τ).flagged s.enabled)
          (s.handler (env.beside τ) (slots.map Slot.handler)) client target s.world)
        (openTunnel (env.flagged s.bare.enabled)
          (s.bare.handler env (slots.filterMap Slot.user?)) client target s.bare.world) :=
      unnoticed_openTunnel (env.flagged s.enabled) hh client target s.world
    refine ⟨?_, h.events⟩
    unfold step
    dsimp only
    rw [← h.result.eq, ← h.state]
    rfl
  | request i req =>
    by_cases hdead : ∀ t, s.tunnels[i]? = some t → t.live = false
    · rw [step_dead hdead, step_dead (s := s.bare) hdead]
      exact ⟨rfl, rfl⟩
    · obtain ⟨⟨host, addr, live⟩, ht, hlive⟩ : ∃ t, s.tunnels[i]? = some t ∧ ¬ t.live = false := by
        simpa only [not_forall, exists_prop] using hdead
      obtain rfl : live = true := Bool.eq_true_of_not_eq_false hlive
      have h : SameRun World.bare (Event.seen slots) Eq
          (serveRequest ((env.beside τ).flagged s.enabled)
            (s.handler (env.beside τ) (slots.map Slot.handler))
            (ws.map (WebSocketHandler.beside τ)) host addr req s.world)
          (serveRequest (env.flagged s.bare.enabled)
            (s.bare.handler env (slots.filterMap Slot.user?)) ws host addr req s.bare.world) :=
        unnoticed_serveRequest (env.flagged s.enabled) hh ws host addr req s.world
      rw [step_live ht req rfl, step_live (s := s.bare) ht req rfl]
      refine ⟨?_, h.events⟩
      dsimp only
      rw [← h.result.eq, ← h.state]
      rfl

/-- A run. -/
theorem run_unnoticed (as : List Action) (s : Server (ω × τ)) :
    SameStep slots
      (s.run (env.beside τ) (slots.map Slot.handler) (ws.map (WebSocketHandler.beside τ)) n as)
      (s.bare.run env (slots.filterMap Slot.user?) ws n as) := by
  induction as generalizing s with
  | nil => exact ⟨rfl, rfl⟩
  | cons a as ih =>
    obtain ⟨hserver, hevents⟩ := step_unnoticed env slots ws n s a
    have hrest := ih (s.step (env.beside τ) (slots.map Slot.handler)
      (ws.map (WebSocketHandler.beside τ)) n a).1
    rw [hserver] at hrest
    refine ⟨hrest.server, ?_⟩
    unfold run
    dsimp only
    rw [List.flatMap_append, hevents, hrest.events]

end Server

/-- **Observers are not noticed**, wherever they stand among the handlers: neither on a connection,
nor in a run of the proxy, whatever its clients do and whenever it is enabled and disabled. The
results are the same, and so is all that is sent, asked and shown to the other handlers. -/
theorem observers_unnoticed (env : Env ω) (slots : List (Slot ω τ)) (ws : Option (WebSocketHandler ω))
    (n : ℕ) :
    (∀ peer client, Unnoticed slots
      (handleClient (env.beside τ) (proxyHandler (env.beside τ).enabled (slots.map Slot.handler))
        (ws.map (WebSocketHandler.beside τ)) peer client n)
      (handleClient env (proxyHandler env.enabled (slots.filterMap Slot.user?)) ws peer client n)) ∧
    ∀ as (s : Server (ω × τ)),
      (s.run (env.beside τ) (slots.map Slot.handler) (ws.map (WebSocketHandler.beside τ)) n
        as).1.bare = (s.bare.run env (slots.filterMap Slot.user?) ws n as).1 ∧
      (s.run (env.beside τ) (slots.map Slot.handler) (ws.map (WebSocketHandler.beside τ)) n
        as).2.flatMap (Event.seen slots) = (s.bare.run env (slots.filterMap Slot.user?) ws n as).2 := by
  refine ⟨fun peer client => ?_, fun as s => ?_⟩
  · exact unnoticed_handleClient env (unnoticed_proxyHandler env.enabled slots) ws peer client n
  · obtain ⟨hserver, hevents⟩ := Server.run_unnoticed env slots ws n as s
    exact ⟨hserver, hevents⟩

/-- A handler that counts the responses that it is shown. -/
def CountingHandler : UserHandler (ω × ℕ) where
  handleRequest ctx req w := ((.ok (.request req), ctx), w)
  handleResponse ctx res w := ((.ok res, ctx), w.1, w.2 + 1)
  shouldInterceptTls _ w := (true, w)

theorem countingHandler_observes : (CountingHandler : UserHandler (ω × ℕ)).Observes :=
  ⟨fun _ _ _ => ⟨rfl, rfl⟩, fun _ _ _ => ⟨rfl, rfl⟩, fun _ _ => ⟨rfl, rfl⟩⟩

/-- It counts the responses on a tunnel, and nothing else is different. -/
theorem observers_unnoticed_counting :
    let counting : Slot Unit ℕ := .observer ⟨CountingHandler, countingHandler_observes⟩
    let slots := [counting, .user forwarder, counting]
    let r := (⟨true, ⟨((), 0), 0⟩, []⟩ : Server (Unit × ℕ)).run (toggleEnv.beside ℕ)
      (slots.map Slot.handler) none 4096 [connectExample, requestInside, requestInside]
    let r₀ := started.run toggleEnv [forwarder] none 4096
      [connectExample, requestInside, requestInside]
    r.1.world.ext.2 = 4 ∧ r.1.bare = r₀.1 ∧ r.2.flatMap (Event.seen slots) = r₀.2 := by
  intro counting slots r r₀
  have hsame := (observers_unnoticed toggleEnv slots none 4096).2
    [connectExample, requestInside, requestInside] ⟨true, ⟨((), 0), 0⟩, []⟩
  exact ⟨by rfl, hsame.1, hsame.2⟩

end HexbufferProxy
