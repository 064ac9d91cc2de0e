import HexbufferProxy.Proof.Reader
import HexbufferProxy.Proof.Reply
import HexbufferProxy.Spec.Stages

/-!
# What a client of the plain path receives

* `handleHttp_stages`: `handle_http` is its two stages, one after the other.
* `prepare_silent`: the first one writes nothing to the client.
* `deliver_agree_iff`: when the two ways to write a response agree.
* `deliver_writes`, `deliver_fails`: what the second one writes, and when it fails.
* `handleHttp_frames_iff`: whether a body that the handlers have replaced fits the framing that the
  response declares.
* `handleHttp_error_iff`: when a client is told of a failure.
-/

namespace HexbufferProxy

open Rust Rust.Proc

variable {ω : Type} {env : Env ω} {users : List (UserHandler ω)}

/-! ## The stages -/

theorem answerHttp_stages (handler : HttpHandler ω) (ws : Option (WebSocketHandler ω))
    (client : Source) (n : ℕ) (host : Str) (isWs : Bool) (r : RequestOrResponse × HttpContext) :
    answerHttp env handler ws client n host isWs r =
      prepareAnswer env handler n host isWs r >>= deliver env ws client := by
  rcases r with ⟨q | res, ctx⟩
  · cases isWs with
    | true =>
      show forwardUpgrade env handler ws client n ctx host q =
        prepareUpgrade env handler n ctx host q >>= deliver env ws client
      unfold forwardUpgrade prepareUpgrade
      simp only [bind_assoc, pure_bind]
      rfl
    | false =>
      show forwardRequest env handler ctx host q =
        prepareRequest env handler ctx host q >>= deliver env ws client
      unfold forwardRequest prepareRequest
      cases absoluteRequest env "http".toList host q with
      | none => rfl
      | some q' =>
        simp only [bind_assoc, pure_bind]
        rfl
  · rfl

/-- **`handle_http` prepares, and then delivers.** -/
theorem handleHttp_stages (handler : HttpHandler ω) (ws : Option (WebSocketHandler ω))
    (client : Source) (addr : SocketAddr) (n : ℕ) (raw : Bytes) :
    handleHttp env handler ws client addr n raw =
      prepare env handler addr n raw >>= deliver env ws client := by
  unfold handleHttp prepare
  simp only [bind_assoc]
  congr 1
  funext req
  cases extractHost req raw with
  | none => rfl
  | some host =>
    simp only [bind_assoc]
    congr 1
    funext id
    congr 1
    funext r
    exact answerHttp_stages handler ws client n host _ r

/-- Calls of the handlers write nothing to the client. -/
theorem silent_responseOrFail (ctx : HttpContext) (res : Response) :
    Ensures Event.isContact 0 (responseOrFail (proxyHandler env.enabled users) ctx res)
      (fun _ => True) (fun e => e.written = []) := by
  apply ensures_responseOrFail
  exact ensures_handleResponse env.enabled users (fun _ _ _ => rfl) ctx res

theorem silent_requestOrFail (ctx : HttpContext) (req : Request) :
    Ensures Event.isContact 0 (requestOrFail (proxyHandler env.enabled users) ctx req)
      (fun _ => True) (fun e => e.written = []) := by
  have hquiet : ∀ e : Event, e.isRequestCall = true → e.written = [] := by
    intro e he
    cases e <;> first | rfl | exact absurd he Bool.false_ne_true
  unfold requestOrFail
  rw [proxyHandler_request]
  apply ensures_bind (R := fun _ => True)
  · exact (stack_calls users 0 ctx req).mono (Nat.le_refl 0) (fun _ h => h) hquiet
  · rintro ⟨e | r, ctx'⟩ -
    · exact ensures_fail _
    · exact ensures_pure trivial

theorem silent_prepareRequest (ctx : HttpContext) (host : Str) (req : Request) :
    Ensures Event.isContact 1
      (prepareRequest env (proxyHandler env.enabled users) ctx host req) (fun _ => True)
      (fun e => e.written = []) := by
  unfold prepareRequest
  cases absoluteRequest env "http".toList host req with
  | none => exact ensures_fail _
  | some q =>
    have hemit : Ensures Event.isContact 1 (Proc.emit (.sendRequest q) : P ω Unit)
        (fun _ => True) (fun e => e.written = []) := ensures_emit rfl (Or.inr Nat.one_pos)
    have hsend : Ensures Event.isContact 1 (sendRequest env q) (fun _ => True)
        (fun e => e.written = []) := ensures_bind_last hemit fun _ _ => ensures_external_any _
    apply ensures_bind_last hsend
    intro r _
    apply ensures_bind (ensures_lift_any _)
    intro response _
    apply ensures_bind (silent_responseOrFail ctx response)
    intro _ _
    exact ensures_pure trivial

theorem silent_prepareUpgrade (n : ℕ) (ctx : HttpContext) (host : Str) (req : Request) :
    Ensures Event.isContact 1
      (prepareUpgrade env (proxyHandler env.enabled users) n ctx host req) (fun _ => True)
      (fun e => e.written = []) := by
  have hconnect : ∀ target, Ensures Event.isContact 1 (connectServer env target) (fun _ => True)
      (fun e => e.written = []) := fun _ => ensures_write rfl (Or.inr Nat.one_pos)
  have hwrite : ∀ bs, Ensures Event.isContact 0 (writeServer env bs) (fun _ => True)
      (fun e => e.written = []) := fun _ => ensures_write rfl (Or.inl rfl)
  unfold prepareUpgrade
  apply ensures_bind_last (hconnect _)
  intro _ _
  apply ensures_bind (hwrite _)
  intro _ _
  apply ensures_bind (ensures_external_any _)
  intro server _
  apply ensures_bind (ensures_lift_any _)
  intro full _
  apply ensures_bind (ensures_lift_any _)
  intro response _
  apply ensures_bind (silent_responseOrFail ctx response)
  intro _ _
  exact ensures_pure trivial

/-- **The first stage writes nothing to the client.** -/
theorem prepare_silent (env : Env ω) (users : List (UserHandler ω)) (addr : SocketAddr) (n : ℕ)
    (raw : Bytes) :
    Traces (prepare env (proxyHandler env.enabled users) addr n raw) fun es _ =>
      clientBytes es = [] := by
  have hanswer : ∀ host isWs r, Ensures Event.isContact 1
      (prepareAnswer env (proxyHandler env.enabled users) n host isWs r) (fun _ => True)
      (fun e => e.written = []) := by
    rintro host isWs ⟨q | res, ctx⟩
    · cases isWs with
      | true => exact silent_prepareUpgrade n ctx host q
      | false => exact silent_prepareRequest ctx host q
    · exact ensures_pure trivial
  have hens : Ensures Event.isContact 1 (prepare env (proxyHandler env.enabled users) addr n raw)
      (fun _ => True) (fun e => e.written = []) := by
    unfold prepare
    apply ensures_bind (ensures_lift_any _)
    intro req _
    cases extractHost req raw with
    | none => exact ensures_pure trivial
    | some host =>
      apply ensures_bind (R := fun _ => True) (ensures_call fun _ => trivial)
      intro id _
      apply ensures_bind (silent_requestOrFail _ req)
      intro r _
      exact hanswer host _ r
  refine hens.traces.mono ?_
  intro es _ hes
  exact List.flatMap_eq_nil_iff.2 hes

/-! ## What is delivered -/

/-- What is written with `serialize_response`. -/
theorem deliver_serialized (ws : Option (WebSocketHandler ω)) (client : Source) {p : Prepared}
    {res : Response} (hp : p.serialized? = some res) :
    Writes Event.written (deliver env ws client p) (serializeResponse env.http res)
      (fun _ => True) := by
  have hwrite : Writes Event.written (writeClient env (serializeResponse env.http res)) _
      (fun _ => True) := writes_writeClient (serializeResponse env.http res)
  rw [← List.append_nil (serializeResponse env.http res)]
  cases p with
  | noHost => exact nomatch hp
  | reply _ => exact nomatch hp
  | own _ =>
    cases hp
    exact writes_bind hwrite fun _ _ => writes_shutdownClient
  | upgrade _ ctx server =>
    cases hp
    have hlast : Writes Event.written (if isWebsocketResponse res then
        Proc.emit (.relay ws.isSome ctx client server) else shutdownClient env : P ω Unit) []
        (fun _ => True) := by
      split
      · exact writes_emit _
      · exact writes_shutdownClient
    exact writes_bind hwrite fun _ _ => hlast

/-- What is written of an upstream's response: its head, and the data of its body. -/
theorem deliver_writes (ws : Option (WebSocketHandler ω)) (client : Source) {p : Prepared}
    {out : Response} (hp : p.upstream? = some out) {b : Bytes} (hb : out.body = .full b) :
    Writes Event.written (deliver env ws client p) (serializeResponseHead env.http out ++ b)
      (fun _ => True) := by
  cases p with
  | noHost => exact nomatch hp
  | own res => exact nomatch hp
  | reply res =>
    obtain rfl : res = out := Option.some.inj hp
    have h : Writes Event.written (forwardResponse env res) _ _ := writes_forwardResponse res
    rw [hb, List.append_nil] at h
    exact h
  | upgrade res ctx server =>
    obtain rfl : res = out := Option.some.inj hp
    have hbytes : serializeResponse env.http res = serializeResponseHead env.http res ++ b := by
      unfold serializeResponse
      rw [hb]
      rfl
    rw [← hbytes]
    exact deliver_serialized ws client rfl

/-- The data of a body is what `serialize_response` has of it when nothing streams. -/
theorem fullBytes_eq_data_iff (b : Body) : b.fullBytes = b.data ↔ b.NothingStreams := by
  cases b with
  | full bs => exact ⟨fun _ => trivial, fun _ => rfl⟩
  | streaming frames =>
    have hdata : (Body.streaming frames).data = [] ↔
        ∀ f ∈ frames, (f.toOption.map Frame.payload).getD [] = [] := List.flatMap_eq_nil_iff
    rw [eq_comm]
    refine hdata.trans ⟨fun h bs hbs => h _ hbs, fun h f hf => ?_⟩
    rcases f with e | bs | m
    · rfl
    · exact h bs hf
    · rfl

/-- **The two ways to write a response agree** exactly when nothing of its body streams: the
short-circuit and the upgrade path lose what does. -/
theorem deliver_agree_iff (env : Env ω) (ws : Option (WebSocketHandler ω)) (client : Source)
    (res : Response) (p : Prepared) (hp : p.serialized? = some res) (s s' : World ω)
    (h : (deliver env ws client p s).result = .ok ())
    (h' : (deliver env ws client (.reply res) s').result = .ok ()) :
    clientBytes (deliver env ws client p s).events =
      clientBytes (deliver env ws client (.reply res) s').events ↔ res.body.NothingStreams := by
  have hserialized : clientBytes (deliver env ws client p s).events =
      serializeResponseHead env.http res ++ res.body.fullBytes :=
    (deliver_serialized ws client hp s () h).1
  have hforwarded : clientBytes (deliver env ws client (.reply res) s').events =
      serializeResponseHead env.http res ++ (res.body.data ++ []) :=
    (writes_forwardResponse res s' () h').1
  rw [hserialized, hforwarded, List.append_nil, List.append_right_inj]
  exact fullBytes_eq_data_iff res.body

/-- A client that takes everything, and a response with a body of one frame. -/
def takingEnv : Env Unit := Env.basic (fun _ => true) ⟨[], none⟩ badGateway []

def streamedResponse : Response := { lengthReply with headers := [] }

theorem deliver_agree_gateway :
    clientBytes (deliver takingEnv none ⟨[], none⟩ (.own badGateway) ⟨(), 0⟩).events =
      clientBytes (deliver takingEnv none ⟨[], none⟩ (.reply badGateway) ⟨(), 0⟩).events :=
  (deliver_agree_iff takingEnv none ⟨[], none⟩ badGateway (.own badGateway) rfl ⟨(), 0⟩ ⟨(), 0⟩
    rfl rfl).2 trivial

/-- A handler's own response loses the body that it streams. -/
theorem deliver_loses_stream : ¬ ∀ (env : Env Unit) (ws : Option (WebSocketHandler Unit))
    (client : Source) (res : Response) (p : Prepared) (s s' : World Unit),
    p.serialized? = some res → (deliver env ws client p s).result = .ok () →
      (deliver env ws client (.reply res) s').result = .ok () →
        clientBytes (deliver env ws client p s).events =
          clientBytes (deliver env ws client (.reply res) s').events := by
  intro hall
  have h := hall takingEnv none ⟨[], none⟩ streamedResponse (.own streamedResponse) ⟨(), 0⟩
    ⟨(), 0⟩ rfl rfl rfl
  exact absurd h (by decide +kernel)

/-- In a run that returns, the client gets what the second stage writes. -/
theorem handleHttp_bytes {ws : Option (WebSocketHandler ω)} {client : Source} {addr : SocketAddr}
    {n : ℕ} {raw : Bytes} {x : World ω} {p : Prepared} {out : Response} {b : Bytes}
    (hprep : (prepare env (proxyHandler env.enabled users) addr n raw x).result = .ok p)
    (hp : p.upstream? = some out) (hb : out.body = .full b)
    (hrun : (handleHttp env (proxyHandler env.enabled users) ws client addr n raw x).result =
      .ok ()) :
    clientBytes (handleHttp env (proxyHandler env.enabled users) ws client addr n raw x).events =
      serializeResponseHead env.http out ++ b := by
  rw [handleHttp_stages, bind_ok hprep] at hrun ⊢
  have hsilent := prepare_silent env users addr n raw x
  obtain ⟨hbytes, -⟩ := deliver_writes ws client hp hb _ _ hrun
  unfold clientBytes at hsilent ⊢
  rw [List.flatMap_append, hsilent, List.nil_append]
  exact hbytes

/-- **A client reads a replaced body exactly when it fits the framing of the response.** -/
theorem handleHttp_frames_iff (env : Env ω) (users : List (UserHandler ω))
    (ws : Option (WebSocketHandler ω)) (client : Source) (addr : SocketAddr) (n : ℕ) (raw : Bytes)
    (x : World ω) {p : Prepared} {out : Response} {b : Bytes}
    (hprep : (prepare env (proxyHandler env.enabled users) addr n raw x).result = .ok p)
    (hp : p.upstream? = some out) (hb : out.body = .full b)
    (hrun : (handleHttp env (proxyHandler env.enabled users) ws client addr n raw x).result =
      .ok ()) :
    (∃ code, ReadsReply (clientBytes
        (handleHttp env (proxyHandler env.enabled users) ws client addr n raw x).events) code b) ↔
      FitsFraming out.status.1 (framing (wireFields out.headers)) b := by
  rw [handleHttp_bytes hprep hp hb hrun]
  obtain ⟨l, hhead, hcode⟩ := replyHead_serialized env.http out
  rw [hhead, readsReply_iff, hcode]

/-- A handler that gives every response the body `b`. -/
def replacer (b : Bytes) : UserHandler Unit :=
  { forwarder with
    handleResponse := fun ctx res w => ((.ok { res with body := .full b }, ctx), w) }

def plainGet : Bytes := lit "GET http://a.example/ HTTP/1.1\r\nHost: a.example\r\n\r\n"

/-- A longer body does not fit the length that the upstream has given. -/
theorem handleHttp_frames_longer :
    ¬ ∀ (env : Env Unit) (users : List (UserHandler Unit)) (ws : Option (WebSocketHandler Unit))
      (client : Source) (addr : SocketAddr) (n : ℕ) (raw : Bytes) (x : World Unit) (p : Prepared)
      (out : Response) (b : Bytes),
      (prepare env (proxyHandler env.enabled users) addr n raw x).result = .ok p →
      p.upstream? = some out → out.body = .full b →
      (handleHttp env (proxyHandler env.enabled users) ws client addr n raw x).result = .ok () →
      ∃ code, ReadsReply (clientBytes
        (handleHttp env (proxyHandler env.enabled users) ws client addr n raw x).events) code b := by
  intro hall
  have hread := hall (replyEnv lengthReply) [replacer (lit "longer body")] none ⟨[], none⟩
    ⟨"127.0.0.1", 0⟩ 4096 plainGet ⟨(), 0⟩ _ _ _ rfl rfl rfl rfl
  have hbytes : clientBytes (handleHttp (replyEnv lengthReply)
      (proxyHandler (replyEnv lengthReply).enabled [replacer (lit "longer body")]) none ⟨[], none⟩
      ⟨"127.0.0.1", 0⟩ 4096 plainGet ⟨(), 0⟩).events =
      serializeResponseHead HttpCrate.basic { lengthReply with body := .full (lit "longer body") } ++
        lit "longer body" := handleHttp_bytes rfl rfl rfl rfl
  obtain ⟨l, hhead, hcode⟩ := replyHead_serialized HttpCrate.basic
    { lengthReply with body := .full (lit "longer body") }
  rw [hbytes, hhead, readsReply_iff, hcode] at hread
  exact absurd hread (by decide +kernel)

theorem handleHttp_frames_same :
    ∃ code, ReadsReply (clientBytes (handleHttp (replyEnv lengthReply)
      (proxyHandler (fun _ => true) [replacer (lit "howdy")]) none ⟨[], none⟩ ⟨"127.0.0.1", 0⟩ 4096
      plainGet ⟨(), 0⟩).events) code (lit "howdy") :=
  (handleHttp_frames_iff (replyEnv lengthReply) [replacer (lit "howdy")] none ⟨[], none⟩
    ⟨"127.0.0.1", 0⟩ 4096 plainGet ⟨(), 0⟩ rfl rfl rfl rfl).2 (by decide +kernel)

/-! ## Failures -/

/-- Frames break off in one place. -/
theorem BreaksOff.unique {frames : List (Except String Frame)} {a b : Bytes}
    (ha : BreaksOff frames a) (hb : BreaksOff frames b) : a = b := by
  induction ha generalizing b with
  | here e fs => cases hb; rfl
  | data bs a fs _ ih =>
    cases hb with
    | data _ b _ h => rw [ih h]
  | trailers m a fs _ ih =>
    cases hb with
    | trailers _ _ _ h => exact ih h

section

variable (hclient : env.ClientTakes)

include hclient

/-- A write to a client that takes it. -/
theorem traces_taken (bs : Bytes) :
    Traces (writeClient env bs) fun es r => clientBytes es = bs ∧ r = .ok () := by
  intro s
  refine ⟨List.append_nil bs, ?_⟩
  show (env.clientWrite bs s.ext).1.mapError _ = _
  rw [hclient.write]
  rfl

theorem traces_shut :
    Traces (shutdownClient env) fun es r => clientBytes es = [] ∧ r = .ok () := by
  intro s
  refine ⟨rfl, ?_⟩
  show (env.clientShutdown s.ext).1.mapError _ = _
  rw [hclient.shutdown]
  rfl

/-- Writing a body fails only where it breaks off. -/
theorem traces_writeFrames : ∀ frames : List (Except String Frame),
    Traces (writeFrames env frames) fun es r => r = .ok () ∨
      ∃ b f, BreaksOff frames b ∧ r = .error f ∧ clientBytes es = b := by
  intro frames
  induction frames with
  | nil => exact traces_pure (Or.inl rfl)
  | cons f fs ih =>
    rcases f with e | bs | m
    · exact traces_fail (Or.inr ⟨[], _, BreaksOff.here e fs, rfl, rfl⟩)
    · unfold writeFrames
      refine traces_bind (traces_taken hclient bs) ?_ ?_
      · rintro es e ⟨-, h⟩
        cases h
      rintro es _ ⟨hes, -⟩
      refine ih.mono ?_
      rintro es' r (h | ⟨b, f, hb, hr, hes'⟩)
      · exact Or.inl h
      · refine Or.inr ⟨bs ++ b, f, BreaksOff.data bs b fs hb, hr, ?_⟩
        unfold clientBytes at hes hes' ⊢
        rw [List.flatMap_append, hes, hes']
    · refine ih.mono ?_
      rintro es' r (h | ⟨b, f, hb, h⟩)
      · exact Or.inl h
      · exact Or.inr ⟨b, f, BreaksOff.trailers m b fs hb, h⟩

/-- **The second stage fails only where a streamed body breaks off**, and then the head is out. -/
theorem deliver_fails (ws : Option (WebSocketHandler ω)) (client : Source) (p : Prepared) :
    Traces (deliver env ws client p) fun es r => r = .ok () ∨
      ∃ out frames b, p = .reply out ∧ out.body = .streaming frames ∧ BreaksOff frames b ∧
        clientBytes es = serializeResponseHead env.http out ++ b := by
  have hshut : Traces (shutdownClient env) fun _ r => r = .ok () :=
    (traces_shut hclient).mono fun _ _ h => h.2
  have htake : ∀ (bs : Bytes) (m : P ω Unit), Traces m (fun _ r => r = .ok ()) →
      Traces (writeClient env bs >>= fun _ => m) fun _ r => r = .ok () := by
    intro bs m hm
    refine traces_bind (traces_taken hclient bs) ?_ ?_
    · rintro es e ⟨-, h⟩
      exact nomatch h
    · exact fun es _ _ => hm
  cases p with
  | noHost => exact (htake _ _ hshut).mono fun _ _ h => Or.inl h
  | own res => exact (htake _ _ hshut).mono fun _ _ h => Or.inl h
  | upgrade res ctx server =>
    refine (htake _ _ ?_).mono fun _ _ h => Or.inl h
    split
    · exact traces_emit rfl
    · exact hshut
  | reply out =>
    show Traces (forwardResponse env out) _
    unfold forwardResponse
    refine traces_bind (traces_taken hclient _) ?_ ?_
    · rintro es e ⟨-, h⟩
      exact nomatch h
    rintro es _ ⟨hes, -⟩
    -- only a streamed body can fail once the head is out
    have hbody : Traces (writeBodyToStream env out.body) fun es r => r = .ok () ∨
        ∃ frames b f, out.body = .streaming frames ∧ BreaksOff frames b ∧ r = .error f ∧
          clientBytes es = b := by
      cases hb : out.body with
      | full bs => exact (traces_taken hclient bs).mono fun _ _ h => Or.inl h.2
      | streaming frames =>
        refine (traces_writeFrames hclient frames).mono ?_
        rintro es r (h | ⟨b, f, h⟩)
        · exact Or.inl h
        · exact Or.inr ⟨frames, b, f, rfl, h⟩
    refine traces_bind hbody ?_ ?_
    · rintro es' e (h | ⟨frames, b, f, hframes, hbreak, -, hes'⟩)
      · exact nomatch h
      · refine Or.inr ⟨out, frames, b, rfl, hframes, hbreak, ?_⟩
        unfold clientBytes at hes hes' ⊢
        rw [List.flatMap_append, hes, hes']
    · intro es' _ _
      exact hshut.mono fun _ _ h => Or.inl h

end

/-- Nothing is no error response. -/
theorem not_errorReceived_nil : ¬ ErrorReceived [] := by
  rintro ⟨code, body, -, -, l, fs, tail, h, -⟩
  unfold replyHead at h
  have hlen := congrArg List.length h
  simp only [List.length_append, List.length_cons, List.length_nil] at hlen
  omega

/-- **A failure is told to the client only if it breaks off an error response that is complete as it
is.** -/
theorem handleHttp_error_iff (env : Env ω) (users : List (UserHandler ω))
    (ws : Option (WebSocketHandler ω)) (client : Source) (addr : SocketAddr) (n : ℕ) (raw : Bytes)
    (x : World ω) (hclient : env.ClientTakes) {f : Fault}
    (hfail : (handleHttp env (proxyHandler env.enabled users) ws client addr n raw x).result =
      .error f) :
    ErrorReceived (clientBytes
        (handleHttp env (proxyHandler env.enabled users) ws client addr n raw x).events) ↔
      ∃ out frames b body,
        (prepare env (proxyHandler env.enabled users) addr n raw x).result = .ok (.reply out) ∧
        out.body = .streaming frames ∧ BreaksOff frames b ∧
        400 ≤ out.status.1 ∧ out.status.1 < 600 ∧
        ReplyBody out.status.1 (framing (wireFields out.headers)) b body := by
  rw [handleHttp_stages] at hfail ⊢
  have hsilent := prepare_silent env users addr n raw x
  rcases hprep : (prepare env (proxyHandler env.enabled users) addr n raw x).result with e | p
  · -- nothing has been written
    rw [bind_error hprep, hsilent]
    refine ⟨fun h => absurd h not_errorReceived_nil, ?_⟩
    rintro ⟨_, _, _, _, h, -⟩
    exact nomatch h
  rw [bind_ok hprep] at hfail ⊢
  rcases deliver_fails hclient ws client p
    (prepare env (proxyHandler env.enabled users) addr n raw x).state with
    h | ⟨out, frames, b, rfl, hframes, hbreak, hbytes⟩
  · rw [h] at hfail
    exact nomatch hfail
  have hes : clientBytes ((prepare env (proxyHandler env.enabled users) addr n raw x).events ++
      (deliver env ws client (.reply out)
        (prepare env (proxyHandler env.enabled users) addr n raw x).state).events) =
      serializeResponseHead env.http out ++ b := by
    unfold clientBytes at hsilent hbytes ⊢
    rw [List.flatMap_append, hsilent, hbytes, List.nil_append]
  obtain ⟨l, hhead, hcode⟩ := replyHead_serialized env.http out
  rw [hes, hhead]
  refine ⟨?_, ?_⟩
  · -- the head is read in one way only
    rintro ⟨code, body, hlow, hhigh, k, gs, tail, heq, rfl, hbody⟩
    obtain ⟨hl, rfl, rfl⟩ := replyHead_unique heq
    rw [← hl, hcode] at hlow hhigh hbody
    exact ⟨out, frames, b, body, rfl, hframes, hbreak, hlow, hhigh, hbody⟩
  · rintro ⟨out', frames', b', body, hout, hframes', hbreak', hlow, hhigh, hbody⟩
    obtain rfl : out = out' := Prepared.reply.inj (Except.ok.inj hout)
    obtain rfl : frames = frames' := Body.streaming.inj (hframes.symm.trans hframes')
    obtain rfl : b = b' := hbreak.unique hbreak'
    exact ⟨out.status.1, body, hlow, hhigh, l, _, b, rfl, hcode, hbody⟩

/-- A handler that fails on every request. -/
def failing : UserHandler Unit :=
  { forwarder with handleRequest := fun ctx _ w => ((.error (.http "refused"), ctx), w) }

/-- Where a handler fails, the client gets nothing. -/
theorem handleHttp_error_silent :
    ¬ ∀ (env : Env Unit) (users : List (UserHandler Unit)) (ws : Option (WebSocketHandler Unit))
      (client : Source) (addr : SocketAddr) (n : ℕ) (raw : Bytes) (x : World Unit) (f : Fault),
      env.ClientTakes →
      (handleHttp env (proxyHandler env.enabled users) ws client addr n raw x).result = .error f →
      ErrorReceived (clientBytes
        (handleHttp env (proxyHandler env.enabled users) ws client addr n raw x).events) := by
  intro hall
  have hsilent : clientBytes (handleHttp (replyEnv lengthReply)
      (proxyHandler (replyEnv lengthReply).enabled [failing]) none ⟨[], none⟩ ⟨"127.0.0.1", 0⟩ 4096
      plainGet ⟨(), 0⟩).events = [] := by decide +kernel
  have h := hall (replyEnv lengthReply) [failing] none ⟨[], none⟩ ⟨"127.0.0.1", 0⟩ 4096 plainGet
    ⟨(), 0⟩ _ ⟨fun _ _ => rfl, fun _ => rfl⟩ rfl
  rw [hsilent] at h
  exact not_errorReceived_nil h

/-- An upstream's 404, whose body breaks off behind all the bytes it has announced. -/
def brokenReply : Response :=
  ⟨⟨404, by decide⟩, [(contentLengthName, exampleLength)],
    .streaming [.ok (.data (lit "hello")), .error "connection reset"]⟩

theorem handleHttp_error_broken :
    ErrorReceived (clientBytes (handleHttp (replyEnv brokenReply)
      (proxyHandler (fun _ => true) [forwarder]) none ⟨[], none⟩ ⟨"127.0.0.1", 0⟩ 4096
      plainGet ⟨(), 0⟩).events) := by
  have hbody : ReplyBody 404 (framing (wireFields brokenReply.headers)) (lit "hello")
      (lit "hello") := by
    rw [show framing (wireFields brokenReply.headers) = .length (lit "hello").length by
      decide +kernel]
    exact ReplyBody.length (lit "hello") (by decide)
  have hbroken : (handleHttp (replyEnv brokenReply) (proxyHandler (fun _ => true) [forwarder]) none
      ⟨[], none⟩ ⟨"127.0.0.1", 0⟩ 4096 plainGet ⟨(), 0⟩).result.toOption = none := by
    decide +kernel
  obtain ⟨f, hfail⟩ : ∃ f, (handleHttp (replyEnv brokenReply)
      (proxyHandler (fun _ => true) [forwarder]) none ⟨[], none⟩ ⟨"127.0.0.1", 0⟩ 4096 plainGet
      ⟨(), 0⟩).result = .error f := by
    cases h : (handleHttp (replyEnv brokenReply) (proxyHandler (fun _ => true) [forwarder]) none
      ⟨[], none⟩ ⟨"127.0.0.1", 0⟩ 4096 plainGet ⟨(), 0⟩).result with
    | error f => exact ⟨f, rfl⟩
    | ok u => rw [h] at hbroken; exact nomatch hbroken
  apply (handleHttp_error_iff (replyEnv brokenReply) [forwarder] none ⟨[], none⟩ ⟨"127.0.0.1", 0⟩
    4096 plainGet ⟨(), 0⟩ ⟨fun _ _ => rfl, fun _ => rfl⟩ hfail).2
  exact ⟨brokenReply, _, lit "hello", lit "hello", rfl, rfl,
    BreaksOff.data (lit "hello") [] _ (BreaksOff.here _ _), by decide, by decide, hbody⟩

end HexbufferProxy
