import HexbufferProxy.Proof.Handlers
import HexbufferProxy.Proof.Response
import HexbufferProxy.Proof.Fields
import HexbufferProxy.Spec.Reply

/-!
# What the client makes of a forwarded response

The normal branch of `handle_http` writes the head with all the upstream's fields, and then the
data of the body as it is.

* `traces_asked`, `traces_forwardUpgrade`: what both branches do before there is a reply.
* `forwardRequest_writes`: that is all the normal branch writes.
* `headLines`, `position_serialized`: the reader finds in the head what the header map says.
* `wholeBody_iff`: a body that is sent as it is comes back exactly when the fields fit it.
* `forwardRequest_framed_iff`: so for the client of `handle_http`.
-/

namespace HexbufferProxy

open Rust Rust.Proc Rust.Source

variable {ω : Type} {env : Env ω} {U : Unicode}

/-! ## Asking an upstream -/

/-- A write is one event, whatever comes of it. -/
theorem traces_write {e : Event} {f : ω → Except IoError Unit × ω} :
    Traces (Proc.emit e >>= fun _ => external f >>= fun r =>
      (Proc.lift (r.mapError fun e => .error (.io e)) : P ω Unit)) fun es r => es = [e] ∧
        ∀ x, r = .error x → ∃ w i, (f w).1 = .error i := by
  intro s
  refine ⟨rfl, fun x hx => ?_⟩
  have hlift : (f s.ext).1.mapError (fun e => (Fault.error (.io e))) = .error x := hx
  cases h : (f s.ext).1 with
  | error i => exact ⟨s.ext, i, h⟩
  | ok u =>
    rw [h] at hlift
    cases hlift

theorem traces_writeClient (bs : Bytes) :
    Traces (writeClient env bs) fun es _ => es = [.toClient bs] := traces_write.mono fun _ _ h => h.1

theorem traces_connectServer (target : Str) :
    Traces (connectServer env target) fun es r => es = [.connect target] ∧
      ∀ x, r = .error x → ∃ w i, (env.connect target w).1 = .error i := traces_write

theorem traces_writeServer (bs : Bytes) :
    Traces (writeServer env bs) fun es r => es = [.toServer bs] ∧
      ∀ x, r = .error x → ∃ w i, (env.serverWrite bs w).1 = .error i := traces_write

theorem traces_sendRequest (q : Request) :
    Traces (sendRequest env q) fun es r => es = [.sendRequest q] ∧
      ∃ w, r = .ok (env.sendRequest q w).1 := fun s => ⟨rfl, s.ext, rfl⟩

/-- What the upgrade branch does before there is a reply. -/
def upgradeAsked (host : Str) (req : Request) : List Event :=
  [.connect (upgradeTarget host), .toServer (serializeRequest req)]

/-- What it does with its upstream's reply. -/
def answerUpgrade (env : Env ω) (handler : HttpHandler ω) (ws : Option (WebSocketHandler ω))
    (client : Source) (ctx : HttpContext) (res : Response) (server : Source) : P ω Unit := do
  let (modified, ctx) ← responseOrFail handler ctx res
  writeClient env (serializeResponse env.http modified)
  if isWebsocketResponse modified then Proc.emit (.relay ws.isSome ctx client server)
  else shutdownClient env

section

variable {V : List Event → Except Fault Unit → Prop}

/-- **The normal branch asks its upstream once**, and goes on with the reply. -/
theorem traces_asked {q : Request} {f : Response → P ω Unit}
    (herror : ∀ w f e, (env.sendRequest q w).1 = .error f → V [.sendRequest q] (.error e))
    (hok : ∀ w res, (env.sendRequest q w).1 = .ok res →
      Traces (f res) fun es r => V ([.sendRequest q] ++ es) r) :
    Traces (sendRequest env q >>= fun r => Proc.lift (r.mapError .error) >>= f) V := by
  refine traces_bind (traces_sendRequest q) ?_ ?_
  · rintro es e ⟨-, w, h⟩
    exact nomatch h
  rintro es _ ⟨rfl, w, ⟨⟩⟩
  cases hr : (env.sendRequest q w).1 with
  | error f => exact fun s => herror w f (.error f) hr
  | ok res => exact hok w res hr

/-- **The upgrade branch connects, writes the request, and reads a reply**, and goes on with it. -/
theorem traces_forwardUpgrade {handler : HttpHandler ω} {ws : Option (WebSocketHandler ω)}
    {client : Source} {n : ℕ} {ctx : HttpContext} {host : Str} {req : Request}
    (herror : ∀ es e, es <+: upgradeAsked host req → Unreplied env n es → V es (.error e))
    (hok : ∀ w res, upstreamReply env.unicode (env.serverStream w) n = .ok res →
      Traces (answerUpgrade env handler ws client ctx res
        (readFullResponse env.unicode (env.serverStream w) n).2)
          fun es r => V (upgradeAsked host req ++ es) r) :
    Traces (forwardUpgrade env handler ws client n ctx host req) V := by
  have hasked : ∀ e, Unreplied env n (upgradeAsked host req) → V (upgradeAsked host req) (.error e) :=
    fun e => herror _ e List.prefix_rfl
  unfold forwardUpgrade
  dsimp only
  refine traces_bind (traces_connectServer (upgradeTarget host)) ?_ ?_
  · rintro es e ⟨rfl, hfails⟩
    obtain ⟨w, i, hi⟩ := hfails e rfl
    exact herror _ e (List.prefix_append _ [_]) (.connecting _ w i List.mem_cons_self hi)
  rintro es _ ⟨rfl, -⟩
  refine traces_bind (traces_writeServer (serializeRequest req)) ?_ ?_
  · rintro es e ⟨rfl, hfails⟩
    obtain ⟨w, i, hi⟩ := hfails e rfl
    exact hasked e (.writing _ w i (List.mem_cons_of_mem _ List.mem_cons_self) hi)
  rintro es _ ⟨rfl, -⟩
  -- the stream is there at once; reading and parsing it may fail
  refine traces_bind (T := fun es r => es = [] ∧ ∃ w, r = .ok (env.serverStream w))
    (traces_call fun x => ⟨rfl, x.ext, rfl⟩) ?_ ?_
  · rintro es e ⟨-, w, h⟩
    exact nomatch h
  rintro es _ ⟨rfl, w, ⟨⟩⟩
  have hunread : ∀ f, upstreamReply env.unicode (env.serverStream w) n = .error f →
      Unreplied env n (upgradeAsked host req) := fun f => .reading _ w f List.mem_cons_self
  refine traces_bind (T := fun es r => es = [] ∧
    r = (readFullResponse env.unicode (env.serverStream w) n).1) (traces_lift ⟨rfl, rfl⟩) ?_ ?_
  · rintro es e ⟨rfl, hread⟩
    refine hasked e (hunread e ?_)
    unfold upstreamReply
    rw [← hread]
    rfl
  rintro es out ⟨rfl, hout⟩
  refine traces_bind (T := fun es r => es = [] ∧ r = parseRawResponse out)
    (traces_lift ⟨rfl, rfl⟩) ?_ ?_
  · rintro es e ⟨rfl, hparse⟩
    refine hasked e (hunread e ?_)
    unfold upstreamReply
    rw [← hout]
    exact hparse.symm
  rintro es res ⟨rfl, hres⟩
  refine hok w res ?_
  unfold upstreamReply
  rw [← hout]
  exact hres.symm

end

/-! ## What is written -/

theorem writes_write {e : Event} {f : ω → Except IoError Unit × ω} :
    Writes Event.written
      (Proc.emit e >>= fun _ => external f >>= fun r =>
        (Proc.lift (r.mapError fun e => .error (.io e)) : P ω Unit)) e.written (fun _ => True) := by
  have hrest : Writes Event.written (external f >>= fun r =>
      (Proc.lift (r.mapError fun e => .error (.io e)) : P ω Unit)) ([] ++ []) (fun _ => True) := by
    apply writes_bind (R := fun _ => True) (writes_call fun _ => trivial)
    intro _ _
    exact writes_lift fun _ _ => trivial
  have h := writes_bind (writes_emit e) (fun _ (_ : True) => hrest)
  rwa [List.append_nil, List.append_nil] at h

theorem writes_writeClient (bs : Bytes) :
    Writes Event.written (writeClient env bs) bs (fun _ => True) := writes_write

theorem writes_shutdownClient :
    Writes Event.written (shutdownClient env) [] (fun _ => True) := writes_write

theorem writes_writeFrames : ∀ frames : List (Except String Frame),
    Writes Event.written (writeFrames env frames) (Body.streaming frames).data
      (fun _ => True) := by
  intro frames
  induction frames with
  | nil => exact writes_pure trivial
  | cons f fs ih =>
    rcases f with e | bs | m
    · exact writes_fail _
    · unfold writeFrames
      apply writes_bind (writes_writeClient bs)
      intro _ _
      exact ih
    · exact ih

theorem writes_writeBodyToStream (body : Body) :
    Writes Event.written (writeBodyToStream env body) body.data (fun _ => True) := by
  cases body with
  | full bs => exact writes_writeClient bs
  | streaming frames => exact writes_writeFrames frames

/-- **The end of the normal branch** writes the head and the data of the body. -/
theorem writes_forwardResponse (res : Response) :
    Writes Event.written (forwardResponse env res)
      (serializeResponseHead env.http res ++ (res.body.data ++ [])) (fun _ => True) := by
  unfold forwardResponse
  apply writes_bind (writes_writeClient _)
  intro _ _
  apply writes_bind (writes_writeBodyToStream res.body)
  intro _ _
  exact writes_shutdownClient

/-- **Handlers that keep the response pass it on**, and write nothing. -/
theorem stack_keeps : ∀ (users : List (UserHandler ω)) (i : ℕ) (ctx : HttpContext)
    (res : Response), (∀ u ∈ users, u.Keeping) →
    Writes Event.written (HandlerStack.handleResponse (numbered users i) ctx res) []
      (fun r => r.1 = .ok res) := by
  intro users
  induction users with
  | nil => intro i ctx res _; exact writes_pure rfl
  | cons u us ih =>
    intro i ctx res hkeep
    rw [numbered_cons]
    unfold HandlerStack.handleResponse
    have hcall : Writes Event.written ((u.toHandler i).handleResponse ctx res) ([] ++ [])
        (fun r => r.1 = .ok res) := by
      apply writes_bind (writes_emit _)
      intro _ _
      exact writes_call fun s => hkeep u List.mem_cons_self ctx res s.ext
    apply writes_bind hcall
    rintro ⟨r, ctx'⟩ hr
    simp only at hr
    rw [hr]
    exact ih (i + 1) ctx' res fun v hv => hkeep v (List.mem_cons_of_mem u hv)

theorem writes_keeping {users : List (UserHandler ω)} (hkeep : ∀ u ∈ users, u.Keeping)
    (ctx : HttpContext) (res : Response) :
    Writes Event.written (responseOrFail (proxyHandler env.enabled users) ctx res) []
      (fun m => m.1 = res) := by
  unfold responseOrFail
  rw [proxyHandler_response, ← List.append_nil []]
  apply writes_bind (stack_keeps users 0 ctx res hkeep)
  rintro ⟨r, ctx'⟩ hr
  simp only at hr
  rw [hr]
  exact writes_pure rfl

/-- **The normal branch of `handle_http` writes the upstream's head and data**, when no handler
changes the response. -/
theorem forwardRequest_writes (env : Env ω) {users : List (UserHandler ω)}
    (hkeep : ∀ u ∈ users, u.Keeping) {ctx : HttpContext} {host : Str} {req q : Request}
    {x : World ω} (hq : absoluteRequest env "http".toList host req = some q) {res : Response}
    (hres : (env.sendRequest q x.ext).1 = .ok res)
    (hrun : (forwardRequest env (proxyHandler env.enabled users) ctx host req x).result = .ok ()) :
    clientBytes (forwardRequest env (proxyHandler env.enabled users) ctx host req x).events =
      serializeResponseHead env.http res ++ res.body.data := by
  have hrest : Writes Event.written
      (Proc.lift ((Except.ok res : Except AnyError Response).mapError .error) >>= fun response =>
        responseOrFail (proxyHandler env.enabled users) ctx response >>= fun m =>
          forwardResponse env m.1)
      ([] ++ ([] ++ (serializeResponseHead env.http res ++ (res.body.data ++ []))))
      (fun _ => True) := by
    apply writes_bind (R := fun response => response = res)
      (writes_lift fun a ha => (Except.ok.inj ha).symm)
    intro response hresponse
    rw [hresponse]
    apply writes_bind (writes_keeping hkeep ctx res)
    rintro ⟨m, ctx'⟩ hm
    simp only at hm
    rw [hm]
    exact writes_forwardResponse res
  have hsend : (sendRequest env q x).result = .ok (.ok res) := by
    rw [← hres]; rfl
  unfold forwardRequest at hrun ⊢
  rw [hq] at hrun ⊢
  simp only at hrun ⊢
  rw [bind_ok hsend] at hrun ⊢
  obtain ⟨h, -⟩ := hrest _ () hrun
  simp only [List.nil_append, List.append_nil] at h
  unfold clientBytes
  rw [List.flatMap_append, ← h]
  rfl

/-! ## What the reader finds in the head -/

theorem isChunked_serialized (http : HttpCrate) (res : Response) :
    isChunked U (fromUtf8Lossy (serializeResponseHead http res)) =
      declaresChunked U res.headers := by
  rw [(headLines_serialized http res).isChunked_eq]
  unfold declaresChunked headerPairs
  rw [List.any_map]
  congr 1
  funext p
  have hname : (p.1.1.map Char.toLower = "transfer-encoding".toList) ↔
      p.1 = transferEncodingName := name_lower_eq p.1 transferEncodingName
  simp only [Function.comp_apply, hname]
  rfl

/-- The blank that the serializer puts behind the colon does not matter. -/
theorem trim_blank (s : Str) : trim (splitFirst ':' (' ' :: s)) = trim (splitFirst ':' s) := by
  have hsplit : splitFirst ':' (' ' :: s) = [' '] ++ splitFirst ':' s := by
    unfold splitFirst
    rw [List.takeWhile_cons_of_pos (by decide)]
    rfl
  unfold trim
  rw [hsplit, trimStart_append (by decide)]

theorem getContentLength_serialized (http : HttpCrate) (res : Response) :
    getContentLength U (fromUtf8Lossy (serializeResponseHead http res)) =
      declaredLength res.headers := by
  have hname : ∀ p : HeaderName × HeaderValue,
      (p.1.1.map Char.toLower = "content-length".toList) ↔ p.1 = contentLengthName :=
    fun p => name_lower_eq p.1 contentLengthName
  rw [(headLines_serialized http res).getContentLength_eq]
  unfold declaredLength headerPairs HeaderMap.get HeaderMap.values
  rw [List.find?_map, List.head?_map, List.head?_filter]
  simp only [Function.comp_def, hname]
  cases res.headers.find? fun p => decide (p.1 = contentLengthName) with
  | none => rfl
  | some p =>
    simp only [Option.map_some, Option.bind_some]
    rw [trim_blank]

theorem isNoBodyStatus_serialized (http : HttpCrate) (res : Response)
    (h : res.status.AllowsBody) :
    isNoBodyStatus (fromUtf8Lossy (serializeResponseHead http res)) = false := by
  obtain ⟨h1, h2, h3⟩ := h
  unfold isNoBodyStatus
  rw [(headLines_serialized http res).lines_eq]
  simp only [List.head?_cons, Option.bind_some, words_statusText, (status_spec res.status).2.2]
  simp [h1, h2, h3]

/-! ## When the body comes back -/

/-- Taking the chunks out of bytes leaves fewer of them. -/
theorem dechunkFrom_shorter : ∀ (k : ℕ) (body w r : Bytes), dechunkFrom none k body w = .ok r →
    r = body ∨ r.length < body.length + w.length := by
  intro k
  induction k with
  | zero => intro body w r h; exact Or.inl (Except.ok.inj h).symm
  | succ k ih =>
    intro body w r h
    unfold dechunkFrom at h
    by_cases hlf : hasLf w = true
    · rw [if_pos hlf] at h
      cases hc : fromStrRadix 16 usizeBound (chunkSizeText w) with
      | none =>
        rw [hc] at h
        cases h
      | some c =>
        rw [hc] at h
        cases c with
        | zero => exact Or.inl (Except.ok.inj h).symm
        | succ c =>
          simp only at h
          by_cases ho : usizeBound ≤ c + 1 + 2
          · rw [if_pos ho] at h
            cases h
          rw [if_neg ho] at h
          by_cases hl : c + 1 + 2 ≤ (w.drop (w.idxOf 10 + 1)).length
          · -- a chunk: its data is shorter than what it takes off `w`
            rw [if_pos hl] at h
            have hlen := hl
            rw [List.length_drop] at hlen
            rcases ih _ _ _ h with h' | h'
            · right
              rw [h', List.length_append, List.length_take, List.length_drop]
              omega
            · right
              simp only [List.length_append, List.length_take, List.length_drop] at h'
              omega
          · rw [if_neg hl] at h
            exact Or.inl (Except.ok.inj h).symm
    · rw [if_neg hlf] at h
      exact Or.inl (Except.ok.inj h).symm

/-- So only an empty body is its own chunk data. -/
theorem dechunk_self {w : Bytes} : dechunk none w = .ok w ↔ w = [] := by
  constructor
  · intro h
    rcases dechunkFrom_shorter _ _ _ _ h with h' | h'
    · exact h'
    · rw [List.length_nil] at h'
      omega
  · rintro rfl
    rfl

/-- **A body that is sent as it is comes back as it is exactly when the fields fit it.** -/
theorem wholeBody_iff (http : HttpCrate) (res : Response) (h : res.status.AllowsBody)
    (data : Bytes) :
    wholeBody U none (fromUtf8Lossy (serializeResponseHead http res)) data = .ok data ↔
      FitsPlainBody U res.headers data := by
  unfold wholeBody FitsPlainBody
  rw [isNoBodyStatus_serialized http res h, isChunked_serialized, getContentLength_serialized,
    if_neg Bool.false_ne_true]
  cases hc : declaresChunked U res.headers with
  | true =>
    rw [if_pos rfl, dechunk_self]
    constructor
    · exact Or.inl
    · rintro (h0 | ⟨h1, -⟩)
      · exact h0
      · exact absurd h1.symm Bool.false_ne_true
  | false =>
    rw [if_neg Bool.false_ne_true]
    cases hl : declaredLength res.headers with
    | none =>
      refine ⟨fun _ => Or.inr ⟨rfl, fun n hn => nomatch hn⟩, fun _ => rfl⟩
    | some n =>
      simp only
      by_cases hle : n ≤ data.length
      · rw [if_pos hle, Except.ok.injEq, List.take_eq_self_iff]
        constructor
        · intro hn
          exact Or.inr ⟨trivial, fun m hm => (Option.some.inj hm) ▸ hn⟩
        · rintro (h0 | ⟨-, hm⟩)
          · rw [h0]; exact Nat.zero_le n
          · exact hm n rfl
      · rw [if_neg hle]
        refine ⟨fun _ => Or.inr ⟨trivial, fun m hm => ?_⟩, fun _ => rfl⟩
        rw [← Option.some.inj hm]
        omega

/-- Our own heads are a response's. -/
theorem http_serialized (http : HttpCrate) (res : Response) :
    lit "HTTP/" <+: serializeResponseHead http res := by
  unfold serializeResponseHead
  have e : lit "HTTP/1.1 " = lit "HTTP/" ++ lit "1.1 " := by decide
  simp only [e, List.append_assoc]
  exact List.prefix_append _ _

/-- **The client reads the upstream's data exactly when the upstream's fields fit a body that is
sent as it is**: a response that was chunked upstream is not. -/
theorem forwardRequest_framed_iff (env : Env ω) (users : List (UserHandler ω))
    (hkeep : ∀ u ∈ users, u.Keeping) (ctx : HttpContext) (host : Str) (req : Request)
    {q : Request} (x : World ω) (hq : absoluteRequest env "http".toList host req = some q)
    {res : Response} (hres : (env.sendRequest q x.ext).1 = .ok res)
    (hstatus : res.status.AllowsBody)
    (hrun : (forwardRequest env (proxyHandler env.enabled users) ctx host req x).result = .ok ())
    (s : Source) (hs : s.bytes =
      clientBytes (forwardRequest env (proxyHandler env.enabled users) ctx host req x).events)
    (hf : s.failure = none) {n : ℕ} (hn : n ≠ 0) :
    (readFullResponse env.unicode s n).1 =
        .ok (serializeResponseHead env.http res ++ res.body.data) ↔
      FitsPlainBody env.unicode res.headers res.body.data := by
  have hbytes := hs.trans (forwardRequest_writes env hkeep hq hres hrun)
  have hhttp : lit "HTTP/" <+: s.bytes := by
    rw [hbytes]
    exact (http_serialized env.http res).trans (List.prefix_append _ _)
  obtain ⟨i, hi, hlen⟩ := position_serialized env.http res res.body.data
  rw [readFullResponse_whole hn s hhttp, hbytes, hf, ← wholeBody_iff env.http res hstatus]
  unfold wholeResponse
  rw [hi]
  simp only
  rw [hlen, List.take_left, List.drop_left]
  rcases wholeBody env.unicode none (fromUtf8Lossy (serializeResponseHead env.http res))
    res.body.data with e | b
  · simp [Except.map]
  · simp [Except.map]

/-- A `200 OK` with one field and a body of one data frame. -/
def exampleReply (name : HeaderName) (value : HeaderValue) : Response :=
  ⟨⟨200, by decide⟩, [(name, value)], .streaming [.ok (.data (lit "hello"))]⟩

def chunkedReply : Response := exampleReply transferEncodingName ⟨lit "chunked", by decide⟩

def lengthReply : Response := exampleReply contentLengthName exampleLength

def exampleGet : Request :=
  ⟨.get, .absolute "http".toList "a.example".toList .slash, [], .full []⟩

def replyEnv (res : Response) : Env Unit := Env.basic (fun _ => true) ⟨[], none⟩ res []

def exampleContext : HttpContext := ⟨1, "a.example".toList, ⟨"127.0.0.1", 0⟩, false⟩

/-- What the client receives of a response, in one segment. -/
def received (res : Response) : Source :=
  ⟨[⟨serializeResponseHead HttpCrate.basic res ++ res.body.data, by
    unfold serializeResponseHead lit
    simp⟩], none⟩

/-- The data of a response that was chunked upstream are not read back. -/
theorem forwardRequest_chunked :
    ¬ ∀ (env : Env Unit) (users : List (UserHandler Unit)) (ctx : HttpContext) (host : Str)
      (req q : Request) (x : World Unit) (res : Response) (s : Source) (n : ℕ),
      (∀ u ∈ users, u.Keeping) → absoluteRequest env "http".toList host req = some q →
      (env.sendRequest q x.ext).1 = .ok res → res.status.AllowsBody →
      (forwardRequest env (proxyHandler env.enabled users) ctx host req x).result = .ok () →
      s.bytes =
        clientBytes (forwardRequest env (proxyHandler env.enabled users) ctx host req x).events →
      s.failure = none → n ≠ 0 →
      (readFullResponse env.unicode s n).1 =
        .ok (serializeResponseHead env.http res ++ res.body.data) := by
  intro hall
  have h := hall (replyEnv chunkedReply) [] exampleContext "a.example".toList
    exampleGet exampleGet ⟨(), 1⟩ chunkedReply (received chunkedReply) 4096 (by simp) rfl rfl
    (by decide) rfl (by decide +kernel) rfl (by decide)
  have hlost : (readFullResponse Unicode.basic (received chunkedReply) 4096).1.toOption =
      some (serializeResponseHead HttpCrate.basic chunkedReply) := by decide +kernel
  have hbody := congrArg Except.toOption h
  rw [show Env.unicode _ = Unicode.basic from rfl, hlost] at hbody
  exact absurd (Option.some.inj hbody) (by decide +kernel)

theorem lengthReply_fits : FitsPlainBody Unicode.basic lengthReply.headers (lit "hello") := by
  have hlength : declaredLength lengthReply.headers = some 5 := by decide +kernel
  refine Or.inr ⟨by decide +kernel, ?_⟩
  intro n hn
  rw [← Option.some.inj (hlength.symm.trans hn)]
  decide

theorem forwardRequest_framed_length :
    (readFullResponse Unicode.basic (received lengthReply) 4096).1 =
      .ok (serializeResponseHead HttpCrate.basic lengthReply ++ lit "hello") :=
  (forwardRequest_framed_iff (replyEnv lengthReply) [] (by simp) exampleContext
    "a.example".toList exampleGet ⟨(), 1⟩ rfl rfl (by decide) rfl (received lengthReply)
    (by decide +kernel) rfl (by decide)).2 lengthReply_fits

end HexbufferProxy
