import HexbufferProxy.Proof.RoundTrip
import HexbufferProxy.Proof.Status
import HexbufferProxy.Proof.Upgrade
import HexbufferProxy.Spec.Reread

/-!
# Does a relayed reply read as the same reply?

* `parseRawResponse_isWire`, `reply_bodyless`: what kind of response the branch has read.
* `readsAs_iff`: written again, it reads as the same response exactly when its fields fit a body
  without framing.
* `forwardUpgrade_reread_iff`: so for the upgrade branch of `handle_http`.
-/

namespace HexbufferProxy

open Rust Rust.Proc Rust.Source

variable {ω : Type} {U : Unicode} {n : ℕ} {s : Source} {res : Response}

/-! ## Replies -/

/-- Every response that the parser returns survives the wire. -/
theorem parseRawResponse_isWire {raw : Bytes} (h : parseRawResponse raw = .ok res) :
    res.IsWire := by
  obtain ⟨hheaders, hbody⟩ := parseRawResponse_ok h
  exact ⟨⟨_, hbody⟩, buildHeaders_text hheaders⟩

/-- The first line of a text is there when its LF is. -/
theorem head_lines_append {a : Str} (ha : '\n' ∈ a) (r : Str) :
    (lines (a ++ r)).head? = (lines a).head? := by
  obtain ⟨l, b, rfl, hl⟩ := List.eq_append_cons_of_mem ha
  rw [List.append_assoc, List.cons_append, lines_lf hl, lines_lf hl]
  rfl

/-- The scanner for statuses without a body sees what the parser sees. -/
theorem isNoBodyStatus_parsed {head body : Bytes} (hlf : (10 : UInt8) ∈ head)
    (h : parseRawResponse (head ++ body) = .ok res) :
    isNoBodyStatus (fromUtf8Lossy head) = true ↔ ¬ res.status.AllowsBody := by
  -- both look at the same first line
  obtain ⟨a, b, rfl⟩ := List.append_of_mem hlf
  have htext : ∀ r, fromUtf8Lossy (a ++ 10 :: r) =
      (fromUtf8Lossy a ++ ['\n']) ++ fromUtf8Lossy r := by
    intro r
    rw [lossy_append_ascii (by decide), lossy_cons_ascii (by decide), List.append_assoc]
    rfl
  have hmem : '\n' ∈ fromUtf8Lossy a ++ ['\n'] := List.mem_append_right _ List.mem_cons_self
  have hhead : ∀ r, (lines (fromUtf8Lossy (a ++ 10 :: r))).head? =
      (lines (fromUtf8Lossy a ++ ['\n'])).head? := by
    intro r
    rw [htext, head_lines_append hmem]
  unfold parseRawResponse at h
  rw [List.append_assoc, List.cons_append] at h
  simp only [hhead] at h
  unfold isNoBodyStatus
  rw [hhead]
  obtain ⟨l, hl⟩ : ∃ l, (lines (fromUtf8Lossy a ++ ['\n'])).head? = some l := by
    obtain ⟨x, y, hxy, hx⟩ := List.eq_append_cons_of_mem hmem
    rw [hxy, lines_lf hx]
    exact ⟨_, rfl⟩
  rw [hl] at h ⊢
  simp only [Option.getD_some, Option.bind_some] at h ⊢
  cases hw : (splitWhitespace l)[1]? with
  | none =>
    have h200 : fromStrRadix 10 65536 "200".toList = some 200 := by decide
    have hst : StatusCode.parse 200 = some ⟨200, by decide⟩ := rfl
    rw [hw, Option.getD_none, h200] at h
    simp only [hst] at h
    split at h
    · rename_i st _ hs _
      rw [← Except.ok.inj h, ← Option.some.inj hs]
      simp only [Option.bind_none, Bool.false_eq_true, false_iff, not_not]
      exact ⟨by decide, by decide, by decide⟩
    · exact nomatch h
  | some w =>
    rw [hw, Option.getD_some] at h
    cases hc : fromStrRadix 10 65536 w with
    | none => rw [hc] at h; exact nomatch h
    | some code =>
      rw [hc] at h
      simp only at h
      split at h
      · rename_i st _ hs _
        have hcode : st.1 = code := by
          unfold StatusCode.parse at hs
          split at hs
          · rw [← Option.some.inj hs]
          · exact nomatch hs
        rw [← Except.ok.inj h]
        unfold StatusCode.AllowsBody
        simp only [Option.bind_some, hc, hcode, Bool.or_eq_true, decide_eq_true_eq]
        tauto
      · exact nomatch h

/-- Behind the head that ends at the first empty line stands the body. -/
theorem bodyAfterHead_take {w : Bytes} {i : ℕ} (hi : position crlfcrlf w = some i) (body : Bytes) :
    bodyAfterHead (w.take (i + 4) ++ body) = body := by
  have hpos : position crlfcrlf (w.take (i + 4)) = some i := position_take (by decide) hi
  have hlen : (w.take (i + 4)).length = i + 4 := by
    rw [List.length_take]
    exact min_eq_left (position_read hi)
  unfold bodyAfterHead
  rw [position_append hpos]
  simp only
  rw [List.drop_left' hlen]

/-- **A reply whose status has no body has none.** -/
theorem reply_bodyless (h : upstreamReply U s n = .ok res) (hstatus : ¬ res.status.AllowsBody) :
    res.body = .full [] := by
  unfold upstreamReply at h
  cases hread : (readFullResponse U s n).1 with
  | error e => rw [hread] at h; exact nomatch h
  | ok out =>
    rw [hread] at h
    have hparse : parseRawResponse out = .ok res := h
    rw [(parseRawResponse_ok hparse).2]
    by_cases hn : n = 0
    · rw [hn, readFullResponse_zero] at hread
      rw [← Except.ok.inj hread]
      rfl
    cases hi : position crlfcrlf s.bytes with
    | none =>
      rw [readFullResponse_headless hn hi] at hread
      have hout : s.bytes = out := by
        unfold atEnd at hread
        split at hread
        · exact Except.ok.inj hread
        · exact nomatch hread
      unfold bodyAfterHead
      rw [← hout, hi]
    | some i =>
      obtain ⟨got, s', -, -, -, hr⟩ := readFullResponse_head (U := U) hn hi
      rw [hread] at hr
      set head := s.bytes.take (i + 4)
      cases hb : (readHttpBody U s' (fromUtf8Lossy head) (got.drop (i + 4)) n).1 with
      | error e => rw [hb] at hr; exact nomatch hr
      | ok body =>
        rw [hb] at hr
        have hout : out = head ++ body := Except.ok.inj hr
        have hlf : (10 : UInt8) ∈ head := by
          have hpos : position crlfcrlf head = some i := position_take (by decide) hi
          have hstart := (position_starts hpos).mem (by decide : (10 : UInt8) ∈ crlfcrlf)
          exact List.mem_of_mem_drop hstart
        rw [hout] at hparse
        have hno := (isNoBodyStatus_parsed hlf hparse).2 hstatus
        unfold readHttpBody at hb
        rw [if_pos hno] at hb
        rw [hout, bodyAfterHead_take hi, ← Except.ok.inj hb]

/-! ## Read again -/

/-- What the reader and the parser make of a head of our own and any body. -/
theorem reply_serialized (http : HttpCrate) (hn : n ≠ 0) {bs : Bytes}
    (hs : s.bytes = serializeResponseHead http res ++ bs) (hf : s.failure = none) :
    upstreamReply U s n =
      (wholeBody U none (fromUtf8Lossy (serializeResponseHead http res)) bs).bind fun body =>
        parseRawResponse (serializeResponseHead http res ++ body) := by
  have hhttp : lit "HTTP/" <+: s.bytes := by
    rw [hs]
    exact (http_serialized http res).trans (List.prefix_append _ _)
  obtain ⟨i, hi, hlen⟩ := position_serialized http res bs
  unfold upstreamReply
  rw [readFullResponse_whole hn s hhttp, hs, hf]
  unfold wholeResponse
  rw [hi]
  simp only
  rw [hlen, List.take_left, List.drop_left]
  -- not by `rfl` alone, which would unfold the parser
  cases wholeBody U none (fromUtf8Lossy (serializeResponseHead http res)) bs with
  | error e => simp only [Except.map, Except.bind]
  | ok body => simp only [Except.map, Except.bind]

/-- **Written again, a response reads as the same** exactly when its fields fit its body as it is. -/
theorem readsAs_iff (http : HttpCrate) (hn : n ≠ 0) (hwire : res.IsWire)
    (hstatus : ¬ res.status.AllowsBody → res.body = .full []) :
    ReadsAs U n (serializeResponse http res) res ↔
      FitsPlainBody U res.headers res.body.fullBytes := by
  obtain ⟨bs, hbs⟩ := hwire.body
  have hbytes : serializeResponse http res = serializeResponseHead http res ++ bs := by
    unfold serializeResponse
    rw [hbs]
    rfl
  -- with another body, the head is the same
  have hparse : ∀ body, ∃ res', parseRawResponse (serializeResponseHead http res ++ body) =
      .ok res' ∧ SameResponse res' ⟨res.status, res.headers, .full body⟩ := by
    intro body
    have hbody : Response.IsWire ⟨res.status, res.headers, .full body⟩ :=
      ⟨⟨body, rfl⟩, hwire.values⟩
    have hparsed := parse_serializeResponse http hbody
    exact hparsed
  have hhead : ¬ res.status.AllowsBody →
      wholeBody U none (fromUtf8Lossy (serializeResponseHead http res)) bs = .ok bs := by
    intro hno
    have hnil : bs = [] := by
      have h := hstatus hno
      rw [hbs] at h
      exact Body.full.inj h
    obtain ⟨res', hres', hsame⟩ := hparse []
    have hlf : (10 : UInt8) ∈ serializeResponseHead http res := by
      unfold serializeResponseHead serializeHeaders
      simp
    have hst : ¬ res'.status.AllowsBody := by
      rw [hsame.status]
      exact hno
    unfold wholeBody
    rw [if_pos ((isNoBodyStatus_parsed hlf hres').2 hst), hnil]
  have hsource : ∃ s : Source, s.bytes = serializeResponse http res ∧ s.failure = none := by
    have hne : serializeResponse http res ≠ [] := by
      rw [hbytes]
      unfold serializeResponseHead serializeHeaders
      simp
    exact ⟨⟨[⟨_, hne⟩], none⟩, List.append_nil _, rfl⟩
  constructor
  · intro hall
    obtain ⟨s, hs, hf⟩ := hsource
    obtain ⟨res', hres', hsame⟩ := hall s hs hf
    rw [hbytes] at hs
    rw [reply_serialized http hn hs hf] at hres'
    cases hb : wholeBody U none (fromUtf8Lossy (serializeResponseHead http res)) bs with
    | error e => rw [hb] at hres'; exact nomatch hres'
    | ok body =>
      rw [hb] at hres'
      simp only [Except.bind] at hres'
      obtain ⟨res₂, hres₂, hsame₂⟩ := hparse body
      have heq : res₂ = res' := Except.ok.inj (hres₂.symm.trans hres')
      have hbody : body = bs := by
        have h := hsame.body
        rw [← heq, hsame₂.body, hbs] at h
        exact Body.full.inj h
      rw [hbody] at hb
      rw [hbs]
      by_cases hst : res.status.AllowsBody
      · exact (wholeBody_iff http res hst bs).1 hb
      · have h := hstatus hst
        rw [hbs] at h
        exact Or.inl (Body.full.inj h)
  · intro hfits s hs hf
    rw [hbytes] at hs
    rw [hbs] at hfits
    have hb : wholeBody U none (fromUtf8Lossy (serializeResponseHead http res)) bs = .ok bs := by
      by_cases hst : res.status.AllowsBody
      · exact (wholeBody_iff http res hst bs).2 hfits
      · exact hhead hst
    obtain ⟨res', hres', hsame⟩ := hparse bs
    refine ⟨res', ?_, hsame.status, hsame.headers, hsame.body.trans hbs.symm⟩
    rw [reply_serialized http hn hs hf, hb]
    simp only [Except.bind]
    exact hres'

/-! ## The upgrade branch -/

/-- **An upgrade that comes to an end has written its upstream's reply**, when no handler changes
it. -/
theorem forwardUpgrade_writes (env : Env ω) {users : List (UserHandler ω)}
    (hkeep : ∀ u ∈ users, u.Keeping) (ws : Option (WebSocketHandler ω)) (client : Source) (n : ℕ)
    (ctx : HttpContext) (host : Str) (req : Request) :
    Traces (forwardUpgrade env (proxyHandler env.enabled users) ws client n ctx host req)
      fun es r => r = .ok () → ∃ w res,
        upstreamReply env.unicode (env.serverStream w) n = .ok res ∧
          clientBytes es = serializeResponse env.http res := by
  refine traces_forwardUpgrade ?_ ?_
  · exact fun _ _ _ _ h => nomatch h
  intro w res hreply
  -- asking has written nothing; what comes behind is the reply
  have hasked : clientBytes (upgradeAsked host req) = [] := rfl
  have hanswer : Writes Event.written (answerUpgrade env (proxyHandler env.enabled users) ws client
      ctx res (readFullResponse env.unicode (env.serverStream w) n).2)
      ([] ++ (serializeResponse env.http res ++ [])) (fun _ => True) := by
    unfold answerUpgrade
    apply writes_bind (writes_keeping hkeep ctx res)
    rintro ⟨modified, ctx'⟩ hmod
    simp only at hmod
    rw [hmod]
    apply writes_bind (writes_writeClient (serializeResponse env.http res))
    intro _ _
    split
    · exact writes_emit _
    · exact writes_shutdownClient
  refine hanswer.traces.mono ?_
  intro es r hes hr
  obtain ⟨hbytes, -⟩ := hes () hr
  rw [List.nil_append, List.append_nil] at hbytes
  refine ⟨w, res, hreply, ?_⟩
  unfold clientBytes at hasked ⊢
  rw [List.flatMap_append, hasked, hbytes, List.nil_append]

/-- **What the upgrade branch writes reads as its upstream's reply** exactly when the fields of the
reply fit its data without framing. -/
theorem forwardUpgrade_reread_iff (env : Env ω) (users : List (UserHandler ω))
    (hkeep : ∀ u ∈ users, u.Keeping) (ws : Option (WebSocketHandler ω)) (client : Source) (n : ℕ)
    (ctx : HttpContext) (host : Str) (req : Request) (x : World ω) {s : Source}
    (hserver : ∀ w, env.serverStream w = s) {res : Response}
    (hreply : upstreamReply env.unicode s n = .ok res)
    (hrun : (forwardUpgrade env (proxyHandler env.enabled users) ws client n ctx host req
      x).result = .ok ()) :
    ReadsAs env.unicode n (clientBytes (forwardUpgrade env (proxyHandler env.enabled users) ws
      client n ctx host req x).events) res ↔
        FitsPlainBody env.unicode res.headers res.body.fullBytes := by
  obtain ⟨w, res', hreply', hbytes⟩ :=
    forwardUpgrade_writes env hkeep ws client n ctx host req x hrun
  have hres : res' = res := by
    rw [hserver, hreply] at hreply'
    exact (Except.ok.inj hreply').symm
  rw [hbytes, hres]
  by_cases hn : n = 0
  · -- a reader without a buffer takes anything for the default
    subst hn
    have hdefault : ∀ s, upstreamReply env.unicode s 0 = .ok ⟨⟨200, by decide⟩, [], .full []⟩ := by
      intro s
      unfold upstreamReply
      rw [readFullResponse_zero]
      rfl
    rw [hdefault] at hreply
    rw [← Except.ok.inj hreply]
    refine ⟨fun _ => Or.inl rfl, fun _ s _ _ => ?_⟩
    exact ⟨_, hdefault s, rfl, fun _ => rfl, rfl⟩
  · have hparse : ∃ out, parseRawResponse out = .ok res := by
      unfold upstreamReply at hreply
      cases hread : (readFullResponse env.unicode s n).1 with
      | error e => rw [hread] at hreply; exact nomatch hreply
      | ok out => rw [hread] at hreply; exact ⟨out, hreply⟩
    obtain ⟨out, hout⟩ := hparse
    exact readsAs_iff env.http hn (parseRawResponse_isWire hout) (reply_bodyless hreply)

/-! ## A chunked refusal -/

/-- Refusals of an upgrade, with a body in one chunk and with a length. -/
def chunkedRefusal : Source := ⟨[⟨lit ("HTTP/1.1 404 Not Found\r\nTransfer-Encoding: chunked\r\n\r\n" ++
  "5\r\nhello\r\n0\r\n\r\n"), by decide⟩], none⟩

def lengthRefusal : Source :=
  ⟨[⟨lit "HTTP/1.1 404 Not Found\r\nContent-Length: 5\r\n\r\nhello", by decide⟩], none⟩

/-- The run of an upgrade, for a proxy without handlers. -/
def refusedUpgrade (server : Source) : Ran Event (World Unit) Fault Unit :=
  forwardUpgrade (upgradeEnv server) (proxyHandler (fun _ => true) []) none ⟨[], none⟩ 4096
    exampleContext "a.example".toList exampleGet ⟨(), 0⟩

/-- What the client gets of the first. -/
def relayedRefusal : Source :=
  ⟨[⟨lit "HTTP/1.1 404 Not Found\r\ntransfer-encoding: chunked\r\n\r\nhello", by decide⟩], none⟩

example : clientBytes (refusedUpgrade chunkedRefusal).events = relayedRefusal.bytes := by
  decide +kernel

/-- A refusal that came in chunks is written without them, and still said to be chunked. -/
theorem forwardUpgrade_reread_chunked :
    ¬ ∀ (env : Env Unit) (users : List (UserHandler Unit)) (ws : Option (WebSocketHandler Unit))
      (client : Source) (n : ℕ) (ctx : HttpContext) (host : Str) (req : Request) (x : World Unit)
      (s : Source) (res : Response), (∀ u ∈ users, u.Keeping) → (∀ w, env.serverStream w = s) →
      upstreamReply env.unicode s n = .ok res → res.status.1 ≠ 101 →
      (forwardUpgrade env (proxyHandler env.enabled users) ws client n ctx host req x).result =
        .ok () →
      ReadsAs env.unicode n (clientBytes
        (forwardUpgrade env (proxyHandler env.enabled users) ws client n ctx host req x).events)
        res := by
  intro hall
  obtain ⟨res, hres⟩ : ∃ res, upstreamReply Unicode.basic chunkedRefusal 4096 = .ok res := ⟨_, rfl⟩
  have hbody : (upstreamReply Unicode.basic chunkedRefusal 4096).toOption.map
      (fun r => (r.status.1, r.body.fullBytes)) = some (404, lit "hello") := by decide +kernel
  rw [hres] at hbody
  have hres' : (res.status.1, res.body.fullBytes) = (404, lit "hello") := Option.some.inj hbody
  rw [Prod.mk.injEq] at hres'
  have hstatus : res.status.1 ≠ 101 := by
    rw [hres'.1]
    decide
  have h := hall (upgradeEnv chunkedRefusal) [] none ⟨[], none⟩ 4096 exampleContext
    "a.example".toList exampleGet ⟨(), 0⟩ chunkedRefusal res (fun _ hu => absurd hu List.not_mem_nil)
    (fun _ => rfl) hres hstatus rfl
  have hbytes : relayedRefusal.bytes = clientBytes (refusedUpgrade chunkedRefusal).events := by
    decide +kernel
  obtain ⟨res', hreply, hsame⟩ := h relayedRefusal hbytes rfl
  have hagain : (upstreamReply Unicode.basic relayedRefusal 4096).toOption.map
      (fun r => r.body.fullBytes) = some [] := by decide +kernel
  have hreply' : upstreamReply Unicode.basic relayedRefusal 4096 = .ok res' := hreply
  rw [hreply'] at hagain
  have hnil : res'.body.fullBytes = [] := Option.some.inj hagain
  rw [hsame.body, hres'.2] at hnil
  exact absurd hnil (by decide)

theorem forwardUpgrade_reread_length :
    ∃ res, upstreamReply Unicode.basic lengthRefusal 4096 = .ok res ∧
      ReadsAs Unicode.basic 4096 (clientBytes (refusedUpgrade lengthRefusal).events) res := by
  obtain ⟨res, hres⟩ : ∃ res, upstreamReply Unicode.basic lengthRefusal 4096 = .ok res := ⟨_, rfl⟩
  refine ⟨res, hres, ?_⟩
  have hfits : (upstreamReply Unicode.basic lengthRefusal 4096).toOption.map
      (fun r => (declaresChunked Unicode.basic r.headers, declaredLength r.headers,
        r.body.fullBytes)) = some (false, some 5, lit "hello") := by decide +kernel
  rw [hres] at hfits
  have hfits' : (declaresChunked Unicode.basic res.headers, declaredLength res.headers,
      res.body.fullBytes) = (false, some 5, lit "hello") := Option.some.inj hfits
  simp only [Prod.mk.injEq] at hfits'
  obtain ⟨h1, h2, h3⟩ := hfits'
  apply (forwardUpgrade_reread_iff (upgradeEnv lengthRefusal) []
    (fun _ hu => absurd hu List.not_mem_nil) none ⟨[], none⟩ 4096 exampleContext "a.example".toList
    exampleGet ⟨(), 0⟩ (fun _ => rfl) hres rfl).2
  refine Or.inr ⟨h1, fun n hn => ?_⟩
  rw [h2] at hn
  rw [h3, ← Option.some.inj hn]
  decide

end HexbufferProxy
