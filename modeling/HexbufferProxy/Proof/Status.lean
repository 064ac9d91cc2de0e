import HexbufferProxy.Proof.Complete
import HexbufferProxy.Proof.Parse
import HexbufferProxy.Proof.Flow
import HexbufferProxy.Proof.Forward
import HexbufferProxy.Spec.Status

/-!
# Where a status comes from

* `parse_status`: a complete status line decides.
* `reply_starts`: the reader keeps it.
* `forwardUpgrade_status_iff`: so the status is the upstream's whenever the upstream has sent one;
  it is invented whenever the upstream has not. Where there is no reply, nothing is sent.
-/

namespace HexbufferProxy

open Rust Rust.Proc Rust.Source

variable {ω : Type} {U : Unicode} {n : ℕ} {s : Source} {w : Bytes}

namespace StatusLine

variable (l : StatusLine)

theorem version_word : ∀ c ∈ "HTTP/".toList ++ l.version, c.toNat < 128 ∧
    isWhitespace c = false := by
  intro c hc
  rcases List.mem_append.1 hc with hc | hc
  · have key : ∀ c ∈ "HTTP/".toList, c.toNat < 128 ∧ isWhitespace c = false := by decide
    exact key c hc
  · obtain ⟨h1, h2⟩ := l.version_text c hc
    refine ⟨by omega, ?_⟩
    unfold isWhitespace
    simp only [Bool.or_eq_false_iff, Bool.and_eq_false_iff, decide_eq_false_iff_not,
      beq_eq_false_iff_ne]
    omega

theorem code_ne : l.code ≠ [] := by
  intro h
  have hlen := l.code_length
  rw [h] at hlen
  exact absurd hlen (by decide)

/-- The line as text. -/
def text : Str := "HTTP/".toList ++ l.version ++ ' ' :: l.code.text ++ fromUtf8Lossy l.reason

theorem text_no_lf : '\n' ∉ l.text := by
  unfold text
  simp only [List.mem_append, List.mem_cons, not_or]
  refine ⟨⟨?_, by decide, ?_⟩, ?_⟩
  · have h := l.version_word
    constructor
    · decide
    · intro hm
      exact absurd (h _ (List.mem_append_right _ hm)).2 (by decide)
  · intro hm
    exact absurd (text_ten _ hm).2.1 (by decide)
  · intro hm
    obtain ⟨x, hx, he⟩ := mem_lossy_ascii hm (by decide) (by decide)
    exact (l.reason_line x hx).2 (UInt8.toNat_inj.1 he)

theorem lines_bytes (r : Bytes) :
    lines (fromUtf8Lossy (l.bytes ++ 13 :: 10 :: r)) = l.text :: lines (fromUtf8Lossy r) := by
  have hlossy : fromUtf8Lossy (l.bytes ++ 13 :: 10 :: r) =
      l.text ++ '\r' :: '\n' :: fromUtf8Lossy r := by
    unfold bytes text
    rw [List.append_assoc, lossy_encode, lossy_append_ascii (by decide),
      lossy_cons_ascii (by decide), lossy_cons_ascii (by decide)]
    simp only [List.append_assoc]
    rfl
  rw [hlossy]
  exact lines_crlf l.text_no_lf _

/-- The second word of the line is its code. -/
theorem words_text : (splitWhitespace l.text)[1]? = some l.code.text := by
  have hv : ∀ c ∈ "HTTP/".toList ++ l.version, isWhitespace c = false :=
    fun c hc => (l.version_word c hc).2
  have hc : ∀ c ∈ l.code.text, isWhitespace c = false := fun c hc => (text_ten c hc).2.1
  unfold text
  rw [List.append_assoc, List.cons_append, splitWhitespace_cons hv (by simp) (by decide)]
  rcases l.reason_space with hr | hr
  · rw [hr, fromUtf8Lossy_nil, List.append_nil, splitWhitespace_last hc (text_ne l.code_ne)]
    rfl
  · obtain ⟨r, hr⟩ : ∃ r, l.reason = 32 :: r := by
      cases hl : l.reason with
      | nil => rw [hl] at hr; exact nomatch hr
      | cons b r => rw [hl] at hr; exact ⟨r, by rw [Option.some.inj hr]⟩
    rw [hr, lossy_cons_ascii (by decide)]
    show (_ :: splitWhitespace (l.code.text ++ ' ' :: fromUtf8Lossy r))[1]? = _
    rw [splitWhitespace_cons hc (text_ne l.code_ne) (by decide)]
    rfl

theorem bytes_no_cr : (13 : UInt8) ∉ l.bytes := by
  unfold bytes
  simp only [List.mem_append, not_or]
  refine ⟨?_, fun h => (l.reason_line 13 h).1 rfl⟩
  intro h
  have hm : '\r' ∈ "HTTP/".toList ++ l.version ++ ' ' :: l.code.text :=
    mem_of_encode (by decide) h
  rcases List.mem_append.1 hm with hm | hm
  · exact absurd (l.version_word _ hm).2 (by decide)
  · rcases List.mem_cons.1 hm with hm | hm
    · exact absurd hm (by decide)
    · exact absurd (text_ten _ hm).2.1 (by decide)

end StatusLine

/-- **A complete status line decides the status.** -/
theorem parse_status {out : Bytes} {res : Response} (l : StatusLine)
    (hl : l.bytes ++ [13, 10] <+: out) (h : parseRawResponse out = .ok res) :
    res.status.1 = l.code.value := by
  obtain ⟨r, rfl⟩ := hl
  have hlines : lines (fromUtf8Lossy (l.bytes ++ [13, 10] ++ r)) =
      l.text :: lines (fromUtf8Lossy r) := by
    rw [List.append_assoc]
    exact l.lines_bytes r
  have hcode : fromStrRadix 10 65536 l.code.text =
      if l.code.value < 65536 then some l.code.value else none :=
    fromStrRadix_text l.code_ne (fun p _ => toDigit_ten p.1 p.2)
      fun c hc => (text_ten c hc).2.2.1
  unfold parseRawResponse at h
  simp only [hlines, List.head?_cons, Option.getD_some, l.words_text] at h
  rw [hcode] at h
  by_cases hlt : l.code.value < 65536
  · rw [if_pos hlt] at h
    simp only at h
    split at h
    · rename_i st _ hst _
      unfold StatusCode.parse at hst
      split at hst
      · rw [← Except.ok.inj h, ← Option.some.inj hst]
      · exact nomatch hst
    · exact nomatch h
  · rw [if_neg hlt] at h
    exact nomatch h

/-- **The reader keeps a complete status line.** -/
theorem reply_starts (hn : n ≠ 0) {out : Bytes} (l : StatusLine)
    (hl : l.bytes ++ [13, 10] <+: s.bytes) (h : (readFullResponse U s n).1 = .ok out) :
    l.bytes ++ [13, 10] <+: out := by
  cases hi : position crlfcrlf s.bytes with
  | none =>
    rw [readFullResponse_headless hn hi] at h
    have hout : s.bytes = out := by
      unfold atEnd at h
      split at h
      · exact Except.ok.inj h
      · exact nomatch h
    rwa [← hout]
  | some i =>
    obtain ⟨got, s', -, -, -, hread⟩ := readFullResponse_head (U := U) hn hi
    rw [h] at hread
    -- the empty line comes behind the status line
    have hle : (l.bytes ++ [13, 10]).length ≤ i + 4 := by
      obtain ⟨r, hr⟩ := hl
      have hp := position_skip l.bytes_no_cr ([13, 10] ++ r)
      rw [← List.append_assoc, hr, hi] at hp
      obtain ⟨j, -, hj⟩ := Option.map_eq_some_iff.1 hp.symm
      rw [List.length_append, List.length_cons, List.length_singleton]
      omega
    have htake : l.bytes ++ [13, 10] <+: s.bytes.take (i + 4) :=
      List.prefix_take_iff.2 ⟨hl, hle⟩
    cases hb : (readHttpBody U s' (fromUtf8Lossy (s.bytes.take (i + 4))) (got.drop (i + 4)) n).1 with
    | error e => rw [hb] at hread; exact nomatch hread
    | ok body =>
      rw [hb] at hread
      rw [Except.ok.inj hread]
      exact htake.trans (List.prefix_append _ _)

/-- **The status is the upstream's** exactly when the upstream has sent a complete status line. -/
theorem reply_status_iff {res : Response} (h : upstreamReply U s n = .ok res) :
    BeginsWithStatus s.bytes res.status.1 ↔
      ∃ code, BeginsWithStatus s.bytes code ∧ (n = 0 → code = 200) := by
  unfold upstreamReply at h
  cases hread : (readFullResponse U s n).1 with
  | error e => rw [hread] at h; exact nomatch h
  | ok out =>
    rw [hread] at h
    have hparse : parseRawResponse out = .ok res := h
    have hzero : n = 0 → res.status.1 = 200 := by
      rintro rfl
      rw [readFullResponse_zero] at hread
      rw [← Except.ok.inj hread] at hparse
      have hdefault : parseRawResponse [] = .ok ⟨⟨200, by decide⟩, [], .full []⟩ := rfl
      rw [hdefault] at hparse
      rw [← Except.ok.inj hparse]
    constructor
    · exact fun hb => ⟨_, hb, hzero⟩
    · rintro ⟨code, ⟨l, hl, rfl⟩, h200⟩
      by_cases hn : n = 0
      · rw [hzero hn, ← h200 hn]
        exact ⟨l, hl, rfl⟩
      · exact ⟨l, hl, (parse_status l (reply_starts hn l hl hread) hparse).symm⟩

/-! ## The upgrade branch -/

/-- Bytes for the client, and a response for the first handler, need a reply; it is what this handler
is shown. -/
def NeedsReply (env : Env ω) (n : ℕ) (e : Event) : Prop :=
  (e.written ≠ [] ∨ ∃ c r, e = .response 0 c r) →
    ∃ w res, upstreamReply env.unicode (env.serverStream w) n = .ok res ∧
      ∀ c r, e = .response 0 c r → r = res

theorem needsReply_quiet (env : Env ω) (n : ℕ) {e : Event} (hw : e.written = [])
    (hne : ∀ c r, e ≠ .response 0 c r) : NeedsReply env n e := by
  rintro (h | ⟨c, r, h⟩)
  · exact absurd hw h
  · exact absurd h (hne c r)

theorem needsReply_reply {env : Env ω} {w : ω} {res : Response}
    (h : upstreamReply env.unicode (env.serverStream w) n = .ok res) {e : Event}
    (he : ∀ c r, e = .response 0 c r → r = res) : NeedsReply env n e :=
  fun _ => ⟨w, res, h, he⟩

/-- **The upgrade branch and its upstream's reply.** -/
theorem ensures_reply (env : Env ω) (users : List (UserHandler ω))
    (ws : Option (WebSocketHandler ω)) (client : Source) (n : ℕ) (ctx : HttpContext) (host : Str)
    (req : Request) :
    Ensures Event.isContact 1
      (forwardUpgrade env (proxyHandler env.enabled users) ws client n ctx host req)
      (fun _ => True) (NeedsReply env n) := by
  have hconnect : NeedsReply env n (.connect (upgradeTarget host)) :=
    needsReply_quiet env n rfl fun _ _ h => nomatch h
  have hserver : NeedsReply env n (.toServer (serializeRequest req)) :=
    needsReply_quiet env n rfl fun _ _ h => nomatch h
  unfold forwardUpgrade
  apply ensures_bind_last (ensures_write hconnect (Or.inr Nat.one_pos))
  intro _ _
  apply ensures_bind (ensures_write hserver (Or.inl rfl))
  intro _ _
  apply ensures_bind (ensures_external (R := fun s => ∃ w, s = env.serverStream w)
    fun w => ⟨w, rfl⟩)
  -- from here on there is a reply, or the branch fails
  rintro _ ⟨w, rfl⟩
  apply ensures_bind (ensures_lift fun _ h => h)
  intro out hout
  apply ensures_bind (ensures_lift fun _ h => h)
  intro res hres
  have hout' : (readFullResponse env.unicode (env.serverStream w) n).1 = .ok out := hout
  have hreply : upstreamReply env.unicode (env.serverStream w) n = .ok res := by
    unfold upstreamReply
    rw [hout']
    exact hres
  have hcalls : Ensures Event.isContact 0
      ((proxyHandler env.enabled users).handleResponse ctx res) (fun _ => True)
      (NeedsReply env n) := by
    rw [proxyHandler_response]
    intro s
    obtain ⟨h0, -, h2⟩ := stack_responseCalls users 0 ctx res s
    refine ⟨h0, ?_, h2⟩
    intro e he
    obtain ⟨r, -, hc⟩ := stack_responses users 0 ctx res s
    obtain ⟨j, ctx', res', rfl, -, hj⟩ := hc.mem e he
    apply needsReply_reply hreply
    intro c r h
    simp only [Event.response.injEq] at h
    rw [← h.2.2, hj h.1]
  apply ensures_bind (ensures_responseOrFail hcalls)
  rintro ⟨modified, ctx'⟩ -
  have hclient : NeedsReply env n (.toClient (serializeResponse env.http modified)) :=
    needsReply_reply hreply fun _ _ h => nomatch h
  have hshutdown : NeedsReply env n .shutdownClient :=
    needsReply_quiet env n rfl fun _ _ h => nomatch h
  apply ensures_bind (ensures_write hclient (Or.inl rfl))
  intro _ _
  split
  · exact ensures_emit (needsReply_quiet env n rfl fun _ _ h => nomatch h) (Or.inl rfl)
  · exact ensures_write hshutdown (Or.inl rfl)

/-- **The upgrade branch shows its handlers the upstream's own status exactly when the upstream has
sent a complete status line** (and, with no buffer, when the code happens to be 200); if there is no
reply, the client is sent nothing. -/
theorem forwardUpgrade_status_iff (env : Env ω) (users : List (UserHandler ω))
    (ws : Option (WebSocketHandler ω)) (client : Source) (n : ℕ) (ctx : HttpContext) (host : Str)
    (req : Request) (x : World ω) :
    (∀ s res, upstreamReply env.unicode s n = .ok res →
      (BeginsWithStatus s.bytes res.status.1 ↔
        ∃ code, BeginsWithStatus s.bytes code ∧ (n = 0 → code = 200))) ∧
    (∀ c r, Event.response 0 c r ∈
      (forwardUpgrade env (proxyHandler env.enabled users) ws client n ctx host req x).events →
      ∃ w, upstreamReply env.unicode (env.serverStream w) n = .ok r) ∧
    ((∀ w, ∃ e, upstreamReply env.unicode (env.serverStream w) n = .error e) →
      clientBytes (forwardUpgrade env (proxyHandler env.enabled users) ws client n ctx host req
        x).events = []) := by
  obtain ⟨-, hevents, -⟩ := ensures_reply env users ws client n ctx host req x
  refine ⟨fun s res h => reply_status_iff h, ?_, ?_⟩
  · intro c r hm
    obtain ⟨w, res, hw, hr⟩ := hevents _ hm (Or.inr ⟨c, r, rfl⟩)
    exact ⟨w, by rw [hw, hr c r rfl]⟩
  · intro hnone
    unfold clientBytes
    rw [List.flatMap_eq_nil_iff]
    intro e he
    by_contra hne
    obtain ⟨w, res, hw, -⟩ := hevents e he (Or.inl hne)
    obtain ⟨f, hf⟩ := hnone w
    rw [hw] at hf
    exact nomatch hf

/-! ## An upstream that says nothing -/

/-- An upstream that closes at once, and one that has no such page. -/
def silentServer : Source := ⟨[], none⟩

def notFoundServer : Source := ⟨[⟨lit "HTTP/1.1 404 Not Found\r\n\r\n", by decide⟩], none⟩

def notFoundLine : StatusLine where
  version := "1.1".toList
  code := [(4, false), (0, false), (4, false)]
  reason := lit " Not Found"
  version_text := chunkedHead.version_text
  code_length := rfl
  reason_line := by decide
  reason_space := Or.inr rfl

/-- What the client gets of an upgrade, for a proxy without handlers. -/
def upgradeReply (server : Source) (n : ℕ) : Bytes :=
  clientBytes (forwardUpgrade (Env.basic (fun _ => true) server badGateway [])
    (proxyHandler (fun _ => true) []) none ⟨[], none⟩ n exampleContext "a.example".toList exampleGet
    (⟨(), 0⟩ : World Unit)).events

example : upgradeReply silentServer 4096 = lit "HTTP/1.1 200 OK\r\n\r\n" := by decide +kernel

/-- An upstream that says nothing is taken for one that says 200. -/
theorem forwardUpgrade_invents_status :
    ¬ ∀ (U : Unicode) (s : Source) (n : ℕ) (res : Response), upstreamReply U s n = .ok res →
      BeginsWithStatus s.bytes res.status.1 := by
  intro hall
  have hreply : upstreamReply Unicode.basic silentServer 4096 =
      .ok ⟨⟨200, by decide⟩, [], .full []⟩ := by rfl
  obtain ⟨l, hl, -⟩ := hall _ _ _ _ hreply
  have hnil := List.prefix_nil.1 hl
  exact absurd (List.append_eq_nil_iff.1 hnil).2 (by decide)

theorem forwardUpgrade_status_found :
    ∃ res, upstreamReply Unicode.basic notFoundServer 4096 = .ok res ∧
      BeginsWithStatus notFoundServer.bytes res.status.1 := by
  have hreply : ∃ res, upstreamReply Unicode.basic notFoundServer 4096 = .ok res := ⟨_, rfl⟩
  obtain ⟨res, hres⟩ := hreply
  refine ⟨res, hres, ?_⟩
  apply ((forwardUpgrade_status_iff (Env.basic (fun _ => true) notFoundServer badGateway [])
    [] none ⟨[], none⟩ 4096 exampleContext "a.example".toList exampleGet
    (⟨(), 0⟩ : World Unit)).1 notFoundServer res hres).2
  exact ⟨404, ⟨notFoundLine, by decide +kernel, by decide⟩, fun h => absurd h (by decide)⟩

end HexbufferProxy
