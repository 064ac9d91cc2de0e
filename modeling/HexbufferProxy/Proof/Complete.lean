import HexbufferProxy.Proof.Read
import HexbufferProxy.Spec.Complete

/-!
# Is what the reader returns complete?

* `dechunkFrom_breaks`, `dechunkFrom_ends`: the chunk loop at the end of the stream.
* `readFullResponse_headless`, `readFullResponse_head`: the reader, by whether the stream has the
  end of a head.
* `readFullResponse_complete_iff`: what is returned is complete exactly when the stream does not
  end early; a stream that ends early is passed off as a response.
-/

namespace HexbufferProxy

open Rust Source

variable {U : Unicode} {n : ℕ} {s : Source} {w d : Bytes}

/-! ## Chunks -/

theorem frontSize_some {size : ℕ} (h : frontSize w = some size) :
    hasLf w = true ∧ fromStrRadix 16 usizeBound (chunkSizeText w) = some size := by
  unfold frontSize at h
  split at h
  · rename_i hl
    exact ⟨hl, h⟩
  · exact nomatch h

/-- Chunks do not both end and break off. -/
theorem Dechunks.not_break (h : Dechunks w d) : ¬ ChunksBreak w := by
  induction h with
  | last w hsize =>
    intro hb
    cases hb with
    | line _ hl => rw [(frontSize_some hsize).1] at hl; exact nomatch hl
    | data _ size hsize' hpos => rw [hsize] at hsize'; cases hsize'; exact absurd hpos (by decide)
    | later _ size hsize' hpos => rw [hsize] at hsize'; cases hsize'; exact absurd hpos (by decide)
  | chunk w size data hsize hpos hlen _ ih =>
    intro hb
    cases hb with
    | line _ hl => rw [(frontSize_some hsize).1] at hl; exact nomatch hl
    | data _ size' hsize' _ _ hlen' => rw [hsize] at hsize'; cases hsize'; omega
    | later _ size' hsize' _ _ _ hb' => rw [hsize] at hsize'; cases hsize'; exact ih hb'

/-- **At the end of the stream, chunks that break off pass for the body.** -/
theorem dechunkFrom_breaks : ∀ (k : ℕ) (body w : Bytes), w.length < k → ChunksBreak w →
    ∃ out, dechunkFrom none k body w = .ok out := by
  intro k
  induction k with
  | zero => intro body w hk; omega
  | succ k ih =>
    intro body w hk hb
    unfold dechunkFrom
    cases hb with
    | line _ hl => rw [hl]; exact ⟨body, rfl⟩
    | data _ size hsize hpos hfits hlen =>
      obtain ⟨hl, hs⟩ := frontSize_some hsize
      obtain ⟨c, rfl⟩ := Nat.exists_eq_succ_of_ne_zero hpos.ne'
      have hlen' : ¬ c.succ + 2 ≤ (w.drop (w.idxOf 10 + 1)).length := Nat.not_le.2 hlen
      rw [hl, if_pos rfl, hs]
      simp only
      rw [if_neg (Nat.not_le.2 hfits), if_neg hlen']
      exact ⟨body, rfl⟩
    | later _ size hsize hpos hfits hlen hb' =>
      obtain ⟨hl, hs⟩ := frontSize_some hsize
      obtain ⟨c, rfl⟩ := Nat.exists_eq_succ_of_ne_zero hpos.ne'
      have hlen' : c.succ + 2 ≤ (w.drop (w.idxOf 10 + 1)).length := hlen
      rw [hl, if_pos rfl, hs]
      simp only
      rw [if_neg (Nat.not_le.2 hfits), if_pos hlen']
      apply ih _ _ ?_ hb'
      unfold afterSizeLine
      simp only [List.length_drop] at hlen' ⊢
      omega

/-- **Otherwise the data of the chunks are the body.** -/
theorem dechunkFrom_ends : ∀ (k : ℕ) (body w out : Bytes), w.length < k → ¬ ChunksBreak w →
    dechunkFrom none k body w = .ok out → ∃ d, Dechunks w d ∧ out = body ++ d := by
  intro k
  induction k with
  | zero => intro body w out hk; omega
  | succ k ih =>
    intro body w out hk hb h
    unfold dechunkFrom at h
    by_cases hl : hasLf w = true
    · rw [hl, if_pos rfl] at h
      have hsize : frontSize w = fromStrRadix 16 usizeBound (chunkSizeText w) := by
        unfold frontSize
        rw [if_pos hl]
      cases hs : fromStrRadix 16 usizeBound (chunkSizeText w) with
      | none =>
        rw [hs] at h
        cases h
      | some size =>
        rw [hs] at hsize h
        cases size with
        | zero =>
          exact ⟨[], Dechunks.last w hsize, by rw [List.append_nil]; exact (Except.ok.inj h).symm⟩
        | succ c =>
          simp only at h
          by_cases hf : usizeBound ≤ c + 1 + 2
          · rw [if_pos hf] at h
            cases h
          rw [if_neg hf] at h
          -- a chunk that is there in full, or the response breaks off in its data
          by_cases hlen : c + 1 + 2 ≤ (w.drop (w.idxOf 10 + 1)).length
          · rw [if_pos hlen] at h
            have hb' : ¬ ChunksBreak ((afterSizeLine w).drop (c + 1 + 2)) := fun hb' =>
              hb (ChunksBreak.later w (c + 1) hsize (Nat.succ_pos c) (Nat.not_le.1 hf) hlen hb')
            have hk' : ((afterSizeLine w).drop (c + 1 + 2)).length < k := by
              unfold afterSizeLine
              simp only [List.length_drop] at hlen ⊢
              omega
            obtain ⟨d, hd, rfl⟩ := ih _ _ _ hk' hb' h
            refine ⟨(afterSizeLine w).take (c + 1) ++ d,
              Dechunks.chunk w (c + 1) d hsize (Nat.succ_pos c) hlen hd, ?_⟩
            rw [List.append_assoc]
            rfl
          · exact absurd (ChunksBreak.data w (c + 1) hsize (Nat.succ_pos c) (Nat.not_le.1 hf)
              (Nat.not_le.1 hlen)) hb
    · exact absurd (ChunksBreak.line w (by simpa using hl)) hb

/-! ## The body -/

/-- A body is not both complete and broken off. -/
theorem FramedBody.not_break {headers : Str} {tail body : Bytes}
    (h : FramedBody U headers tail body) : ¬ BodyBreaks U headers tail := by
  rintro ⟨hs, hb⟩
  cases h with
  | bodyless hs' => rw [hs] at hs'; exact nomatch hs'
  | chunked _ _ hc h => rw [if_pos hc] at hb; exact h.not_break hb
  | length len _ hc hl hle =>
    rw [if_neg (by rw [hc]; decide)] at hb
    obtain ⟨len', hl', hlt⟩ := hb
    have heq : len = len' := Option.some.inj (hl.symm.trans hl')
    omega
  | close h =>
    unfold hasNoFraming at h
    simp only [Bool.and_eq_true, Bool.not_eq_true', Option.isNone_iff_eq_none] at h
    rw [h.1.2, if_neg Bool.false_ne_true] at hb
    obtain ⟨len', hl', -⟩ := hb
    rw [h.2] at hl'
    exact nomatch hl'

theorem wholeBody_breaks {headers : Str} {tail : Bytes} (h : BodyBreaks U headers tail) :
    ∃ out, wholeBody U none headers tail = .ok out := by
  obtain ⟨hs, hb⟩ := h
  unfold wholeBody
  rw [if_neg (by rw [hs]; decide)]
  by_cases hc : isChunked U headers = true
  · rw [if_pos hc] at hb ⊢
    exact dechunkFrom_breaks _ _ _ (Nat.lt_succ_self _) hb
  · rw [if_neg hc] at hb ⊢
    obtain ⟨len, hl, hlt⟩ := hb
    rw [hl]
    simp only
    rw [if_neg (Nat.not_le.2 hlt)]
    exact ⟨tail, rfl⟩

theorem wholeBody_ends {headers : Str} {tail out : Bytes} (h : ¬ BodyBreaks U headers tail)
    (hw : wholeBody U none headers tail = .ok out) : FramedBody U headers tail out := by
  unfold wholeBody at hw
  by_cases hs : isNoBodyStatus headers = true
  · rw [if_pos hs] at hw
    rw [← Except.ok.inj hw]
    exact FramedBody.bodyless tail hs
  have hs' : isNoBodyStatus headers = false := by simpa using hs
  rw [if_neg hs] at hw
  by_cases hc : isChunked U headers = true
  · rw [if_pos hc] at hw
    have hb : ¬ ChunksBreak tail := fun hb => h ⟨hs', by rw [if_pos hc]; exact hb⟩
    obtain ⟨d, hd, rfl⟩ := dechunkFrom_ends _ _ _ _ (Nat.lt_succ_self _) hb hw
    exact FramedBody.chunked tail _ hs' hc hd
  have hc' : isChunked U headers = false := by simpa using hc
  rw [if_neg hc] at hw
  cases hl : getContentLength U headers with
  | none =>
    rw [hl] at hw
    have hno : hasNoFraming U headers = true := by
      unfold hasNoFraming
      rw [hs', hc', hl]
      rfl
    rw [← Except.ok.inj hw]
    exact FramedBody.close tail hno
  | some len =>
    rw [hl] at hw
    simp only at hw
    by_cases hle : len ≤ tail.length
    · rw [if_pos hle] at hw
      rw [← Except.ok.inj hw]
      exact FramedBody.length tail len hs' hc' hl hle
    · exact absurd ⟨hs', by rw [if_neg hc]; exact ⟨len, hl, Nat.not_le.1 hle⟩⟩ h

/-! ## The reader -/

/-- A reader without a buffer returns nothing, at once. -/
theorem readFullResponse_zero (s : Source) : (readFullResponse U s 0).1 = .ok [] := by
  have hfill : s.fill hasHeadEnd 0 [] = (.ok (.eof []), s) := rfl
  have hread : readHttpBody U s (fromUtf8Lossy []) [] 0 = (.ok [], s) := by
    have h1 : isNoBodyStatus (fromUtf8Lossy []) = false := rfl
    have h2 : (isRequest (fromUtf8Lossy []) && !isChunked U (fromUtf8Lossy []) &&
        (getContentLength U (fromUtf8Lossy [])).isNone) = true := rfl
    unfold readHttpBody
    rw [h1, if_neg Bool.false_ne_true, if_pos h2]
  unfold readFullResponse
  rw [hfill]
  have hempty : readHttpBody U s (fromUtf8Lossy (List.take (headerEnd []) []))
      (List.drop (headerEnd []) []) 0 = (.ok [], s) := hread
  simp only [Filled.buf, hempty]
  rfl

/-- A head that passes for a request's is returned with what has been read behind it. -/
theorem readHttpBody_request {headers : Str} (hreq : isRequest headers = true)
    (hno : hasNoFraming U headers = true) (s : Source) (initial : Bytes) :
    (readHttpBody U s headers initial n).1 = .ok initial := by
  unfold hasNoFraming at hno
  simp only [Bool.and_eq_true, Bool.not_eq_true'] at hno
  have h2 : (isRequest headers && !isChunked U headers &&
      (getContentLength U headers).isNone) = true := by
    rw [hreq, hno.1.2, hno.2]
    rfl
  unfold readHttpBody
  rw [hno.1.1, if_neg Bool.false_ne_true, if_pos h2]

/-- Any other head is returned with the body that its framing cuts out of the stream. -/
theorem readFullResponse_framed (hn : n ≠ 0) (hf : s.failure = none) {i : ℕ}
    (hi : position crlfcrlf s.bytes = some i)
    (h : isRequest (fromUtf8Lossy (s.bytes.take (i + 4))) = true →
      hasNoFraming U (fromUtf8Lossy (s.bytes.take (i + 4))) = false) :
    (readFullResponse U s n).1 = (wholeBody U none (fromUtf8Lossy (s.bytes.take (i + 4)))
      (s.bytes.drop (i + 4))).map (s.bytes.take (i + 4) ++ ·) := by
  obtain ⟨got, s', hreads, hgot, -, hread⟩ := readFullResponse_head (U := U) hn hi
  obtain ⟨hbytes, hf'⟩ := reads_bytes hreads
  have hdrop : s.bytes.drop (i + 4) = got.drop (i + 4) ++ s'.bytes := by
    rw [hbytes, List.drop_append_of_le_length (position_read hgot)]
  have hreq : isNoBodyStatus (fromUtf8Lossy (s.bytes.take (i + 4))) = false →
      (isRequest (fromUtf8Lossy (s.bytes.take (i + 4))) &&
        !isChunked U (fromUtf8Lossy (s.bytes.take (i + 4))) &&
        (getContentLength U (fromUtf8Lossy (s.bytes.take (i + 4)))).isNone) = false := by
    intro hs
    cases hr : isRequest (fromUtf8Lossy (s.bytes.take (i + 4))) with
    | false => rfl
    | true =>
      have hno := h hr
      unfold hasNoFraming at hno
      rw [hs] at hno
      exact hno
  rw [hread, readHttpBody_whole hn hreq, hf', hf, ← hdrop]

/-- **What `read_full_response` returns of a stream that reaches EOF is complete** exactly when the
stream does not end early. -/
theorem readFullResponse_complete_iff (U : Unicode) (n : ℕ) (s : Source) (hf : s.failure = none) :
    (∀ out, (readFullResponse U s n).1 = .ok out → Complete U s.bytes out) ↔
      EndsLate U n s := by
  constructor
  · intro hall
    have hn : n ≠ 0 := by
      rintro rfl
      obtain ⟨i, body, hi, -, hout⟩ := hall [] (readFullResponse_zero s)
      have hlen := position_read hi
      have h0 := congrArg List.length hout
      rw [List.length_append, List.length_take, List.length_nil] at h0
      omega
    refine ⟨hn, ?_, ?_, ?_⟩
    · cases hi : position crlfcrlf s.bytes with
      | some i => exact ⟨i, rfl⟩
      | none =>
        have hread := readFullResponse_headless (U := U) hn hi
        rw [hf] at hread
        obtain ⟨i, -, hi', -⟩ := hall _ hread
        rw [hi] at hi'
        exact nomatch hi'
    · intro i hi hb
      have hno : hasNoFraming U (fromUtf8Lossy (s.bytes.take (i + 4))) = false := by
        by_contra hno
        exact (FramedBody.close (s.bytes.drop (i + 4)) (by simpa using hno)).not_break hb
      obtain ⟨out, hout⟩ := wholeBody_breaks hb
      have hread := readFullResponse_framed hn hf hi fun _ => hno
      rw [hout] at hread
      obtain ⟨j, body, hj, hbody, -⟩ := hall _ hread
      have hij : i = j := Option.some.inj (hi.symm.trans hj)
      subst hij
      exact hbody.not_break hb
    · intro i hi hreq hno pre post s' hpre hsplit hne
      obtain ⟨got, s₂, hreads, hgot, hfirst, hread⟩ := readFullResponse_head (U := U) hn hi
      have hbytes := (reads_bytes hreads).1
      rw [readHttpBody_request hreq hno] at hread
      obtain ⟨j, body, hj, hbody, hout⟩ := hall _ hread
      have hij : i = j := Option.some.inj (hi.symm.trans hj)
      subst hij
      have htail : body = s.bytes.drop (i + 4) := by
        unfold hasNoFraming at hno
        simp only [Bool.and_eq_true, Bool.not_eq_true', Option.isNone_iff_eq_none] at hno
        cases hbody with
        | bodyless hs => rw [hno.1.1] at hs; exact nomatch hs
        | chunked _ _ hc _ => rw [hno.1.2] at hc; exact nomatch hc
        | length len _ _ hl _ => rw [hno.2] at hl; exact nomatch hl
        | close _ => rfl
      -- so the first reads have taken everything
      have hall' : got = s.bytes := by
        have heq : got.drop (i + 4) = s.bytes.drop (i + 4) := by
          rw [← htail]
          exact List.append_cancel_left hout
        have htake : got.take (i + 4) = s.bytes.take (i + 4) := by
          rw [hbytes, List.take_append_of_le_length (position_read hgot)]
        rw [← List.take_append_drop (i + 4) got, heq, htake, List.take_append_drop]
      exact hfirst pre post s' hpre hne (hall'.trans hsplit)
  · rintro ⟨hn, ⟨i, hi⟩, hbody, hrequest⟩ out hout
    have hb := hbody i hi
    by_cases hr : isRequest (fromUtf8Lossy (s.bytes.take (i + 4))) = true ∧
        hasNoFraming U (fromUtf8Lossy (s.bytes.take (i + 4))) = true
    · obtain ⟨hreq, hno⟩ := hr
      obtain ⟨got, s', hreads, hgot, -, hread⟩ := readFullResponse_head (U := U) hn hi
      have hbytes := (reads_bytes hreads).1
      have hend : s'.bytes = [] := by
        by_contra hne
        have hfalse := hrequest i hi hreq hno got s'.bytes s' hreads hbytes hne
        unfold hasHeadEnd at hfalse
        rw [hgot] at hfalse
        exact nomatch hfalse
      rw [readHttpBody_request hreq hno, hout] at hread
      refine ⟨i, _, hi, FramedBody.close _ hno, ?_⟩
      rw [hend, List.append_nil] at hbytes
      rw [Except.ok.inj hread, hbytes]
    · have hread := readFullResponse_framed (U := U) hn hf hi fun hreq => by
        by_contra hno
        exact hr ⟨hreq, by simpa using hno⟩
      rw [hout] at hread
      cases hw : wholeBody U none (fromUtf8Lossy (s.bytes.take (i + 4)))
        (s.bytes.drop (i + 4)) with
      | error e => rw [hw] at hread; exact nomatch hread
      | ok body =>
        rw [hw] at hread
        exact ⟨i, body, hi, wholeBody_ends hb hw, Except.ok.inj hread⟩

/-! ## A chunk that breaks off -/

def exampleHead (field : String) : Bytes := lit "HTTP/1.1 200 OK\r\n" ++ lit field ++ crlfcrlf

/-- An upstream that closes in the middle of a chunk. -/
def cutChunk : Source :=
  ⟨[⟨exampleHead "Transfer-Encoding: chunked" ++ lit "5\r\nhel", by decide⟩], none⟩

/-- An upstream that sends what it has announced, in two segments. -/
def wholeLength : Source :=
  ⟨[⟨exampleHead "Content-Length: 5" ++ lit "he", by decide⟩, ⟨lit "llo", by decide⟩], none⟩

theorem ok_of_toOption {r : Except Fault Bytes} {out : Bytes} (h : r.toOption = some out) :
    r = .ok out := by
  cases r with
  | error e => exact nomatch h
  | ok got => exact congrArg Except.ok (Option.some.inj h)

theorem cutChunk_breaks : BodyBreaks Unicode.basic
    (fromUtf8Lossy (exampleHead "Transfer-Encoding: chunked")) (lit "5\r\nhel") := by
  refine ⟨by decide +kernel, ?_⟩
  rw [if_pos (by decide +kernel)]
  exact ChunksBreak.data _ 5 (by decide +kernel) (by decide) (by decide) (by decide +kernel)

/-- A response that breaks off in a chunk is returned without it. -/
theorem readFullResponse_cut_chunk :
    ¬ ∀ (U : Unicode) (n : ℕ) (s : Source), s.failure = none →
      ∀ out, (readFullResponse U s n).1 = .ok out → Complete U s.bytes out := by
  intro hall
  have hok : (readFullResponse Unicode.basic cutChunk 4096).1 =
      .ok (exampleHead "Transfer-Encoding: chunked") := ok_of_toOption (by decide +kernel)
  obtain ⟨i, body, hi, hbody, -⟩ := hall Unicode.basic 4096 cutChunk rfl _ hok
  have hpos : position crlfcrlf cutChunk.bytes = some 43 := by decide +kernel
  have hi43 : i = 43 := Option.some.inj (hi.symm.trans hpos)
  subst hi43
  exact hbody.not_break cutChunk_breaks

theorem readFullResponse_complete_length :
    (readFullResponse Unicode.basic wholeLength 4096).1 = .ok wholeLength.bytes ∧
      Complete Unicode.basic wholeLength.bytes wholeLength.bytes := by
  have hpos : position crlfcrlf wholeLength.bytes = some 34 := by decide +kernel
  have hok : (readFullResponse Unicode.basic wholeLength 4096).1 = .ok wholeLength.bytes :=
    ok_of_toOption (by decide +kernel)
  refine ⟨hok, (readFullResponse_complete_iff Unicode.basic 4096 wholeLength rfl).2 ?_ _ hok⟩
  refine ⟨by decide, ⟨34, hpos⟩, ?_, ?_⟩
  · intro i hi
    have hi34 : i = 34 := Option.some.inj (hi.symm.trans hpos)
    subst hi34
    exact (FramedBody.length _ 5 (by decide +kernel) (by decide +kernel) (by decide +kernel)
      (by decide +kernel)).not_break
  · intro i hi hreq
    have hi34 : i = 34 := Option.some.inj (hi.symm.trans hpos)
    subst hi34
    exact absurd hreq (by decide +kernel)

end HexbufferProxy
