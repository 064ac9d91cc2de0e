import HexbufferProxy.Spec.Framing

/-!
# The reader does not see the segments

`readFullResponse_whole`: for every byte stream that starts with `HTTP/`, every buffer size of
at least one and every cut into segments, `read_full_response` returns the response the
bytes stand for. The induction is on the rounds of the chunk loop; what carries it is that
the buffer followed by the bytes still to come is the rest of the stream.
-/

namespace HexbufferProxy

open Rust Source

variable {U : Unicode} {n : ℕ} {s : Source} {buf more w : Bytes}

theorem stable_hasLf : Stable hasLf := by
  intro a b h
  unfold hasLf at h ⊢
  rw [List.contains_iff_mem] at h ⊢
  exact List.mem_append_left b h

theorem stable_hasHeadEnd : Stable hasHeadEnd := by
  intro a b h
  unfold hasHeadEnd at h ⊢
  obtain ⟨i, hi⟩ := Option.isSome_iff_exists.1 h
  rw [position_append hi]; rfl

theorem stable_length (k : ℕ) : Stable fun b => decide (k ≤ b.length) := by
  intro a b h
  simp only [decide_eq_true_eq, List.length_append] at h ⊢; omega

theorem stable_false : Stable fun _ => false := fun _ _ h => h

/-- The first LF stays where it is when more bytes arrive. -/
theorem idxOf_lf_append (h : hasLf buf = true) (more : Bytes) :
    (buf ++ more).idxOf 10 = buf.idxOf 10 ∧ buf.idxOf 10 < buf.length := by
  unfold hasLf at h
  rw [List.contains_iff_mem] at h
  exact ⟨List.idxOf_append_of_mem h, List.idxOf_lt_length_iff.2 h⟩

theorem chunkSizeText_append (h : hasLf buf = true) (more : Bytes) :
    chunkSizeText (buf ++ more) = chunkSizeText buf := by
  obtain ⟨he, hlt⟩ := idxOf_lf_append h more
  unfold chunkSizeText
  rw [he, List.take_append_of_le_length hlt.le]

/-- **The chunk loop does not see the segments.** -/
theorem readChunks_whole (hn : n ≠ 0) : ∀ (k : ℕ) (body buf : Bytes) (s : Source),
    (readChunks n k body buf s).1 = dechunkFrom s.failure k body (buf ++ s.bytes) := by
  intro k
  induction k with
  | zero => intro body buf s; rfl
  | succ k ih =>
    intro body buf s
    unfold readChunks dechunkFrom
    rcases fill_cases hn stable_hasLf buf s with
      ⟨hl, got, s', h1, h2, h3, h4⟩ | ⟨hl, hf, s', h1, -⟩ | ⟨hl, e, s', hf, h1⟩
    · -- a size line is there
      have hw : buf ++ s.bytes = (buf ++ got) ++ s'.bytes := by rw [h3, List.append_assoc]
      obtain ⟨hi, hlt⟩ := idxOf_lf_append h2 s'.bytes
      rw [h1, hl, if_pos rfl, hw, chunkSizeText_append h2, hi,
        List.drop_append_of_le_length (by omega)]
      simp only
      cases hc : fromStrRadix 16 usizeBound (chunkSizeText (buf ++ got)) with
      | none => rfl
      | some c =>
        cases c with
        | zero => rfl
        | succ c =>
          simp only
          by_cases ho : usizeBound ≤ c + 1 + 2
          · rw [if_pos ho, if_pos ho]
          rw [if_neg ho, if_neg ho]
          set rest := (buf ++ got).drop ((buf ++ got).idxOf 10 + 1)
          rcases fill_cases hn (stable_length (c + 1 + 2)) rest s' with
            ⟨gl, got', t, g1, g2, g3, g4⟩ | ⟨gl, gf, t, g1, -⟩ | ⟨gl, e, t, gf, g1⟩
          · rw [g1]
            simp only [decide_eq_true_eq] at gl g2
            -- the chunk lies in what has been read, so taking it off commutes with reading on
            have htake : ((rest ++ got') ++ t.bytes).take (c + 1) = (rest ++ got').take (c + 1) :=
              List.take_append_of_le_length (by omega)
            have hdrop : ((rest ++ got') ++ t.bytes).drop (c + 1 + 2) =
                (rest ++ got').drop (c + 1 + 2) ++ t.bytes := List.drop_append_of_le_length g2
            rw [if_pos gl]
            simp only
            rw [ih, g4, h4, g3, ← List.append_assoc, htake, hdrop]
          · rw [g1]
            simp only [decide_eq_false_iff_not] at gl
            rw [if_neg gl, ← h4, gf]; rfl
          · rw [g1]
            simp only [decide_eq_false_iff_not] at gl
            rw [if_neg gl, ← h4, gf]; rfl
    · rw [h1, hl, hf]; rfl
    · rw [h1, hl, hf]; rfl

theorem readChunkedBody_whole (hn : n ≠ 0) (s : Source) (initial : Bytes) :
    (readChunkedBody s initial n).1 = dechunk s.failure (initial ++ s.bytes) := by
  unfold readChunkedBody dechunk
  rw [readChunks_whole hn, List.length_append]

theorem readExact_whole (hn : n ≠ 0) (s : Source) (initial : Bytes) (len : ℕ) :
    (readExact s initial len n).1 =
      if len ≤ (initial ++ s.bytes).length then .ok ((initial ++ s.bytes).take len)
      else atEnd s.failure (initial ++ s.bytes) := by
  unfold readExact
  rcases fill_cases hn (stable_length len) initial s with
    ⟨hl, got, s', h1, h2, h3, -⟩ | ⟨hl, hf, s', h1, -⟩ | ⟨hl, e, s', hf, h1⟩
  · simp only [decide_eq_true_eq] at hl h2
    rw [h1, if_pos hl, h3, ← List.append_assoc, List.take_append_of_le_length h2]
    rfl
  · simp only [decide_eq_false_iff_not] at hl
    rw [h1, if_neg hl, hf]
    simp only [Filled.buf, atEnd]
    rw [List.take_of_length_le (by omega)]
  · simp only [decide_eq_false_iff_not] at hl
    rw [h1, if_neg hl, hf]; rfl

theorem readUntilClose_whole (hn : n ≠ 0) (s : Source) (initial : Bytes) :
    (readUntilClose s initial n).1 = atEnd s.failure (initial ++ s.bytes) := by
  unfold readUntilClose
  rcases fill_cases hn stable_false initial s with
    ⟨hl, -⟩ | ⟨-, hf, s', h1, -⟩ | ⟨-, e, s', hf, h1⟩
  · exact absurd hl (by simp)
  · rw [h1, hf]; rfl
  · rw [h1, hf]; rfl

/-- **The body reader does not see the segments**, unless the head passes for a request's that has
no body. -/
theorem readHttpBody_whole (hn : n ≠ 0) {headers : Str}
    (hreq : isNoBodyStatus headers = false → (isRequest headers && !isChunked U headers &&
      (getContentLength U headers).isNone) = false) (s : Source) (initial : Bytes) :
    (readHttpBody U s headers initial n).1 =
      wholeBody U s.failure headers (initial ++ s.bytes) := by
  unfold readHttpBody wholeBody
  by_cases hb : isNoBodyStatus headers = true
  · rw [if_pos hb, if_pos hb]
  rw [if_neg hb, if_neg hb, hreq (by simpa using hb), if_neg Bool.false_ne_true]
  by_cases hc : isChunked U headers = true
  · rw [if_pos hc, if_pos hc]; exact readChunkedBody_whole hn s initial
  rw [if_neg hc, if_neg hc]
  cases getContentLength U headers with
  | none => exact readUntilClose_whole hn s initial
  | some len => exact readExact_whole hn s initial len

/-- The body reader at the end of a stream has nothing to add. -/
theorem readHttpBody_end (hn : n ≠ 0) (headers : Str) (hs : s.bytes = [])
    (hf : s.failure = none) : (readHttpBody U s headers [] n).1 = .ok [] := by
  unfold readHttpBody
  split_ifs
  · rfl
  · rfl
  · rw [readChunkedBody_whole hn, hs, hf]; rfl
  · split
    · rw [readExact_whole hn, hs, hf]; simp [atEnd]
    · rw [readUntilClose_whole hn, hs, hf]; rfl

theorem startsWith_lines (pre : Str) (hpre : '\n' ∉ pre) (hne : pre.getLast? ≠ some '\r')
    (h0 : pre ≠ []) (r : Str) :
    ∃ l ls, lines (pre ++ r) = l :: ls ∧ startsWith pre l = true := by
  have key : ∀ (r line : Str), pre <+: line →
      ∃ l ls, linesFrom line r = l :: ls ∧ pre <+: l := by
    intro r
    induction r with
    | nil =>
      intro line hp
      have : line ≠ [] := fun h => h0 (List.prefix_nil.1 (h ▸ hp))
      exact ⟨line, [], by simp [linesFrom, this], hp⟩
    | cons c r ih =>
      intro line hp
      unfold linesFrom
      by_cases hc : c = '\n'
      · refine ⟨stripCr line, linesFrom [] r, by rw [if_pos hc], ?_⟩
        unfold stripCr
        split
        · -- the CR that goes is not part of `pre`
          rename_i hl
          obtain ⟨t, rfl⟩ := hp
          cases t using List.reverseRecOn with
          | nil => rw [List.append_nil] at hl; exact absurd hl hne
          | append_singleton t x =>
            rw [← List.append_assoc, List.dropLast_concat]
            exact List.prefix_append pre t
        · exact hp
      · rw [if_neg hc]; exact ih _ (hp.trans (List.prefix_append line [c]))
  unfold lines
  rw [linesFrom_append hpre, List.nil_append]
  obtain ⟨l, ls, h1, h2⟩ := key r pre (List.prefix_refl pre)
  exact ⟨l, ls, h1, List.isPrefixOf_iff_prefix.2 h2⟩

/-- A head that starts with `HTTP/` is not a request's. -/
theorem isRequest_http (x : Bytes) : isRequest (fromUtf8Lossy (lit "HTTP/" ++ x)) = false := by
  have hlit : fromUtf8Lossy (lit "HTTP/" ++ x) = "HTTP/".toList ++ fromUtf8Lossy x :=
    lossy_encode "HTTP/".toList x
  obtain ⟨l, ls, h1, h2⟩ := startsWith_lines "HTTP/".toList (by decide) (by decide)
    (by decide) (fromUtf8Lossy x)
  unfold isRequest
  rw [hlit, h1]
  simp only [List.head?_cons, h2, Bool.not_true]

/-- Where the end of the head has been found. -/
theorem position_read {got : Bytes} {i : ℕ} (h : position crlfcrlf got = some i) :
    i + 4 ≤ got.length := by
  have h1 := (position_starts h).length_le
  have h2 := position_lt h
  simp only [crlfcrlf, List.length_cons, List.length_nil, List.length_drop] at h1
  omega

/-- **A stream with the end of a head**: the reader stops reading at the first boundary behind it,
and goes on with the body. -/
theorem readFullResponse_head (hn : n ≠ 0) {i : ℕ} (hi : position crlfcrlf s.bytes = some i) :
    ∃ got s', Reads n s got s' ∧ position crlfcrlf got = some i ∧
      (∀ pre post s₁, Reads n s pre s₁ → post ≠ [] → got = pre ++ post →
        hasHeadEnd pre = false) ∧
      (readFullResponse U s n).1 = (readHttpBody U s' (fromUtf8Lossy (s.bytes.take (i + 4)))
        (got.drop (i + 4)) n).1.map (s.bytes.take (i + 4) ++ ·) := by
  have hl : hasHeadEnd ([] ++ s.bytes) = true := by
    unfold hasHeadEnd
    rw [List.nil_append, hi]
    rfl
  obtain ⟨got, s', h1, h2, h3, h4⟩ := fill_full hn hl
  rw [List.nil_append] at h1 h3
  obtain ⟨j, hj⟩ := Option.isSome_iff_exists.1 h3
  have hbytes := (reads_bytes h2).1
  have hij : i = j := by
    have h := position_append hj s'.bytes
    rw [← hbytes, hi] at h
    exact Option.some.inj h
  subst hij
  have htake : s.bytes.take (i + 4) = got.take (i + 4) := by
    rw [hbytes, List.take_append_of_le_length (position_read hj)]
  have hend : headerEnd got = i + 4 := by unfold headerEnd; rw [hj]
  refine ⟨got, s', h2, hj, h4, ?_⟩
  unfold readFullResponse
  rw [h1, htake]
  simp only [Filled.buf, hend]
  rcases readHttpBody U s' (fromUtf8Lossy (got.take (i + 4))) (got.drop (i + 4)) n with ⟨r, t⟩
  cases r <;> rfl

/-- A stream that has no end of a head is returned as it is. -/
theorem readFullResponse_headless (hn : n ≠ 0) (hnone : position crlfcrlf s.bytes = none) :
    (readFullResponse U s n).1 = atEnd s.failure s.bytes := by
  have hl : hasHeadEnd ([] ++ s.bytes) = false := by
    unfold hasHeadEnd
    rw [List.nil_append, hnone]
    rfl
  have hend : headerEnd s.bytes = s.bytes.length := by unfold headerEnd; rw [hnone]
  unfold readFullResponse
  rcases fill_not_full hn stable_hasHeadEnd hl with ⟨s', h1, hs', hf, hf'⟩ | ⟨e, s', h1, hf⟩
  · rw [List.nil_append] at h1
    rw [h1, hf]
    simp only [Filled.buf, hend, List.take_length, List.drop_length, atEnd]
    have hbody := readHttpBody_end (U := U) hn (fromUtf8Lossy s.bytes) hs' hf'
    rcases hr : readHttpBody U s' (fromUtf8Lossy s.bytes) [] n with ⟨r, t⟩
    rw [hr] at hbody
    simp only at hbody
    subst hbody
    simp
  · rw [h1, hf]; rfl

/-- The head of a response starts with `HTTP/`. -/
theorem isRequest_head {i : ℕ} (hw : lit "HTTP/" <+: w) (hi : position crlfcrlf w = some i) :
    isRequest (fromUtf8Lossy (w.take (i + 4))) = false := by
  obtain ⟨x, hx⟩ := hw
  have h5 : 5 ≤ i + 4 := by
    by_contra hc
    have h0 : i = 0 := by omega
    subst h0
    have hp := position_starts hi
    rw [List.drop_zero, ← hx] at hp
    obtain ⟨y, hy⟩ := hp
    have : (crlfcrlf ++ y).head? = some 13 := rfl
    rw [hy] at this
    exact absurd this (by simp [lit]; decide)
  have h5' : (lit "HTTP/").length = 5 := by decide
  rw [← hx, List.take_append, h5', List.take_of_length_le (by rw [h5']; omega)]
  exact isRequest_http _

/-- **`read_full_response` returns the response that the bytes stand for**, however they
are cut into segments and whatever the buffer size. -/
theorem readFullResponse_whole (hn : n ≠ 0) (s : Source) (hw : lit "HTTP/" <+: s.bytes) :
    (readFullResponse U s n).1 = wholeResponse U s.failure s.bytes := by
  unfold wholeResponse
  cases hi : position crlfcrlf s.bytes with
  | none => exact readFullResponse_headless hn hi
  | some i =>
    obtain ⟨got, s', hreads, hgot, -, hread⟩ := readFullResponse_head (U := U) hn hi
    obtain ⟨hbytes, hf⟩ := reads_bytes hreads
    have hdrop : s.bytes.drop (i + 4) = got.drop (i + 4) ++ s'.bytes := by
      rw [hbytes, List.drop_append_of_le_length (position_read hgot)]
    have hreq := isRequest_head hw hi
    rw [hread, readHttpBody_whole hn (fun _ => by rw [hreq]; rfl), hf, ← hdrop]

end HexbufferProxy
