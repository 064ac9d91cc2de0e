import HexbufferProxy.Proof.Chunks

/-!
# Cuts and truncations

* `readFullResponse_cut`: two cuts of one byte string give one outcome, whatever the buffer sizes.
* `readFullResponse_truncated`: of a stream that ends early, no more comes out than the start of
  what the longer stream gives. The induction is on the rounds of the chunk loop: the round in
  which the shorter stream ends has handed over nothing that the longer one does not.
-/

namespace HexbufferProxy

open Rust Source

variable {U : Unicode} {n n' : ℕ} {s s' : Source} {w more body out out' : Bytes}
  {ending ending' : Option IoError}

/-! ## The body -/

/-- **A chunked body that is cut off gives the start of the whole one.** -/
theorem dechunkFrom_truncated : ∀ (k : ℕ) (body w more out out' : Bytes),
    dechunkFrom ending k body w = .ok out → dechunkFrom ending' k body (w ++ more) = .ok out' →
      out <+: out' := by
  intro k
  induction k with
  | zero =>
    intro body w more out out' h h'
    rw [← Except.ok.inj h, ← Except.ok.inj h']
  | succ k ih =>
    intro body w more out out' h h'
    rw [dechunkFrom_succ] at h
    cases hround : chunkRound w with
    | short =>
      -- the shorter stream ends in this round
      rw [hround] at h
      rw [atEnd_ok h]
      exact dechunkFrom_prefix _ _ _ _ h'
    | invalid text => rw [hround] at h; exact nomatch h
    | overflow => rw [hround] at h; exact nomatch h
    | last =>
      rw [hround] at h
      rw [dechunkFrom_succ, chunkRound_last hround] at h'
      rw [← Except.ok.inj h, ← Except.ok.inj h']
    | chunk data rest =>
      obtain ⟨-, -, hmore⟩ := chunkRound_chunk hround
      rw [hround] at h
      rw [dechunkFrom_succ, hmore] at h'
      exact ih _ _ _ _ _ h h'

theorem dechunk_truncated (h : dechunk ending w = .ok out)
    (h' : dechunk ending' (w ++ more) = .ok out') : out <+: out' := by
  unfold dechunk at h h'
  rw [dechunkFrom_fuel ending (w.length + 1) ((w ++ more).length + 1) [] w (Nat.lt_succ_self _)
    (by rw [List.length_append]; omega)] at h
  exact dechunkFrom_truncated _ _ _ _ _ _ h h'

/-! ## The whole response -/

theorem wholeBody_truncated {headers : Str} (h : wholeBody U ending headers w = .ok out)
    (h' : wholeBody U ending' headers (w ++ more) = .ok out') : out <+: out' := by
  unfold wholeBody at h h'
  by_cases hs : isNoBodyStatus headers = true
  · rw [if_pos hs] at h h'
    rw [← Except.ok.inj h, ← Except.ok.inj h']
  rw [if_neg hs] at h h'
  by_cases hc : isChunked U headers = true
  · rw [if_pos hc] at h h'
    exact dechunk_truncated h h'
  rw [if_neg hc] at h h'
  cases hlen : getContentLength U headers with
  | none =>
    rw [hlen] at h h'
    rw [atEnd_ok h, atEnd_ok h']
    exact List.prefix_append w more
  | some len =>
    rw [hlen] at h h'
    simp only at h h'
    by_cases hle' : len ≤ (w ++ more).length
    · rw [if_pos hle'] at h'
      rw [← Except.ok.inj h', List.take_append]
      by_cases hle : len ≤ w.length
      · rw [if_pos hle] at h
        rw [← Except.ok.inj h]
        exact List.prefix_append _ _
      · rw [if_neg hle] at h
        rw [atEnd_ok h, List.take_of_length_le (by omega)]
        exact List.prefix_append _ _
    · have hle : ¬ len ≤ w.length := by
        rw [List.length_append] at hle'
        omega
      rw [if_neg hle'] at h'
      rw [if_neg hle] at h
      rw [atEnd_ok h, atEnd_ok h']
      exact List.prefix_append w more

theorem map_ok {r : Except Fault Bytes} {f : Bytes → Bytes} (h : r.map f = .ok out) :
    ∃ body, r = .ok body ∧ out = f body := by
  cases r with
  | error e => exact nomatch h
  | ok body => exact ⟨body, rfl, (Except.ok.inj h).symm⟩

theorem wholeResponse_truncated (h : wholeResponse U ending w = .ok out)
    (h' : wholeResponse U ending' (w ++ more) = .ok out') : out <+: out' := by
  unfold wholeResponse at h h'
  cases hi : position crlfcrlf w with
  | some i =>
    -- both streams have the same head
    have hlen : i + 4 ≤ w.length := position_read hi
    rw [hi] at h
    rw [position_append hi] at h'
    simp only [List.take_append_of_le_length hlen, List.drop_append_of_le_length hlen] at h h'
    obtain ⟨body, hbody, rfl⟩ := map_ok h
    obtain ⟨body', hbody', rfl⟩ := map_ok h'
    exact (List.prefix_append_right_inj _).2 (wholeBody_truncated hbody hbody')
  | none =>
    rw [hi] at h
    rw [atEnd_ok h]
    cases hj : position crlfcrlf (w ++ more) with
    | none =>
      rw [hj] at h'
      rw [atEnd_ok h']
      exact List.prefix_append w more
    | some j =>
      -- the longer stream's head ends behind the shorter stream
      rw [hj] at h'
      obtain ⟨body', -, rfl⟩ := map_ok h'
      have hlt : w.length < j + 4 := by
        by_contra hge
        have hle : j + 4 ≤ w.length := by omega
        have htake : position crlfcrlf (w.take (j + 4)) = some j := by
          have h4 := position_take (by decide) hj
          rwa [List.take_append_of_le_length (by exact hle)] at h4
        have hwhole := position_append htake (w.drop (j + 4))
        rw [List.take_append_drop, hi] at hwhole
        exact nomatch hwhole
      rw [List.take_append, List.take_of_length_le hlt.le, List.append_assoc]
      exact List.prefix_append w _

/-! ## The reader -/

/-- **`read_full_response` does not depend on the cut**: the same bytes with the same end have the
same outcome, a panic included, for all ways of cutting them into reads. -/
theorem readFullResponse_cut (U : Unicode) {n n' : ℕ} (hn : n ≠ 0) (hn' : n' ≠ 0) (s s' : Source)
    (hw : lit "HTTP/" <+: s.bytes) (hbytes : s'.bytes = s.bytes) (hend : s'.failure = s.failure) :
    (readFullResponse U s' n').1 = (readFullResponse U s n).1 := by
  have hw' : lit "HTTP/" <+: s'.bytes := hbytes ▸ hw
  rw [readFullResponse_whole hn' s' hw', readFullResponse_whole hn s hw, hbytes, hend]

/-- An upstream that sends what `wholeLength` sends, in one segment. -/
def oneSegment : Source :=
  ⟨[⟨exampleHead "Content-Length: 5" ++ lit "hello", by decide⟩], none⟩

/-- Two cuts of a response, read three bytes and 4096 bytes at a time. -/
theorem readFullResponse_cut_length : (readFullResponse Unicode.basic oneSegment 3).1 =
    (readFullResponse Unicode.basic wholeLength 4096).1 :=
  readFullResponse_cut Unicode.basic (by decide) (by decide) wholeLength oneSegment
    (List.isPrefixOf_iff_prefix.1 (by decide)) (by decide) rfl

/-- **A truncated response is the start of the whole one**: if `read_full_response` returns on a
stream and on a longer one, it returns on the first a prefix of what it returns on the second. -/
theorem readFullResponse_truncated (U : Unicode) (n : ℕ) {n' : ℕ} (hn' : n' ≠ 0) (s s' : Source)
    (hw : lit "HTTP/" <+: s.bytes) (hlonger : s.bytes <+: s'.bytes) {r r' : Bytes}
    (hr : (readFullResponse U s n).1 = .ok r) (hr' : (readFullResponse U s' n').1 = .ok r') :
    r <+: r' := by
  rcases Nat.eq_zero_or_pos n with rfl | hn
  · -- a buffer of no bytes reads nothing
    rw [readFullResponse_zero] at hr
    rw [← Except.ok.inj hr]
    exact List.nil_prefix
  obtain ⟨more, hmore⟩ := hlonger
  rw [readFullResponse_whole hn.ne' s hw] at hr
  rw [readFullResponse_whole hn' s' (hw.trans ⟨more, hmore⟩), ← hmore] at hr'
  exact wholeResponse_truncated hr hr'

/-- An upstream that sends the rest of `cutChunk`'s chunk, and the last one. -/
def wholeChunk : Source :=
  ⟨[⟨cutChunk.bytes, by decide⟩, ⟨lit "lo\r\n0\r\n\r\n", by decide⟩], none⟩

/-- A response that breaks off in its chunk, and the whole of it. -/
theorem readFullResponse_truncated_chunk : exampleHead "Transfer-Encoding: chunked" <+:
    exampleHead "Transfer-Encoding: chunked" ++ lit "hello" :=
  readFullResponse_truncated Unicode.basic 4096 (by decide : 7 ≠ 0) cutChunk wholeChunk
    (List.isPrefixOf_iff_prefix.1 (by decide +kernel))
    (List.isPrefixOf_iff_prefix.1 (by decide +kernel))
    (ok_of_toOption (by decide +kernel)) (ok_of_toOption (by decide +kernel))

end HexbufferProxy
