import HexbufferProxy.Proof.Complete
import HexbufferProxy.Spec.Chunks

/-!
# The chunk loop ends in order, but for one sum

* `dechunkFrom_fuel`: the loop's bound on its rounds decides nothing.
* `readFullResponse_total_iff`: `read_full_response` panics exactly on a chunk size to which no 2
  can be added.
-/

namespace HexbufferProxy

open Rust Source

variable {U : Unicode} {n : ℕ} {s t : Source} {w more body buf out : Bytes}
  {ending : Option IoError}

/-! ## One round -/

theorem atEnd_ok (h : atEnd ending w = .ok out) : out = w := by
  unfold atEnd at h
  split at h
  · exact (Except.ok.inj h).symm
  · exact nomatch h

/-- The line behind the first LF is there whatever comes later. -/
theorem afterSizeLine_append (h : hasLf w = true) (more : Bytes) :
    afterSizeLine (w ++ more) = afterSizeLine w ++ more := by
  obtain ⟨hi, hlt⟩ := idxOf_lf_append h more
  unfold afterSizeLine
  rw [hi, List.drop_append_of_le_length (by omega)]

theorem dechunkFrom_succ (ending : Option IoError) (k : ℕ) (body w : Bytes) :
    dechunkFrom ending (k + 1) body w =
      match chunkRound w with
      | .short => atEnd ending body
      | .invalid text => .error (.error (.msg ("invalid chunk size: " ++ String.ofList text)))
      | .last => .ok body
      | .overflow => .error (.panic "attempt to add with overflow")
      | .chunk data rest => dechunkFrom ending k (body ++ data) rest := by
  have hafter : w.drop (w.idxOf 10 + 1) = afterSizeLine w := rfl
  rw [dechunkFrom]
  unfold chunkRound
  cases hasLf w with
  | false => rfl
  | true =>
    simp only [if_true]
    cases fromStrRadix 16 usizeBound (chunkSizeText w) with
    | none => rfl
    | some size =>
      cases size with
      | zero => rfl
      | succ size =>
        simp only [hafter]
        by_cases ho : usizeBound ≤ size + 1 + 2
        · simp only [if_pos ho]
        simp only [if_neg ho]
        by_cases hl : size + 1 + 2 ≤ (afterSizeLine w).length
        · simp only [if_pos hl]
        · simp only [if_neg hl]

/-- A chunk takes its line, its data and two bytes more off the stream. -/
theorem chunkRound_chunk {data rest : Bytes} (h : chunkRound w = .chunk data rest) :
    hasLf w = true ∧ rest.length < w.length ∧ ∀ more,
      chunkRound (w ++ more) = .chunk data (rest ++ more) := by
  unfold chunkRound at h
  cases hl : hasLf w with
  | false => rw [hl] at h; exact nomatch h
  | true =>
    obtain ⟨-, hlt⟩ := idxOf_lf_append hl []
    rw [hl] at h
    simp only [if_true] at h
    cases hsize : fromStrRadix 16 usizeBound (chunkSizeText w) with
    | none => rw [hsize] at h; exact nomatch h
    | some size =>
      rw [hsize] at h
      cases size with
      | zero => exact nomatch h
      | succ size =>
        by_cases ho : usizeBound ≤ size + 1 + 2
        · simp only [if_pos ho] at h
          exact nomatch h
        by_cases hle : size + 1 + 2 ≤ (afterSizeLine w).length
        · simp only [if_neg ho, if_pos hle] at h
          obtain ⟨hdata, hrest⟩ := ChunkRound.chunk.inj h
          refine ⟨rfl, ?_, ?_⟩
          · have hafter : (afterSizeLine w).length = w.length - (w.idxOf 10 + 1) :=
              List.length_drop
            rw [← hrest, List.length_drop]
            omega
          -- what comes later changes neither the line nor the data
          · intro more
            have hl' : hasLf (w ++ more) = true := stable_hasLf w more hl
            have hle' : size + 1 + 2 ≤ (afterSizeLine w ++ more).length := by
              rw [List.length_append]
              omega
            unfold chunkRound
            rw [hl', if_pos rfl, chunkSizeText_append hl, hsize, afterSizeLine_append hl]
            simp only [if_neg ho, if_pos hle']
            rw [← hdata, ← hrest, List.take_append_of_le_length (by omega),
              List.drop_append_of_le_length hle]
        · simp only [if_neg ho, if_neg hle] at h
          exact nomatch h

/-- The round that ends the body ends it whatever comes later. -/
theorem chunkRound_last (h : chunkRound w = .last) (more : Bytes) :
    chunkRound (w ++ more) = .last := by
  unfold chunkRound at h
  cases hl : hasLf w with
  | false => rw [hl] at h; exact nomatch h
  | true =>
    rw [hl] at h
    simp only [if_true] at h
    unfold chunkRound
    rw [stable_hasLf w more hl, if_pos rfl, chunkSizeText_append hl]
    cases hsize : fromStrRadix 16 usizeBound (chunkSizeText w) with
    | none => rw [hsize] at h; exact nomatch h
    | some size =>
      cases size with
      | zero => rfl
      | succ size =>
        rw [hsize] at h
        simp only at h
        split at h
        · exact nomatch h
        · split at h
          · exact nomatch h
          · exact nomatch h

/-! ## The whole loop -/

/-- Every round takes bytes off the stream: more rounds than there are bytes change nothing. -/
theorem dechunkFrom_fuel (ending : Option IoError) : ∀ (k j : ℕ) (body w : Bytes), w.length < k →
    w.length < j → dechunkFrom ending k body w = dechunkFrom ending j body w := by
  intro k
  induction k with
  | zero => intro j body w hk; omega
  | succ k ih =>
    intro j body w hk hj
    obtain ⟨j, rfl⟩ : ∃ i, j = i + 1 := ⟨j - 1, by omega⟩
    rw [dechunkFrom_succ, dechunkFrom_succ]
    cases hround : chunkRound w with
    | chunk data rest =>
      obtain ⟨-, hlen, -⟩ := chunkRound_chunk hround
      exact ih j (body ++ data) rest (by omega) (by omega)
    | short => rfl
    | invalid text => rfl
    | last => rfl
    | overflow => rfl

/-- What has been handed over stays. -/
theorem dechunkFrom_prefix : ∀ (k : ℕ) (body w out : Bytes),
    dechunkFrom ending k body w = .ok out → body <+: out := by
  intro k
  induction k with
  | zero =>
    intro body w out h
    rw [← Except.ok.inj h]
  | succ k ih =>
    intro body w out h
    rw [dechunkFrom_succ] at h
    cases hround : chunkRound w with
    | short => rw [hround] at h; rw [atEnd_ok h]
    | invalid text => rw [hround] at h; exact nomatch h
    | last => rw [hround] at h; rw [← Except.ok.inj h]
    | overflow => rw [hround] at h; exact nomatch h
    | chunk data rest =>
      rw [hround] at h
      exact (List.prefix_append body data).trans (ih _ _ _ h)

/-! ## Rounds that overflow -/

theorem chunkRound_size {size : ℕ} (hl : hasLf w = true)
    (hsize : fromStrRadix 16 usizeBound (chunkSizeText w) = some size) (hpos : size ≠ 0) :
    chunkRound w =
      if usizeBound ≤ size + 2 then .overflow
      else if size + 2 ≤ (afterSizeLine w).length then
        .chunk ((afterSizeLine w).take size) ((afterSizeLine w).drop (size + 2))
      else .short := by
  unfold chunkRound
  rw [hl, if_pos rfl, hsize]
  cases size with
  | zero => exact absurd rfl hpos
  | succ size => rfl

theorem overflows_chunk {data rest : Bytes} (h : chunkRound w = .chunk data rest) :
    Overflows w ↔ Overflows rest := by
  constructor
  · intro ho
    cases ho with
    | here h' => rw [h] at h'; exact nomatch h'
    | later h' hrest =>
      rw [h] at h'
      obtain ⟨-, rfl⟩ := ChunkRound.chunk.inj h'
      exact hrest
  · exact Overflows.later h

theorem not_overflows {r : ChunkRound} (h : chunkRound w = r) (ho : r ≠ .overflow)
    (hc : ∀ data rest, r ≠ .chunk data rest) : ¬ Overflows w := by
  rintro (h' | ⟨h', -⟩)
  · exact ho (h.symm.trans h')
  · exact hc _ _ (h.symm.trans h')

theorem atEnd_not_panic (ending : Option IoError) (w : Bytes) (msg : String) :
    atEnd ending w ≠ .error (.panic msg) := by
  unfold atEnd
  cases ending with
  | none => exact fun h => nomatch h
  | some e => exact fun h => nomatch h

/-- **The chunk loop panics exactly where its rounds overflow.** -/
theorem dechunkFrom_panic_iff : ∀ (k : ℕ) (body w : Bytes), w.length < k →
    ((∃ msg, dechunkFrom ending k body w = .error (.panic msg)) ↔ Overflows w) := by
  intro k
  induction k with
  | zero => intro body w hk; omega
  | succ k ih =>
    intro body w hk
    rw [dechunkFrom_succ]
    cases hround : chunkRound w with
    | short =>
      refine ⟨?_, fun ho => absurd ho (not_overflows hround nofun nofun)⟩
      rintro ⟨msg, h⟩
      exact absurd h (atEnd_not_panic ending body msg)
    | invalid text =>
      exact ⟨fun ⟨_, h⟩ => (nomatch h), fun ho => absurd ho (not_overflows hround nofun nofun)⟩
    | last =>
      exact ⟨fun ⟨_, h⟩ => (nomatch h), fun ho => absurd ho (not_overflows hround nofun nofun)⟩
    | overflow => exact ⟨fun _ => Overflows.here hround, fun _ => ⟨_, rfl⟩⟩
    | chunk data rest =>
      obtain ⟨-, hlen, -⟩ := chunkRound_chunk hround
      rw [overflows_chunk hround]
      exact ih (body ++ data) rest (by omega)

/-! ## The reader's own loop -/

theorem fill_full_eq {stop : Bytes → Bool} (hn : n ≠ 0) (hst : Stable stop) {t' : Source}
    (h : t.fill stop n buf = (.ok (.full w), t')) : stop w = true ∧
      ∃ got, w = buf ++ got ∧ t.bytes = got ++ t'.bytes := by
  rcases fill_cases hn hst buf t with ⟨-, got, u, h1, h2, h3, -⟩ | ⟨-, -, u, h1, -⟩ |
    ⟨-, e, u, -, h1⟩
  · rw [h] at h1
    obtain ⟨hw, rfl⟩ := Prod.mk.inj h1
    have hfull : w = buf ++ got := Filled.full.inj (Except.ok.inj hw)
    exact ⟨hfull ▸ h2, got, hfull, h3⟩
  · rw [h] at h1
    exact nomatch Except.ok.inj (Prod.mk.inj h1).1
  · rw [h] at h1
    exact nomatch (Prod.mk.inj h1).1

/-- A reader without a buffer does not come to the loop. -/
theorem inLoop_pos (h : InLoop U n s buf t) : n ≠ 0 := by
  induction h with
  | start h hs hc =>
    rintro rfl
    have hfill : s.fill hasHeadEnd 0 [] = (.ok (.eof []), s) := rfl
    rw [hfill] at h
    obtain ⟨hr, -⟩ := Prod.mk.inj h
    rw [← Except.ok.inj hr] at hc
    exact nomatch hc
  | next h hline hsize hpos hfits hdata ih => exact ih

/-- **What stands in the buffer and the stream at the top of a round has no huge chunk**, if the
response has none: the rounds before it have taken whole chunks off. -/
theorem inLoop_overflows (hno : ¬ HugeChunk U s.bytes) (h : InLoop U n s buf t) :
    ¬ Overflows (buf ++ t.bytes) := by
  have hn := inLoop_pos h
  -- by induction on the rounds; the first one is behind the head, the others behind a chunk
  induction h with
  | @start r t h hs hc =>
    rcases fill_cases hn stable_hasHeadEnd [] s with ⟨-, got, u, h1, h2, h3, -⟩ |
      ⟨hl, -, u, h1, hu, -⟩ | ⟨-, e, u, -, h1⟩
    · rw [h] at h1
      obtain ⟨hr, rfl⟩ := Prod.mk.inj h1
      obtain rfl := Except.ok.inj hr
      simp only [List.nil_append, Filled.buf] at h2 hs hc ⊢
      obtain ⟨i, hi⟩ := Option.isSome_iff_exists.1 h2
      have hle : i + 4 ≤ got.length := position_read hi
      have hend : headerEnd got = i + 4 := by unfold headerEnd; rw [hi]
      rw [hend] at hs hc ⊢
      have htake : s.bytes.take (i + 4) = got.take (i + 4) := by
        rw [h3, List.take_append_of_le_length hle]
      have hdrop : s.bytes.drop (i + 4) = got.drop (i + 4) ++ t.bytes := by
        rw [h3, List.drop_append_of_le_length hle]
      intro ho
      refine hno ⟨i, ?_, ?_, ?_, ?_⟩
      · rw [h3]; exact position_append hi t.bytes
      · rw [htake]; exact hs
      · rw [htake]; exact hc
      · rw [hdrop]; exact ho
    · -- the stream has ended inside the head
      rw [h] at h1
      obtain ⟨hr, rfl⟩ := Prod.mk.inj h1
      obtain rfl := Except.ok.inj hr
      have hnone : position crlfcrlf s.bytes = none := by
        rw [List.nil_append] at hl
        exact Option.not_isSome_iff_eq_none.1 (Bool.not_eq_true _ ▸ hl)
      have hend : headerEnd s.bytes = s.bytes.length := by unfold headerEnd; rw [hnone]
      simp only [List.nil_append, Filled.buf, hend, List.drop_length, hu]
      exact not_overflows rfl (fun ho => by cases ho) fun data rest hc => by cases hc
    · rw [h] at h1
      cases (Prod.mk.inj h1).1
  | @next buf line data size t t' t'' h hline hsize hpos hfits hdata ih =>
    -- the two reads have taken the size line, and then at least the data, off the stream
    obtain ⟨hl, got, hgot, ht⟩ := fill_full_eq hn stable_hasLf hline
    obtain ⟨hle, got', hgot', ht'⟩ := fill_full_eq hn (stable_length _) hdata
    rw [decide_eq_true_eq] at hle
    have hw : buf ++ t.bytes = line ++ t'.bytes := by rw [ht, hgot, List.append_assoc]
    have hafter : afterSizeLine (line ++ t'.bytes) = data ++ t''.bytes := by
      rw [afterSizeLine_append hl, ht', hgot', List.append_assoc]
    have hround : chunkRound (buf ++ t.bytes) =
        .chunk ((data ++ t''.bytes).take size) (data.drop (size + 2) ++ t''.bytes) := by
      rw [hw, chunkRound_size (stable_hasLf line _ hl)
        ((chunkSizeText_append hl t'.bytes).symm ▸ hsize) hpos, if_neg (by omega), hafter,
        if_pos (by rw [List.length_append]; omega), List.drop_append_of_le_length hle]
    rw [← overflows_chunk hround]
    exact ih

/-! ## The whole reader -/

theorem readHttpBody_panic_iff (hn : n ≠ 0) (headers : Str) (s : Source) (initial : Bytes) :
    (∃ msg, (readHttpBody U s headers initial n).1 = .error (.panic msg)) ↔
      isNoBodyStatus headers = false ∧ isChunked U headers = true ∧
        Overflows (initial ++ s.bytes) := by
  unfold readHttpBody
  cases hs : isNoBodyStatus headers with
  | true => exact ⟨fun ⟨_, h⟩ => (nomatch h), fun h => (nomatch h.1)⟩
  | false =>
    cases hc : isChunked U headers with
    | true =>
      simp only [Bool.not_true, Bool.and_false, Bool.false_and, Bool.false_eq_true, if_false,
        if_true, true_and]
      rw [readChunkedBody_whole hn]
      exact dechunkFrom_panic_iff _ _ _ (Nat.lt_succ_self _)
    | false =>
      simp only [Bool.false_eq_true, if_false, false_and, and_false, iff_false, not_exists]
      intro msg
      split
      · exact fun h => nomatch h
      · split
        · rw [readExact_whole hn]
          split
          · exact fun h => nomatch h
          · exact atEnd_not_panic _ _ _
        · rw [readUntilClose_whole hn]
          exact atEnd_not_panic _ _ _

theorem map_panic {r : Except Fault Bytes} {f : Bytes → Bytes} {msg : String} :
    r.map f = .error (.panic msg) ↔ r = .error (.panic msg) := by
  cases r with
  | error e => exact Iff.rfl
  | ok out => exact ⟨fun h => (nomatch h), fun h => (nomatch h)⟩

theorem readFullResponse_panic_iff :
    (∃ msg, (readFullResponse U s n).1 = .error (.panic msg)) ↔ n ≠ 0 ∧ HugeChunk U s.bytes := by
  rcases Nat.eq_zero_or_pos n with rfl | hpos
  · rw [readFullResponse_zero]
    exact ⟨fun ⟨_, h⟩ => (nomatch h), fun h => absurd rfl h.1⟩
  have hn : n ≠ 0 := hpos.ne'
  cases hi : position crlfcrlf s.bytes with
  | none =>
    rw [readFullResponse_headless hn hi]
    constructor
    · rintro ⟨msg, h⟩
      exact absurd h (atEnd_not_panic _ _ _)
    · rintro ⟨-, i, hi', -⟩
      rw [hi] at hi'
      exact nomatch hi'
  | some i =>
    obtain ⟨got, s', hreads, hgot, -, hread⟩ := readFullResponse_head (U := U) hn hi
    have hdrop : s.bytes.drop (i + 4) = got.drop (i + 4) ++ s'.bytes := by
      rw [(reads_bytes hreads).1, List.drop_append_of_le_length (position_read hgot)]
    simp only [hread, map_panic]
    rw [readHttpBody_panic_iff hn, ← hdrop]
    constructor
    · rintro ⟨hs, hc, ho⟩
      exact ⟨hn, i, hi, hs, hc, ho⟩
    · rintro ⟨-, j, hj, hs, hc, ho⟩
      obtain rfl : i = j := Option.some.inj (hi.symm.trans hj)
      exact ⟨hs, hc, ho⟩

/-- **`read_full_response` ends in order, without a panic, exactly when no chunk size it comes to
is `usize::MAX - 1` or `usize::MAX`**, for every stream, every cut into reads and every buffer size.
(A buffer of no bytes reads nothing.) -/
theorem readFullResponse_total_iff (U : Unicode) (n : ℕ) (s : Source) :
    Total U n s ↔ ¬ (n ≠ 0 ∧ HugeChunk U s.bytes) := by
  constructor
  · intro h hhuge
    obtain ⟨msg, hmsg⟩ := readFullResponse_panic_iff.2 hhuge
    exact h.returns msg hmsg
  intro hno
  refine ⟨?_, ?_, ?_, ?_, ?_⟩
  · intro msg hmsg
    exact hno (readFullResponse_panic_iff.1 ⟨msg, hmsg⟩)
  · intro buf t line t' size hloop hline hsize
    have hn := inLoop_pos hloop
    obtain ⟨hl, got, hgot, ht⟩ := fill_full_eq hn stable_hasLf hline
    by_contra hbig
    have hpos : size ≠ 0 := by
      rintro rfl
      exact hbig (by decide)
    have hw : buf ++ t.bytes = line ++ t'.bytes := by rw [ht, hgot, List.append_assoc]
    have hsize' : fromStrRadix 16 usizeBound (chunkSizeText (line ++ t'.bytes)) = some size := by
      rw [chunkSizeText_append hl]
      exact hsize
    have hround : chunkRound (buf ++ t.bytes) = .overflow := by
      rw [hw, chunkRound_size (stable_hasLf line _ hl) hsize' hpos, if_pos (by omega)]
    exact inLoop_overflows (fun hhuge => hno ⟨hn, hhuge⟩) hloop (Overflows.here hround)
  · intro buf t line t' size data t'' hloop hline hdata
    have hn := inLoop_pos hloop
    obtain ⟨hl, -⟩ := fill_full_eq hn stable_hasLf hline
    obtain ⟨hle, -⟩ := fill_full_eq hn (stable_length _) hdata
    rw [decide_eq_true_eq] at hle
    exact ⟨(idxOf_lf_append hl []).2, by omega, hle⟩
  · intro buf t line t' size data t'' hloop hline hdata
    have hn := inLoop_pos hloop
    obtain ⟨hl, got, hgot, ht⟩ := fill_full_eq hn stable_hasLf hline
    obtain ⟨hle, got', hgot', ht'⟩ := fill_full_eq hn (stable_length _) hdata
    -- the line and two bytes of line end, at least, are gone
    have hlt := (idxOf_lf_append hl []).2
    have hlen := congrArg List.length hgot
    have hlen' := congrArg List.length hgot'
    simp only [afterSizeLine, List.length_append, List.length_drop] at hlen hlen'
    rw [ht, ht', List.length_drop, List.length_append, List.length_append]
    omega
  · intro buf t k hloop hk body
    have hn := inLoop_pos hloop
    rw [readChunks_whole hn, readChunks_whole hn]
    exact dechunkFrom_fuel _ _ _ _ _ (by rw [List.length_append]; exact hk)
      (by rw [List.length_append]; exact Nat.lt_succ_self _)

/-- An upstream that announces a chunk of `usize::MAX` bytes. -/
def hugeChunk : Source :=
  ⟨[⟨exampleHead "Transfer-Encoding: chunked" ++ lit "ffffffffffffffff\r\n", by decide⟩], none⟩

/-- A chunk size that `from_str_radix` accepts makes the sum panic. -/
theorem readFullResponse_huge_chunk : ¬ ∀ (U : Unicode) (n : ℕ) (s : Source), Total U n s := by
  intro hall
  have hhuge : HugeChunk Unicode.basic hugeChunk.bytes :=
    ⟨43, by decide +kernel, by decide +kernel, by decide +kernel, Overflows.here (by decide +kernel)⟩
  obtain ⟨msg, hmsg⟩ := readFullResponse_panic_iff.2 ⟨(by decide : 4096 ≠ 0), hhuge⟩
  exact (hall Unicode.basic 4096 hugeChunk).returns msg hmsg

end HexbufferProxy
