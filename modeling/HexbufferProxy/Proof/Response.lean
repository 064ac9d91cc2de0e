import HexbufferProxy.Proof.Head

/-!
# The reader returns the head and the body

* `position_bytes`: the head of a response ends at its first CRLFCRLF.
* `dechunk_bytes`: a chunked body decodes to its data, whatever follows the last chunk.
* `wholeResponse_body`: the response that well-formed bytes stand for.
* `readFullResponse_body`: **the reader returns it**, for every cut into reads.
-/

namespace HexbufferProxy

open Rust Source

variable {U : Unicode} {ending : Option IoError}

/-! ## Where the head ends -/

theorem position_skip {l : Bytes} (hl : (13 : UInt8) ∉ l) (r : Bytes) :
    position crlfcrlf (l ++ r) = (position crlfcrlf r).map (· + l.length) := by
  induction l with
  | nil => simp
  | cons b l ih =>
    have hb : (13 == b) = false := by
      rw [beq_eq_false_iff_ne]; rintro rfl; exact hl List.mem_cons_self
    have hp : crlfcrlf.isPrefixOf (b :: (l ++ r)) = false := by
      simp [crlfcrlf, List.isPrefixOf, hb]
    rw [List.cons_append, position, hp, ih fun h => hl (List.mem_cons_of_mem _ h)]
    cases position crlfcrlf r with
    | none => rfl
    | some i => simp; omega

/-- A line end in front of a line is not the end of the head. -/
theorem position_crlf {b : UInt8} (hb : b ≠ 13) (r : Bytes) :
    position crlfcrlf (13 :: 10 :: b :: r) = (position crlfcrlf (b :: r)).map (· + 2) := by
  have hb' : (13 == b) = false := by rw [beq_eq_false_iff_ne]; exact fun h => hb h.symm
  have h1 : crlfcrlf.isPrefixOf (13 :: 10 :: b :: r) = false := by
    simp [crlfcrlf, List.isPrefixOf, hb']
  have h2 : crlfcrlf.isPrefixOf (10 :: b :: r) = false := by simp [crlfcrlf, List.isPrefixOf]
  rw [position, h1, position, h2]
  cases position crlfcrlf (b :: r) with
  | none => rfl
  | some i => simp

theorem encode_crlf : encode crlf = [13, 10] := by decide

/-- **The first CRLFCRLF is the one after the last line**, when the lines are not empty. -/
theorem position_lines {ls : List Bytes} (hne : ∀ l ∈ ls, l ≠ [])
    (hcr : ∀ l ∈ ls, (13 : UInt8) ∉ l) (r : Bytes) :
    position crlfcrlf ([13, 10] ++ ls.flatMap (· ++ [13, 10]) ++ [13, 10] ++ r) =
      some (ls.flatMap (· ++ [13, 10])).length := by
  induction ls with
  | nil => rfl
  | cons l ls ih =>
    have hno := hcr l List.mem_cons_self
    have ih' := ih (fun x hx => hne x (List.mem_cons_of_mem l hx))
      fun x hx => hcr x (List.mem_cons_of_mem l hx)
    obtain ⟨b, l, rfl⟩ := List.exists_cons_of_ne_nil (hne l List.mem_cons_self)
    have hb : b ≠ 13 := fun h => hno (h ▸ List.mem_cons_self)
    simp only [List.flatMap_cons, List.append_assoc, List.cons_append, List.nil_append] at ih' ⊢
    rw [position_crlf hb, ← List.cons_append, position_skip hno, ih']
    simp; omega

/-- So the head of a first line and field lines ends at its first CRLFCRLF. -/
theorem position_head {l : Bytes} (hl : (13 : UInt8) ∉ l) {ls : List Bytes}
    (hne : ∀ l ∈ ls, l ≠ []) (hcr : ∀ l ∈ ls, (13 : UInt8) ∉ l) (r : Bytes) :
    ∃ i, position crlfcrlf (l ++ ([13, 10] ++ ls.flatMap (· ++ [13, 10]) ++ [13, 10]) ++ r) =
        some i ∧ i + 4 = (l ++ ([13, 10] ++ ls.flatMap (· ++ [13, 10]) ++ [13, 10])).length := by
  refine ⟨(ls.flatMap (· ++ [13, 10])).length + l.length, ?_, ?_⟩
  · rw [List.append_assoc, position_skip hl, position_lines hne hcr]
    rfl
  · simp only [List.length_append, List.length_cons, List.length_nil]
    omega

namespace ResponseHead

variable (h : ResponseHead)

theorem bytes_eq : h.bytes = encode h.statusLine ++ ([13, 10] ++
    (h.fields.map fun f => encode f.line).flatMap (· ++ [13, 10]) ++ [13, 10]) := by
  have hfields : encode (h.fields.flatMap fun f => f.line ++ crlf) =
      (h.fields.map fun f => encode f.line).flatMap (· ++ [13, 10]) := by
    rw [List.flatMap_map]
    induction h.fields with
    | nil => rfl
    | cons f fs ih => rw [List.flatMap_cons, List.flatMap_cons, encode_append, encode_append, ih,
        encode_crlf]
  unfold bytes text
  simp only [encode_append, encode_crlf, List.append_assoc, hfields]

theorem position_bytes (r : Bytes) :
    ∃ i, position crlfcrlf (h.bytes ++ r) = some i ∧ i + 4 = h.bytes.length := by
  have hne : ∀ l ∈ h.fields.map fun f => encode f.line, l ≠ [] := by
    intro l hl
    obtain ⟨f, -, rfl⟩ := List.mem_map.1 hl
    intro h0
    have hlen := length_encode_ascii f.line_text.ascii
    rw [h0] at hlen
    simp [Field.line] at hlen
  have hcr : ∀ l ∈ h.fields.map fun f => encode f.line, (13 : UInt8) ∉ l := by
    intro l hl
    obtain ⟨f, -, rfl⟩ := List.mem_map.1 hl
    exact f.line_text.encode_no_cr
  rw [bytes_eq]
  exact position_head h.statusLine_text.encode_no_cr hne hcr r

theorem http_starts : lit "HTTP/" <+: h.bytes := by
  unfold bytes text statusLine lit
  simp only [encode_append, List.append_assoc]
  exact List.prefix_append _ _

end ResponseHead

/-! ## Chunks -/

theorem trimEnd_append_of_last {a : Str} (ha : ∀ c, a.getLast? = some c → isWhitespace c = false)
    (b : Str) : trimEnd (a ++ b) = a ++ trimEnd b := by
  have haa := trimEnd_of_last ha
  unfold trimEnd List.rdropWhile at haa ⊢
  rw [List.reverse_append, List.dropWhile_append]
  split
  · rename_i hb
    rw [haa]
    rw [List.isEmpty_iff] at hb
    rw [hb]; simp
  · simp

/-- The size text of a line `size[;ext]CRLF` is `size`. -/
theorem chunkSizeText_line {ds : Str} (hne : ds ≠ [])
    (hds : ∀ c ∈ ds, c.toNat < 128 ∧ isWhitespace c = false ∧ c ≠ '+' ∧ c ≠ ';') {e : Bytes}
    (he : IsExt e) (r : Bytes) :
    let w := encode ds ++ e ++ [13, 10] ++ r
    hasLf w = true ∧ chunkSizeText w = ds ∧ w.drop (w.idxOf 10 + 1) = r := by
  intro w
  obtain ⟨he10, hext⟩ := he
  have h10 : (10 : UInt8) ∉ encode ds ++ e ++ [13] := by
    simp only [List.mem_append, not_or]
    refine ⟨⟨fun hm => ?_, he10⟩, by simp⟩
    obtain ⟨c, hc, hn⟩ := mem_encode_ascii (fun c hc => (hds c hc).1) hm
    have hw := (hds c hc).2.1
    rw [← char_ofNat_toNat c, ← hn] at hw
    exact absurd hw (by decide)
  have hw : w = (encode ds ++ e ++ [13]) ++ 10 :: r := by simp [w]
  have hidx : w.idxOf 10 = (encode ds ++ e ++ [13]).length := by
    rw [hw, List.idxOf_append_of_notMem h10]; simp
  refine ⟨by unfold hasLf; rw [List.contains_iff_mem]; simp [w], ?_, ?_⟩
  · unfold chunkSizeText
    rw [hidx, hw, List.take_left, List.append_assoc, lossy_encode]
    have hlast : ∀ c, ds.getLast? = some c → isWhitespace c = false :=
      fun c hc => (hds c (List.mem_of_getLast? hc)).2.1
    have hhead : ∀ y c, (ds ++ y).head? = some c → isWhitespace c = false := by
      intro y c hc
      cases ds with
      | nil => exact absurd rfl hne
      | cons d ds => simp at hc; subst hc; exact (hds d List.mem_cons_self).2.1
    have hsemi : ';' ∉ ds := fun hm => (hds _ hm).2.2.2 rfl
    unfold trim
    rw [trimStart_of_head (hhead _), trimEnd_append_of_last hlast]
    -- without an extension the CR is trimmed; with one, the text is cut at its semicolon
    rcases hext with rfl | hx
    · have : trimEnd (fromUtf8Lossy ([] ++ [13])) = [] := by decide
      rw [this, List.append_nil, splitFirst_self hsemi]
    · obtain ⟨e', rfl⟩ : ∃ e', e = 59 :: e' := by
        cases e with
        | nil => simp at hx
        | cons b e' => simp at hx; exact ⟨e', by rw [hx]⟩
      rw [List.cons_append, lossy_cons_ascii (by decide)]
      have hc : ∀ c, [';'].getLast? = some c → isWhitespace c = false := by
        intro c hc; simp at hc; subst hc; decide
      have := trimEnd_append_of_last hc (fromUtf8Lossy (e' ++ [13]))
      show splitFirst ';' (ds ++ trimEnd ([';'] ++ fromUtf8Lossy (e' ++ [13]))) = ds
      rw [this]
      exact splitFirst_append hsemi _
  · rw [hidx, hw, ← List.drop_drop, List.drop_left]; rfl

/-- One chunk of the stream is one round of the loop. -/
theorem dechunkFrom_chunk (c : Chunk) (k : ℕ) (body r : Bytes) :
    dechunkFrom ending (k + 1) body (c.bytes ++ r) = dechunkFrom ending k (body ++ c.data) r := by
  have hb : c.bytes ++ r = encode c.size.text ++ c.ext ++ [13, 10] ++ (c.data ++ 13 :: 10 :: r) := by
    simp [Chunk.bytes]
  obtain ⟨h1, h2, h3⟩ := chunkSizeText_line (text_ne c.size_ne) (fun x hx => text_sixteen x hx)
    c.ext_ok (c.data ++ 13 :: 10 :: r)
  rw [← hb] at h1 h2 h3
  have hparse : fromStrRadix 16 usizeBound c.size.text = some c.data.length := by
    rw [fromStrRadix_text c.size_ne (fun p _ => toDigit_sixteen p.1 p.2)
      fun x hx => (text_sixteen x hx).2.2.1, c.size_eq, if_pos]
    have := c.size_lt; omega
  obtain ⟨m, hm⟩ : ∃ m, c.data.length = m + 1 :=
    ⟨c.data.length - 1, by have := List.length_pos_iff.2 c.data_ne; omega⟩
  have hlt := c.size_lt
  rw [dechunkFrom, if_pos h1, h2, hparse, hm]
  simp only
  rw [h3, if_neg (by rw [hm] at hlt; omega), if_pos (by simp [hm]), ← hm, List.take_left]
  congr 1
  rw [show c.data.length + 2 = c.data.length + [13, 10].length from rfl, List.drop_append]
  simp

/-- **A chunked body decodes to its data**, whatever follows the last chunk. -/
theorem dechunk_bytes (b : ChunkedBody) : dechunk ending b.bytes = .ok b.data := by
  have last : ∀ k body, dechunkFrom ending (k + 1) body
      (encode b.last.text ++ b.ext ++ [13, 10] ++ b.trailer) = .ok body := by
    intro k body
    obtain ⟨h1, h2, -⟩ := chunkSizeText_line (text_ne b.last_ne)
      (fun x hx => text_sixteen x hx) b.ext_ok b.trailer
    rw [dechunkFrom, if_pos h1, h2, fromStrRadix_text b.last_ne
      (fun p _ => toDigit_sixteen p.1 p.2) fun x hx => (text_sixteen x hx).2.2.1,
      b.last_zero, if_pos (by decide)]
    rfl
  -- each chunk takes one round
  have key : ∀ (cs : List Chunk) (k : ℕ) (body r : Bytes),
      dechunkFrom ending (k + cs.length) body (cs.flatMap Chunk.bytes ++ r) =
        dechunkFrom ending k (body ++ cs.flatMap Chunk.data) r := by
    intro cs
    induction cs with
    | nil => intro k body r; simp
    | cons c cs ih =>
      intro k body r
      rw [List.length_cons, ← Nat.add_assoc, List.flatMap_cons, List.append_assoc,
        dechunkFrom_chunk, ih]
      simp
  -- no chunk is empty, so the fuel is enough
  have hlen : b.chunks.length ≤ b.bytes.length := by
    have : ∀ cs : List Chunk, cs.length ≤ (cs.flatMap Chunk.bytes).length := by
      intro cs
      induction cs with
      | nil => simp
      | cons c cs ih =>
        simp only [List.flatMap_cons, List.length_append, List.length_cons, Chunk.bytes]
        omega
    have := this b.chunks
    simp only [ChunkedBody.bytes, List.length_append]; omega
  unfold dechunk
  obtain ⟨k, hk⟩ : ∃ k, b.bytes.length + 1 = (k + 1) + b.chunks.length :=
    ⟨b.bytes.length - b.chunks.length, by omega⟩
  rw [hk]
  unfold ChunkedBody.bytes ChunkedBody.data
  rw [key, last, List.nil_append]

/-! ## The response -/

theorem wholeBody_eq (h : ResponseHead) {tail body : Bytes} (hb : HasBody h ending tail body) :
    wholeBody U ending h.text tail = .ok body := by
  unfold wholeBody
  cases hb with
  | bodyless _ hs => rw [if_pos (h.isNoBodyStatus_text.2 hs)]
  | chunked b hs hf =>
    have hc : isChunked U h.text = true := by
      rw [h.isChunked_text, List.any_eq_true]; exact hf
    rw [if_neg fun hx => hs (h.isNoBodyStatus_text.1 hx), if_pos hc, dechunk_bytes]
  | length _ m f hs hte hf hname hm hle =>
    have hc : ¬ isChunked U h.text = true := by
      rw [h.isChunked_text, List.any_eq_true]
      rintro ⟨g, hg, hgn⟩; rw [hte g hg] at hgn; exact absurd hgn (by simp)
    rw [if_neg fun hx => hs (h.isNoBodyStatus_text.1 hx), if_neg hc,
      h.getContentLength_text hf hname hm]
    simp only
    rw [if_pos hle]
  | close _ hs hte hcl heof =>
    have hc : ¬ isChunked U h.text = true := by
      rw [h.isChunked_text, List.any_eq_true]
      rintro ⟨g, hg, hgn⟩; rw [hte g hg] at hgn; exact absurd hgn (by simp)
    rw [if_neg fun hx => hs (h.isNoBodyStatus_text.1 hx), if_neg hc, h.getContentLength_none hcl,
      heof]
    rfl

theorem wholeResponse_body (h : ResponseHead) {tail body : Bytes}
    (hb : HasBody h ending tail body) :
    wholeResponse U ending (h.bytes ++ tail) = .ok (h.bytes ++ body) := by
  obtain ⟨i, hi, hlen⟩ := h.position_bytes tail
  have htext : fromUtf8Lossy h.bytes = h.text := by
    have := h.lossy_bytes []
    simpa using this
  unfold wholeResponse
  rw [hi]
  simp only
  rw [hlen, List.take_left, List.drop_left, htext, wholeBody_eq h hb]
  rfl

/-- **The reader returns the head and the body of every well-formed response**, for every
buffer size of at least one and every cut of the stream into reads. -/
theorem readFullResponse_body (U : Unicode) {n : ℕ} (hn : n ≠ 0) (h : ResponseHead) (s : Source)
    {tail body : Bytes} (hs : s.bytes = h.bytes ++ tail) (hb : HasBody h s.failure tail body) :
    (readFullResponse U s n).1 = .ok (h.bytes ++ body) := by
  have hp : lit "HTTP/" <+: s.bytes := hs ▸ h.http_starts.trans (List.prefix_append _ _)
  rw [readFullResponse_whole hn s hp, hs, wholeResponse_body h hb]

/-- `HTTP/1.1 200 OK` with a chunked body. -/
def chunkedHead : ResponseHead where
  version := "1.1".toList
  status := [(2, false), (0, false), (0, false)]
  reason := " OK".toList
  fields := [⟨"Transfer-Encoding".toList, " gzip, Chunked".toList, by decide, by decide, by decide⟩]
  version_text := by decide
  status_ne := by decide
  reason_text := by decide
  reason_space := by decide
  lengths_le := by decide
  lengths_ok f hf hn := by
    rw [List.mem_singleton] at hf; subst hf; exact absurd hn (by decide)
  codings_le := by decide
  codings_ok f hf _ := by
    rw [List.mem_singleton] at hf; subst hf
    exact ⟨" gzip,".toList, " ".toList, "Chunked".toList, [], by decide, by decide, by decide,
      by decide, by decide⟩

/-- One chunk with an extension, the last chunk, and an empty trailer. -/
def chunkedBody : ChunkedBody where
  chunks := [⟨[(0, false), (10, true)], lit ";a=b", lit "0123456789", by decide, by decide,
    by decide, by decide, by decide⟩]
  last := [(0, false)]
  ext := []
  trailer := lit "\r\n"
  last_ne := by decide
  last_zero := by decide
  ext_ok := by decide

/-- The body's bytes in two segments, cut inside the size line of the chunk. -/
def chunkedSource : Source :=
  ⟨[⟨chunkedHead.bytes ++ lit "0", by decide⟩,
    ⟨lit "A;a=b\r\n0123456789\r\n0\r\n\r\n", by decide⟩], none⟩

theorem readFullResponse_body_chunked :
    (readFullResponse Unicode.basic chunkedSource 7).1 =
      .ok (chunkedHead.bytes ++ lit "0123456789") := by
  have hbody : HasBody chunkedHead none chunkedBody.bytes (lit "0123456789") :=
    HasBody.chunked chunkedBody (by decide) ⟨_, List.mem_singleton_self _, by decide⟩
  have hs : chunkedSource.bytes = chunkedHead.bytes ++ chunkedBody.bytes := by decide
  exact readFullResponse_body Unicode.basic (by decide) chunkedHead chunkedSource hs hbody

end HexbufferProxy
