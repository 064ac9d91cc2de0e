import HexbufferProxy.Proof.RoundTrip
import HexbufferProxy.Proof.Status
import HexbufferProxy.Spec.Reader

/-!
# Reading a message is unambiguous

* `replyHead_unique`: the bytes of a response decide where its head ends, and what it says.
* `replyHead_serialized`: what the serializer writes is such a head.
* `readsReply_iff`: which body a client reads when the body is sent as it is.
-/

namespace HexbufferProxy

open Rust

/-! ## Heads -/

theorem WireField.eq_of_bytes {f g : WireField} {r r' : Bytes}
    (h : f.bytes ++ 13 :: r = g.bytes ++ 13 :: r') : f = g ∧ r = r' := by
  have hcr : ∀ k : WireField, ∀ b ∈ k.bytes, decide (b = 13) = false := by
    intro k b hb
    rw [decide_eq_false_iff_not]
    rintro rfl
    exact k.bytes_no_cr hb
  obtain ⟨hline, -, hrest⟩ := first_unique h (hcr f) (hcr g) (by decide) (by decide)
  refine ⟨?_, hrest⟩
  -- the name runs up to the colon
  have hcolon : ∀ k : WireField, ∀ b ∈ encode k.name, decide (b = 58) = false := by
    intro k b hb
    rw [decide_eq_false_iff_not]
    rintro rfl
    exact k.name_colon (mem_of_encode (by decide) hb)
  obtain ⟨hname, -, hraw⟩ := first_unique hline (hcolon f) (hcolon g) (by decide) (by decide)
  have hname' : f.name = g.name := encode_injective hname
  cases f
  cases g
  cases hname'
  cases hraw
  rfl

/-- The field lines end at the empty line. -/
theorem fields_unique : ∀ (fs gs : List WireField) (r r' : Bytes),
    (fs.map WireField.bytes).flatMap (· ++ [13, 10]) ++ ([13, 10] ++ r) =
      (gs.map WireField.bytes).flatMap (· ++ [13, 10]) ++ ([13, 10] ++ r') → fs = gs ∧ r = r' := by
  have hfirst : ∀ (g : WireField) (r : Bytes), ∃ b t, g.bytes ++ r = b :: t ∧ b ≠ 13 := by
    intro g r
    obtain ⟨b, t, hg⟩ := List.exists_cons_of_ne_nil g.bytes_ne
    refine ⟨b, t ++ r, by rw [hg]; rfl, ?_⟩
    rintro rfl
    exact g.bytes_no_cr (hg ▸ List.mem_cons_self)
  intro fs
  induction fs with
  | nil =>
    intro gs r r' h
    cases gs with
    | nil => exact ⟨rfl, List.append_cancel_left h⟩
    | cons g gs =>
      simp only [List.map_cons, List.flatMap_cons, List.append_assoc] at h
      obtain ⟨b, t, hb, hne⟩ := hfirst g ([13, 10] ++ (gs.map WireField.bytes).flatMap _ ++ _)
      rw [List.append_assoc] at hb
      rw [hb] at h
      exact absurd (List.cons.inj h).1.symm hne
  | cons f fs ih =>
    intro gs r r' h
    cases gs with
    | nil =>
      simp only [List.map_cons, List.flatMap_cons, List.append_assoc] at h
      obtain ⟨b, t, hb, hne⟩ := hfirst f ([13, 10] ++ (fs.map WireField.bytes).flatMap _ ++ _)
      rw [List.append_assoc] at hb
      rw [hb] at h
      exact absurd (List.cons.inj h).1 hne
    | cons g gs =>
      simp only [List.map_cons, List.flatMap_cons, List.append_assoc] at h
      obtain ⟨rfl, hrest⟩ := WireField.eq_of_bytes h
      obtain ⟨rfl, rfl⟩ := ih gs r r' (List.cons.inj hrest).2
      exact ⟨rfl, rfl⟩

/-- The code of a status line can be read off its bytes. -/
theorem StatusLine.code_of_bytes {l k : StatusLine} (h : l.bytes = k.bytes) :
    l.code.value = k.code.value := by
  have hvalue : ∀ (j : StatusLine) (bound : ℕ), j.code.value < bound →
      fromStrRadix 10 bound j.code.text = some j.code.value := by
    intro j bound hlt
    rw [fromStrRadix_text j.code_ne (fun p _ => toDigit_ten p.1 p.2)
      fun c hc => (text_ten c hc).2.2.1, if_pos hlt]
  have htext : l.code.text = k.code.text := by
    have hlines := (l.lines_bytes []).symm.trans ((congrArg _ (by rw [h])).trans (k.lines_bytes []))
    have hwords := congrArg (fun t => (splitWhitespace t)[1]?) (List.cons.inj hlines).1
    simp only [l.words_text, k.words_text] at hwords
    exact Option.some.inj hwords
  have hsame := hvalue l (l.code.value + k.code.value + 1) (by omega)
  rw [htext, hvalue k _ (by omega)] at hsame
  exact (Option.some.inj hsame).symm

/-- **A head is read in one way only.** -/
theorem replyHead_unique {l k : StatusLine} {fs gs : List WireField} {r r' : Bytes}
    (h : replyHead l fs ++ r = replyHead k gs ++ r') :
    l.code.value = k.code.value ∧ fs = gs ∧ r = r' := by
  unfold replyHead at h
  simp only [List.append_assoc] at h
  have hcr : ∀ j : StatusLine, ∀ b ∈ j.bytes, decide (b = 13) = false := by
    intro j b hb
    rw [decide_eq_false_iff_not]
    rintro rfl
    exact j.bytes_no_cr hb
  obtain ⟨hline, -, hrest⟩ := first_unique h (hcr l) (hcr k) (by decide) (by decide)
  obtain ⟨hfields, htail⟩ := fields_unique fs gs r r' (List.cons.inj hrest).2
  exact ⟨StatusLine.code_of_bytes hline, hfields, htail⟩

/-- The digits of a status. -/
def statusDigits (n : ℕ) : Digits 10 :=
  [(Fin.ofNat 10 (n / 100), false), (Fin.ofNat 10 (n / 10), false), (Fin.ofNat 10 n, false)]

theorem statusDigits_spec (s : StatusCode) :
    displayNat s.1 = (statusDigits s.1).text ∧ (statusDigits s.1).value = s.1 := by
  obtain ⟨n, hlow, hhigh⟩ := s
  have htop : n / 100 % 10 = n / 100 := Nat.mod_eq_of_lt (by omega)
  refine ⟨?_, ?_⟩
  · show displayNat n = [digitChar false (n / 100 % 10), digitChar false (n / 10 % 10),
      digitChar false (n % 10)]
    rw [displayNat_digits hlow hhigh, htop]
  · show ((0 * 10 + n / 100 % 10) * 10 + n / 10 % 10) * 10 + n % 10 = n
    omega

/-- **A serialized head is one that clients can read.** -/
theorem replyHead_serialized (http : HttpCrate) (res : Response) :
    ∃ l : StatusLine, serializeResponseHead http res = replyHead l (wireFields res.headers) ∧
      l.code.value = res.status.1 := by
  obtain ⟨htext, hvalue⟩ := statusDigits_spec res.status
  have hreason : ∀ b ∈ encode (' ' :: (http.canonicalReason res.status.1).getD "OK".toList),
      b ≠ 13 ∧ b ≠ 10 := by
    have hline := statusText_line http res
    have hmem : ∀ c ∈ ' ' :: (http.canonicalReason res.status.1).getD "OK".toList,
        c ≠ '\r' ∧ c ≠ '\n' := fun c hc => (hline c (List.mem_append_right _ hc)).2
    intro b hb
    refine ⟨?_, ?_⟩ <;> rintro rfl
    · exact (hmem '\r' (mem_of_encode (by decide) hb)).1 rfl
    · exact (hmem '\n' (mem_of_encode (by decide) hb)).2 rfl
  refine ⟨⟨"1.1".toList, statusDigits res.status.1,
    encode (' ' :: (http.canonicalReason res.status.1).getD "OK".toList), by decide, rfl, hreason,
    Or.inr rfl⟩, ?_, hvalue⟩
  rw [serializeResponseHead_wire]
  unfold replyHead headBytes StatusLine.bytes statusText
  rw [htext, encode_append, encode_append, encode_append, encode_cons ' ' (Digits.text _)]
  rfl

/-! ## Bodies -/

/-- A chunked body is longer than its data. -/
theorem ChunkedBody.data_lt (b : ChunkedBody) : b.data.length < b.bytes.length := by
  have hchunks : ∀ cs : List Chunk,
      (cs.flatMap Chunk.data).length ≤ (cs.flatMap Chunk.bytes).length := by
    intro cs
    induction cs with
    | nil => exact Nat.le_refl 0
    | cons c cs ih =>
      simp only [List.flatMap_cons, List.length_append, Chunk.bytes, List.length_cons,
        List.length_nil]
      omega
  unfold data bytes
  have h := hchunks b.chunks
  simp only [List.length_append, List.length_cons, List.length_nil]
  omega

/-- Only a chunked body says other bytes than it is made of. -/
theorem ReplyBody.fits {code : ℕ} {fr : Framing} {tail b : Bytes} (h : ReplyBody code fr tail b)
    (htail : tail = b) : FitsFraming code fr b := by
  unfold FitsFraming
  cases h with
  | bodyless fr hcode => rw [if_pos hcode]
  | chunked c =>
    have hlt := c.data_lt
    rw [htail] at hlt
    exact absurd hlt (Nat.lt_irrefl _)
  | coded b hcode =>
    rw [if_neg hcode]
    trivial
  | length b hcode => rw [if_neg hcode]
  | close b hcode =>
    rw [if_neg hcode]
    trivial

/-- What is sent as it is, is read as it is, if the framing fits. -/
theorem replyBody_self_iff (code : ℕ) (fr : Framing) (b : Bytes) :
    ReplyBody code fr b b ↔ FitsFraming code fr b := by
  refine ⟨fun h => h.fits rfl, ?_⟩
  intro h
  unfold FitsFraming at h
  by_cases hcode : Bodyless code
  · rw [if_pos hcode] at h
    rw [h]
    exact ReplyBody.bodyless fr hcode
  · rw [if_neg hcode] at h
    cases fr with
    | chunked => exact h.elim
    | invalid => exact h.elim
    | coded => exact ReplyBody.coded b hcode
    | unframed => exact ReplyBody.close b hcode
    | length n =>
      have hn : b.length = n := h
      rw [← hn]
      exact ReplyBody.length b hcode

/-- **What a client reads of a head and a body sent as it is.** -/
theorem readsReply_iff (l : StatusLine) (fs : List WireField) (b : Bytes) :
    (∃ code, ReadsReply (replyHead l fs ++ b) code b) ↔
      FitsFraming l.code.value (framing fs) b := by
  rw [← replyBody_self_iff]
  refine ⟨?_, fun h => ⟨_, l, fs, b, rfl, rfl, h⟩⟩
  rintro ⟨code, k, gs, tail, heq, hcode, hbody⟩
  obtain ⟨hl, rfl, rfl⟩ := replyHead_unique heq
  rw [hl, hcode]
  exact hbody

end HexbufferProxy
