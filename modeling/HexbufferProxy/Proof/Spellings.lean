import HexbufferProxy.Proof.Decoder
import HexbufferProxy.Spec.Spellings

/-!
# Which spellings are read

* `trimAscii_around`: what is trimmed off are spaces.
* `trimAscii_element`: an element is read as the name of a coding exactly if it is plain.
* `nestDecoders_other`: any other element is refused.
* `decodeParts_alike_iff`: when a message is decoded as in the plainest spelling.
* `decode_spelled_iff`: requests and responses.
-/

namespace HexbufferProxy

open Rust

variable {C : Codecs} {m m' : HeaderMap} {cs : List Coding} {lines : List (List Element)}
  {body : Body}

/-! ## Trimming -/

/-- Where there are only spaces, none is trimmed off. -/
theorem trimAscii_blank {s : Bytes} (h : ∀ b ∈ s, b = 32) : trimAscii s = s := by
  have hnone : ∀ t : Bytes, (∀ b ∈ t, b = 32) → t.findIdx? (· != 32) = none := by
    intro t ht
    rw [List.findIdx?_eq_none_iff]
    intro b hb
    rw [ht b hb]
    rfl
  unfold trimAscii
  rw [hnone s h, hnone s.reverse fun b hb => h b (List.mem_reverse.1 hb)]
  exact (List.drop_zero).trans (List.take_length)

theorem spaces_front (t : Bytes) : ∃ i u, t = List.replicate i 32 ++ u ∧ u.head? ≠ some 32 := by
  induction t with
  | nil => exact ⟨0, [], rfl, fun h => nomatch h⟩
  | cons b t ih =>
    by_cases hb : b = 32
    · obtain ⟨i, u, ht, hu⟩ := ih
      exact ⟨i + 1, u, by rw [hb, ht, List.replicate_succ, List.cons_append], hu⟩
    · exact ⟨0, b :: t, rfl, fun h => hb (Option.some.inj h)⟩

/-- **What is trimmed off are spaces.** -/
theorem trimAscii_around (s : Bytes) :
    ∃ i j, s = List.replicate i 32 ++ trimAscii s ++ List.replicate j 32 := by
  obtain ⟨i, u, hs, hu⟩ := spaces_front s
  obtain ⟨j, v, hrev, hv⟩ := spaces_front u.reverse
  have hback : u = v.reverse ++ List.replicate j 32 := by
    rw [← List.reverse_reverse u, hrev, List.reverse_append, List.reverse_replicate]
  cases v with
  | nil =>
    -- spaces and nothing else
    have hblank : ∀ b ∈ s, b = 32 := by
      intro b hb
      rw [hs, hback] at hb
      rcases List.mem_append.1 hb with hb | hb
      · exact List.eq_of_mem_replicate hb
      · exact List.eq_of_mem_replicate hb
    exact ⟨0, 0, by rw [trimAscii_blank hblank]; exact (List.append_nil s).symm⟩
  | cons d v =>
    have hlast : (d :: v).reverse.getLast? = some d := by rw [List.getLast?_reverse]; rfl
    obtain ⟨c, hc⟩ : ∃ c, (d :: v).reverse.head? = some c := by
      rw [List.head?_reverse]
      exact ⟨_, List.getLast?_eq_some_getLast (List.cons_ne_nil d v)⟩
    have hfirst : c ≠ 32 := by
      rintro rfl
      refine hu ?_
      rw [hback, List.head?_append, hc]
      rfl
    refine ⟨i, j, ?_⟩
    rw [hs, hback, ← List.append_assoc,
      trimAscii_spaces i j hc hlast hfirst fun h => hv (congrArg some h)]

/-! ## Elements -/

/-- Blanks that are no tabs are spaces. -/
theorem blanks_spaces {w : Bytes} (h : ∀ b ∈ w, isBlank b = true) (htab : 9 ∉ w) :
    w = List.replicate w.length 32 := by
  refine List.eq_replicate_length.2 fun b hb => ?_
  have hblank : b = 32 ∨ b = 9 := by simpa [isBlank] using h b hb
  exact hblank.resolve_right fun h9 => htab (h9 ▸ hb)

/-- A name is in small letters. -/
theorem codingName_lower (c : Coding) : (encode c.name).map lowerByte = encode c.name := by
  cases c <;> decide

theorem codingName_mem {c : Coding} {b : UInt8} (h : b ∈ encode c.name) :
    b ≠ 9 ∧ b ≠ 32 ∧ b ≠ 44 := by
  have hall : ∀ b ∈ encode c.name, b ≠ 9 ∧ b ≠ 32 ∧ b ≠ 44 := by
    cases c <;> decide
  exact hall b h

theorem codingName_inj {c c' : Coding} (h : encode c.name = encode c'.name) : c = c' := by
  cases c <;> cases c' <;> first | rfl | exact absurd h (by decide)

/-- What stands in a word, in small letters, stands in its name. -/
theorem Element.word_mem {e : Element} {b : UInt8} (h : b ∈ e.word) (hb : lowerByte b = b) :
    b ≠ 9 ∧ b ≠ 32 ∧ b ≠ 44 := by
  have hmem : b ∈ e.word.map lowerByte := List.mem_map.2 ⟨b, h, hb⟩
  rw [e.word_eq] at hmem
  cases hc : e.coding with
  | none =>
    rw [hc] at hmem
    exact absurd hmem List.not_mem_nil
  | some c =>
    rw [hc] at hmem
    exact codingName_mem hmem

theorem comma_element (e : Element) : (44 : UInt8) ∉ e.text := by
  intro h
  rcases List.mem_append.1 h with h | h
  · rcases List.mem_append.1 h with h | h
    · exact absurd (e.before_blank 44 h) (by decide)
    · exact (e.word_mem h (by decide)).2.2 rfl
  · exact absurd (e.behind_blank 44 h) (by decide)

/-- A plain element is one of a list in the plainest spelling. -/
theorem Element.Plain.listed {e : Element} (h : e.Plain) :
    ∃ l : Listed, l.text = e.text ∧ e.coding = some l.coding := by
  obtain ⟨c, hc, hword, hbefore, hbehind⟩ := h
  refine ⟨⟨c, e.before.length, e.behind.length⟩, ?_, hc⟩
  unfold Listed.text Element.text
  rw [← blanks_spaces e.before_blank hbefore, ← blanks_spaces e.behind_blank hbehind, hword]

/-- **An element is read as the name of a coding only if it is plain**, and then as that of its own.
-/
theorem trimAscii_element {e : Element} {c : Coding} (h : trimAscii e.text = encode c.name) :
    e.Plain ∧ e.coding = some c := by
  obtain ⟨i, j, haround⟩ := trimAscii_around e.text
  rw [h] at haround
  have htab : 9 ∉ e.text := by
    rw [haround]
    intro h9
    rcases List.mem_append.1 h9 with h9 | h9
    · rcases List.mem_append.1 h9 with h9 | h9
      · exact absurd (List.eq_of_mem_replicate h9) (by decide)
      · exact (codingName_mem h9).1 rfl
    · exact absurd (List.eq_of_mem_replicate h9) (by decide)
  have hbefore : 9 ∉ e.before := fun h9 =>
    htab (List.mem_append_left _ (List.mem_append_left _ h9))
  have hbehind : 9 ∉ e.behind := fun h9 => htab (List.mem_append_right _ h9)
  have hspaces : e.text = List.replicate e.before.length 32 ++ e.word ++
      List.replicate e.behind.length 32 := by
    rw [← blanks_spaces e.before_blank hbefore, ← blanks_spaces e.behind_blank hbehind]
    rfl
  have hword : e.word = encode c.name := by
    rcases hw : e.word with _ | ⟨b, w⟩
    · -- only spaces, and so no name
      have hblank : ∀ b ∈ e.text, b = 32 := by
        rw [hspaces, hw, List.append_nil]
        intro b hb
        rcases List.mem_append.1 hb with hb | hb
        · exact List.eq_of_mem_replicate hb
        · exact List.eq_of_mem_replicate hb
      obtain ⟨b, hb⟩ := List.exists_mem_of_ne_nil (encode c.name) (by cases c <;> decide)
      refine absurd (hblank b ?_) (codingName_mem hb).2.1
      rw [haround]
      exact List.mem_append_left _ (List.mem_append_right _ hb)
    · have hlast := List.getLast?_eq_some_getLast (List.cons_ne_nil b w)
      have hne : ∀ x ∈ b :: w, x ≠ 32 := by
        rintro x hx rfl
        exact (e.word_mem (hw ▸ hx) (by decide)).2.1 rfl
      have htrim := trimAscii_spaces e.before.length e.behind.length (w := b :: w) rfl hlast
        (hne b List.mem_cons_self) (hne _ (List.getLast_mem _))
      rw [← hw, ← hspaces, h] at htrim
      rw [← hw]
      exact htrim.symm
  have hcoding : e.coding = some c := by
    have hlower := e.word_eq
    rw [hword, codingName_lower] at hlower
    cases hc : e.coding with
    | none =>
      rw [hc] at hlower
      exact absurd hlower (by cases c <;> decide)
    | some c' =>
      rw [hc] at hlower
      exact congrArg some (codingName_inj hlower).symm
  exact ⟨⟨c, hcoding, hword, hbefore, hbehind⟩, hcoding⟩

/-! ## The decoders -/

/-- The decoders for any codings can be made, if `zstd` can make its own. -/
theorem nestDecoders_names (hz : ∀ r, C.zstdDecoder r = .ok ()) (cs : List Coding) (r : Reader) :
    ∃ r', nestDecoders C (cs.map fun c => encode c.name) r = .ok r' := by
  have hone : ∀ (c : Coding) r, ∃ r', decodeOne C c r = .ok r' := by
    intro c r
    cases c with
    | zstd =>
      rw [decodeOne, pickDecoder_zstd, hz r]
      exact ⟨_, rfl⟩
    | gzip => exact ⟨_, rfl⟩
    | xGzip => exact ⟨_, rfl⟩
    | deflate => exact ⟨_, rfl⟩
    | br => exact ⟨_, rfl⟩
    | identity => exact ⟨_, rfl⟩
  induction cs generalizing r with
  | nil => exact ⟨r, rfl⟩
  | cons c cs ih =>
    obtain ⟨r', hr'⟩ := hone c r
    rw [nestDecoders_cons, hr']
    exact ih r'

/-- Decoders are refused with a message of the protocol. -/
theorem pickDecoder_error {x : Bytes} {r : Reader} {e : ProxyError}
    (h : pickDecoder C x r = .error e) : ∃ msg, e = .protocol msg := by
  unfold pickDecoder at h
  split at h
  · exact nomatch h
  split at h
  · exact nomatch h
  split at h
  · exact nomatch h
  split at h
  · split at h
    · exact nomatch h
    · exact ⟨_, (Except.error.inj h).symm⟩
  · exact ⟨_, (Except.error.inj h).symm⟩

/-- **A word that names no coding is refused.** -/
theorem nestDecoders_other {xs : List Bytes} {x : Bytes} (hx : x ∈ xs)
    (hother : ∀ c : Coding, x ≠ encode c.name) (r : Reader) :
    ∃ msg, nestDecoders C xs r = .error (.protocol msg) := by
  induction xs generalizing r with
  | nil => exact absurd hx List.not_mem_nil
  | cons y xs ih =>
    unfold nestDecoders
    by_cases hid : y = lit "identity"
    · rw [if_pos hid]
      refine ih ((List.mem_cons.1 hx).resolve_left ?_) r
      rintro rfl
      exact hother .identity hid
    rw [if_neg hid]
    cases hpick : pickDecoder C y r with
    | error e =>
      obtain ⟨msg, rfl⟩ := pickDecoder_error hpick
      exact ⟨msg, rfl⟩
    | ok r' =>
      refine ih ((List.mem_cons.1 hx).resolve_left ?_) r'
      rintro rfl
      have hgzip : ¬ (x = lit "gzip" ∨ x = lit "x-gzip") :=
        fun h => h.elim (hother .gzip) (hother .xGzip)
      have hdeflate : x ≠ lit "deflate" := hother .deflate
      have hbr : x ≠ lit "br" := hother .br
      have hzstd : x ≠ lit "zstd" := hother .zstd
      unfold pickDecoder at hpick
      rw [if_neg hgzip, if_neg hdeflate, if_neg hbr, if_neg hzstd] at hpick
      cases hpick

/-! ## The header -/

theorem Spells.encodings (h : Spells m lines cs) :
    encodings m = (lines.flatten.map fun e => trimAscii e.text).reverse := by
  have htexts : (m.values contentEncoding).map Subtype.val =
      (lines.map (List.map Element.text)).map [44].intercalate := by
    rw [h.values, List.map_map]
    rfl
  rw [encodings_lines ?_ ?_ htexts, ← List.map_flatten, List.map_map]
  · rfl
  · intro ws hws
    obtain ⟨es, hes, rfl⟩ := List.mem_map.1 hws
    exact fun hnil => h.ne_nil es hes (List.map_eq_nil_iff.1 hnil)
  · intro ws hws w hw
    obtain ⟨es, -, rfl⟩ := List.mem_map.1 hws
    obtain ⟨e, -, rfl⟩ := List.mem_map.1 hw
    exact comma_element e

/-- Plain elements are in the plainest spelling. -/
theorem Spells.lists (h : Spells m lines cs) (hplain : AllPlain lines) : Lists m cs := by
  have hline : ∀ es : List Element, (∀ e ∈ es, e.Plain) → ∃ ls : List Listed,
      ls.map Listed.text = es.map Element.text ∧
        ls.map Listed.coding = es.filterMap Element.coding := by
    intro es hes
    induction es with
    | nil => exact ⟨[], rfl, rfl⟩
    | cons e es ih =>
      obtain ⟨l, hl, hc⟩ := (hes e List.mem_cons_self).listed
      obtain ⟨ls, hls, hcs⟩ := ih fun e' he' => hes e' (List.mem_cons_of_mem _ he')
      refine ⟨l :: ls, ?_, ?_⟩
      · rw [List.map_cons, List.map_cons, hl, hls]
      · rw [List.map_cons, hcs, List.filterMap_cons_some hc]
  obtain ⟨hne, hvalues, rfl⟩ := h
  unfold Lists
  rw [hvalues]
  clear hvalues
  induction lines with
  | nil => exact ⟨[], fun _ h => absurd h List.not_mem_nil, rfl, rfl⟩
  | cons es lines ih =>
    obtain ⟨ls, hls, hcs⟩ := hline es fun e he =>
      hplain e (List.mem_flatten.2 ⟨es, List.mem_cons_self, he⟩)
    obtain ⟨rest, hne', htexts, hcodings⟩ := ih
      (fun e he => by
        obtain ⟨es', hes', he'⟩ := List.mem_flatten.1 he
        exact hplain e (List.mem_flatten.2 ⟨es', List.mem_cons_of_mem _ hes', he'⟩))
      fun es' hes' => hne es' (List.mem_cons_of_mem _ hes')
    refine ⟨ls :: rest, ?_, ?_, ?_⟩
    · intro ls' hls'
      rcases List.mem_cons.1 hls' with rfl | hls'
      · rintro rfl
        exact hne es List.mem_cons_self (List.map_eq_nil_iff.1 hls.symm)
      · exact hne' ls' hls'
    · rw [List.map_cons, List.map_cons, htexts]
      exact congrArg (· :: _) (congrArg [44].intercalate hls.symm)
    · rw [List.flatten_cons, List.map_append, hcs, hcodings, List.flatten_cons,
        List.filterMap_append]

/-- The name of a coding is a value. -/
def Coding.value (c : Coding) : HeaderValue := ⟨encode c.name, by cases c <;> decide⟩

/-- **Every list has a plainest spelling**, with all the other fields as they are. -/
theorem exists_lists (m : HeaderMap) (cs : List Coding) :
    ∃ m', Lists m' cs ∧ SameButEncoding m m' := by
  -- one line for each coding
  have hvalues : ∀ n, HeaderMap.values (cs.map fun c => (contentEncoding, c.value)) n =
      if n = contentEncoding then cs.map Coding.value else [] := by
    intro n
    unfold HeaderMap.values
    by_cases hn : n = contentEncoding
    · subst hn
      simp [List.filter_map, Function.comp_def]
    · have hn' : ¬ contentEncoding = n := fun h => hn h.symm
      simp [hn, hn', List.filter_map, Function.comp_def]
  have happend : ∀ m₁ m₂ : HeaderMap, ∀ n, HeaderMap.values (m₁ ++ m₂) n =
      HeaderMap.values m₁ n ++ HeaderMap.values m₂ n := by
    intro m₁ m₂ n
    unfold HeaderMap.values
    rw [List.filter_append, List.map_append]
  refine ⟨m.remove contentEncoding ++ cs.map fun c => (contentEncoding, c.value), ?_, ?_⟩
  · refine ⟨cs.map fun c => [⟨c, 0, 0⟩], ?_, ?_, ?_⟩
    · intro ls hls
      obtain ⟨c, -, rfl⟩ := List.mem_map.1 hls
      exact List.cons_ne_nil _ _
    · rw [happend, values_remove, if_pos rfl, hvalues, if_pos rfl, List.nil_append, List.map_map,
        List.map_map]
      refine List.map_congr_left fun c _ => ?_
      show encode c.name = ([] ++ encode c.name ++ []) ++ []
      simp
    · clear hvalues
      induction cs with
      | nil => rfl
      | cons c cs ih => exact congrArg (c :: ·) ih
  · intro n hn
    rw [happend, values_remove, if_neg hn, hvalues, if_neg hn, List.append_nil]

/-- Content-Encoding is there, and Content-Length does not say that nothing follows. -/
theorem shouldDecode_iff (m : HeaderMap) :
    shouldDecode m = true ↔ m.values contentEncoding ≠ [] ∧ ¬ LengthZero m := by
  unfold shouldDecode LengthZero HeaderMap.containsKey
  rw [Bool.and_eq_true, Bool.not_eq_true', List.isEmpty_eq_false_iff]
  refine and_congr_right fun _ => ?_
  cases m.get contentLength with
  | none => simp
  | some v => simp

theorem SameButEncoding.lengthZero (h : SameButEncoding m m') : LengthZero m' ↔ LengthZero m := by
  have hget : m'.get contentLength = m.get contentLength := by
    unfold HeaderMap.get
    rw [h contentLength (by decide)]
  unfold LengthZero
  rw [hget]

theorem Lists.values_eq_nil (h : Lists m cs) : m.values contentEncoding = [] ↔ cs = [] := by
  obtain ⟨lines, hne, hvalues, rfl⟩ := h
  rw [← List.map_eq_nil_iff, hvalues, List.map_eq_nil_iff, List.map_eq_nil_iff,
    List.flatten_eq_nil_iff]
  constructor
  · rintro rfl ls hls
    exact absurd hls List.not_mem_nil
  · intro hall
    exact List.eq_nil_iff_forall_not_mem.2 fun ls hls => hne ls hls (hall ls hls)

/-! ## Decoding -/

theorem decodeParts_untouched (h : ¬ shouldDecode m = true) :
    decodeParts C m body = .ok (m, body) := by
  unfold decodeParts
  rw [if_neg h]

theorem LengthZero.untouched (h : LengthZero m) : decodeParts C m body = .ok (m, body) :=
  decodeParts_untouched fun hd => ((shouldDecode_iff m).1 hd).2 h

/-- Under `Content-Length: 0`, no spelling matters. -/
theorem decodeParts_zero (hlen : LengthZero m) (hsame : SameButEncoding m m') :
    Alike Prod.fst Prod.snd (decodeParts C m body) (decodeParts C m' body) := by
  rw [hlen.untouched, (hsame.lengthZero.2 hlen).untouched]
  exact ⟨rfl, hsame⟩

/-- A list in the plainest spelling, decoded. -/
theorem decodeParts_lists (hm : Lists m cs) (hcs : cs ≠ []) (hlen : ¬ LengthZero m) :
    decodeParts C m body = (decodeBody C (cs.reverse.map fun c => encode c.name) body).map
      fun body => (stripEncodingHeaders m, body) := by
  have hdecode : shouldDecode m = true :=
    (shouldDecode_iff m).2 ⟨fun hnil => hcs (hm.values_eq_nil.1 hnil), hlen⟩
  unfold decodeParts
  rw [if_pos hdecode, encodings_lists hm]

theorem decodeBody_fails {e : ProxyError} (h : body.intoBytes = .error e) (xs : List Bytes) :
    decodeBody C xs body = .error e := by
  unfold decodeBody
  rw [h]
  rfl

/-- Two plainest spellings of one list differ in nothing. -/
theorem decodeParts_same (hm : Lists m cs) (hm' : Lists m' cs) (hsame : SameButEncoding m m') :
    Alike Prod.fst Prod.snd (decodeParts C m body) (decodeParts C m' body) := by
  by_cases huntouched : cs = [] ∨ LengthZero m
  · have hm0 : ¬ shouldDecode m = true := by
      rw [shouldDecode_iff, ne_eq, hm.values_eq_nil]
      exact fun h => huntouched.elim h.1 h.2
    have hm0' : ¬ shouldDecode m' = true := by
      rw [shouldDecode_iff, ne_eq, hm'.values_eq_nil, hsame.lengthZero]
      exact fun h => huntouched.elim h.1 h.2
    rw [decodeParts_untouched hm0, decodeParts_untouched hm0']
    exact ⟨rfl, hsame⟩
  · obtain ⟨hcs, hlen⟩ := not_or.1 huntouched
    rw [decodeParts_lists hm hcs hlen, decodeParts_lists hm' hcs (hsame.lengthZero.not.2 hlen)]
    cases decodeBody C (cs.reverse.map fun c => encode c.name) body with
    | error e => exact rfl
    | ok out =>
      refine ⟨rfl, fun n hn => ?_⟩
      show (stripEncodingHeaders m').values n = (stripEncodingHeaders m).values n
      unfold stripEncodingHeaders
      rw [values_remove, values_remove, values_remove, values_remove, if_neg hn, if_neg hn,
        hsame n hn]

/-- **Any other spelling is an error**: that of the body, or one of the protocol. -/
theorem decodeParts_other (C : Codecs) (body : Body) (h : Spells m lines cs)
    (hlen : ¬ LengthZero m) (hother : ¬ AllPlain lines) : ∃ e, decodeParts C m body = .error e ∧
      (body.intoBytes = .error e ∨ ∃ bs msg, body.intoBytes = .ok bs ∧ e = .protocol msg) := by
  obtain ⟨el, hel, hnot⟩ : ∃ el ∈ lines.flatten, ¬ el.Plain := by
    unfold AllPlain at hother
    push Not at hother
    exact hother
  have hdecode : shouldDecode m = true := by
    refine (shouldDecode_iff m).2 ⟨fun hnil => ?_, hlen⟩
    have hvalues := h.values
    rw [hnil, List.map_nil] at hvalues
    rw [List.map_eq_nil_iff.1 hvalues.symm] at hel
    exact absurd hel List.not_mem_nil
  have hmem : trimAscii el.text ∈ encodings m := by
    rw [h.encodings, List.mem_reverse]
    exact List.mem_map.2 ⟨el, hel, rfl⟩
  have hname : ∀ c : Coding, trimAscii el.text ≠ encode c.name :=
    fun c htrim => hnot (trimAscii_element htrim).1
  unfold decodeParts
  rw [if_pos hdecode]
  cases hbody : body.intoBytes with
  | error e =>
    refine ⟨e, ?_, .inl rfl⟩
    rw [decodeBody_fails hbody]
    rfl
  | ok bs =>
    obtain ⟨msg, hnest⟩ := nestDecoders_other (C := C) hmem hname ⟨bs, none⟩
    refine ⟨.protocol msg, ?_, .inr ⟨bs, msg, rfl, rfl⟩⟩
    unfold decodeBody
    rw [hbody]
    show Except.map _ ((nestDecoders C (encodings m) ⟨bs, none⟩).bind _) = _
    rw [hnest]
    rfl

/-- In the plainest spelling, a body that arrives is never refused for the protocol. -/
theorem decodeBody_names (hz : ∀ r, C.zstdDecoder r = .ok ()) {bs : Bytes}
    (hbody : body.intoBytes = .ok bs) (cs : List Coding) (msg : String) :
    decodeBody C (cs.map fun c => encode c.name) body ≠ .error (.protocol msg) := by
  obtain ⟨r, hr⟩ := nestDecoders_names hz cs ⟨bs, none⟩
  unfold decodeBody
  rw [hbody]
  show (nestDecoders C (cs.map fun c => encode c.name) ⟨bs, none⟩).bind _ ≠ _
  rw [hr]
  show (r.readToEnd.mapError fun e => ProxyError.io e.kind).bind _ ≠ _
  cases r.readToEnd with
  | ok out => exact fun h => nomatch h
  | error e => exact fun h => nomatch h

/-- **When a message is decoded as in the plainest spelling.** -/
theorem decodeParts_alike_iff (hz : ∀ r, C.zstdDecoder r = .ok ()) (h : Spells m lines cs) :
    (∀ m', Lists m' cs → SameButEncoding m m' →
      Alike Prod.fst Prod.snd (decodeParts C m body) (decodeParts C m' body)) ↔
    LengthZero m ∨ (cs ≠ [] ∧ body.Fails) ∨ AllPlain lines := by
  constructor
  · intro halike
    by_contra hnone
    obtain ⟨hlen, hnone⟩ := not_or.1 hnone
    obtain ⟨hfails, hother⟩ := not_or.1 hnone
    obtain ⟨m', hm', hsame⟩ := exists_lists m cs
    have hm := halike m' hm' hsame
    obtain ⟨e, herror, he⟩ := decodeParts_other C body h hlen hother
    rw [herror] at hm
    by_cases hcs : cs = []
    · -- nothing is to be decoded
      have huntouched : ¬ shouldDecode m' = true := by
        rw [shouldDecode_iff]
        exact fun hboth => hboth.1 (hm'.values_eq_nil.2 hcs)
      rw [decodeParts_untouched huntouched] at hm
      exact hm
    · rw [decodeParts_lists hm' hcs (hsame.lengthZero.not.2 hlen)] at hm
      rcases he with he | ⟨bs, msg, hbs, rfl⟩
      · exact hfails ⟨hcs, e, he⟩
      · have hnames := decodeBody_names hz hbs cs.reverse msg
        generalize decodeBody C (cs.reverse.map fun c => encode c.name) body = x at hm hnames
        cases x with
        | ok out => exact hm
        | error e => exact hnames (congrArg Except.error hm.symm)
  · rintro (hlen | ⟨hcs, e, he⟩ | hplain) m' hm' hsame
    · exact decodeParts_zero hlen hsame
    · by_cases hplain : AllPlain lines
      · exact decodeParts_same (h.lists hplain) hm' hsame
      by_cases hlen : LengthZero m
      · exact decodeParts_zero hlen hsame
      · -- both fail with the body
        obtain ⟨e', herror, he'⟩ := decodeParts_other C body h hlen hplain
        rw [herror, decodeParts_lists hm' hcs (hsame.lengthZero.not.2 hlen), decodeBody_fails he]
        rcases he' with he' | ⟨bs, msg, hbs, -⟩
        · exact Except.error.inj (he'.symm.trans he)
        · exact nomatch hbs.symm.trans he
    · exact decodeParts_same (h.lists hplain) hm' hsame

/-- **When a body that was encoded correctly is decoded.** -/
theorem decodeParts_ok_iff (hC : C.Invert) (h : Spells m lines cs) {b out : Bytes}
    (happlied : applyCodings C cs (.full b) = .ok (.full out)) (hbody : body.Carries out) :
    (∃ p, decodeParts C m body = .ok p) ↔ LengthZero m ∨ AllPlain lines := by
  constructor
  · rintro ⟨p, hp⟩
    by_contra hnone
    obtain ⟨hlen, hother⟩ := not_or.1 hnone
    obtain ⟨e, herror, -⟩ := decodeParts_other C body h hlen hother
    exact nomatch herror.symm.trans hp
  · rintro (hlen | hplain)
    · exact ⟨_, hlen.untouched⟩
    have hm := h.lists hplain
    by_cases hcs : cs = []
    · refine ⟨_, decodeParts_untouched fun hd => ?_⟩
      exact ((shouldDecode_iff m).1 hd).1 (hm.values_eq_nil.2 hcs)
    by_cases hlen : LengthZero m
    · exact ⟨_, hlen.untouched⟩
    · exact ⟨_, decodeParts_applied hC hcs happlied hm (fun v hv h0 => hlen ⟨v, hv, h0⟩) hbody⟩

/-! ## Messages -/

/-- What is put together from the parts is as they are. -/
theorem alike_map {α β : Type} {headers : α → HeaderMap} {rest : α → β}
    {f : HeaderMap × Body → α} (hheaders : ∀ p, headers (f p) = p.1)
    (hrest : ∀ p q, rest (f p) = rest (f q) ↔ p.2 = q.2)
    (x y : Except ProxyError (HeaderMap × Body)) :
    Alike headers rest (x.map f) (y.map f) ↔ Alike Prod.fst Prod.snd x y := by
  cases x with
  | error e => cases y <;> exact Iff.rfl
  | ok p =>
    cases y with
    | error e => exact Iff.rfl
    | ok q =>
      show rest (f p) = rest (f q) ∧ SameButEncoding (headers (f p)) (headers (f q)) ↔ _
      rw [hrest, hheaders, hheaders]
      exact Iff.rfl

theorem decodesAsPlain_iff (req : Request) (cs : List Coding) : DecodesAsPlain C req cs ↔
    ∀ m, Lists m cs → SameButEncoding req.headers m → Alike Prod.fst Prod.snd
      (decodeParts C req.headers req.body) (decodeParts C m req.body) := by
  refine forall_congr' fun m => forall_congr' fun _ => forall_congr' fun _ => ?_
  refine alike_map (f := fun p => { req with headers := p.1, body := p.2 }) ?_ ?_
    (decodeParts C req.headers req.body) (decodeParts C m req.body)
  · exact fun _ => rfl
  · exact fun p q => by simp [Request.bare]

theorem decodesResponseAsPlain_iff (res : Response) (cs : List Coding) :
    DecodesResponseAsPlain C res cs ↔
    ∀ m, Lists m cs → SameButEncoding res.headers m → Alike Prod.fst Prod.snd
      (decodeParts C res.headers res.body) (decodeParts C m res.body) := by
  refine forall_congr' fun m => forall_congr' fun _ => forall_congr' fun _ => ?_
  refine alike_map (f := fun p => { res with headers := p.1, body := p.2 }) ?_ ?_
    (decodeParts C res.headers res.body) (decodeParts C m res.body)
  · exact fun _ => rfl
  · exact fun p q => by simp [Response.bare]

/-- What is made of a result, and the result. -/
theorem map_ok_iff {α β : Type} (x : Except ProxyError α) (f : α → β) (P : β → Prop) :
    (∃ b, x.map f = .ok b ∧ P b) ↔ ∃ a, x = .ok a ∧ P (f a) := by
  cases x with
  | error e =>
    constructor
    · rintro ⟨b, h, -⟩
      exact nomatch h
    · rintro ⟨a, h, -⟩
      exact nomatch h
  | ok a =>
    constructor
    · rintro ⟨b, h, hb⟩
      obtain rfl := Except.ok.inj h
      exact ⟨a, rfl, hb⟩
    · rintro ⟨a', h, ha⟩
      obtain rfl := Except.ok.inj h
      exact ⟨f a, rfl, ha⟩

theorem exists_map_ok {α β : Type} (x : Except ProxyError α) (f : α → β) :
    (∃ b, x.map f = .ok b) ↔ ∃ a, x = .ok a := by
  have h := map_ok_iff x f fun _ => True
  simp only [and_true] at h
  exact h

/-- **Which spellings are read**: requests and responses are decoded as in the plainest spelling of
their codings just if that is theirs, if they are not decoded at all, or if their body breaks off;
and a body that was encoded correctly is decoded in no other spelling. -/
theorem decode_spelled_iff (C : Codecs) (hz : ∀ r, C.zstdDecoder r = .ok ())
    (lines : List (List Element)) (cs : List Coding) :
    (∀ req : Request, Spells req.headers lines cs →
      (DecodesAsPlain C req cs ↔
        LengthZero req.headers ∨ (cs ≠ [] ∧ req.body.Fails) ∨ AllPlain lines) ∧
      (C.Invert → ∀ b out, applyCodings C cs (.full b) = .ok (.full out) → req.body.Carries out →
        ((∃ q, decodeRequest C req = .ok q) ↔ LengthZero req.headers ∨ AllPlain lines))) ∧
    (∀ res : Response, Spells res.headers lines cs →
      (DecodesResponseAsPlain C res cs ↔
        LengthZero res.headers ∨ (cs ≠ [] ∧ res.body.Fails) ∨ AllPlain lines) ∧
      (C.Invert → ∀ b out, applyCodings C cs (.full b) = .ok (.full out) → res.body.Carries out →
        ((∃ q, decodeResponse C res = .ok q) ↔ LengthZero res.headers ∨ AllPlain lines))) := by
  constructor
  · intro req h
    refine ⟨?_, fun hC b out happlied hbody => ?_⟩
    · rw [decodesAsPlain_iff]
      exact decodeParts_alike_iff hz h
    · exact (exists_map_ok _ _).trans (decodeParts_ok_iff hC h happlied hbody)
  · intro res h
    refine ⟨?_, fun hC b out happlied hbody => ?_⟩
    · rw [decodesResponseAsPlain_iff]
      exact decodeParts_alike_iff hz h
    · exact (exists_map_ok _ _).trans (decodeParts_ok_iff hC h happlied hbody)

/-- `hi`, with the mark of `gzip`, under a Content-Encoding of this value. -/
def gzipRequest (v : HeaderValue) : Request :=
  { encodedRequest with headers := [(contentEncoding, v)], body := .full (0 :: lit "hi") }

/-- `GZIP` is not read; nor is `gzip` before a comma or behind a tab. -/
theorem decode_unread :
    (¬ ∀ (req : Request) lines cs b out, Spells req.headers lines cs →
      applyCodings sampleCodecs cs (.full b) = .ok (.full out) → req.body.Carries out →
      ∃ q, decodeRequest sampleCodecs req = .ok q) ∧
    (∀ q, decodeRequest sampleCodecs (gzipRequest ⟨lit "gzip,", by decide⟩) ≠ .ok q) ∧
    (∀ q, decodeRequest sampleCodecs (gzipRequest ⟨lit "identity,\tgzip", by decide⟩) ≠ .ok q) := by
  have hrefused : ∀ v : HeaderValue, (decodeRequest sampleCodecs (gzipRequest v)).isOk = false →
      ∀ q, decodeRequest sampleCodecs (gzipRequest v) ≠ .ok q := by
    intro v hv q hq
    rw [hq] at hv
    exact Bool.noConfusion hv
  refine ⟨fun hall => ?_, hrefused _ (by decide +kernel), hrefused _ (by decide +kernel)⟩
  obtain ⟨q, hq⟩ := hall (gzipRequest ⟨lit "GZIP", by decide⟩)
    [[⟨some .gzip, lit "GZIP", [], [], by decide, by decide, by decide⟩]] [.gzip] (lit "hi")
    (0 :: lit "hi") ⟨by simp, by decide, by decide⟩ rfl (.inl rfl)
  exact hrefused _ (by decide +kernel) q hq

/-- The elements of the lines of `encodedRequest`. -/
def encodedLines : List (List Element) :=
  [[⟨some .deflate, lit "deflate", [], [32], by decide, by decide, by decide⟩,
    ⟨some .identity, lit "identity", [32], [], by decide, by decide, by decide⟩],
    [⟨some .identity, lit "identity", [32], [], by decide, by decide, by decide⟩]]

/-- They are plain, and the body is decoded. -/
theorem decode_spelled_deflate :
    DecodesAsPlain sampleCodecs encodedRequest [.deflate, .identity, .identity] ∧
    ∃ q, decodeRequest sampleCodecs encodedRequest = .ok q := by
  have hplain : AllPlain encodedLines := by
    intro e he
    simp only [encodedLines, List.flatten_cons, List.flatten_nil, List.append_nil, List.cons_append,
      List.nil_append, List.mem_cons, List.not_mem_nil, or_false] at he
    rcases he with rfl | rfl | rfl
    · exact ⟨.deflate, rfl, by decide, by decide, by decide⟩
    · exact ⟨.identity, rfl, by decide, by decide, by decide⟩
    · exact ⟨.identity, rfl, by decide, by decide, by decide⟩
  obtain ⟨halike, hok⟩ := (decode_spelled_iff sampleCodecs (fun _ => rfl) encodedLines
    [.deflate, .identity, .identity]).1 encodedRequest ⟨by simp [encodedLines], by decide, by decide⟩
  refine ⟨halike.2 (.inr (.inr hplain)), ?_⟩
  exact (hok sampleCodecs_invert (lit "hello") zlibHello rfl
    (.inr ⟨[.data (zlibHello.take 4), .data (zlibHello.drop 4)], rfl, by decide⟩)).2 (.inr hplain)

end HexbufferProxy
