import HexbufferProxy.Proof.Parse

/-!
# Parsing what was serialized

* `parses_wireFields`: the builder gets back the fields of a header map of texts.
* `parse_serializeRequest`, `parse_serializeResponse`: the two round trips.
* `parseRawRequest_isWire`: every request that the parser returns takes part.
* `parse_serialize`: the three together.
-/

namespace HexbufferProxy

open Rust

/-! ## Header maps -/

/-- A text value is read as it was written. -/
theorem parse_text {v : HeaderValue} (hv : v.IsText) :
    HeaderValue.parse (trim (fromUtf8Lossy (32 :: v.1))) = some v := by
  obtain ⟨t, ht, htrim⟩ := hv
  have hlossy : fromUtf8Lossy v.1 = t := by
    rw [ht, lossy_encode_self]
  have hblank : trim (' ' :: t) = t := by
    have hnil : ∀ c ∈ ([] : Str), isWhitespace c = true := by simp
    have h := trim_around (w := [' ']) (by decide) hnil t
    rw [List.append_nil] at h
    exact h.trans htrim
  have hok : (encode t).all isValueByte = true := ht ▸ v.2
  rw [lossy_cons_ascii (by decide), hlossy]
  show HeaderValue.parse (trim (' ' :: t)) = _
  rw [hblank]
  unfold HeaderValue.parse
  rw [dif_pos hok]
  exact congrArg some (Subtype.ext ht.symm)

theorem parses_wireFields {m : HeaderMap} (hm : ∀ p ∈ m, p.2.IsText) :
    Parses ((wireFields m).map fun f => (f.name, f.value)) m := by
  induction m with
  | nil => exact List.Forall₂.nil
  | cons p m ih =>
    have hname : HeaderName.parse p.1.1 = some p.1 := by
      unfold HeaderName.parse
      have hok : p.1.1.map Char.toLower ≠ [] ∧ (p.1.1.map Char.toLower).all isNameChar = true := by
        rw [name_lower]
        exact p.1.2
      rw [dif_pos hok]
      exact congrArg some (Subtype.ext (name_lower p.1))
    exact List.Forall₂.cons ⟨hname, parse_text (hm p List.mem_cons_self)⟩
      (ih fun q hq => hm q (List.mem_cons_of_mem p hq))

theorem sameHeaders_appendAll (m : HeaderMap) : SameHeaders (appendAll [] m) m := by
  intro n
  rw [values_appendAll]
  rfl

/-! ## The two round trips -/

theorem headerBytes_wire (m : HeaderMap) :
    m.map headerBytes = (wireFields m).map WireField.bytes := by
  unfold wireFields
  rw [List.map_map]
  apply List.map_congr_left
  intro p _
  show encode p.1.1 ++ [58, 32] ++ p.2.1 = encode p.1.1 ++ 58 :: 32 :: p.2.1
  rw [List.append_assoc]
  rfl

theorem serializeRequest_eq (r : Request) : serializeRequest r =
    headBytes (requestLine r.method r.uri.display) (wireFields r.headers) ++ r.body.fullBytes := by
  have hspace : String.utf8EncodeChar ' ' = [32] := by decide
  have hversion : lit " HTTP/1.1\r\n" = encode " HTTP/1.1".toList ++ [13, 10] := by decide
  unfold serializeRequest headBytes requestLine
  rw [serializeHeaders_eq, headerBytes_wire, hversion]
  simp only [encode_append, encode_cons, hspace, List.append_assoc]

theorem serializeResponseHead_wire (http : HttpCrate) (res : Response) :
    serializeResponseHead http res =
      headBytes (statusText http res) (wireFields res.headers) := by
  rw [serializeResponseHead_eq, headerBytes_wire]
  rfl

/-- **A request that survives the wire is parsed back**, whatever its body holds. -/
theorem parse_serializeRequest (http : HttpCrate) {r : Request} (hr : r.IsWire)
    (huri : http.parseUri r.uri.display = some r.uri) :
    ∃ r', parseRawRequest http (serializeRequest r) = .ok r' ∧ SameRequest r' r := by
  obtain ⟨bs, hbody⟩ := hr.body
  have hline := requestLine_line r.method hr.uri_word
  refine ⟨⟨r.method, r.uri, appendAll [] r.headers, .full bs⟩, ?_,
    ⟨rfl, rfl, sameHeaders_appendAll r.headers, hbody.symm⟩⟩
  rw [serializeRequest_eq, hbody, parseRawRequest_eq (lines_headBytes hline _ _) hr.uri_word huri,
    headerFields_head, buildHeaders_eq (parses_wireFields hr.values),
    bodyAfterHead_headBytes hline]
  rfl

theorem parse_serializeResponse (http : HttpCrate) {res : Response} (hres : res.IsWire) :
    ∃ res', parseRawResponse (serializeResponse http res) = .ok res' ∧ SameResponse res' res := by
  obtain ⟨bs, hbody⟩ := hres.body
  have htext := statusText_line http res
  have hline : IsFirstLine (statusText http res) :=
    ⟨fun h => (htext _ h).2.1 rfl, fun h => (htext _ h).2.2 rfl⟩
  have hstatus : StatusCode.parse res.status.1 = some res.status := dif_pos res.status.2
  refine ⟨⟨res.status, appendAll [] res.headers, .full bs⟩, ?_,
    ⟨rfl, sameHeaders_appendAll res.headers, hbody.symm⟩⟩
  unfold serializeResponse
  rw [serializeResponseHead_wire, hbody]
  simp only [Body.fullBytes, parseRawResponse, bodyAfterHead_headBytes hline,
    lines_headBytes hline, List.tail_cons, headerFields_head, List.head?_cons, Option.getD_some,
    words_statusText, (status_spec res.status).2.2, hstatus,
    buildHeaders_eq (parses_wireFields hres.values)]

/-! ## What the parser returns -/

theorem wordsFrom_words : ∀ (s word : Str), (∀ c ∈ word, isWhitespace c = false) →
    ∀ w ∈ wordsFrom word s, IsWord w := by
  intro s
  induction s with
  | nil =>
    intro word hword w hw
    unfold wordsFrom at hw
    split at hw
    · exact absurd hw List.not_mem_nil
    · rename_i hne
      rw [List.mem_singleton.1 hw]
      exact ⟨hne, hword⟩
  | cons c s ih =>
    intro word hword w hw
    unfold wordsFrom at hw
    by_cases hc : isWhitespace c = true
    · rw [if_pos hc] at hw
      split at hw
      · exact ih [] (by simp) w hw
      · rename_i hne
        rcases List.mem_cons.1 hw with rfl | hw
        · exact ⟨hne, hword⟩
        · exact ih [] (by simp) w hw
    · rw [if_neg hc] at hw
      apply ih (word ++ [c]) _ w hw
      intro d hd
      rcases List.mem_append.1 hd with hd | hd
      · exact hword d hd
      · rw [List.mem_singleton.1 hd]
        simpa using hc

/-- The pieces of `split_whitespace` are words. -/
theorem splitWhitespace_words {s w : Str} (hw : w ∈ splitWhitespace s) : IsWord w :=
  wordsFrom_words s [] (by simp) w hw

/-- The header loop trims every value. -/
theorem headerFields_trimmed (ls : List Str) : ∀ f ∈ headerFields ls, trim f.2 = f.2 := by
  induction ls with
  | nil => intro f hf; exact absurd hf List.not_mem_nil
  | cons l ls ih =>
    intro f hf
    unfold headerFields at hf
    split at hf
    · exact absurd hf List.not_mem_nil
    · split at hf
      · rcases List.mem_cons.1 hf with rfl | hf
        · exact trim_trim _
        · exact ih f hf
      · exact ih f hf

theorem mem_append_header {m : HeaderMap} {n : HeaderName} {v : HeaderValue}
    {p : HeaderName × HeaderValue} (hp : p ∈ HeaderMap.append m n v) : p ∈ m ∨ p = (n, v) := by
  induction m with
  | nil => exact Or.inr (List.mem_singleton.1 hp)
  | cons q m ih =>
    unfold HeaderMap.append at hp
    split at hp
    · rcases List.mem_cons.1 hp with rfl | hp
      · exact Or.inl List.mem_cons_self
      · rcases List.mem_cons.1 hp with rfl | hp
        · exact Or.inr rfl
        · exact Or.inl (List.mem_cons_of_mem q hp)
    · rcases List.mem_cons.1 hp with rfl | hp
      · exact Or.inl List.mem_cons_self
      · rcases ih hp with h | h
        · exact Or.inl (List.mem_cons_of_mem q h)
        · exact Or.inr h

theorem mem_appendAll {ps : List (HeaderName × HeaderValue)} {m : HeaderMap}
    {p : HeaderName × HeaderValue} (hp : p ∈ appendAll m ps) : p ∈ m ∨ p ∈ ps := by
  induction ps generalizing m with
  | nil => exact Or.inl hp
  | cons q ps ih =>
    rcases ih hp with h | h
    · rcases mem_append_header h with h | h
      · exact Or.inl h
      · exact Or.inr (h ▸ List.mem_cons_self)
    · exact Or.inr (List.mem_cons_of_mem q h)

/-- Values built from trimmed texts are texts. -/
theorem parses_text {fields : List (Str × Str)} {ps : List (HeaderName × HeaderValue)}
    (h : Parses fields ps) (htrim : ∀ f ∈ fields, trim f.2 = f.2) : ∀ p ∈ ps, p.2.IsText := by
  induction h with
  | nil => intro p hp; exact absurd hp List.not_mem_nil
  | @cons f p fields ps hf _ ih =>
    intro q hq
    rcases List.mem_cons.1 hq with rfl | hq
    · have hv := hf.2
      unfold HeaderValue.parse at hv
      split at hv
      · refine ⟨f.2, ?_, htrim f List.mem_cons_self⟩
        rw [← Option.some.inj hv]
      · exact nomatch hv
    · exact ih (fun g hg => htrim g (List.mem_cons_of_mem f hg)) q hq

/-- The header map of a message that the parsers return holds texts. -/
theorem buildHeaders_text {ls : List Str} {m : HeaderMap}
    (h : buildHeaders [] (headerFields ls) = some m) : ∀ p ∈ m, p.2.IsText := by
  intro p hp
  obtain ⟨ps, hps, rfl⟩ := buildHeaders_some h
  rcases mem_appendAll hp with hp | hp
  · exact absurd hp List.not_mem_nil
  · exact parses_text hps (headerFields_trimmed _) p hp

/-- **Every request that the parser returns survives the wire**, when words parse to URIs that
are words. -/
theorem parseRawRequest_isWire {http : HttpCrate}
    (hword : ∀ s u, IsWord s → http.parseUri s = some u → IsWord u.display) {raw : Bytes}
    {r : Request} (h : parseRawRequest http raw = .ok r) : r.IsWire := by
  obtain ⟨huri, hheaders, hbody⟩ := parseRawRequest_ok h
  refine ⟨⟨_, hbody⟩, buildHeaders_text hheaders, ?_⟩
  refine hword _ r.uri ?_ huri
  cases hw : (splitWhitespace ((lines (fromUtf8Lossy raw)).head?.getD []))[1]? with
  | none => decide
  | some w =>
    obtain ⟨hlt, hget⟩ := List.getElem?_eq_some_iff.1 hw
    exact splitWhitespace_words (hget ▸ List.getElem_mem hlt)

/-- **Serializing and parsing again changes nothing** in a message of text values with a full body,
and every request that the parser returns is one. -/
theorem parse_serialize (http : HttpCrate)
    (hword : ∀ s u, IsWord s → http.parseUri s = some u → IsWord u.display) :
    (∀ r : Request, r.IsWire → http.parseUri r.uri.display = some r.uri →
      ∃ r', parseRawRequest http (serializeRequest r) = .ok r' ∧ SameRequest r' r) ∧
    (∀ raw r, parseRawRequest http raw = .ok r → r.IsWire) ∧
    ∀ res : Response, res.IsWire →
      ∃ res', parseRawResponse (serializeResponse http res) = .ok res' ∧ SameResponse res' res :=
  ⟨fun _ hr huri => parse_serializeRequest http hr huri,
    fun _ _ h => parseRawRequest_isWire hword h, fun _ hres => parse_serializeResponse http hres⟩

/-! ## An example -/

theorem displayPath_word {s : Str} (hs : ∀ c ∈ s, isWhitespace c = false) :
    IsWord (Uri.displayPath (HttpCrate.pathOf s)) := by
  have hpath : ∀ c ∈ (HttpCrate.pathOf s).1, isWhitespace c = false := by
    intro c hc
    unfold HttpCrate.pathOf at hc
    split at hc
    · exact hs c ((List.takeWhile_prefix _).mem hc)
    · exact absurd hc List.not_mem_nil
  unfold Uri.displayPath
  split
  · rename_i hhead
    refine ⟨?_, hpath⟩
    intro h0
    rw [h0] at hhead
    exact nomatch hhead
  · refine ⟨by simp, ?_⟩
    intro c hc
    rcases List.mem_cons.1 hc with rfl | hc
    · decide
    · exact hpath c hc

/-- The simple URI parser makes words of words. -/
theorem parseTarget_word (s : Str) (u : Uri) (hs : IsWord s)
    (h : HttpCrate.parseTarget s = some u) : IsWord u.display := by
  unfold HttpCrate.parseTarget at h
  rw [if_neg hs.1] at h
  split_ifs at h with hstar hslash
  · rw [← Option.some.inj h]
    decide
  · rw [← Option.some.inj h]
    exact displayPath_word hs.2
  · split at h
    · rename_i scheme r hsplit
      rw [← Option.some.inj h]
      obtain ⟨heq, -⟩ := splitOnce_eq hsplit
      have hchars : (∀ c ∈ scheme, isWhitespace c = false) ∧ ∀ c ∈ r, isWhitespace c = false := by
        constructor <;> intro c hc <;> apply hs.2 c <;> rw [heq] <;> simp [hc]
      have hpath := displayPath_word (s := r.dropWhile fun c => !endsAuthority c)
        fun c hc => hchars.2 c ((List.dropWhile_suffix _).mem hc)
      have hsep : ∀ c ∈ "://".toList, isWhitespace c = false := by decide
      refine ⟨by unfold Uri.display; simp, ?_⟩
      intro c hc
      unfold Uri.display at hc
      simp only [List.mem_append] at hc
      rcases hc with ((hc | hc) | hc) | hc
      · exact hchars.1 c hc
      · exact hsep c hc
      · exact hchars.2 c ((List.takeWhile_prefix _).mem hc)
      · exact hpath.2 c hc
    · rw [← Option.some.inj h]
      exact hs

/-- A request whose body holds an empty line and a byte that is no UTF-8. -/
def binaryPost : Request :=
  ⟨.post, .origin ⟨"/a?b".toList, by decide⟩,
    [(hostName, exampleHost), (contentLengthName, ⟨lit "6", by decide⟩)],
    .full (crlfcrlf ++ [0xFF, 0])⟩

theorem isText_lit {v : HeaderValue} {s : String} (hv : v.1 = lit s)
    (htrim : trim s.toList = s.toList) : v.IsText := ⟨s.toList, hv, htrim⟩

theorem binaryPost_isWire : binaryPost.IsWire where
  body := ⟨_, rfl⟩
  values p hp := by
    rcases List.mem_cons.1 hp with rfl | hp
    · exact isText_lit (s := "a.example") rfl (by decide)
    · rw [List.mem_singleton.1 hp]
      exact isText_lit (s := "6") rfl (by decide)
  uri_word := by decide

theorem parse_serialize_binary :
    ∃ r', parseRawRequest HttpCrate.basic (serializeRequest binaryPost) = .ok r' ∧
      SameRequest r' binaryPost :=
  (parse_serialize HttpCrate.basic parseTarget_word).1 binaryPost binaryPost_isWire
    (by decide +kernel)

end HexbufferProxy
