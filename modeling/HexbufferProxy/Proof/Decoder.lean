import HexbufferProxy.Spec.Codings

/-!
# Decoding undoes the codings

* `encodings_lines`: what is read are the elements of all lines, the last one first.
* `encodings_lists`: the codings come back from any way of listing them.
* `nestDecoders_applied`: the decoders for the codings in this order, one around the other, yield
  the body. The induction is on the codings from the last one back: the outermost decoder undoes
  what was done last.
* `decode_undoes`: requests and responses.
-/

namespace HexbufferProxy

open Rust

variable {C : Codecs} {m : HeaderMap} {cs : List Coding} {b out : Bytes}

/-! ## The header -/

theorem findIdx_spaces (k : ℕ) {c : UInt8} (hc : c ≠ 32) (s : Bytes) :
    (List.replicate k 32 ++ c :: s).findIdx? (· != 32) = some k := by
  induction k with
  | zero =>
    have hne : (c != 32) = true := bne_iff_ne.2 hc
    rw [List.replicate_zero, List.nil_append, List.findIdx?_cons, hne]
    rfl
  | succ k ih =>
    rw [List.replicate_succ, List.cons_append, List.findIdx?_cons]
    simp only [bne_self_eq_false, ih]
    rfl

/-- Spaces around a word go, and nothing else. -/
theorem trimAscii_spaces {w : Bytes} (i j : ℕ) {c d : UInt8} (hc : w.head? = some c)
    (hd : w.getLast? = some d) (hc32 : c ≠ 32) (hd32 : d ≠ 32) :
    trimAscii (List.replicate i 32 ++ w ++ List.replicate j 32) = w := by
  obtain ⟨t, rfl⟩ : ∃ t, w = c :: t := by
    cases w with
    | nil => exact nomatch hc
    | cons x t => exact ⟨t, by rw [Option.some.inj hc]⟩
  have hrev : ∃ t', (c :: t).reverse = d :: t' := by
    rw [← List.head?_reverse] at hd
    cases h : (c :: t).reverse with
    | nil => rw [h] at hd; exact nomatch hd
    | cons x t' => rw [h] at hd; exact ⟨t', by rw [Option.some.inj hd]⟩
  obtain ⟨t', ht'⟩ := hrev
  -- the first byte that is no space, from either end
  have hstart : (List.replicate i 32 ++ (c :: t) ++ List.replicate j 32).findIdx? (· != 32) =
      some i := by
    rw [List.append_assoc, List.cons_append]
    exact findIdx_spaces i hc32 _
  have hstop : (List.replicate i 32 ++ (c :: t) ++ List.replicate j 32).reverse.findIdx?
      (· != 32) = some j := by
    rw [List.reverse_append, List.reverse_append, List.reverse_replicate, ht', List.cons_append]
    exact findIdx_spaces j hd32 _
  have hlen : (List.replicate i 32 ++ (c :: t) ++ List.replicate j 32).length - j =
      (List.replicate i (32 : UInt8) ++ (c :: t)).length := by
    simp only [List.length_append, List.length_replicate]
    omega
  unfold trimAscii
  simp only [hstart, hstop, Option.getD_some, Option.map_some, hlen]
  rw [List.take_left, List.drop_left' List.length_replicate]

theorem trimAscii_listed (l : Listed) : trimAscii l.text = encode l.coding.name := by
  unfold Listed.text
  cases l.coding with
  | gzip => exact trimAscii_spaces _ _ rfl rfl (by decide) (by decide)
  | xGzip => exact trimAscii_spaces _ _ rfl rfl (by decide) (by decide)
  | deflate => exact trimAscii_spaces _ _ rfl rfl (by decide) (by decide)
  | br => exact trimAscii_spaces _ _ rfl rfl (by decide) (by decide)
  | zstd => exact trimAscii_spaces _ _ rfl rfl (by decide) (by decide)
  | identity => exact trimAscii_spaces _ _ rfl rfl (by decide) (by decide)

theorem comma_listed (l : Listed) : (44 : UInt8) ∉ l.text := by
  have hname : (44 : UInt8) ∉ encode l.coding.name := by
    cases l.coding <;> decide
  unfold Listed.text
  simp only [List.mem_append, List.mem_replicate, not_or, not_and]
  exact ⟨⟨fun _ => by decide, hname⟩, fun _ => by decide⟩

/-- **What is read of Content-Encoding**: the elements of all lines, the last one first. -/
theorem encodings_lines {lines : List (List Bytes)} (hne : ∀ ws ∈ lines, ws ≠ [])
    (hcomma : ∀ ws ∈ lines, ∀ w ∈ ws, (44 : UInt8) ∉ w)
    (h : (m.values contentEncoding).map Subtype.val = lines.map [44].intercalate) :
    encodings m = (lines.flatten.map trimAscii).reverse := by
  have hflat : encodings m =
      ((m.values contentEncoding).map Subtype.val).reverse.flatMap fun w =>
        (w.splitOn 44).reverse.map trimAscii := by
    unfold encodings
    rw [← List.map_reverse, List.flatMap_map]
  rw [hflat, h, ← List.map_reverse, List.flatMap_map]
  clear hflat h
  induction lines with
  | nil => rfl
  | cons ws lines ih =>
    have hsplit : ([44].intercalate ws).splitOn 44 = ws :=
      List.splitOn_intercalate 44 (hcomma ws List.mem_cons_self) (hne ws List.mem_cons_self)
    rw [List.reverse_cons, List.flatMap_append, ih (fun v hv => hne v (List.mem_cons_of_mem _ hv))
      fun v hv => hcomma v (List.mem_cons_of_mem _ hv), List.flatMap_singleton, hsplit,
      List.flatten_cons, List.map_append, List.reverse_append, List.map_reverse]

/-- **The codings that are listed come back, the last one first**, whatever the lines and spaces. -/
theorem encodings_lists (h : Lists m cs) :
    encodings m = cs.reverse.map fun c => encode c.name := by
  obtain ⟨lines, hne, hvalues, rfl⟩ := h
  have htexts : (m.values contentEncoding).map Subtype.val =
      (lines.map (List.map Listed.text)).map [44].intercalate := by
    rw [hvalues, List.map_map]
    rfl
  rw [encodings_lines ?_ ?_ htexts, ← List.map_flatten, List.map_map, ← List.map_reverse,
    ← List.map_reverse, List.map_map]
  · exact List.map_congr_left fun l _ => trimAscii_listed l
  · intro ws hws
    obtain ⟨ls, hls, rfl⟩ := List.mem_map.1 hws
    exact fun hnil => hne ls hls (List.map_eq_nil_iff.1 hnil)
  · intro ws hws w hw
    obtain ⟨ls, -, rfl⟩ := List.mem_map.1 hws
    obtain ⟨l, -, rfl⟩ := List.mem_map.1 hw
    exact comma_listed l

/-! ## The body -/

theorem nestDecoders_append (xs ys : List Bytes) (r : Reader) :
    nestDecoders C (xs ++ ys) r = (nestDecoders C xs r).bind (nestDecoders C ys) := by
  induction xs generalizing r with
  | nil => rfl
  | cons x xs ih =>
    rw [List.cons_append, nestDecoders, nestDecoders]
    by_cases hx : x = lit "identity"
    · rw [if_pos hx, if_pos hx]
      exact ih r
    rw [if_neg hx, if_neg hx]
    cases pickDecoder C x r with
    | error e => rfl
    | ok r' => exact ih r'

theorem encodeBody_ok {c : Codec} {body : Body} (h : c.encodeBody b = .ok body) :
    ∃ mid, c.encode b = .ok mid ∧ body = .full mid := by
  unfold Codec.encodeBody at h
  cases hc : c.encode b with
  | error e => rw [hc] at h; exact nomatch h
  | ok mid => rw [hc] at h; exact ⟨mid, rfl, (Except.ok.inj h).symm⟩

/-- The decoder for one coding, around a reader. -/
def decodeOne (C : Codecs) : Coding → Reader → Except ProxyError Reader
  | .gzip, r => .ok (C.gz.decode r)
  | .xGzip, r => .ok (C.gz.decode r)
  | .deflate, r => .ok (C.zlib.decode r)
  | .br, r => .ok (C.brotli.decode r)
  | .zstd, r => pickDecoder C (encode Coding.zstd.name) r
  | .identity, r => .ok r

/-- Of the decoders, only that of `zstd` may fail to start. -/
theorem pickDecoder_zstd (C : Codecs) (r : Reader) :
    pickDecoder C (encode Coding.zstd.name) r = ((C.zstdDecoder r).mapError fun e =>
      ProxyError.protocol ("zstd decoder init failed: " ++ e.kind)).map fun _ =>
        C.zstd.decode r := by
  unfold pickDecoder
  cases C.zstdDecoder r <;> rfl

theorem nestDecoders_cons (c : Coding) (cs : List Coding) (r : Reader) :
    nestDecoders C ((c :: cs).map fun c => encode c.name) r =
      (decodeOne C c r).bind (nestDecoders C (cs.map fun c => encode c.name)) := by
  cases c with
  | zstd =>
    have hid : ¬ encode Coding.zstd.name = lit "identity" := by decide
    rw [List.map_cons, nestDecoders, if_neg hid, decodeOne]
    cases pickDecoder C (encode Coding.zstd.name) r <;> rfl
  | gzip => rfl
  | xGzip => rfl
  | deflate => rfl
  | br => rfl
  | identity => rfl

theorem encodeBody_zstd (C : Codecs) (b : Bytes) :
    encodeBody C (.full b) Coding.zstd.name none = (C.zstdEncoder.mapError fun e =>
      ProxyError.protocol ("zstd encoder init: " ++ e.kind)).bind fun _ => C.zstd.encodeBody b := by
  unfold encodeBody
  cases C.zstdEncoder <;> rfl

theorem applyCodings_cons {c : Coding} (hc : c ≠ .identity) (cs : List Coding) (body : Body) :
    applyCodings C (c :: cs) body = (encodeBody C body c.name none).bind (applyCodings C cs) := by
  rw [applyCodings]
  · cases encodeBody C body c.name none <;> rfl
  · exact hc

/-- The decoder for a coding undoes it. -/
theorem decodeOne_encodeBody (hC : C.Invert) {c : Coding} (hc : c ≠ .identity) {body : Body}
    (h : encodeBody C (.full b) c.name none = .ok body) :
    ∃ mid, body = .full mid ∧ decodeOne C c ⟨mid, none⟩ = .ok ⟨b, none⟩ := by
  cases c with
  | gzip =>
    obtain ⟨mid, hmid, hbody⟩ := encodeBody_ok (c := C.gz) h
    exact ⟨mid, hbody, congrArg Except.ok (hC.gz b mid hmid)⟩
  | xGzip =>
    obtain ⟨mid, hmid, hbody⟩ := encodeBody_ok (c := C.gz) h
    exact ⟨mid, hbody, congrArg Except.ok (hC.gz b mid hmid)⟩
  | deflate =>
    obtain ⟨mid, hmid, hbody⟩ := encodeBody_ok (c := C.zlib) h
    exact ⟨mid, hbody, congrArg Except.ok (hC.zlib b mid hmid)⟩
  | br =>
    obtain ⟨mid, hmid, hbody⟩ := encodeBody_ok (c := C.brotli) h
    exact ⟨mid, hbody, congrArg Except.ok (hC.brotli b mid hmid)⟩
  -- the only coding whose encoder and decoder may fail to start
  | zstd =>
    rw [encodeBody_zstd] at h
    cases hinit : C.zstdEncoder with
    | error e =>
      rw [hinit] at h
      cases h
    | ok u =>
      rw [hinit] at h
      obtain ⟨mid, hmid, hbody⟩ := encodeBody_ok (c := C.zstd) h
      refine ⟨mid, hbody, ?_⟩
      rw [decodeOne, pickDecoder_zstd, hC.zstdDecoder b mid hmid]
      exact congrArg Except.ok (hC.zstd b mid hmid)
  | identity => exact absurd rfl hc

/-- **The decoders, nested in the opposite order, undo the codings.** -/
theorem nestDecoders_applied (hC : C.Invert) (h : applyCodings C cs (.full b) = .ok (.full out)) :
    nestDecoders C (cs.reverse.map fun c => encode c.name) ⟨out, none⟩ = .ok ⟨b, none⟩ := by
  -- by induction on the codings: the one applied last is decoded first
  induction cs generalizing b with
  | nil =>
    obtain rfl : b = out := Body.full.inj (Except.ok.inj h)
    rfl
  | cons c cs ih =>
    rw [List.reverse_cons, List.map_append, nestDecoders_append]
    -- `identity` is neither applied nor undone
    by_cases hc : c = .identity
    · subst hc
      rw [ih h]
      rfl
    rw [applyCodings_cons hc] at h
    cases hbody : encodeBody C (.full b) c.name none with
    | error e =>
      rw [hbody] at h
      cases h
    | ok body =>
      rw [hbody] at h
      obtain ⟨mid, rfl, hundo⟩ := decodeOne_encodeBody hC hc hbody
      rw [ih h]
      show nestDecoders C ([c].map fun c => encode c.name) ⟨mid, none⟩ = _
      rw [nestDecoders_cons, hundo]
      rfl

theorem collectFrames_ok (frames : List Frame) :
    collectFrames (frames.map .ok) = .ok (frames.flatMap Frame.payload) := by
  induction frames with
  | nil => rfl
  | cons f fs ih =>
    cases f with
    | data bs =>
      rw [List.map_cons, collectFrames, ih]
      rfl
    | trailers m =>
      rw [List.map_cons, collectFrames, ih]
      rfl

/-- Both kinds of body give the bytes they carry. -/
theorem Body.Carries.intoBytes {body : Body} (h : body.Carries out) : body.intoBytes = .ok out := by
  rcases h with rfl | ⟨frames, rfl, hout⟩
  · rfl
  · have hframes := collectFrames_ok frames
    rw [hout] at hframes
    exact hframes

/-! ## The message -/

theorem values_remove (m : HeaderMap) (n k : HeaderName) :
    (m.remove n).values k = if k = n then [] else m.values k := by
  unfold HeaderMap.remove HeaderMap.values
  rw [List.filter_filter]
  by_cases hk : k = n
  · rw [if_pos hk, List.map_eq_nil_iff, List.filter_eq_nil_iff]
    intro p _ hp
    simp only [Bool.and_eq_true, decide_eq_true_eq] at hp
    exact hp.2 (hp.1.trans hk)
  · rw [if_neg hk]
    congr 1
    apply List.filter_congr
    intro p _
    by_cases hp : p.1 = k
    · have hpn : p.1 ≠ n := fun h => hk (hp.symm.trans h)
      simp [hp, hk]
    · simp [hp]

theorem stripped (m : HeaderMap) : Stripped m (stripEncodingHeaders m) := by
  have hne : contentEncoding ≠ contentLength := by decide
  unfold stripEncodingHeaders
  refine ⟨?_, ?_, ?_⟩
  · rw [values_remove, if_neg hne, values_remove, if_pos rfl]
  · rw [values_remove, if_pos rfl]
  · intro n he hl
    rw [values_remove, if_neg hl, values_remove, if_neg he]

/-- A header that lists a coding is there. -/
theorem containsKey_lists (hcs : cs ≠ []) (h : Lists m cs) :
    m.containsKey contentEncoding = true := by
  obtain ⟨lines, -, hvalues, rfl⟩ := h
  have hne : m.values contentEncoding ≠ [] := by
    intro hnil
    rw [hnil, List.map_nil] at hvalues
    have hlines : lines = [] := List.map_eq_nil_iff.1 hvalues.symm
    rw [hlines] at hcs
    exact hcs rfl
  unfold HeaderMap.containsKey
  rw [List.isEmpty_eq_false_iff.2 hne]
  rfl

/-- What is decoded: a listed coding and no `Content-Length: 0`. -/
theorem shouldDecode_lists (hcs : cs ≠ []) (h : Lists m cs)
    (hlen : ∀ v, m.get contentLength = some v → v.1 ≠ lit "0") : shouldDecode m = true := by
  unfold shouldDecode
  rw [containsKey_lists hcs h, Bool.true_and]
  cases hget : m.get contentLength with
  | none => rfl
  | some v => exact bne_iff_ne.2 (hlen v hget)

theorem decodeBody_applied (hC : C.Invert) (h : applyCodings C cs (.full b) = .ok (.full out))
    {body : Body} (hbody : body.Carries out) :
    decodeBody C (cs.reverse.map fun c => encode c.name) body = .ok (.full b) := by
  unfold decodeBody
  rw [hbody.intoBytes]
  have hnest := nestDecoders_applied hC h
  show (nestDecoders C _ ⟨out, none⟩).bind _ = _
  rw [hnest]
  rfl

theorem decodeParts_applied (hC : C.Invert) (hcs : cs ≠ [])
    (h : applyCodings C cs (.full b) = .ok (.full out)) (hm : Lists m cs)
    (hlen : ∀ v, m.get contentLength = some v → v.1 ≠ lit "0") {body : Body}
    (hbody : body.Carries out) :
    decodeParts C m body = .ok (stripEncodingHeaders m, .full b) := by
  unfold decodeParts
  rw [if_pos (shouldDecode_lists hcs hm hlen), encodings_lists hm, decodeBody_applied hC h hbody]
  rfl

/-- **Decoding undoes the codings**: a request and a response that list the codings applied to a
body get it back, at the same URI or with the same status, and lose only the two headers that told
of the codings. -/
theorem decode_undoes (C : Codecs) (hC : C.Invert) (cs : List Coding) (hcs : cs ≠ [])
    (b out : Bytes) (happlied : applyCodings C cs (.full b) = .ok (.full out)) :
    (∀ req : Request, Lists req.headers cs →
      (∀ v, req.headers.get contentLength = some v → v.1 ≠ lit "0") → req.body.Carries out →
      ∃ m, Stripped req.headers m ∧
        decodeRequest C req = .ok { req with headers := m, body := .full b }) ∧
    (∀ res : Response, Lists res.headers cs →
      (∀ v, res.headers.get contentLength = some v → v.1 ≠ lit "0") → res.body.Carries out →
      ∃ m, Stripped res.headers m ∧
        decodeResponse C res = .ok { res with headers := m, body := .full b }) := by
  constructor
  · intro req hm hlen hbody
    refine ⟨_, stripped req.headers, ?_⟩
    unfold decodeRequest
    rw [decodeParts_applied hC hcs happlied hm hlen hbody]
    rfl
  · intro res hm hlen hbody
    refine ⟨_, stripped res.headers, ?_⟩
    unfold decodeResponse
    rw [decodeParts_applied hC hcs happlied hm hlen hbody]
    rfl

/-- What `ZlibEncoder` makes of `hello`. -/
def zlibHello : Bytes :=
  [0x78, 0x9c, 0xcb, 0x48, 0xcd, 0xc9, 0xc9, 0x07, 0x00, 0x06, 0x2c, 0x02, 0x15]

/-- A codec that puts a mark before the bytes. -/
def marked : Codec where
  encode b := .ok (0 :: b)
  decode r :=
    match r.bytes with
    | 0 :: b => ⟨b, r.failure⟩
    | _ => ⟨[], some ⟨"InvalidInput"⟩⟩

/-- `hello` as `zlib` has it, and marks. -/
def sampleCodecs : Codecs where
  gz := marked
  zlib :=
    { encode := fun b => if b = lit "hello" then .ok zlibHello else marked.encode b
      decode := fun r => if r.bytes = zlibHello then ⟨lit "hello", r.failure⟩ else marked.decode r }
  brotli := marked
  zstd := marked
  zstdEncoder := .ok ()
  zstdDecoder _ := .ok ()

theorem marked_inverts : marked.Inverts := by
  intro b out h
  rw [← Except.ok.inj h]
  rfl

theorem sampleCodecs_invert : sampleCodecs.Invert where
  gz := marked_inverts
  zlib b out h := by
    by_cases hb : b = lit "hello"
    · have hout : zlibHello = out := by
        have h' : (if b = lit "hello" then Except.ok zlibHello else marked.encode b) = .ok out := h
        rw [if_pos hb] at h'
        exact Except.ok.inj h'
      rw [← hout, hb]
      rfl
    · have hout : 0 :: b = out := by
        have h' : (if b = lit "hello" then Except.ok zlibHello else marked.encode b) = .ok out := h
        rw [if_neg hb] at h'
        exact Except.ok.inj h'
      rw [← hout]
      rfl
  brotli := marked_inverts
  zstd := marked_inverts
  zstdDecoder _ _ _ := rfl

/-- A request whose codings are on two lines, with a body in two frames. -/
def encodedRequest : Request where
  method := ⟨"PUT".toList, by decide⟩
  uri := .asterisk
  headers :=
    [(contentEncoding, ⟨lit "deflate , identity", by decide⟩),
      (contentLength, ⟨lit "13", by decide⟩), (contentEncoding, ⟨lit " identity", by decide⟩)]
  body := .streaming [.ok (.data (zlibHello.take 4)), .ok (.data (zlibHello.drop 4))]

theorem encodedRequest_lists :
    Lists encodedRequest.headers [.deflate, .identity, .identity] :=
  ⟨[[⟨.deflate, 0, 1⟩, ⟨.identity, 1, 0⟩], [⟨.identity, 1, 0⟩]], by simp, by decide, by decide⟩

/-- The request is decoded. -/
theorem decode_undoes_deflate : ∃ m, Stripped encodedRequest.headers m ∧
    decodeRequest sampleCodecs encodedRequest =
      .ok { encodedRequest with headers := m, body := .full (lit "hello") } :=
  (decode_undoes sampleCodecs sampleCodecs_invert [.deflate, .identity, .identity]
    (List.cons_ne_nil _ _) (lit "hello") zlibHello rfl).1 encodedRequest encodedRequest_lists
    (fun v hv => by
      obtain rfl : (⟨lit "13", by decide⟩ : HeaderValue) = v := Option.some.inj hv
      decide)
    (.inr ⟨[.data (zlibHello.take 4), .data (zlibHello.drop 4)], rfl, by decide⟩)

end HexbufferProxy
