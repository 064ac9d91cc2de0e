import HexbufferProxy.Proof.Spellings
import HexbufferProxy.Spec.Empty

/-!
# Decoding nothing

* `nestDecoders_nothing`: decoders that take nothing yield nothing.
* `nestDecoders_refused`: one that does not take it fails, and all around it.
* `decodeParts_empty_iff`: the two for the parts of a message.
* `decode_empty_iff`: requests and responses.
-/

namespace HexbufferProxy

open Rust

variable {C : Codecs} {m : HeaderMap} {cs : List Coding} {lines : List (List Element)}
  {body : Body}

/-! ## The decoders -/

/-- There is no decoder, or one that fails before it has read anything. -/
def Refused : Except ProxyError Reader → Prop
  | .ok r => ∃ e, r = ⟨[], some e⟩
  | .error _ => True

theorem Codec.OfNothing.refused {c : Codec} (h : c.OfNothing)
    (hne : c.decode ⟨[], none⟩ ≠ ⟨[], none⟩) : Refused (.ok (c.decode ⟨[], none⟩)) := by
  have hempty := h.empty
  rcases hr : c.decode ⟨[], none⟩ with ⟨bytes, _ | e⟩
  · rw [hr] at hempty hne
    obtain rfl : bytes = [] := hempty
    exact absurd rfl hne
  · rw [hr] at hempty
    obtain rfl : bytes = [] := hempty
    exact ⟨e, rfl⟩

theorem decodeOne_nothing {c : Coding} (h : TakesNothing C c) :
    decodeOne C c ⟨[], none⟩ = .ok ⟨[], none⟩ := by
  cases c with
  | gzip => exact h.elim
  | xGzip => exact h.elim
  | deflate => exact congrArg Except.ok h
  | br => exact congrArg Except.ok h
  | zstd =>
    rw [decodeOne, pickDecoder_zstd, h.1]
    exact congrArg Except.ok h.2
  | identity => rfl

/-- A decoder that does not take nothing fails. -/
theorem decodeOne_refused (hC : C.OfNothing) {c : Coding} (h : ¬ TakesNothing C c) :
    Refused (decodeOne C c ⟨[], none⟩) := by
  have hgz : C.gz.decode ⟨[], none⟩ ≠ ⟨[], none⟩ := by
    intro hdecode
    refine hC.gz_fails ?_
    rw [hdecode]
  cases c with
  | gzip => exact hC.gz.refused hgz
  | xGzip => exact hC.gz.refused hgz
  | deflate => exact hC.zlib.refused h
  | br => exact hC.brotli.refused h
  | zstd =>
    rw [decodeOne, pickDecoder_zstd]
    cases hinit : C.zstdDecoder ⟨[], none⟩ with
    | error e => exact trivial
    | ok u => exact hC.zstd.refused fun hdecode => h ⟨hinit, hdecode⟩
  | identity => exact absurd trivial h

/-- What fails inside fails outside. -/
theorem decodeOne_failing (hC : C.OfNothing) (c : Coding) (e : IoError) :
    Refused (decodeOne C c ⟨[], some e⟩) := by
  cases c with
  | gzip => exact hC.gz.failing e
  | xGzip => exact hC.gz.failing e
  | deflate => exact hC.zlib.failing e
  | br => exact hC.brotli.failing e
  | zstd =>
    rw [decodeOne, pickDecoder_zstd]
    cases C.zstdDecoder ⟨[], some e⟩ with
    | error e => exact trivial
    | ok u => exact hC.zstd.failing e
  | identity => exact ⟨e, rfl⟩

theorem nestDecoders_nothing (h : ∀ c ∈ cs, TakesNothing C c) :
    nestDecoders C (cs.map fun c => encode c.name) ⟨[], none⟩ = .ok ⟨[], none⟩ := by
  induction cs with
  | nil => rfl
  | cons c cs ih =>
    rw [nestDecoders_cons, decodeOne_nothing (h c List.mem_cons_self)]
    exact ih fun c' hc' => h c' (List.mem_cons_of_mem _ hc')

/-- Around a decoder that fails, all fail. -/
theorem nestDecoders_failing (hC : C.OfNothing) (cs : List Coding) {x : Except ProxyError Reader}
    (hx : Refused x) : Refused (x.bind (nestDecoders C (cs.map fun c => encode c.name))) := by
  induction cs generalizing x with
  | nil =>
    cases x with
    | error e => exact trivial
    | ok r => exact hx
  | cons c cs ih =>
    cases x with
    | error e => exact trivial
    | ok r =>
      obtain ⟨e, rfl⟩ := hx
      show Refused (nestDecoders C ((c :: cs).map fun c => encode c.name) ⟨[], some e⟩)
      rw [nestDecoders_cons]
      exact ih (decodeOne_failing hC c e)

/-- **The first decoder that does not take nothing makes all fail.** -/
theorem nestDecoders_refused (hC : C.OfNothing) {c : Coding} (hc : c ∈ cs)
    (h : ¬ TakesNothing C c) :
    Refused (nestDecoders C (cs.map fun c => encode c.name) ⟨[], none⟩) := by
  induction cs with
  | nil => exact absurd hc List.not_mem_nil
  | cons c' cs ih =>
    rw [nestDecoders_cons]
    by_cases hc' : TakesNothing C c'
    · rw [decodeOne_nothing hc']
      refine ih ((List.mem_cons.1 hc).resolve_left ?_)
      rintro rfl
      exact h hc'
    · exact nestDecoders_failing hC cs (decodeOne_refused hC hc')

/-! ## Messages -/

/-- An empty body, decoded. -/
theorem decodeBody_nothing (hC : C.OfNothing) (hbody : body.Carries []) (cs : List Coding) :
    (∃ out, decodeBody C (cs.map fun c => encode c.name) body = .ok out ∧ out.Carries []) ↔
      ∀ c ∈ cs, TakesNothing C c := by
  unfold decodeBody
  rw [hbody.intoBytes]
  show (∃ out, (nestDecoders C (cs.map fun c => encode c.name) ⟨[], none⟩).bind _ = .ok out ∧ _) ↔ _
  constructor
  · rintro ⟨out, hout, -⟩ c hc
    by_contra hnot
    have hrefused := nestDecoders_refused hC hc hnot
    cases hnest : nestDecoders C (cs.map fun c => encode c.name) ⟨[], none⟩ with
    | error e =>
      rw [hnest] at hout
      exact nomatch hout
    | ok r =>
      rw [hnest] at hrefused hout
      obtain ⟨e, rfl⟩ := hrefused
      exact nomatch hout
  · intro hall
    rw [nestDecoders_nothing hall]
    exact ⟨.full [], rfl, .inl rfl⟩

/-- **When an empty body stays empty**, and nothing fails. -/
theorem decodeParts_empty_iff (hC : C.OfNothing) (h : Spells m lines cs)
    (hbody : body.Carries []) :
    (∃ p, decodeParts C m body = .ok p ∧ p.2.Carries []) ↔
      LengthZero m ∨ AllPlain lines ∧ ∀ c ∈ cs, TakesNothing C c := by
  by_cases hlen : LengthZero m
  · exact iff_of_true ⟨_, hlen.untouched, hbody⟩ (.inl hlen)
  by_cases hplain : AllPlain lines
  · have hm := h.lists hplain
    by_cases hcs : cs = []
    · -- nothing is listed
      have huntouched : ¬ shouldDecode m = true :=
        fun hd => ((shouldDecode_iff m).1 hd).1 (hm.values_eq_nil.2 hcs)
      refine iff_of_true ⟨_, decodeParts_untouched huntouched, hbody⟩ (.inr ⟨hplain, ?_⟩)
      rw [hcs]
      exact fun c hc => absurd hc List.not_mem_nil
    rw [decodeParts_lists hm hcs hlen]
    have hdecoded := decodeBody_nothing hC hbody cs.reverse
    simp only [List.mem_reverse] at hdecoded
    rw [or_iff_right hlen, and_iff_right hplain, ← hdecoded]
    exact map_ok_iff _ _ _
  · obtain ⟨e, herror, -⟩ := decodeParts_other C body h hlen hplain
    refine iff_of_false ?_ fun hor => hor.elim hlen fun hboth => hplain hboth.1
    rintro ⟨p, hp, -⟩
    exact nomatch herror.symm.trans hp

/-- A request that is decoded is handed on. -/
theorem staysEmpty_iff (req : Request) : StaysEmpty C req ↔
    ∃ p, decodeParts C req.headers req.body = .ok p ∧ p.2.Carries [] := by
  constructor
  · exact fun h => (map_ok_iff _ _ _).1 h.1
  · intro h
    obtain ⟨q, hq, hempty⟩ : ∃ q, decodeRequest C req = .ok q ∧ q.body.Carries [] :=
      (map_ok_iff _ _ _).2 h
    refine ⟨⟨q, hq, hempty⟩, fun ω ctx s => ⟨q, ?_⟩⟩
    show Except.ok ((decodeRequest C req).map RequestOrResponse.request, ctx) = _
    rw [hq]
    rfl

theorem responseStaysEmpty_iff (res : Response) : ResponseStaysEmpty C res ↔
    ∃ p, decodeParts C res.headers res.body = .ok p ∧ p.2.Carries [] := by
  constructor
  · exact fun h => (map_ok_iff _ _ _).1 h.1
  · intro h
    obtain ⟨q, hq, hempty⟩ : ∃ q, decodeResponse C res = .ok q ∧ q.body.Carries [] :=
      (map_ok_iff _ _ _).2 h
    refine ⟨⟨q, hq, hempty⟩, fun ω ctx s => ⟨q, ?_⟩⟩
    show Except.ok (decodeResponse C res, ctx) = _
    rw [hq]

/-- **When decoding leaves alone what is empty**: under `Content-Length: 0`, or if the codings are in
the plainest spelling and their decoders all take nothing; requests and responses. -/
theorem decode_empty_iff (C : Codecs) (hC : C.OfNothing) (lines : List (List Element))
    (cs : List Coding) :
    (∀ req : Request, Spells req.headers lines cs → req.body.Carries [] →
      (StaysEmpty C req ↔
        LengthZero req.headers ∨ AllPlain lines ∧ ∀ c ∈ cs, TakesNothing C c)) ∧
    (∀ res : Response, Spells res.headers lines cs → res.body.Carries [] →
      (ResponseStaysEmpty C res ↔
        LengthZero res.headers ∨ AllPlain lines ∧ ∀ c ∈ cs, TakesNothing C c)) := by
  constructor
  · intro req h hbody
    rw [staysEmpty_iff]
    exact decodeParts_empty_iff hC h hbody
  · intro res h hbody
    rw [responseStaysEmpty_iff]
    exact decodeParts_empty_iff hC h hbody

/-- `sampleCodecs`, with a `zlib` that leaves all as it is. -/
def plainCodecs : Codecs := { sampleCodecs with zlib := ⟨.ok, id⟩ }

theorem marked_ofNothing : marked.OfNothing where
  empty := rfl
  failing _ := ⟨⟨"InvalidInput"⟩, rfl⟩

theorem plainCodecs_ofNothing : plainCodecs.OfNothing where
  gz := marked_ofNothing
  zlib := ⟨rfl, fun e => ⟨e, rfl⟩⟩
  brotli := marked_ofNothing
  zstd := marked_ofNothing
  gz_fails h := nomatch h

/-- A 304 with this Content-Encoding. -/
def unmodified (v : HeaderValue) : Response :=
  ⟨⟨304, by decide⟩, [(contentEncoding, v)], .full []⟩

/-- What it would be encoded with is `gzip`: decoding fails. -/
theorem decode_empty_fails : ¬ ∀ (res : Response) lines cs, Spells res.headers lines cs →
    res.body.Carries [] → ResponseStaysEmpty plainCodecs res := by
  intro hall
  obtain ⟨⟨q, hq, -⟩, -⟩ := hall (unmodified ⟨lit "gzip", by decide⟩)
    [[⟨some .gzip, lit "gzip", [], [], by decide, by decide, by decide⟩]] [.gzip]
    ⟨by simp, by decide, by decide⟩ (.inl rfl)
  have hfails : (decodeResponse plainCodecs (unmodified ⟨lit "gzip", by decide⟩)).isOk = false := by
    decide +kernel
  rw [hq] at hfails
  exact Bool.noConfusion hfails

/-- With `deflate` it does not. -/
theorem decode_empty_deflate :
    ResponseStaysEmpty plainCodecs (unmodified ⟨lit "deflate", by decide⟩) := by
  refine ((decode_empty_iff plainCodecs plainCodecs_ofNothing
    [[⟨some .deflate, lit "deflate", [], [], by decide, by decide, by decide⟩]] [.deflate]).2
    (unmodified ⟨lit "deflate", by decide⟩) ⟨by simp, by decide, by decide⟩ (.inl rfl)).2 (.inr ?_)
  constructor
  · intro e he
    obtain rfl : e = _ := List.mem_singleton.1 he
    exact ⟨.deflate, rfl, rfl, List.not_mem_nil, List.not_mem_nil⟩
  · intro c hc
    obtain rfl := List.mem_singleton.1 hc
    exact rfl

end HexbufferProxy
