import HexbufferProxy.Proof.Parse
import HexbufferProxy.Spec.Validity

/-!
# When the parsers panic

* `headerFields_eq`: the header loop takes the lines up to the first empty one.
* `buildHeaders_isSome_iff`: the builder has an error exactly when a line is no field line.
* `parseRaw_returns_iff`: the parsers unwrap what the builder says, so they return exactly on the
  messages it accepts.
-/

namespace HexbufferProxy

open Rust

variable {http : HttpCrate}

/-! ## The parts of a message -/

/-- Lowering the case takes no character out of the tokens, and none in. -/
theorem isNameChar_toLower (c : Char) : isNameChar c.toLower = isTchar c := by
  by_cases hc : c.toNat < 128
  · have key : ∀ n : Fin 128, isNameChar (Char.ofNat n).toLower = isTchar (Char.ofNat n) := by
      decide +kernel
    have h := key ⟨c.toNat, hc⟩
    simp only [char_ofNat_toNat] at h
    exact h
  · have hlower : c.toLower = c := by
      unfold Char.toLower
      rw [dif_neg]
      simp only [UInt32.le_iff_toNat_le, not_and]
      intro _
      show ¬ c.toNat ≤ 90
      omega
    have hno : isTchar c = false := by
      rw [Bool.eq_false_iff]
      exact fun h => hc (tchar_ascii h)
    rw [hlower, hno]
    unfold isNameChar
    rw [hno]
    rfl

theorem headerName_isSome_iff (s : Str) : (HeaderName.parse s).isSome ↔ IsToken s := by
  have hall : (s.map Char.toLower).all isNameChar = true ↔ ∀ c ∈ s, isTchar c = true := by
    rw [List.all_map, List.all_eq_true]
    exact forall₂_congr fun c _ => by rw [Function.comp_apply, isNameChar_toLower]
  have hne : s.map Char.toLower ≠ [] ↔ s ≠ [] := by rw [Ne, Ne, List.map_eq_nil_iff]
  unfold HeaderName.parse IsToken
  by_cases h : s.map Char.toLower ≠ [] ∧ (s.map Char.toLower).all isNameChar = true
  · rw [dif_pos h]
    exact ⟨fun _ => ⟨hne.1 h.1, hall.1 h.2⟩, fun _ => rfl⟩
  · rw [dif_neg h]
    refine ⟨fun hn => absurd hn (by decide), ?_⟩
    rintro ⟨h1, h2⟩
    exact absurd ⟨hne.2 h1, hall.2 h2⟩ h

theorem method_isSome_iff (s : Str) : (Method.parse s).isSome ↔ IsToken s := by
  unfold Method.parse IsToken
  rw [← List.all_eq_true]
  by_cases h : s ≠ [] ∧ s.all isTchar = true
  · rw [dif_pos h]
    exact ⟨fun _ => h, fun _ => rfl⟩
  · rw [dif_neg h]
    exact ⟨fun hn => absurd hn Bool.false_ne_true, fun hs => absurd hs h⟩

/-- The bytes of a text are value bytes when none of its characters is a control character. -/
theorem headerValue_isSome_iff (s : Str) :
    (HeaderValue.parse s).isSome ↔ ∀ c ∈ s, ¬ IsControl c := by
  have hbytes : (encode s).all isValueByte = true ↔ ∀ c ∈ s, ¬ IsControl c := by
    rw [List.all_eq_true]
    constructor
    · intro h c hc hcontrol
      have hascii : c.toNat < 128 := by unfold IsControl at hcontrol; omega
      have hmem : UInt8.ofNat c.toNat ∈ encode s := by
        unfold encode
        rw [List.mem_flatMap]
        exact ⟨c, hc, by rw [encodeChar_ascii hascii]; exact List.mem_singleton_self _⟩
      have hb := h _ hmem
      have hnat : (UInt8.ofNat c.toNat).toNat = c.toNat := by
        rw [UInt8.toNat_ofNat']
        omega
      unfold isValueByte at hb
      rw [hnat] at hb
      unfold IsControl at hcontrol
      simp only [Bool.or_eq_true, Bool.and_eq_true, decide_eq_true_eq, bne_iff_ne, ne_eq,
        beq_iff_eq] at hb
      omega
    · intro h b hb
      by_contra hno
      unfold isValueByte at hno
      simp only [Bool.or_eq_true, Bool.and_eq_true, decide_eq_true_eq, bne_iff_ne, ne_eq,
        beq_iff_eq, not_or, not_and, not_not] at hno
      -- a byte that is no value byte is ASCII, so it is a character of the text
      have hlt : b.toNat < 128 := by omega
      apply h _ (mem_of_encode hlt hb)
      unfold IsControl
      have hnat : (Char.ofNat b.toNat).toNat = b.toNat := by
        rw [Char.toNat_ofNat, if_pos]
        exact Or.inl (by omega)
      rw [hnat]
      omega
  unfold HeaderValue.parse
  by_cases h : (encode s).all isValueByte = true
  · rw [dif_pos h]
    exact ⟨fun _ => hbytes.1 h, fun _ => rfl⟩
  · rw [dif_neg h]
    exact ⟨fun hn => absurd hn Bool.false_ne_true, fun hs => absurd (hbytes.2 hs) h⟩

/-- **The header loop** takes the lines up to the first empty one, and of these the ones with a
colon. -/
theorem headerFields_eq (ls : List Str) : headerFields ls = (ls.takeWhile (· ≠ [])).filterMap
    fun l => (splitOnce ':' l).map fun p => (trim p.1, trim p.2) := by
  induction ls with
  | nil => rfl
  | cons l ls ih =>
    unfold headerFields
    by_cases hl : l = []
    · rw [if_pos hl, List.takeWhile_cons_of_neg (by simpa using hl)]
      rfl
    · rw [if_neg hl, List.takeWhile_cons_of_pos (by simpa using hl)]
      cases hs : splitOnce ':' l with
      | none => rw [List.filterMap_cons_none (by rw [hs]; rfl), ← ih]
      | some p => rw [List.filterMap_cons_some (by rw [hs]; rfl), ← ih]

theorem isFieldLine_iff (l : Str) : IsFieldLine l ↔ ∀ p, splitOnce ':' l = some p →
    IsToken (trim p.1) ∧ ∀ c ∈ trim p.2, ¬ IsControl c := by
  constructor
  · rintro h ⟨name, value⟩ hp
    obtain ⟨rfl, hname⟩ := splitOnce_eq hp
    exact h name value rfl hname
  · rintro h name value rfl hname
    exact h (name, value) (splitOnce_append hname value)

/-- **The builder has an error exactly when a field has an invalid name or value.** -/
theorem buildHeaders_isSome_iff (fields : List (Str × Str)) (m : HeaderMap) :
    (buildHeaders m fields).isSome ↔
      ∀ f ∈ fields, IsToken f.1 ∧ ∀ c ∈ f.2, ¬ IsControl c := by
  induction fields generalizing m with
  | nil => exact ⟨fun _ _ hf => absurd hf List.not_mem_nil, fun _ => rfl⟩
  | cons f fields ih =>
    obtain ⟨name, value⟩ := f
    rw [List.forall_mem_cons, ← headerName_isSome_iff, ← headerValue_isSome_iff]
    unfold buildHeaders
    cases hn : HeaderName.parse name with
    | none =>
      refine ⟨fun h => absurd h Bool.false_ne_true, fun h => ?_⟩
      exact absurd h.1.1 Bool.false_ne_true
    | some n =>
      cases hv : HeaderValue.parse value with
      | none =>
        refine ⟨fun h => absurd h Bool.false_ne_true, fun h => ?_⟩
        exact absurd h.1.2 Bool.false_ne_true
      | some v => exact (ih _).trans ⟨fun h => ⟨⟨rfl, rfl⟩, h⟩, fun h => h.2⟩

theorem buildHeaders_lines_iff (ls : List Str) : (buildHeaders [] (headerFields ls)).isSome ↔
    ∀ l ∈ ls.takeWhile (· ≠ []), IsFieldLine l := by
  rw [buildHeaders_isSome_iff, headerFields_eq]
  constructor
  · intro h l hl
    rw [isFieldLine_iff]
    intro p hp
    exact h (trim p.1, trim p.2) (List.mem_filterMap.2 ⟨l, hl, by rw [hp]; rfl⟩)
  · intro h f hf
    obtain ⟨l, hl, hfl⟩ := List.mem_filterMap.1 hf
    obtain ⟨p, hp, rfl⟩ := Option.map_eq_some_iff.1 hfl
    exact (isFieldLine_iff l).1 (h l hl) p hp

/-! ## The parsers -/

theorem returns_ok {α : Type} (a : α) : Returns (.ok a : Except Fault α) := fun _ h => nomatch h

theorem not_returns_builderPanic {α : Type} : ¬ Returns (.error builderPanic : Except Fault α) :=
  fun h => h _ rfl

theorem parseRawRequest_words (http : HttpCrate) (raw : Bytes) : parseRawRequest http raw =
    match Method.parse (methodWord raw), http.parseUri (targetWord raw),
      buildHeaders [] (headerFields (lines (fromUtf8Lossy raw)).tail) with
    | some m, some u, some h => .ok ⟨m, u, h, .full (bodyAfterHead raw)⟩
    | _, _, _ => .error builderPanic := rfl

theorem parseRawRequest_returns_iff (http : HttpCrate) (raw : Bytes) :
    Returns (parseRawRequest http raw) ↔ RequestAccepted http raw := by
  have hfields := buildHeaders_lines_iff (lines (fromUtf8Lossy raw)).tail
  have hmethod := method_isSome_iff (methodWord raw)
  have haccepted : RequestAccepted http raw ↔ (Method.parse (methodWord raw)).isSome ∧
      (http.parseUri (targetWord raw)).isSome ∧
      (buildHeaders [] (headerFields (lines (fromUtf8Lossy raw)).tail)).isSome := by
    rw [hfields, hmethod]
    exact ⟨fun h => ⟨h.method, h.target, h.fields⟩, fun h => ⟨h.1, h.2.1, h.2.2⟩⟩
  rw [haccepted]
  rw [parseRawRequest_words]
  -- each of the three parts that the builder checks may be the one it refuses
  cases hm : Method.parse (methodWord raw) with
  | none => exact ⟨fun h => absurd h not_returns_builderPanic, fun h => nomatch h.1⟩
  | some m =>
    cases hu : http.parseUri (targetWord raw) with
    | none => exact ⟨fun h => absurd h not_returns_builderPanic, fun h => nomatch h.2.1⟩
    | some u =>
      cases hh : buildHeaders [] (headerFields (lines (fromUtf8Lossy raw)).tail) with
      | none => exact ⟨fun h => absurd h not_returns_builderPanic, fun h => nomatch h.2.2⟩
      | some h => exact ⟨fun _ => ⟨rfl, rfl, rfl⟩, fun _ => returns_ok _⟩

theorem statusWord_eq (raw : Bytes) :
    (splitWhitespace ((lines (fromUtf8Lossy raw)).head?.getD "HTTP/1.1 200 OK".toList))[1]?.getD
      "200".toList = statusWord raw := by
  unfold statusWord firstWords
  cases (lines (fromUtf8Lossy raw)).head? with
  | none => decide
  | some l => rfl

theorem parseRawResponse_returns_iff (raw : Bytes) :
    Returns (parseRawResponse raw) ↔ ResponseAccepted raw := by
  have hfields := buildHeaders_lines_iff (lines (fromUtf8Lossy raw)).tail
  unfold parseRawResponse
  simp only [statusWord_eq]
  cases hcode : fromStrRadix 10 65536 (statusWord raw) with
  | none =>
    refine ⟨fun _ => ⟨fun n h => ?_, fun h => ?_⟩, fun _ msg h => nomatch h⟩
    · rw [hcode] at h
      exact nomatch h
    · rw [hcode] at h
      exact nomatch h
  | some n =>
    have haccepted : ResponseAccepted raw ↔ (100 ≤ n ∧ n < 1000) ∧
        (buildHeaders [] (headerFields (lines (fromUtf8Lossy raw)).tail)).isSome := by
      rw [hfields]
      constructor
      · exact fun h => ⟨h.status n hcode, h.fields (by rw [hcode]; rfl)⟩
      · rintro ⟨hn, hf⟩
        refine ⟨fun k hk => ?_, fun _ => hf⟩
        rw [hcode] at hk
        exact Option.some.inj hk ▸ hn
    rw [haccepted]
    simp only
    unfold StatusCode.parse
    by_cases hn : 100 ≤ n ∧ n < 1000
    · rw [dif_pos hn]
      cases hh : buildHeaders [] (headerFields (lines (fromUtf8Lossy raw)).tail) with
      | none => exact ⟨fun h => absurd h not_returns_builderPanic, fun h => nomatch h.2⟩
      | some h => exact ⟨fun _ => ⟨hn, rfl⟩, fun _ => returns_ok _⟩
    · rw [dif_neg hn]
      exact ⟨fun h => absurd h not_returns_builderPanic, fun h => absurd h.1 hn⟩

/-- **The parsers return exactly on what the builder accepts**; on anything else the task panics. -/
theorem parseRaw_returns_iff (http : HttpCrate) (raw : Bytes) :
    (Returns (parseRawRequest http raw) ↔ RequestAccepted http raw) ∧
      (Returns (parseRawResponse raw) ↔ ResponseAccepted raw) :=
  ⟨parseRawRequest_returns_iff http raw, parseRawResponse_returns_iff raw⟩

/-- A name with a blank in it, and a status below 100. -/
theorem parseRaw_panics :
    (¬ ∀ (http : HttpCrate) (raw : Bytes), Returns (parseRawRequest http raw)) ∧
      ¬ ∀ raw : Bytes, Returns (parseRawResponse raw) := by
  constructor
  · intro h
    have hfield := ((parseRawRequest_returns_iff _ _).1
      (h HttpCrate.basic (lit "GET / HTTP/1.1\r\nbad name: x\r\n\r\n"))).fields
      "bad name: x".toList (by decide +kernel) "bad name".toList " x".toList (by decide) (by decide)
    exact absurd (hfield.1.2 ' ' (by decide +kernel)) (by decide)
  · intro h
    have hstatus := ((parseRawResponse_returns_iff _).1
      (h (lit "HTTP/1.1 99 Low\r\n\r\n"))).status 99 (by decide +kernel)
    exact absurd hstatus.1 (by decide)

end HexbufferProxy
