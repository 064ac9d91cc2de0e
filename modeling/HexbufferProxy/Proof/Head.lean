import HexbufferProxy.Spec.Head
import HexbufferProxy.Proof.Read

/-!
# The scanners on a well-formed head

What `is_no_body_status`, `is_chunked` and `get_content_length` find in the text of a
`ResponseHead`, and where its bytes end. With `Proof.Read` this gives
`readFullResponse_body`: the reader returns the head and the body of every well-formed
response.
-/

namespace HexbufferProxy

open Rust Source

variable {U : Unicode}

theorem encodeChar_ascii {c : Char} (hc : c.toNat < 128) :
    String.utf8EncodeChar c = [UInt8.ofNat c.toNat] := by
  have hv : c.val.toNat = c.toNat := rfl
  unfold String.utf8EncodeChar
  simp only [hv]
  rw [if_pos (by omega)]

theorem encode_ascii {s : Str} (hs : ∀ c ∈ s, c.toNat < 128) :
    encode s = s.map fun c => UInt8.ofNat c.toNat := by
  induction s with
  | nil => rfl
  | cons c s ih =>
    rw [encode_cons, encodeChar_ascii (hs c List.mem_cons_self),
      ih fun x hx => hs x (List.mem_cons_of_mem _ hx)]
    rfl

/-- A byte of encoded ASCII text is one of its characters. -/
theorem mem_encode_ascii {s : Str} (hs : ∀ c ∈ s, c.toNat < 128) {b : UInt8}
    (hb : b ∈ encode s) : ∃ c ∈ s, b.toNat = c.toNat := by
  rw [encode_ascii hs, List.mem_map] at hb
  obtain ⟨c, hc, rfl⟩ := hb
  have := hs c hc
  exact ⟨c, hc, by simp; omega⟩

theorem length_encode_ascii {s : Str} (hs : ∀ c ∈ s, c.toNat < 128) :
    (encode s).length = s.length := by rw [encode_ascii hs, List.length_map]

theorem LineText.ascii {s : Str} (hs : LineText s) : ∀ c ∈ s, c.toNat < 128 :=
  fun c hc => (hs c hc).1

theorem LineText.no_lf {s : Str} (hs : LineText s) : '\n' ∉ s := fun h => (hs _ h).2.2 rfl

theorem LineText.append {s t : Str} (hs : LineText s) (ht : LineText t) : LineText (s ++ t) := by
  intro c hc
  rcases List.mem_append.1 hc with h | h
  · exact hs c h
  · exact ht c h

theorem LineText.cons {c : Char} {s : Str} (hc : c.toNat < 128 ∧ c ≠ '\r' ∧ c ≠ '\n')
    (hs : LineText s) : LineText (c :: s) := by
  intro x hx
  rcases List.mem_cons.1 hx with rfl | h
  · exact hc
  · exact hs x h

theorem LineText.encode_no_cr {s : Str} (hs : LineText s) : (13 : UInt8) ∉ encode s := by
  intro h
  obtain ⟨c, hc, he⟩ := mem_encode_ascii hs.ascii h
  apply (hs c hc).2.1
  have : c.toNat = 13 := he.symm
  rw [← char_ofNat_toNat c, this]

/-! ## Digits -/

theorem toDigit_ten : ∀ (d : Fin 10) (u : Bool), toDigit 10 (digitChar u d) = some (d : ℕ) := by
  decide

theorem toDigit_sixteen : ∀ (d : Fin 16) (u : Bool),
    toDigit 16 (digitChar u d) = some (d : ℕ) := by decide

theorem digitChar_ten : ∀ (d : Fin 10) (u : Bool), (digitChar u d).toNat < 128 ∧
    isWhitespace (digitChar u d) = false ∧ digitChar u d ≠ '+' ∧ digitChar u d ≠ ':' := by decide

theorem digitChar_sixteen : ∀ (d : Fin 16) (u : Bool), (digitChar u d).toNat < 128 ∧
    isWhitespace (digitChar u d) = false ∧ digitChar u d ≠ '+' ∧ digitChar u d ≠ ';' := by decide

theorem text_ten {ds : Digits 10} : ∀ c ∈ ds.text,
    c.toNat < 128 ∧ isWhitespace c = false ∧ c ≠ '+' ∧ c ≠ ':' := by
  intro c hc
  obtain ⟨p, -, rfl⟩ := List.mem_map.1 hc
  exact digitChar_ten p.1 p.2

theorem text_sixteen {ds : Digits 16} : ∀ c ∈ ds.text,
    c.toNat < 128 ∧ isWhitespace c = false ∧ c ≠ '+' ∧ c ≠ ';' := by
  intro c hc
  obtain ⟨p, -, rfl⟩ := List.mem_map.1 hc
  exact digitChar_sixteen p.1 p.2

theorem text_ne {radix : ℕ} {ds : Digits radix} (h : ds ≠ []) : ds.text ≠ [] := by
  simpa [Digits.text] using h

theorem lineText_of_visible {s : Str} (hs : ∀ c ∈ s, c.toNat < 128 ∧ isWhitespace c = false) :
    LineText s := by
  intro c hc
  obtain ⟨h1, h2⟩ := hs c hc
  refine ⟨h1, ?_, ?_⟩ <;> rintro rfl <;> exact absurd h2 (by decide)

/-- Digits parse to their value in any radix that reads each of them. -/
theorem fromStrRadix_text {radix bound : ℕ} {ds : Digits radix} (hne : ds ≠ [])
    (hd : ∀ p ∈ ds, toDigit radix (digitChar p.2 p.1) = some (p.1 : ℕ))
    (hp : ∀ c ∈ ds.text, c ≠ '+') :
    fromStrRadix radix bound ds.text = if ds.value < bound then some ds.value else none := by
  apply fromStrRadix_eq (text_ne hne)
  · intro h
    exact hp _ (List.mem_of_mem_head? h) rfl
  · unfold Digits.text
    rw [List.map_map, List.map_map]
    exact List.map_congr_left fun p hp => hd p hp

/-! ## Fields -/

theorem Field.line_text (f : Field) : LineText f.line :=
  f.name_text.append (LineText.cons (by decide) f.value_text)

/-- A field line starts with `key:` iff its name is `key`. -/
theorem startsWith_colon {k a : Str} (hk : ':' ∉ k) (ha : ':' ∉ a) (b : Str) :
    startsWith (k ++ [':']) (a ++ ':' :: b) = decide (a = k) := by
  unfold startsWith
  induction k generalizing a with
  | nil =>
    cases a with
    | nil => simp
    | cons c a =>
      have : (':' == c) = false := by
        rw [beq_eq_false_iff_ne]; rintro rfl; exact ha List.mem_cons_self
      simp [List.isPrefixOf, this]
  | cons x k ih =>
    cases a with
    | nil =>
      have : (x == ':') = false := by
        rw [beq_eq_false_iff_ne]; rintro rfl; exact hk List.mem_cons_self
      simp [List.isPrefixOf, this]
    | cons c a =>
      have ih' := ih (fun h => hk (List.mem_cons_of_mem _ h))
        (fun h => ha (List.mem_cons_of_mem _ h))
      simp only [List.cons_append, List.isPrefixOf]
      rw [ih']
      by_cases hxc : x = c
      · subst hxc; simp
      · have : ¬ c = x := fun h => hxc h.symm
        simp [hxc, this]

theorem toLower_colon {s : Str} (hs : ∀ c ∈ s, c.toNat < 128) (h : ':' ∉ s) :
    ':' ∉ s.map Char.toLower := by
  intro hm
  obtain ⟨c, hc, he⟩ := List.mem_map.1 hm
  have key : ∀ n : Fin 128, (Char.ofNat n).toLower = ':' → Char.ofNat n = ':' := by decide
  have := key ⟨c.toNat, hs c hc⟩
  simp only [char_ofNat_toNat] at this
  rw [this he] at hc; exact h hc

/-- The lower case of `name:value` starts with `key:` iff `name` is `key` in some case. -/
theorem startsWith_named {k name : Str} (hk : ':' ∉ k) (hname : ∀ c ∈ name, c.toNat < 128)
    (hcolon : ':' ∉ name) (v : Str) :
    startsWith (k ++ [':']) (U.toLowercase (name ++ ':' :: v)) =
      decide (name.map Char.toLower = k) := by
  have hascii : ∀ c ∈ name ++ [':'], c.toNat < 128 := by
    intro c hc
    rcases List.mem_append.1 hc with h | h
    · exact hname c h
    · rw [List.mem_singleton.1 h]; decide
  obtain ⟨v', hv'⟩ := U.ascii_starts (name ++ [':']) v hascii
  rw [List.append_assoc] at hv'
  show startsWith (k ++ [':']) (U.toLowercase (name ++ ([':'] ++ v))) = _
  rw [← hv', List.map_append, List.append_assoc]
  exact startsWith_colon hk (toLower_colon hname hcolon) v'

/-- The line of a field. -/
def fieldLine (p : Str × Str) : Str := p.1 ++ ':' :: p.2

/-- A head as the scanners see it: a status line, fields whose names are ASCII, and an empty
line. -/
structure HeadLines (text statusLine : Str) (fields : List (Str × Str)) : Prop where
  lines_eq : lines text = statusLine :: (fields.map fieldLine ++ [[]])
  status_http : statusLine.head? = some 'H'
  name_ascii : ∀ p ∈ fields, ∀ c ∈ p.1, c.toNat < 128
  name_colon : ∀ p ∈ fields, ':' ∉ p.1

namespace HeadLines

variable {text statusLine : Str} {fields : List (Str × Str)}

/-- The status line is no field line. -/
theorem startsWith_status (h : HeadLines text statusLine fields) {key : Str} {c : Char}
    (hkey : key.head? = some c) (hc : c ≠ 'h') :
    startsWith key (U.toLowercase statusLine) = false := by
  obtain ⟨t, ht⟩ : ∃ t, statusLine = ['H'] ++ t := by
    cases hs : statusLine with
    | nil => rw [hs] at h; exact absurd h.status_http (by simp)
    | cons x t =>
      have := h.status_http
      rw [hs, List.head?_cons, Option.some.injEq] at this
      exact ⟨t, by rw [this]; rfl⟩
  obtain ⟨t', ht'⟩ := U.ascii_starts ['H'] t (by decide)
  cases key with
  | nil => exact absurd hkey (by simp)
  | cons x key =>
    rw [List.head?_cons, Option.some.injEq] at hkey
    subst hkey
    have hx : (x == 'h') = false := by simpa using hc
    rw [ht, ← ht']
    show List.isPrefixOf (x :: key) ('h' :: t') = false
    simp [List.isPrefixOf, hx]

theorem startsWith_empty {key : Str} (hkey : key ≠ []) :
    startsWith key (U.toLowercase []) = false := by
  rw [U.ascii [] (by simp)]
  cases key with
  | nil => exact absurd rfl hkey
  | cons c key => rfl

/-- Only a field named `k` has a line that starts with `k:`. -/
theorem startsWith_field (h : HeadLines text statusLine fields) {k : Str} (hk : ':' ∉ k)
    {p : Str × Str} (hp : p ∈ fields) :
    startsWith (k ++ [':']) (U.toLowercase (fieldLine p)) =
      decide (p.1.map Char.toLower = k) :=
  startsWith_named hk (h.name_ascii p hp) (h.name_colon p hp) p.2

/-- **`is_chunked` looks at the Transfer-Encoding fields.** -/
theorem isChunked_eq (h : HeadLines text statusLine fields) : isChunked U text =
    fields.any fun p => decide (p.1.map Char.toLower = "transfer-encoding".toList) &&
      contains "chunked".toList (U.toLowercase (fieldLine p)) := by
  have e : "transfer-encoding:".toList = "transfer-encoding".toList ++ [':'] := by decide
  have h1 : startsWith "transfer-encoding:".toList (U.toLowercase statusLine) = false :=
    h.startsWith_status (c := 't') (by decide) (by decide)
  have h2 : startsWith "transfer-encoding:".toList (U.toLowercase []) = false :=
    startsWith_empty (by decide)
  unfold isChunked
  rw [h.lines_eq, List.any_cons, List.any_append, List.any_map]
  simp only [h1, h2, List.any_cons, List.any_nil, Bool.false_and, Bool.or_false, Bool.false_or]
  rw [Bool.eq_iff_iff, List.any_eq_true, List.any_eq_true]
  apply exists_congr
  intro p
  apply and_congr_right
  intro hp
  rw [Function.comp_apply, e, h.startsWith_field (by decide) hp]

/-- **`get_content_length` reads the first Content-Length field.** -/
theorem getContentLength_eq (h : HeadLines text statusLine fields) : getContentLength U text =
    (fields.find? fun p => decide (p.1.map Char.toLower = "content-length".toList)).bind
      fun p => fromStrRadix 10 usizeBound (trim (splitFirst ':' p.2)) := by
  have e : "content-length:".toList = "content-length".toList ++ [':'] := by decide
  have h1 : startsWith "content-length:".toList (U.toLowercase statusLine) = false :=
    h.startsWith_status (c := 'c') (by decide) (by decide)
  have h2 : startsWith "content-length:".toList (U.toLowercase []) = false :=
    startsWith_empty (by decide)
  have hfind : fields.find? ((fun l => startsWith "content-length:".toList (U.toLowercase l)) ∘
      fieldLine) =
        fields.find? fun p => decide (p.1.map Char.toLower = "content-length".toList) := by
    apply List.find?_congr
    intro p hp
    simp only [Function.comp_apply]
    rw [e, h.startsWith_field (by decide) hp]
  unfold getContentLength
  rw [h.lines_eq, List.find?_cons, h1]
  simp only [List.find?_append, List.find?_map, List.find?_cons, h2, List.find?_nil,
    Option.or_none, hfind]
  cases hf : fields.find? fun p => decide (p.1.map Char.toLower = "content-length".toList) with
  | none => rfl
  | some p =>
    have hp : p ∈ fields := List.mem_of_find?_eq_some hf
    simp only [Option.map_some, Option.bind_some]
    unfold splitSecond fieldLine
    rw [splitOnce_append (h.name_colon p hp)]
    rfl

end HeadLines

/-! ## The lines of a head -/

namespace ResponseHead

variable (h : ResponseHead)

theorem statusLine_text : LineText h.statusLine := by
  unfold statusLine
  apply LineText.append
  · intro c hc
    rcases List.mem_append.1 hc with hc | hc
    · have key : ∀ c ∈ "HTTP/".toList, c.toNat < 128 ∧ c ≠ '\r' ∧ c ≠ '\n' := by decide
      exact key c hc
    · obtain ⟨h1, h2⟩ := h.version_text c hc
      refine ⟨by omega, ?_, ?_⟩ <;> rintro rfl <;> exact absurd h1 (by decide)
  · apply LineText.cons (by decide)
    exact (lineText_of_visible fun c hc => ⟨(text_ten c hc).1, (text_ten c hc).2.1⟩).append
      h.reason_text

/-- **The lines of a head**: the status line, the field lines and an empty line. -/
theorem lines_text : lines h.text = h.statusLine :: (h.fields.map Field.line ++ [[]]) := by
  have h1 := lines_crlf h.statusLine_text.no_lf (h.fields.flatMap (fun f => f.line ++ crlf) ++ crlf)
  have h2 : lines (h.fields.flatMap (fun f => f.line ++ crlf) ++ crlf) =
      h.fields.map Field.line ++ lines crlf := by
    have hno : ∀ l ∈ h.fields.map Field.line, '\n' ∉ l := by
      intro l hl
      obtain ⟨f, -, rfl⟩ := List.mem_map.1 hl
      exact f.line_text.no_lf
    rw [← lines_flatMap hno, List.flatMap_map]
    rfl
  have h3 : lines crlf = [[]] := by decide
  unfold text
  simp only [crlf, List.append_assoc, List.cons_append, List.nil_append] at h1 h2 h3 ⊢
  rw [h1, h2, h3]

/-- The name and the value of each field. -/
def pairs : List (Str × Str) := h.fields.map fun f => (f.name, f.value)

theorem headLines : HeadLines h.text h.statusLine h.pairs := by
  refine ⟨?_, rfl, ?_, ?_⟩
  · rw [h.lines_text]
    unfold pairs
    rw [List.map_map]
    rfl
  · intro p hp
    obtain ⟨f, -, rfl⟩ := List.mem_map.1 hp
    exact f.name_text.ascii
  · intro p hp
    obtain ⟨f, -, rfl⟩ := List.mem_map.1 hp
    exact f.name_colon

theorem lossy_bytes (r : Bytes) : fromUtf8Lossy (h.bytes ++ r) = h.text ++ fromUtf8Lossy r :=
  lossy_encode h.text r

/-! ## What the scanners find -/

theorem splitWhitespace_statusLine :
    (splitWhitespace h.statusLine)[1]? = some h.status.text := by
  have hv : ∀ c ∈ "HTTP/".toList ++ h.version, isWhitespace c = false := by
    intro c hc
    rcases List.mem_append.1 hc with hc | hc
    · have key : ∀ c ∈ "HTTP/".toList, isWhitespace c = false := by decide
      exact key c hc
    · obtain ⟨h1, h2⟩ := h.version_text c hc
      unfold isWhitespace
      simp only [Bool.or_eq_false_iff, Bool.and_eq_false_iff, decide_eq_false_iff_not,
        beq_eq_false_iff_ne]
      omega
  have hs : ∀ c ∈ h.status.text, isWhitespace c = false := fun c hc => (text_ten c hc).2.1
  unfold statusLine
  rw [splitWhitespace_cons hv (by simp) (by decide)]
  rcases h.reason_space with hr | hr
  · rw [hr, List.append_nil, splitWhitespace_last hs (text_ne h.status_ne)]; rfl
  · obtain ⟨r, hr⟩ : ∃ r, h.reason = ' ' :: r := by
      cases hc : h.reason with
      | nil => rw [hc] at hr; simp at hr
      | cons c r => rw [hc] at hr; simp at hr; exact ⟨r, by rw [hr]⟩
    rw [hr, splitWhitespace_cons hs (text_ne h.status_ne) (by decide)]; rfl

theorem isNoBodyStatus_text : isNoBodyStatus h.text = true ↔ h.bodyless := by
  unfold isNoBodyStatus bodyless
  rw [h.lines_text]
  simp only [List.head?_cons, Option.bind_some, h.splitWhitespace_statusLine]
  rw [fromStrRadix_text h.status_ne (fun p _ => toDigit_ten p.1 p.2)
    fun c hc => (text_ten c hc).2.2.1]
  by_cases hlt : h.status.value < 65536
  · rw [if_pos hlt]
    simp only [Bool.or_eq_true, decide_eq_true_eq, or_assoc]
  · rw [if_neg hlt]
    simp only [Bool.false_eq_true, false_iff]
    omega

theorem contains_chunked {f : Field} (hf : EndsInChunked f.value) :
    contains "chunked".toList (U.toLowercase f.line) = true := by
  obtain ⟨codings, w, coding, w', hv, -, -, -, hc⟩ := hf
  rw [U.ascii _ f.line_text.ascii]
  unfold contains Field.line
  rw [hv, decide_eq_true_eq]
  refine ⟨(f.name ++ ':' :: (codings ++ w)).map Char.toLower, w'.map Char.toLower, ?_⟩
  rw [← hc]
  simp

/-- **`is_chunked` finds the Transfer-Encoding field.** -/
theorem isChunked_text : isChunked U h.text =
    h.fields.any fun f => f.isNamed "transfer-encoding".toList := by
  rw [h.headLines.isChunked_eq]
  unfold pairs
  rw [List.any_map]
  rw [Bool.eq_iff_iff, List.any_eq_true, List.any_eq_true]
  apply exists_congr
  intro f
  apply and_congr_right
  intro hf
  show (f.isNamed "transfer-encoding".toList && contains _ (U.toLowercase f.line)) = true ↔ _
  cases hn : f.isNamed "transfer-encoding".toList with
  | false => rfl
  | true => rw [contains_chunked (h.codings_ok f hf hn)]; rfl

theorem isWhitespace_ows {w : Str} (hw : IsOws w) : ∀ c ∈ w, isWhitespace c = true := by
  intro c hc
  rcases hw c hc with rfl | rfl <;> decide

/-- A decimal value parses to its number. -/
theorem fromStrRadix_decimal {v : Str} {m : ℕ} (hv : IsDecimal v m) (bound : ℕ) :
    ':' ∉ v ∧ fromStrRadix 10 bound (trim v) = if m < bound then some m else none := by
  obtain ⟨w, ds, w', rfl, hw, hw', hne, rfl⟩ := hv
  refine ⟨?_, ?_⟩
  · simp only [List.mem_append, not_or]
    refine ⟨⟨fun hc => ?_, fun hc => (text_ten _ hc).2.2.2 rfl⟩, fun hc => ?_⟩
    · rcases hw _ hc with h | h <;> exact absurd h (by decide)
    · rcases hw' _ hc with h | h <;> exact absurd h (by decide)
  · rw [trim_append (isWhitespace_ows hw) (isWhitespace_ows hw')
      (fun c hc => (text_ten c (List.mem_of_mem_head? hc)).2.1)
      (fun c hc => (text_ten c (List.mem_of_getLast? hc)).2.1)]
    exact fromStrRadix_text hne (fun p _ => toDigit_ten p.1 p.2) fun c hc => (text_ten c hc).2.2.1

/-- **`get_content_length` finds the Content-Length field.** -/
theorem getContentLength_text {f : Field} (hf : f ∈ h.fields)
    (hname : f.isNamed "content-length".toList = true) {m : ℕ} (hm : IsDecimal f.value m) :
    getContentLength U h.text = some m := by
  -- the first such field is the one there is
  have hfind : h.fields.find? (fun g => g.isNamed "content-length".toList) = some f := by
    rw [← List.head?_filter]
    have hmem : f ∈ h.fields.filter (·.isNamed "content-length".toList) :=
      List.mem_filter.2 ⟨hf, hname⟩
    have hle := h.lengths_le
    generalize h.fields.filter (·.isNamed "content-length".toList) = l at hle hmem ⊢
    cases l with
    | nil => simp at hmem
    | cons g l =>
      have hnil : l = [] := List.length_eq_zero_iff.1 (by rw [List.length_cons] at hle; omega)
      rw [hnil, List.mem_singleton] at hmem
      rw [hmem]; rfl
  have hlt : m < usizeBound := by
    obtain ⟨m', hm', hlt⟩ := h.lengths_ok f hf hname
    have e1 := (fromStrRadix_decimal hm (m + m' + 1)).2
    have e2 := (fromStrRadix_decimal hm' (m + m' + 1)).2
    rw [if_pos (by omega)] at e1 e2
    rw [e1] at e2; simp at e2; omega
  obtain ⟨hcolon, hparse⟩ := fromStrRadix_decimal hm usizeBound
  rw [h.headLines.getContentLength_eq]
  unfold pairs
  rw [List.find?_map]
  show ((h.fields.find? fun g => g.isNamed "content-length".toList).map _).bind _ = _
  rw [hfind, Option.map_some, Option.bind_some, splitFirst_self hcolon, hparse, if_pos hlt]

theorem getContentLength_none
    (hcl : ∀ g ∈ h.fields, g.isNamed "content-length".toList = false) :
    getContentLength U h.text = none := by
  rw [h.headLines.getContentLength_eq]
  unfold pairs
  rw [List.find?_map]
  have hfind : h.fields.find? (fun g => g.isNamed "content-length".toList) = none := by
    rw [List.find?_eq_none]
    intro g hg
    rw [hcl g hg]
    exact Bool.false_ne_true
  show ((h.fields.find? fun g => g.isNamed "content-length".toList).map _).bind _ = _
  rw [hfind]
  rfl

end ResponseHead

end HexbufferProxy
