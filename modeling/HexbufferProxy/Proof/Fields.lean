import HexbufferProxy.Proof.Response
import HexbufferProxy.Spec.Forward

/-!
# Names, values and the head they are written into

* `nameChar_spec`, `value_text`: what the characters of a header name and of a value can be.
* `serializeResponseHead_eq`: a serialized head is a first line and one line for each field.
* `lossy_serialized`: its text.
* `headLines_serialized`: what the scanners find in it.
-/

namespace HexbufferProxy

open Rust

variable {U : Unicode}

theorem tchar_ascii {c : Char} (h : isTchar c = true) : c.toNat < 128 := by
  unfold isTchar at h
  rw [Bool.or_eq_true] at h
  rcases h with h | h
  · have hv : c.val.toNat = c.toNat := rfl
    simp only [Char.isAlphanum, Char.isAlpha, Char.isUpper, Char.isLower, Char.isDigit,
      Bool.or_eq_true, Bool.and_eq_true, decide_eq_true_eq, UInt32.le_iff_toNat_le, ge_iff_le,
      hv] at h
    simp at h
    omega
  · have key : ∀ c ∈ "!#$%&'*+-.^_`|~".toList, c.toNat < 128 := by decide
    exact key c (List.contains_iff_mem.1 h)

/-- What a header name is made of. -/
theorem nameChar_spec {c : Char} (h : isNameChar c = true) : c.toNat < 128 ∧ c ≠ ':' ∧
    c ≠ '\r' ∧ c ≠ '\n' ∧ isWhitespace c = false ∧ c.toLower = c := by
  have hascii : c.toNat < 128 := by
    unfold isNameChar at h
    rw [Bool.and_eq_true] at h
    exact tchar_ascii h.1
  have key : ∀ n : Fin 128, isNameChar (Char.ofNat n) = true → Char.ofNat n ≠ ':' ∧
      Char.ofNat n ≠ '\r' ∧ Char.ofNat n ≠ '\n' ∧ isWhitespace (Char.ofNat n) = false ∧
      (Char.ofNat n).toLower = Char.ofNat n := by decide +kernel
  have h' := key ⟨c.toNat, hascii⟩
  simp only [char_ofNat_toNat] at h'
  exact ⟨hascii, h' h⟩

/-- A value has no line end, neither as bytes nor as text. -/
theorem value_no_crlf (v : HeaderValue) :
    (13 : UInt8) ∉ v.1 ∧ '\n' ∉ fromUtf8Lossy v.1 := by
  have hbyte : ∀ b ∈ v.1, isValueByte b = true := by
    intro b hb
    exact List.all_eq_true.1 v.2 b hb
  constructor
  · intro h
    exact absurd (hbyte 13 h) (by decide)
  · intro h
    obtain ⟨b, hb, he⟩ := mem_lossy_ascii h (by decide) (by decide)
    have hb10 : b = 10 := UInt8.toNat_inj.1 he
    rw [hb10] at hb
    exact absurd (hbyte 10 hb) (by decide)

section

variable (n : HeaderName)

theorem name_spec : ∀ c ∈ n.1, c.toNat < 128 ∧ c ≠ ':' ∧ c ≠ '\r' ∧ c ≠ '\n' ∧
    isWhitespace c = false ∧ c.toLower = c :=
  fun c hc => nameChar_spec (List.all_eq_true.1 n.2.2 c hc)

theorem name_lower : n.1.map Char.toLower = n.1 := by
  have h : n.1.map Char.toLower = n.1.map id :=
    List.map_congr_left fun c hc => (name_spec n c hc).2.2.2.2.2
  rw [h, List.map_id]

/-- The scanners' comparison of names is equality. -/
theorem name_lower_eq (k : HeaderName) : n.1.map Char.toLower = k.1 ↔ n = k := by
  rw [name_lower]
  exact ⟨fun h => Subtype.ext h, fun h => congrArg Subtype.val h⟩

end

/-! ## A serialized head -/

/-- The line of a field, as bytes. -/
def headerBytes (p : HeaderName × HeaderValue) : Bytes := encode p.1.1 ++ [58, 32] ++ p.2.1

/-- The first line of a serialized response. -/
def statusText (http : HttpCrate) (res : Response) : Str :=
  "HTTP/1.1 ".toList ++ displayNat res.status.1 ++
    ' ' :: (http.canonicalReason res.status.1).getD "OK".toList

theorem serializeHeaders_eq (m : HeaderMap) :
    serializeHeaders m = (m.map headerBytes).flatMap (· ++ [13, 10]) ++ [13, 10] := by
  unfold serializeHeaders
  rw [List.flatMap_map]
  rfl

theorem serializeResponseHead_eq (http : HttpCrate) (res : Response) :
    serializeResponseHead http res = encode (statusText http res) ++
      ([13, 10] ++ (res.headers.map headerBytes).flatMap (· ++ [13, 10]) ++ [13, 10]) := by
  have hspace : String.utf8EncodeChar ' ' = [32] := by decide
  unfold serializeResponseHead statusText lit
  rw [serializeHeaders_eq]
  simp only [encode_append, encode_cons, hspace, List.append_assoc]

/-- What a decimal digit is. -/
theorem digitChar_spec {d : ℕ} (hd : d < 10) : Nat.digitChar d = digitChar false d ∧
    toDigit 10 (digitChar false d) = some d ∧ digitChar false d ≠ '+' ∧
    (digitChar false d).toNat < 128 ∧ isWhitespace (digitChar false d) = false := by
  have key : ∀ d : Fin 10, Nat.digitChar d = digitChar false d ∧
      toDigit 10 (digitChar false d) = some d.1 ∧ digitChar false d ≠ '+' ∧
      (digitChar false d).toNat < 128 ∧ isWhitespace (digitChar false d) = false := by decide
  exact key ⟨d, hd⟩

/-- The numeral of a status: three digits. -/
theorem displayNat_digits {n : ℕ} (hlow : 100 ≤ n) (hhigh : n < 1000) : displayNat n =
    [digitChar false (n / 100), digitChar false (n / 10 % 10), digitChar false (n % 10)] := by
  unfold displayNat
  rw [Nat.toDigits_of_base_le (by decide) (by omega),
    Nat.toDigits_of_base_le (by decide) (by omega), Nat.toDigits_of_lt_base (by omega),
    Nat.div_div_eq_div_mul, (digitChar_spec (by omega)).1, (digitChar_spec (by omega)).1,
    (digitChar_spec (by omega)).1]
  rfl

/-- None of them is white space, and they parse to the status. -/
theorem status_spec (s : StatusCode) : displayNat s.1 ≠ [] ∧
    (∀ c ∈ displayNat s.1, c.toNat < 128 ∧ isWhitespace c = false) ∧
    fromStrRadix 10 65536 (displayNat s.1) = some s.1 := by
  obtain ⟨n, hlow, hhigh⟩ := s
  obtain ⟨-, hv2, hplus2, hc2⟩ := digitChar_spec (d := n / 100) (by omega)
  obtain ⟨-, hv1, -, hc1⟩ := digitChar_spec (d := n / 10 % 10) (by omega)
  obtain ⟨-, hv0, -, hc0⟩ := digitChar_spec (d := n % 10) (by omega)
  show displayNat n ≠ [] ∧ _ ∧ fromStrRadix 10 65536 (displayNat n) = some n
  rw [displayNat_digits hlow hhigh]
  refine ⟨List.cons_ne_nil _ _, ?_, ?_⟩
  · intro c hc
    simp only [List.mem_cons, List.not_mem_nil, or_false] at hc
    rcases hc with rfl | rfl | rfl
    · exact hc2
    · exact hc1
    · exact hc0
  · have hvalue : valueOf 10 [n / 100, n / 10 % 10, n % 10] = n := by
      simp only [valueOf, List.foldl_cons, List.foldl_nil]
      omega
    have hmap : [digitChar false (n / 100), digitChar false (n / 10 % 10),
        digitChar false (n % 10)].map (toDigit 10) = [n / 100, n / 10 % 10, n % 10].map some := by
      simp only [List.map_cons, List.map_nil, hv2, hv1, hv0]
    have hplus : [digitChar false (n / 100), digitChar false (n / 10 % 10),
        digitChar false (n % 10)].head? ≠ some '+' := fun h => hplus2 (Option.some.inj h)
    rw [fromStrRadix_eq (List.cons_ne_nil _ _) hplus hmap, hvalue, if_pos (by omega)]

theorem statusText_line (http : HttpCrate) (res : Response) :
    LineText (statusText http res) := by
  have hreason : ∀ c ∈ (http.canonicalReason res.status.1).getD "OK".toList,
      32 ≤ c.toNat ∧ c.toNat < 127 := by
    cases hr : http.canonicalReason res.status.1 with
    | none => decide
    | some r => exact http.canonicalReason_text _ r hr
  unfold statusText
  apply LineText.append
  · apply LineText.append (by decide)
    exact lineText_of_visible (status_spec res.status).2.1
  · apply LineText.cons (by decide)
    intro c hc
    obtain ⟨h1, h2⟩ := hreason c hc
    refine ⟨by omega, ?_, ?_⟩ <;> rintro rfl <;> exact absurd h1 (by decide)

/-- The second word of the first line is the status. -/
theorem words_statusText (http : HttpCrate) (res : Response) :
    (splitWhitespace (statusText http res))[1]? = some (displayNat res.status.1) := by
  obtain ⟨hne, hvis, -⟩ := status_spec res.status
  have e : "HTTP/1.1 ".toList = "HTTP/1.1".toList ++ [' '] := by decide
  unfold statusText
  rw [e, List.append_assoc, List.append_assoc]
  show (splitWhitespace ("HTTP/1.1".toList ++ ' ' :: (displayNat res.status.1 ++ ' ' :: _)))[1]? =
    _
  rw [splitWhitespace_cons (by decide) (by decide) (by decide),
    splitWhitespace_cons (fun c hc => (hvis c hc).2) hne (by decide)]
  rfl

theorem lossy_fields (m : HeaderMap) (r : Bytes) :
    fromUtf8Lossy ((m.map headerBytes).flatMap (· ++ [13, 10]) ++ r) =
      (m.map headerLine).flatMap (· ++ ['\r', '\n']) ++ fromUtf8Lossy r := by
  induction m with
  | nil => rfl
  | cons p m ih =>
    simp only [List.map_cons, List.flatMap_cons, headerBytes, headerLine, List.append_assoc,
      List.cons_append, List.nil_append] at ih ⊢
    rw [lossy_encode, lossy_cons_ascii (by decide), lossy_cons_ascii (by decide),
      lossy_append_ascii (by decide), lossy_cons_ascii (by decide), lossy_cons_ascii (by decide), ih]
    rfl

/-- **The text of a serialized head.** -/
theorem lossy_serialized (http : HttpCrate) (res : Response) :
    fromUtf8Lossy (serializeResponseHead http res) = statusText http res ++ '\r' :: '\n' ::
      ((res.headers.map headerLine).flatMap (· ++ ['\r', '\n']) ++ ['\r', '\n']) := by
  rw [serializeResponseHead_eq, lossy_encode]
  simp only [List.cons_append, List.nil_append]
  rw [lossy_cons_ascii (by decide), lossy_cons_ascii (by decide), lossy_fields]
  rfl

/-- The scanners' view of a header map. -/
def headerPairs (m : HeaderMap) : List (Str × Str) :=
  m.map fun p => (p.1.1, ' ' :: fromUtf8Lossy p.2.1)

/-- **The scanners find the fields of the header map**, in its order. -/
theorem headLines_serialized (http : HttpCrate) (res : Response) :
    HeadLines (fromUtf8Lossy (serializeResponseHead http res)) (statusText http res)
      (headerPairs res.headers) := by
  refine ⟨?_, rfl, ?_, ?_⟩
  · have hno : ∀ l ∈ res.headers.map headerLine, '\n' ∉ l := by
      intro l hl
      obtain ⟨p, -, rfl⟩ := List.mem_map.1 hl
      unfold headerLine
      simp only [List.mem_append, List.mem_cons, not_or]
      exact ⟨fun h => (name_spec p.1 _ h).2.2.2.1 rfl, by decide, by decide,
        (value_no_crlf p.2).2⟩
    rw [lossy_serialized, lines_crlf (statusText_line http res).no_lf, lines_flatMap hno]
    unfold headerPairs
    rw [List.map_map]
    rfl
  · intro p hp c hc
    obtain ⟨q, -, rfl⟩ := List.mem_map.1 hp
    exact (name_spec q.1 c hc).1
  · intro p hp h
    obtain ⟨q, -, rfl⟩ := List.mem_map.1 hp
    exact (name_spec q.1 _ h).2.1 rfl

/-- **A serialized head ends at its first CRLFCRLF.** -/
theorem position_serialized (http : HttpCrate) (res : Response) (r : Bytes) :
    ∃ i, position crlfcrlf (serializeResponseHead http res ++ r) = some i ∧
      i + 4 = (serializeResponseHead http res).length := by
  have hne : ∀ l ∈ res.headers.map headerBytes, l ≠ [] := by
    intro l hl
    obtain ⟨p, -, rfl⟩ := List.mem_map.1 hl
    unfold headerBytes
    simp
  have hcr : ∀ l ∈ res.headers.map headerBytes, (13 : UInt8) ∉ l := by
    intro l hl
    obtain ⟨p, -, rfl⟩ := List.mem_map.1 hl
    have hname : LineText p.1.1 := fun c hc =>
      ⟨(name_spec p.1 c hc).1, (name_spec p.1 c hc).2.2.1, (name_spec p.1 c hc).2.2.2.1⟩
    unfold headerBytes
    simp only [List.mem_append, not_or]
    exact ⟨⟨hname.encode_no_cr, by decide⟩, (value_no_crlf p.2).1⟩
  rw [serializeResponseHead_eq]
  exact position_head (statusText_line http res).encode_no_cr hne hcr r

end HexbufferProxy
