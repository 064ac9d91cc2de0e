import HexbufferProxy.Proof.Fields
import HexbufferProxy.Spec.Wire

/-!
# What the parsers make of a head

* `headerFields_lines`: the header loop returns each field, trimmed, in order.
* `buildHeaders_eq`, `buildHeaders_some`: what the builder of the `http` crate makes of them.
* `lines_headBytes`, `bodyAfterHead_headBytes`: the lines of a head, and what is behind it, which is
  the body.
* `parseRawRequest_eq`: the request that comes out of them.
-/

namespace HexbufferProxy

open Rust

/-! ## Fields -/

theorem mem_of_encode {s : Str} {b : UInt8} (hb : b.toNat < 128) (h : b ∈ encode s) :
    Char.ofNat b.toNat ∈ s := by
  obtain ⟨x, y, hxy⟩ := List.append_of_mem h
  have hs := lossy_encode_self s
  rw [hxy, lossy_append_ascii hb, lossy_cons_ascii hb] at hs
  rw [← hs]
  simp

theorem tchar_spec {c : Char} (h : isTchar c = true) : c.toNat < 128 ∧ c ≠ ':' ∧ c ≠ '\r' ∧
    c ≠ '\n' ∧ isWhitespace c = false ∧ isNameChar c.toLower = true := by
  have key : ∀ n : Fin 128, isTchar (Char.ofNat n) = true → Char.ofNat n ≠ ':' ∧
      Char.ofNat n ≠ '\r' ∧ Char.ofNat n ≠ '\n' ∧ isWhitespace (Char.ofNat n) = false ∧
      isNameChar (Char.ofNat n).toLower = true := by decide +kernel
  have h' := key ⟨c.toNat, tchar_ascii h⟩
  simp only [char_ofNat_toNat] at h'
  exact ⟨tchar_ascii h, h' h⟩

namespace WireField

variable (f : WireField)

theorem name_spec : ∀ c ∈ f.name, c.toNat < 128 ∧ c ≠ ':' ∧ c ≠ '\r' ∧ c ≠ '\n' ∧
    isWhitespace c = false ∧ isNameChar c.toLower = true :=
  fun c hc => tchar_spec (List.all_eq_true.1 f.name_token c hc)

/-- The name as the header map has it. -/
def key : HeaderName :=
  ⟨f.name.map Char.toLower, by simpa using f.name_ne, by
    rw [List.all_map, List.all_eq_true]
    exact fun c hc => (f.name_spec c hc).2.2.2.2.2⟩

theorem parse_name : HeaderName.parse f.name = some f.key := by
  unfold HeaderName.parse
  exact dif_pos f.key.2

theorem trim_name : trim f.name = f.name := by
  have hhead : ∀ c, f.name.head? = some c → isWhitespace c = false := fun c hc =>
    (f.name_spec c (List.mem_of_mem_head? hc)).2.2.2.2.1
  have hlast : ∀ c, f.name.getLast? = some c → isWhitespace c = false := fun c hc =>
    (f.name_spec c (List.mem_of_getLast? hc)).2.2.2.2.1
  unfold trim
  rw [trimStart_of_head hhead, trimEnd_of_last hlast]

theorem name_colon : ':' ∉ f.name := fun h => (f.name_spec _ h).2.1 rfl

theorem line_no_lf : '\n' ∉ f.line := by
  unfold line
  simp only [List.mem_append, List.mem_cons, not_or]
  exact ⟨fun h => (f.name_spec _ h).2.2.2.1 rfl, by decide,
    (value_no_crlf ⟨f.raw, f.raw_ok⟩).2⟩

theorem bytes_ne : f.bytes ≠ [] := by
  unfold bytes
  simp

theorem bytes_no_cr : (13 : UInt8) ∉ f.bytes := by
  unfold bytes
  simp only [List.mem_append, List.mem_cons, not_or]
  refine ⟨?_, by decide, (value_no_crlf ⟨f.raw, f.raw_ok⟩).1⟩
  intro h
  exact (f.name_spec _ (mem_of_encode (by decide) h)).2.2.1 (by decide)

end WireField

variable {first : Str} {fs : List WireField}

/-- The text of the field lines. -/
theorem lossy_wire (fs : List WireField) (r : Bytes) :
    fromUtf8Lossy ((fs.map WireField.bytes).flatMap (· ++ [13, 10]) ++ r) =
      (fs.map WireField.line).flatMap (· ++ ['\r', '\n']) ++ fromUtf8Lossy r := by
  induction fs with
  | nil => rfl
  | cons f fs ih =>
    simp only [List.map_cons, List.flatMap_cons, WireField.bytes, WireField.line,
      List.append_assoc, List.cons_append, List.nil_append] at ih ⊢
    rw [lossy_encode, lossy_cons_ascii (by decide), lossy_append_ascii (by decide),
      lossy_cons_ascii (by decide), lossy_cons_ascii (by decide), ih]
    rfl

/-- The lines of the field lines, and of what follows them. -/
theorem lines_wire (fs : List WireField) (r : Bytes) :
    lines (fromUtf8Lossy ((fs.map WireField.bytes).flatMap (· ++ [13, 10]) ++ r)) =
      fs.map WireField.line ++ lines (fromUtf8Lossy r) := by
  have hno : ∀ l ∈ fs.map WireField.line, '\n' ∉ l := by
    intro l hl
    obtain ⟨f, -, rfl⟩ := List.mem_map.1 hl
    exact f.line_no_lf
  rw [lossy_wire, lines_flatMap hno]

/-- **The header loop takes one field from each line.** -/
theorem headerFields_lines (fs : List WireField) (ls : List Str) :
    headerFields (fs.map WireField.line ++ ls) =
      fs.map (fun f => (f.name, f.value)) ++ headerFields ls := by
  induction fs with
  | nil => rfl
  | cons f fs ih =>
    have hne : f.line ≠ [] := by unfold WireField.line; simp
    have hsplit : splitOnce ':' f.line = some (f.name, fromUtf8Lossy f.raw) :=
      splitOnce_append f.name_colon _
    simp only [List.map_cons, List.cons_append]
    rw [headerFields, if_neg hne, hsplit]
    simp only [f.trim_name, ih]
    rfl

/-- **The header fields of a head**, trimmed, in order, whatever the body. -/
theorem headerFields_head (fs : List WireField) (ls : List Str) :
    headerFields (fs.map WireField.line ++ [] :: ls) = fs.map fun f => (f.name, f.value) := by
  rw [headerFields_lines, headerFields, if_pos rfl, List.append_nil]

/-! ## The builder -/

/-- Fields appended to a header map one after the other. -/
def appendAll (m : HeaderMap) (ps : List (HeaderName × HeaderValue)) : HeaderMap :=
  ps.foldl (fun m p => m.append p.1 p.2) m

theorem values_appendAll (ps : List (HeaderName × HeaderValue)) (m : HeaderMap)
    (n : HeaderName) :
    HeaderMap.values (appendAll m ps) n = HeaderMap.values m n ++ HeaderMap.values ps n := by
  induction ps generalizing m with
  | nil => exact (List.append_nil _).symm
  | cons p ps ih =>
    unfold appendAll at ih ⊢
    rw [List.foldl_cons, ih, HeaderMap.values_append, List.append_assoc]
    congr 1
    unfold HeaderMap.values
    by_cases hp : p.1 = n
    · rw [if_pos hp, List.filter_cons_of_pos (by simpa using hp)]
      rfl
    · rw [if_neg hp, List.filter_cons_of_neg (by simpa using hp)]
      rfl

/-- The fields as the builder takes them, if it takes them all. -/
def Parses (fields : List (Str × Str)) (ps : List (HeaderName × HeaderValue)) : Prop :=
  List.Forall₂ (fun f p => HeaderName.parse f.1 = some p.1 ∧ HeaderValue.parse f.2 = some p.2)
    fields ps

theorem buildHeaders_eq {fields : List (Str × Str)} {ps : List (HeaderName × HeaderValue)}
    (h : Parses fields ps) (m : HeaderMap) :
    buildHeaders m fields = some (appendAll m ps) := by
  induction h generalizing m with
  | nil => rfl
  | cons hp _ ih =>
    unfold buildHeaders
    rw [hp.1, hp.2]
    exact ih _

theorem buildHeaders_some {fields : List (Str × Str)} {m h : HeaderMap}
    (hb : buildHeaders m fields = some h) : ∃ ps, Parses fields ps ∧ h = appendAll m ps := by
  induction fields generalizing m with
  | nil => exact ⟨[], List.Forall₂.nil, (Option.some.inj hb).symm⟩
  | cons f fields ih =>
    obtain ⟨key, value⟩ := f
    unfold buildHeaders at hb
    split at hb
    · rename_i n v hn hv
      obtain ⟨ps, hps, rfl⟩ := ih hb
      exact ⟨(n, v) :: ps, List.Forall₂.cons ⟨hn, hv⟩ hps, rfl⟩
    · exact nomatch hb

/-! ## The parsers -/

theorem position_headBytes (hfirst : IsFirstLine first) (fs : List WireField) (body : Bytes) :
    ∃ i, position crlfcrlf (headBytes first fs ++ body) = some i ∧
      i + 4 = (headBytes first fs).length := by
  have hne : ∀ l ∈ fs.map WireField.bytes, l ≠ [] := by
    intro l hl
    obtain ⟨f, -, rfl⟩ := List.mem_map.1 hl
    exact f.bytes_ne
  have hcr : ∀ l ∈ fs.map WireField.bytes, (13 : UInt8) ∉ l := by
    intro l hl
    obtain ⟨f, -, rfl⟩ := List.mem_map.1 hl
    exact f.bytes_no_cr
  have hfirst' : (13 : UInt8) ∉ encode first := by
    intro h
    exact hfirst.1 (mem_of_encode (by decide) h)
  exact position_head hfirst' hne hcr body

/-- What stands behind the head is the body. -/
theorem bodyAfterHead_headBytes (hfirst : IsFirstLine first) (fs : List WireField)
    (body : Bytes) : bodyAfterHead (headBytes first fs ++ body) = body := by
  obtain ⟨i, hi, hlen⟩ := position_headBytes hfirst fs body
  unfold bodyAfterHead
  rw [hi]
  simp only
  rw [hlen, List.drop_left]

/-- The first line comes first. -/
theorem lines_first (hfirst : IsFirstLine first) (r : Bytes) :
    lines (fromUtf8Lossy (encode first ++ 13 :: 10 :: r)) = first :: lines (fromUtf8Lossy r) := by
  rw [lossy_encode, lossy_cons_ascii (by decide), lossy_cons_ascii (by decide)]
  exact lines_crlf hfirst.2 _

/-- The empty line behind the head. -/
theorem lines_empty (r : Bytes) :
    lines (fromUtf8Lossy (13 :: 10 :: r)) = [] :: lines (fromUtf8Lossy r) := by
  rw [lossy_cons_ascii (by decide), lossy_cons_ascii (by decide)]
  exact lines_crlf List.not_mem_nil _

theorem lines_headBytes (hfirst : IsFirstLine first) (fs : List WireField) (body : Bytes) :
    lines (fromUtf8Lossy (headBytes first fs ++ body)) =
      first :: (fs.map WireField.line ++ [] :: lines (fromUtf8Lossy body)) := by
  have hbytes : headBytes first fs ++ body = encode first ++ 13 :: 10 ::
      ((fs.map WireField.bytes).flatMap (· ++ [13, 10]) ++ 13 :: 10 :: body) := by
    unfold headBytes
    simp only [List.append_assoc, List.cons_append, List.nil_append]
  rw [hbytes, lines_first hfirst, lines_wire, lines_empty]

/-- The words of the first line of a request. -/
theorem words_requestLine (m : Method) {target : Str} (ht : IsWord target) :
    splitWhitespace (requestLine m target) = [m.1, target, "HTTP/1.1".toList] := by
  have hmethod : ∀ c ∈ m.1, isWhitespace c = false :=
    fun c hc => (tchar_spec (List.all_eq_true.1 m.2.2 c hc)).2.2.2.2.1
  have e : " HTTP/1.1".toList = ' ' :: "HTTP/1.1".toList := by decide
  unfold requestLine
  rw [e, splitWhitespace_cons hmethod m.2.1 (by decide),
    splitWhitespace_cons ht.2 ht.1 (by decide), splitWhitespace_last (by decide) (by decide)]

theorem requestLine_line (m : Method) {target : Str} (ht : IsWord target) :
    IsFirstLine (requestLine m target) := by
  have hmethod : ∀ c ∈ m.1, c ≠ '\r' ∧ c ≠ '\n' := by
    intro c hc
    have h := tchar_spec (List.all_eq_true.1 m.2.2 c hc)
    exact ⟨h.2.2.1, h.2.2.2.1⟩
  have htarget : ∀ c ∈ target, c ≠ '\r' ∧ c ≠ '\n' := by
    intro c hc
    constructor <;> rintro rfl <;> exact absurd (ht.2 _ hc) (by decide)
  unfold requestLine IsFirstLine
  simp only [List.mem_append, List.mem_cons, not_or]
  exact ⟨⟨fun h => (hmethod _ h).1 rfl, by decide, fun h => (htarget _ h).1 rfl, by decide⟩,
    fun h => (hmethod _ h).2 rfl, by decide, fun h => (htarget _ h).2 rfl, by decide⟩

/-- **A buffer that starts with a request line** gives the request with its method and target, the
fields of the lines that follow, and what is behind the head for a body. -/
theorem parseRawRequest_eq {http : HttpCrate} {m : Method} {target : Str} {bytes : Bytes}
    {ls : List Str} (hlines : lines (fromUtf8Lossy bytes) = requestLine m target :: ls)
    (ht : IsWord target) {u : Uri} (hu : http.parseUri target = some u) :
    parseRawRequest http bytes = (buildHeaders [] (headerFields ls)).elim (.error builderPanic)
      fun h => .ok ⟨m, u, h, .full (bodyAfterHead bytes)⟩ := by
  have hmethod : Method.parse m.1 = some m := dif_pos m.2
  simp only [parseRawRequest, hlines, List.head?_cons, Option.getD_some, List.tail_cons,
    words_requestLine m ht, List.getElem?_cons_zero, List.getElem?_cons_succ, hmethod, hu]
  cases buildHeaders [] (headerFields ls) with
  | none => rfl
  | some h => rfl

/-! ## What the parsers return -/

theorem parseRawRequest_ok {http : HttpCrate} {bytes : Bytes} {r : Request}
    (h : parseRawRequest http bytes = .ok r) :
    http.parseUri ((splitWhitespace ((lines (fromUtf8Lossy bytes)).head?.getD []))[1]?.getD
      "/".toList) = some r.uri ∧
    buildHeaders [] (headerFields (lines (fromUtf8Lossy bytes)).tail) = some r.headers ∧
    r.body = .full (bodyAfterHead bytes) := by
  unfold parseRawRequest at h
  simp only at h
  split at h
  · rename_i hu hh
    rw [← Except.ok.inj h]
    exact ⟨hu, hh, rfl⟩
  · exact nomatch h

theorem parseRawResponse_ok {bytes : Bytes} {res : Response}
    (h : parseRawResponse bytes = .ok res) :
    buildHeaders [] (headerFields (lines (fromUtf8Lossy bytes)).tail) = some res.headers ∧
      res.body = .full (bodyAfterHead bytes) := by
  unfold parseRawResponse at h
  simp only at h
  split at h
  · exact nomatch h
  · split at h
    · rename_i hh
      rw [← Except.ok.inj h]
      exact ⟨hh, rfl⟩
    · exact nomatch h

end HexbufferProxy
