import HexbufferProxy.Proof.Boundary
import HexbufferProxy.Proof.Deliver
import HexbufferProxy.Proof.Reader
import HexbufferProxy.Proof.Scanners
import HexbufferProxy.Spec.Carry

/-!
# When fields pass through the parser

* `WireField.carried_iff`: a value comes out as it came in exactly when it is a text.
* `headFields_rawHead`: the parser finds all the fields, whatever stands in the first line.
* `parse_carries_iff`: a head comes out with the same values exactly when they are all texts.
-/

namespace HexbufferProxy

open Rust

/-! ## Blanks -/

theorem stripBlanks_around (v : Bytes) : ∃ w w', v = w ++ stripBlanks v ++ w' ∧
    (∀ b ∈ w, b = 32 ∨ b = 9) ∧ ∀ b ∈ w', b = 32 ∨ b = 9 := by
  have hblank : ∀ {b}, isBlank b = true → b = 32 ∨ b = 9 := by
    intro b hb
    simpa [isBlank] using hb
  refine ⟨v.takeWhile isBlank, (v.dropWhile isBlank).rtakeWhile isBlank, ?_, ?_, ?_⟩
  · unfold stripBlanks
    rw [List.append_assoc, List.rdropWhile_append_rtakeWhile, List.takeWhile_append_dropWhile]
  · exact fun b hb => hblank (List.mem_takeWhile_imp hb)
  · intro b hb
    unfold List.rtakeWhile at hb
    exact hblank (List.mem_takeWhile_imp (List.mem_reverse.1 hb))

/-- Decoding leaves the blanks around a text alone. -/
theorem lossy_blanks {w w' : Bytes} (hw : ∀ b ∈ w, b = 32 ∨ b = 9) (hw' : ∀ b ∈ w', b = 32 ∨ b = 9)
    (v : Bytes) : ∃ x x' : Str, fromUtf8Lossy (w ++ v ++ w') = x ++ fromUtf8Lossy v ++ x' ∧
      (∀ c ∈ x, isWhitespace c = true) ∧ (∀ c ∈ x', isWhitespace c = true) ∧
      w = encode x ∧ w' = encode x' := by
  obtain ⟨x, hx, rfl⟩ := encode_blanks hw
  obtain ⟨x', hx', rfl⟩ := encode_blanks hw'
  have hbehind : fromUtf8Lossy (v ++ encode x') = fromUtf8Lossy v ++ x' := by
    have hdecode := lossy_encode_self x'
    rcases hcases : encode x' with _ | ⟨b, bs⟩
    · rw [hcases, fromUtf8Lossy_nil] at hdecode
      rw [← hdecode, List.append_nil, List.append_nil]
    · have hb : b.toNat < 128 := by
        rcases hw' b (hcases ▸ List.mem_cons_self) with rfl | rfl <;> decide
      rw [lossy_append_ascii hb, ← hcases, hdecode]
  refine ⟨x, x', ?_, hx, hx', rfl, rfl⟩
  rw [List.append_assoc, lossy_encode, hbehind, List.append_assoc]

theorem length_trim_le (s : Str) : (trim s).length ≤ s.length := by
  unfold trim trimEnd trimStart
  exact (List.rdropWhile_prefix _ _).length_le.trans (List.dropWhile_suffix _).length_le

/-- A trimmed text has no blanks around it. -/
theorem stripBlanks_encode {t : Str} (ht : trim t = t) : stripBlanks (encode t) = encode t := by
  obtain ⟨w, w', hsplit, hw, hw'⟩ := stripBlanks_around (encode t)
  generalize stripBlanks (encode t) = v at hsplit
  obtain ⟨x, x', hlossy, hx, hx', hwx, hwx'⟩ := lossy_blanks hw hw' v
  have hdecode := lossy_encode_self t
  rw [hsplit, hlossy] at hdecode
  -- trimming would take the blanks off, so there are none
  have hlen := length_trim_le (fromUtf8Lossy v)
  rw [← trim_around hx hx', hdecode, ht] at hlen
  have htotal := congrArg List.length hdecode
  rw [List.length_append, List.length_append] at htotal
  have hxnil : x = [] := List.length_eq_zero_iff.1 (by omega)
  have hxnil' : x' = [] := List.length_eq_zero_iff.1 (by omega)
  rw [hwx, hwx', hxnil, hxnil', encode_nil, List.nil_append, List.append_nil] at hsplit
  exact hsplit.symm

namespace WireField

variable (f : WireField)

/-- **A value comes out as it came in** exactly when it is a text. -/
theorem carried_iff : stripBlanks (encode f.value) = stripBlanks f.raw ↔ f.IsText := by
  have hself : stripBlanks (encode f.value) = encode f.value := stripBlanks_encode (trim_trim _)
  rw [hself]
  constructor
  · exact fun h => ⟨f.value, h.symm, trim_trim _⟩
  · rintro ⟨t, ht, htrim⟩
    obtain ⟨w, w', hsplit, hw, hw'⟩ := stripBlanks_around f.raw
    obtain ⟨x, x', hlossy, hx, hx', -⟩ := lossy_blanks hw hw' (stripBlanks f.raw)
    have hvalue : f.value = t := by
      unfold value
      rw [hsplit, hlossy, trim_around hx hx', ht, lossy_encode_self, htrim]
    rw [hvalue, ht]

end WireField

variable {first : Bytes} {fs : List WireField}

/-- **The parser finds all the fields**, whatever stands in the first line. -/
theorem headFields_rawHead (hfirst : (10 : UInt8) ∉ first) (fs : List WireField) (body : Bytes) :
    headFields (rawHead first fs ++ body) =
      fs.map fun f => (f.name.map Char.toLower, fromUtf8Lossy f.raw) := by
  have hraw : rawHead first fs ++ body = (first ++ [13]) ++ 10 ::
      ((fs.map WireField.bytes).flatMap (· ++ [13, 10]) ++ 13 :: 10 :: body) := by
    unfold rawHead
    simp only [List.append_assoc, List.cons_append, List.nil_append]
  have hline : (10 : UInt8) ∉ first ++ [13] := by
    rw [List.mem_append, not_or]
    exact ⟨hfirst, by decide⟩
  have hne : ∀ f : WireField, f.line ≠ [] := by
    intro f
    unfold WireField.line
    simp
  have hfieldLines : fieldLines (rawHead first fs ++ body) = fs.map WireField.line := by
    unfold fieldLines
    rw [hraw, lines_lossy hline, lines_wire, lines_empty, List.tail_cons,
      List.takeWhile_append_of_pos]
    · rw [List.takeWhile_cons_of_neg (by simp), List.append_nil]
    · intro l hl
      obtain ⟨f, -, rfl⟩ := List.mem_map.1 hl
      simpa using hne f
  unfold headFields
  rw [hfieldLines, List.filterMap_map]
  apply List.filterMap_eq_map_iff_forall_eq_some.2
  intro f _
  have hsplit : splitOnce ':' f.line = some (f.name, fromUtf8Lossy f.raw) :=
    splitOnce_append f.name_colon _
  rw [Function.comp_apply, splitField, hsplit, Option.map_some, f.trim_name]

/-- A serialized header map has its values, without blanks around them. -/
theorem rawValues_wireFields (m : HeaderMap) (n : HeaderName) :
    rawValues (wireFields m) n = ((m.values n).map Subtype.val).map stripBlanks := by
  unfold rawValues wireFields HeaderMap.values
  rw [List.filter_map, List.map_map, List.map_map, List.map_map]
  have hname : ∀ p ∈ m, ((fun f : WireField => decide (f.name.map Char.toLower = n.1)) ∘
      fun p => ⟨p.1.1, 32 :: p.2.1, p.1.2.1, nameChar_tchar p.1.2.2, by
        rw [List.all_cons, p.2.2]; decide⟩) p = decide (p.1 = n) := by
    intro p _
    rw [Function.comp_apply, decide_eq_decide]
    exact name_lower_eq p.1 n
  rw [List.filter_congr hname]
  rfl

/-- Lists made from the same fields are the same name by name when they are so field by field. -/
theorem forall_filter_map_eq_iff (fs : List WireField) (g h : WireField → Bytes) :
    (∀ n : HeaderName, (fs.filter fun f => f.name.map Char.toLower = n.1).map g =
      (fs.filter fun f => f.name.map Char.toLower = n.1).map h) ↔ ∀ f ∈ fs, g f = h f := by
  constructor
  · intro heq f hf
    have hmem : f ∈ fs.filter fun k => k.name.map Char.toLower = f.key.1 :=
      List.mem_filter.2 ⟨hf, decide_eq_true rfl⟩
    exact List.map_inj_left.1 (heq f.key) f hmem
  · exact fun heq n => List.map_congr_left fun f hf => heq f (List.mem_filter.1 hf).1

/-- **What the header map holds carries the fields** exactly when their values are texts. -/
theorem carriesFields_iff (hfirst : (10 : UInt8) ∉ first) {body : Bytes} {m : HeaderMap}
    (h : buildHeaders [] (headerFields (lines (fromUtf8Lossy (rawHead first fs ++ body))).tail) =
      some m) (line : Str) (rest : Bytes) :
    CarriesFields line (headBytes line (wireFields m) ++ rest) fs ↔ ∀ f ∈ fs, f.IsText := by
  have hvalues : ∀ n : HeaderName, rawValues (wireFields m) n =
      (fs.filter fun f => f.name.map Char.toLower = n.1).map fun f =>
        stripBlanks (encode f.value) := by
    intro n
    rw [rawValues_wireFields, values_headFields h, headFields_rawHead hfirst, List.filter_map,
      List.map_map, List.map_map]
    rfl
  have hcarried : (∀ n, rawValues (wireFields m) n = rawValues fs n) ↔ ∀ f ∈ fs, f.IsText := by
    have hall := forall_filter_map_eq_iff fs (fun f => stripBlanks (encode f.value))
      fun f => stripBlanks f.raw
    simp only [hvalues]
    exact hall.trans (forall₂_congr fun f _ => f.carried_iff)
  rw [← hcarried]
  constructor
  · -- the bytes can be read as field lines in one way only
    rintro ⟨fs', rest', hbytes, hsame⟩
    unfold headBytes at hbytes
    simp only [List.append_assoc] at hbytes
    have hfields := (List.append_cancel_left (List.append_cancel_left hbytes))
    obtain ⟨rfl, -⟩ := fields_unique _ _ _ _ hfields
    exact hsame
  · exact fun hsame => ⟨_, _, rfl, hsame⟩

/-- **A head passes through the parser with its values** exactly when each is UTF-8 with no white
space around it but blanks. -/
theorem parse_carries_iff (http : HttpCrate) (first : Bytes) (hfirst : (10 : UInt8) ∉ first)
    (fs : List WireField) (body : Bytes) :
    (∀ req, parseRawRequest http (rawHead first fs ++ body) = .ok req →
      (CarriesFields (requestLine req.method req.uri.display) (serializeRequest req) fs ↔
        ∀ f ∈ fs, f.IsText)) ∧
    ∀ res, parseRawResponse (rawHead first fs ++ body) = .ok res →
      (CarriesFields (statusText http res) (serializeResponse http res) fs ↔
        ∀ f ∈ fs, f.IsText) := by
  constructor
  · intro req hreq
    rw [serializeRequest_eq]
    exact carriesFields_iff hfirst (parseRawRequest_ok hreq).2.1 _ _
  · intro res hres
    unfold serializeResponse
    rw [serializeResponseHead_wire]
    exact carriesFields_iff hfirst (parseRawResponse_ok hres).1 _ _

/-- A name with an accent, as UTF-8 and as Latin-1. -/
def utf8Field : WireField :=
  ⟨"X-Name".toList, 32 :: lit "café", by decide, by decide, by decide⟩

def latinField : WireField :=
  ⟨"X-Name".toList, [32, 99, 97, 102, 0xE9], by decide, by decide, by decide⟩

theorem parse_carries_utf8 : ∃ res,
    parseRawResponse (rawHead (lit "HTTP/1.1 200 OK") [utf8Field] ++ []) = .ok res ∧
      CarriesFields (statusText HttpCrate.basic res) (serializeResponse HttpCrate.basic res)
        [utf8Field] := by
  have hparse : (parseRawResponse (rawHead (lit "HTTP/1.1 200 OK") [utf8Field] ++ [])).toOption.isSome
    := by decide +kernel
  cases hres : parseRawResponse (rawHead (lit "HTTP/1.1 200 OK") [utf8Field] ++ []) with
  | error e => rw [hres] at hparse; exact nomatch hparse
  | ok res =>
    refine ⟨res, rfl, ((parse_carries_iff HttpCrate.basic _ (by decide) _ _).2 res hres).2 ?_⟩
    intro f hf
    rw [List.mem_singleton.1 hf]
    exact ⟨"café".toList, by decide, by decide⟩

/-- The Latin-1 byte does not come out again. -/
theorem parse_replaces_latin : ¬ ∀ (http : HttpCrate) (first : Bytes) (fs : List WireField)
    (body : Bytes) (res : Response), (10 : UInt8) ∉ first →
      parseRawResponse (rawHead first fs ++ body) = .ok res →
        CarriesFields (statusText http res) (serializeResponse http res) fs := by
  intro hall
  have hparse : (parseRawResponse (rawHead (lit "HTTP/1.1 200 OK") [latinField] ++ [])).toOption.isSome
    := by decide +kernel
  cases hres : parseRawResponse (rawHead (lit "HTTP/1.1 200 OK") [latinField] ++ []) with
  | error e => rw [hres] at hparse; exact nomatch hparse
  | ok res =>
    have hcarries := hall HttpCrate.basic _ _ _ res (by decide) hres
    unfold serializeResponse at hcarries
    rw [serializeResponseHead_wire,
      carriesFields_iff (by decide) (parseRawResponse_ok hres).1] at hcarries
    obtain ⟨t, ht, -⟩ := hcarries latinField (List.mem_singleton_self _)
    -- no text has these bytes
    have hdecode := lossy_encode_self t
    rw [← ht] at hdecode
    rw [← hdecode] at ht
    exact absurd ht (by decide)

end HexbufferProxy
