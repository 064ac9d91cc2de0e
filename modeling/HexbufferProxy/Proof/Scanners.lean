import HexbufferProxy.Proof.Handshake
import HexbufferProxy.Proof.Host
import HexbufferProxy.Proof.Validity
import HexbufferProxy.Spec.Scanners

/-!
# When the scanners agree with the header map

* `values_headFields`: the header map holds the fields of the head, name by name.
* `numberIn_eq_some_iff`: what `get_content_length` reads from a line, in terms of digits.
* `listsChunked_letters`: a scanner that lowers ASCII letters in place finds a listed coding.
* `scanners_agree_iff`: the scanners and the header map say the same of the body exactly when the
  lines they look at do.
-/

namespace HexbufferProxy

open Rust

variable {U : Unicode} {head : Bytes} {res : Response}

/-! ## The header map -/

/-- A parsed field has the name in lower case, and the text of its value. -/
theorem parses_fields {fields : List (Str × Str)} {ps : List (HeaderName × HeaderValue)}
    (h : Parses fields ps) : ps.map (fun p => (p.1.1, p.2.1)) =
      fields.map fun f => (f.1.map Char.toLower, encode f.2) := by
  induction h with
  | nil => rfl
  | cons hp _ ih =>
    obtain ⟨hn, hv⟩ := hp
    rw [List.map_cons, List.map_cons, ih]
    congr 1
    unfold HeaderName.parse at hn
    unfold HeaderValue.parse at hv
    split at hn
    · split at hv
      · rw [← Option.some.inj hn, ← Option.some.inj hv]
      · exact nomatch hv
    · exact nomatch hn

/-- **The header map holds the fields of the head**, name by name. -/
theorem values_headFields {m : HeaderMap}
    (h : buildHeaders [] (headerFields (lines (fromUtf8Lossy head)).tail) = some m)
    (n : HeaderName) : (m.values n).map Subtype.val =
      ((headFields head).filter fun f => f.1 = n.1).map fun f => encode (trim f.2) := by
  obtain ⟨ps, hps, rfl⟩ := buildHeaders_some h
  have hpairs : ps.map (fun p => (p.1.1, p.2.1)) =
      (headFields head).map fun f => (f.1, encode (trim f.2)) := by
    rw [parses_fields hps, headerFields_eq]
    unfold headFields fieldLines
    rw [List.map_filterMap, List.map_filterMap]
    congr 1
    funext l
    unfold splitField
    rw [Option.map_map, Option.map_map]
    rfl
  have hvalues : HeaderMap.values (appendAll [] ps) n = HeaderMap.values ps n :=
    values_appendAll ps [] n
  rw [hvalues]
  unfold HeaderMap.values
  have hfilter : (ps.filter fun p => p.1 = n).map (fun p => (p.1.1, p.2.1)) =
      (ps.map fun p => (p.1.1, p.2.1)).filter fun q => q.1 = n.1 := by
    rw [List.filter_map]
    congr 1
    apply List.filter_congr
    intro p _
    simp only [Function.comp_apply, decide_eq_decide]
    exact Subtype.ext_iff
  have hsnd : ((ps.filter fun p => p.1 = n).map Prod.snd).map Subtype.val =
      ((ps.filter fun p => p.1 = n).map fun p => (p.1.1, p.2.1)).map Prod.snd := by
    rw [List.map_map, List.map_map]
    rfl
  rw [hsnd, hfilter, hpairs, List.filter_map, List.map_map]
  rfl

theorem lossy_values {m : HeaderMap}
    (h : buildHeaders [] (headerFields (lines (fromUtf8Lossy head)).tail) = some m)
    (n : HeaderName) : (m.values n).map (fun v => fromUtf8Lossy v.1) =
      ((headFields head).filter fun f => f.1 = n.1).map fun f => trim f.2 := by
  have hlossy : (m.values n).map (fun v => fromUtf8Lossy v.1) =
      ((m.values n).map Subtype.val).map fromUtf8Lossy := by
    rw [List.map_map]
    rfl
  rw [hlossy, values_headFields h, List.map_map]
  apply List.map_congr_left
  exact fun f _ => lossy_encode_self (trim f.2)

theorem lossy_get {m : HeaderMap}
    (h : buildHeaders [] (headerFields (lines (fromUtf8Lossy head)).tail) = some m)
    (n : HeaderName) : (m.get n).map (fun v => fromUtf8Lossy v.1) =
      (firstField head n).map fun f => trim f.2 := by
  unfold HeaderMap.get firstField
  rw [← List.head?_map, lossy_values h, List.head?_map, List.head?_filter]

/-! ## Numbers -/

/-- The standard library reads the digits of a decimal number. -/
theorem digits_eq_decimal {s : Str} (hs : s ≠ []) : digits 10 0 s = decimal s := by
  unfold decimal
  by_cases hall : s.all Char.isDigit = true
  · rw [if_pos ⟨hs, hall⟩]
    apply digits_eq
    rw [List.map_map]
    apply List.map_congr_left
    intro c hc
    have hdigit := Char.isDigit_iff_toNat.1 (List.all_eq_true.1 hall c hc)
    have hle : '0' ≤ c ∧ c ≤ '9' :=
      ⟨UInt32.le_iff_toNat_le.2 hdigit.1, UInt32.le_iff_toNat_le.2 hdigit.2⟩
    have hlt : c.toNat - 48 < 10 := by
      have h9 : c.toNat ≤ 57 := hdigit.2
      omega
    unfold toDigit
    simp only [if_pos hle, if_pos hlt, Function.comp_apply]
  · rw [if_neg fun h => hall h.2]
    cases hd : digits 10 0 s with
    | none => rfl
    | some n => exact absurd (List.all_eq_true.2 (digits_ten_isDigit hd)) hall

/-- A number of 64 bits, with a plus sign before it or not. -/
def usizeNumber (s : Str) : Option ℕ :=
  (decimal (if s.head? = some '+' then s.tail else s)).filter (· < usizeBound)

/-- The number between the first colon and the second. -/
def numberIn (l : Str) : Option ℕ := (splitSecond ':' l).bind fun v => usizeNumber (trim v)

theorem fromStrRadix_eq_number (s : Str) : fromStrRadix 10 usizeBound s = usizeNumber s := by
  unfold fromStrRadix usizeNumber
  simp only
  generalize (if s.head? = some '+' then s.tail else s) = t
  by_cases ht : t = []
  · rw [if_pos ht, ht]
    rfl
  · rw [if_neg ht, digits_eq_decimal ht]
    cases decimal t with
    | none => rfl
    | some n =>
      rw [Option.bind_some, Option.filter_some]
      congr 1
      simp

/-- A text with a character that is no digit is no decimal number. -/
theorem decimal_none {s : Str} {c : Char} (hc : c ∈ s) (hd : c.isDigit = false) :
    decimal s = none := by
  unfold decimal
  rw [if_neg]
  rintro ⟨-, hall⟩
  rw [List.all_eq_true.1 hall c hc] at hd
  exact nomatch hd

/-- Trimming takes away white space only. -/
theorem mem_trim {s : Str} {c : Char} (hc : c ∈ s) (hw : isWhitespace c = false) : c ∈ trim s := by
  have hdrop : ∀ t : Str, c ∈ t → c ∈ t.dropWhile isWhitespace := by
    intro t ht
    rw [← List.takeWhile_append_dropWhile (p := isWhitespace) (l := t)] at ht
    rcases List.mem_append.1 ht with ht | ht
    · have hmem := List.mem_takeWhile_imp ht
      rw [hw] at hmem
      exact nomatch hmem
    · exact ht
  have hstart : c ∈ (trimStart s).reverse := List.mem_reverse.2 (hdrop s hc)
  unfold trim trimEnd List.rdropWhile
  exact List.mem_reverse.2 (hdrop _ hstart)

theorem usizeNumber_eq_some_iff {s : Str} {n : ℕ} :
    usizeNumber s = some n ↔
      n < usizeBound ∧ ∃ ds, (s = ds ∨ s = '+' :: ds) ∧ decimal ds = some n := by
  unfold usizeNumber
  rw [Option.filter_eq_some_iff, decide_eq_true_eq]
  constructor
  · rintro ⟨hn, hlt⟩
    refine ⟨hlt, ?_⟩
    by_cases hplus : s.head? = some '+'
    · rw [if_pos hplus] at hn
      refine ⟨s.tail, .inr ?_, hn⟩
      exact (List.cons_head?_tail hplus).symm
    · rw [if_neg hplus] at hn
      exact ⟨s, .inl rfl, hn⟩
  · rintro ⟨hlt, ds, rfl | rfl, hn⟩
    · rw [if_neg]
      · exact ⟨hn, hlt⟩
      · intro hplus
        have hnone : decimal s = none := decimal_none (List.mem_of_mem_head? hplus) (by decide)
        rw [hnone] at hn
        cases hn
    · exact ⟨hn, hlt⟩

theorem usizeNumber_eq_none_iff {t : Str} : usizeNumber (trim t) = none ↔ NoSize t := by
  rw [Option.eq_none_iff_forall_ne_some]
  constructor
  · intro h n hn
    by_contra hlt
    exact h n (usizeNumber_eq_some_iff.2 ⟨Nat.lt_of_not_le hlt, hn⟩)
  · intro h n hn
    obtain ⟨hlt, hds⟩ := usizeNumber_eq_some_iff.1 hn
    exact absurd hlt (Nat.not_lt.2 (h n hds))

/-! ## The two readings of a line -/

theorem splitSecond_eq_some_iff {l t : Str} : splitSecond ':' l = some t ↔ BehindColon l t := by
  unfold splitSecond
  rw [Option.map_eq_some_iff]
  constructor
  · rintro ⟨⟨a, b⟩, hsplit, rfl⟩
    obtain ⟨rfl, ha⟩ := splitOnce_eq hsplit
    by_cases hb : ':' ∈ b
    · obtain ⟨x, y, rfl, hx⟩ := List.eq_append_cons_of_mem hb
      rw [splitFirst_append hx]
      exact ⟨a, _, rfl, ha, hx, .inr ⟨y, rfl⟩⟩
    · rw [splitFirst_self hb]
      exact ⟨a, b, rfl, ha, hb, .inl rfl⟩
  · rintro ⟨a, b, rfl, ha, ht, rfl | ⟨c, rfl⟩⟩
    · exact ⟨_, splitOnce_append ha _, splitFirst_self ht⟩
    · exact ⟨_, splitOnce_append ha _, splitFirst_append ht c⟩

/-- **The number that is read from a line.** -/
theorem numberIn_eq_some_iff {l : Str} {n : ℕ} :
    numberIn l = some n ↔ n < usizeBound ∧ ∃ t, BehindColon l t ∧ Denotes t n := by
  unfold numberIn
  rw [Option.bind_eq_some_iff]
  constructor
  · rintro ⟨t, ht, hn⟩
    obtain ⟨hlt, hds⟩ := usizeNumber_eq_some_iff.1 hn
    exact ⟨hlt, t, splitSecond_eq_some_iff.1 ht, hds⟩
  · rintro ⟨hlt, t, ht, hds⟩
    exact ⟨t, splitSecond_eq_some_iff.2 ht, usizeNumber_eq_some_iff.2 ⟨hlt, hds⟩⟩

theorem numberIn_eq_none_iff {l : Str} :
    numberIn l = none ↔ ∀ t, BehindColon l t → NoSize t := by
  unfold numberIn
  rw [Option.bind_eq_none_iff]
  constructor
  · exact fun h t ht => usizeNumber_eq_none_iff.1 (h t (splitSecond_eq_some_iff.2 ht))
  · exact fun h t ht => usizeNumber_eq_none_iff.2 (h t (splitSecond_eq_some_iff.1 ht))

theorem startsWith_begins (n : HeaderName) (l : Str) :
    startsWith (n.1 ++ [':']) (U.toLowercase l) = decide (Begins U n l) := by
  rw [Bool.eq_iff_iff, decide_eq_true_eq]
  exact List.isPrefixOf_iff_prefix

theorem getContentLength_lines (U : Unicode) (head : Bytes) :
    getContentLength U (fromUtf8Lossy head) =
      (firstLine U head contentLengthName).bind numberIn := by
  have e : "content-length:".toList = contentLengthName.1 ++ [':'] := by decide
  unfold getContentLength firstLine
  simp only [e, startsWith_begins]
  congr 1
  funext l
  unfold numberIn
  congr 1
  funext v
  exact fromStrRadix_eq_number (trim v)

theorem isChunked_lines (U : Unicode) (head : Bytes) :
    isChunked U (fromUtf8Lossy head) = true ↔ ∃ l ∈ lines (fromUtf8Lossy head),
      Begins U transferEncodingName l ∧ "chunked".toList <:+: U.toLowercase l := by
  have e : "transfer-encoding:".toList = transferEncodingName.1 ++ [':'] := by decide
  unfold isChunked
  rw [List.any_eq_true]
  simp only [e, startsWith_begins, Bool.and_eq_true, decide_eq_true_eq, contains]

/-- **The two number parsers agree** on a number below the bound, without a sign. -/
theorem usizeNumber_eq_decimal_iff {s : Str} : usizeNumber s = decimal s ↔
    (∀ n, decimal s = some n → n < usizeBound) ∧
      ∀ ds n, s = '+' :: ds → decimal ds = some n → usizeBound ≤ n := by
  unfold usizeNumber
  by_cases hplus : s.head? = some '+'
  · obtain ⟨ds, rfl⟩ : ∃ ds, s = '+' :: ds := ⟨s.tail, (List.cons_head?_tail hplus).symm⟩
    have hnone : decimal ('+' :: ds) = none := decimal_none List.mem_cons_self (by decide)
    rw [if_pos hplus, hnone, List.tail_cons, Option.filter_eq_none_iff]
    simp only [decide_eq_true_eq, not_lt]
    constructor
    · refine fun h => ⟨(fun n hn => by cases hn), ?_⟩
      rintro ds' n hds hn
      obtain rfl := (List.cons.inj hds).2
      exact h n hn
    · exact fun h n hn => h.2 ds n rfl hn
  · rw [if_neg hplus]
    constructor
    · refine fun h => ⟨fun n hn => ?_, ?_⟩
      · rw [hn] at h
        simpa using (Option.filter_eq_some_iff.1 h).2
      · rintro ds n rfl
        exact absurd rfl hplus
    · intro h
      cases hd : decimal s with
      | none => rfl
      | some n => exact Option.filter_eq_some_iff.2 ⟨rfl, by simpa using h.1 n hd⟩

/-- **A line that both read** gives the same length when what is behind its colon is plain. -/
theorem numberIn_eq_iff {l : Str} {f : Str × Str} (hf : splitField l = some f) :
    numberIn l = decimal (trim f.2) ↔ PlainValue f.2 := by
  obtain ⟨⟨a, v⟩, hsplit, rfl⟩ := Option.map_eq_some_iff.1 hf
  have hnumber : numberIn l = usizeNumber (trim (splitFirst ':' v)) := by
    unfold numberIn splitSecond
    rw [hsplit]
    rfl
  rw [hnumber]
  by_cases hcolon : ':' ∈ v
  · -- a value with a colon in it is no number; what is in front of the colon may be
    obtain ⟨x, y, rfl, hx⟩ := List.eq_append_cons_of_mem hcolon
    have hmem : ':' ∈ trim (x ++ ':' :: y) := mem_trim hcolon (by decide)
    rw [splitFirst_append hx, decimal_none hmem (by decide)]
    constructor
    · intro h
      refine ⟨fun n hn => ?_, fun ds n hds hn => ?_, fun x' y' hxy hx' => ?_⟩
      · rw [decimal_none hmem (by decide)] at hn
        cases hn
      · rw [hds] at hmem
        have hds' : ':' ∈ ds := (List.mem_cons.1 hmem).resolve_left (by decide)
        rw [decimal_none hds' (by decide)] at hn
        cases hn
      · have hsame := congrArg (splitFirst ':') hxy
        rw [splitFirst_append hx, splitFirst_append hx'] at hsame
        rw [← hsame]
        exact usizeNumber_eq_none_iff.1 h
    · exact fun h => usizeNumber_eq_none_iff.2 (h.whole x y rfl hx)
  · rw [splitFirst_self hcolon, usizeNumber_eq_decimal_iff]
    constructor
    · refine fun h => ⟨h.1, h.2, ?_⟩
      rintro x y rfl -
      exact absurd (List.mem_append_right x List.mem_cons_self) hcolon
    · exact fun h => ⟨h.small, h.unsigned⟩

/-- **A line and a field of another line.** -/
theorem numberIn_eq_same_iff {l v : Str} : numberIn l = decimal (trim v) ↔ SameLength l v := by
  constructor
  · intro h
    cases hd : decimal (trim v) with
    | none => exact .inr ⟨hd, numberIn_eq_none_iff.1 (h.trans hd)⟩
    | some n =>
      obtain ⟨hlt, ht⟩ := numberIn_eq_some_iff.1 (h.trans hd)
      exact .inl ⟨n, hlt, hd, ht⟩
  · rintro (⟨n, hlt, hd, ht⟩ | ⟨hd, hnone⟩)
    · rw [hd]
      exact numberIn_eq_some_iff.2 ⟨hlt, ht⟩
    · rw [hd]
      exact numberIn_eq_none_iff.2 hnone

/-- The lengths are the same where the lines agree. -/
theorem length_eq_iff (U : Unicode) (head : Bytes) :
    ((firstLine U head contentLengthName).bind numberIn =
      (firstField head contentLengthName).bind fun f => decimal (trim f.2)) ↔
        LengthAgrees U head := by
  unfold LengthAgrees
  cases firstLine U head contentLengthName with
  | none =>
    cases firstField head contentLengthName with
    | none => exact ⟨fun _ => trivial, fun _ => rfl⟩
    | some f => exact eq_comm
  | some l =>
    cases firstField head contentLengthName with
    | none => exact numberIn_eq_none_iff
    | some f =>
      simp only [Option.bind_some]
      split
      · rename_i hf
        exact numberIn_eq_iff hf
      · exact numberIn_eq_same_iff

/-! ## Where the coding stands -/

/-- The header map lists the coding when a line does. -/
theorem mem_listed_lines {m : HeaderMap}
    (h : buildHeaders [] (headerFields (lines (fromUtf8Lossy head)).tail) = some m) :
    "chunked".toList ∈ listed m transferEncodingName ↔ ∃ l ∈ fieldLines head, ListsChunked l := by
  unfold listed ListsChunked elements
  rw [lossy_values h]
  simp only [headFields, List.mem_map, List.mem_flatMap, List.mem_filter, List.mem_filterMap,
    decide_eq_true_eq, List.flatMap_singleton]
  constructor
  · rintro ⟨e, ⟨_, ⟨⟨n, v⟩, ⟨⟨l, hl, hsplit⟩, hname⟩, rfl⟩, he⟩, hchunked⟩
    obtain rfl : n = transferEncodingName.1 := hname
    exact ⟨l, hl, v, hsplit, e, he, hchunked⟩
  · rintro ⟨l, hl, v, hsplit, e, he, hchunked⟩
    exact ⟨e, ⟨_, ⟨(transferEncodingName.1, v), ⟨⟨l, hl, hsplit⟩, rfl⟩, rfl⟩, he⟩, hchunked⟩

/-- **A listed coding shows its letters** to a scanner that lowers them in place. -/
theorem listsChunked_letters (hU : LowersInPlace U) {l : Str} (h : ListsChunked l) :
    "chunked".toList <:+: U.toLowercase l := by
  obtain ⟨v, hsplit, hmem⟩ := h
  obtain ⟨⟨a, b⟩, honce, heq⟩ := Option.map_eq_some_iff.1 hsplit
  obtain ⟨rfl, -⟩ := splitOnce_eq honce
  obtain ⟨-, rfl⟩ := Prod.mk.inj heq
  have hvalue : "chunked".toList <:+: (trim b).map Char.toLower :=
    (infix_elements_iff (by decide) (by decide)).2 ⟨_, hmem, List.infix_rfl⟩
  obtain ⟨s, hs, hlower⟩ := List.infix_map_iff.1 hvalue
  have hascii : ∀ c ∈ s, c.toNat < 128 := by
    intro c hc
    have hname : ∀ d ∈ "chunked".toList, isNameChar d = true := by decide
    have hlow := hname c.toLower (hlower ▸ List.mem_map_of_mem hc)
    rw [isNameChar_toLower] at hlow
    exact tchar_ascii hlow
  have hinside : s <:+: a ++ ':' :: b := by
    have htrim : trim b <:+: b :=
      (List.rdropWhile_prefix _ _).isInfix.trans (List.dropWhile_suffix _).isInfix
    exact (hs.trans htrim).trans ⟨a ++ [':'], [], by simp⟩
  obtain ⟨p, q, hline⟩ := hinside
  rw [hlower, ← hline]
  exact hU p s q hascii

theorem mem_lines_of_fieldLines {l : Str} (h : l ∈ fieldLines head) :
    l ∈ lines (fromUtf8Lossy head) :=
  List.mem_of_mem_tail ((List.takeWhile_prefix _).subset h)

/-- The scanner finds the coding on a plain line or a stray one. -/
theorem isChunked_iff (hU : LowersInPlace U) (head : Bytes) :
    isChunked U (fromUtf8Lossy head) = true ↔ PlainCoding U head ∨ StrayCoding U head := by
  rw [isChunked_lines]
  constructor
  · rintro ⟨l, hl, hbegins, hletters⟩
    by_cases hlists : l ∈ fieldLines head ∧ ListsChunked l
    · exact .inl ⟨l, hlists.1, hlists.2, hbegins⟩
    · exact .inr ⟨l, hl, hbegins, hletters, not_and_or.1 hlists⟩
  · rintro (⟨l, hl, hlists, hbegins⟩ | ⟨l, hl, hbegins, hletters, -⟩)
    · exact ⟨l, mem_lines_of_fieldLines hl, hbegins, listsChunked_letters hU hlists⟩
    · exact ⟨l, hl, hbegins, hletters⟩

/-- The header map has it from a plain line or a spaced one. -/
theorem lists_iff (U : Unicode) (head : Bytes) : (∃ l ∈ fieldLines head, ListsChunked l) ↔
    PlainCoding U head ∨ SpacedCoding U head := by
  constructor
  · rintro ⟨l, hl, hlists⟩
    by_cases hbegins : Begins U transferEncodingName l
    · exact .inl ⟨l, hl, hlists, hbegins⟩
    · exact .inr ⟨l, hl, hlists, hbegins⟩
  · rintro (⟨l, hl, hlists, -⟩ | ⟨l, hl, hlists, -⟩)
    · exact ⟨l, hl, hlists⟩
    · exact ⟨l, hl, hlists⟩

/-- **The scanners agree with the header map** exactly when the line and the field they take the
length from do, and the coding is on a plain line, or on spaced ones as on stray ones. -/
theorem scanners_agree_iff (U : Unicode) (hU : LowersInPlace U) (head : Bytes) (res : Response)
    (h : parseRawResponse head = .ok res) :
    ScannersAgree U head res.headers ↔ LengthAgrees U head ∧ CodingAgrees U head := by
  have hbuild := (parseRawResponse_ok h).1
  have hdeclared : ∀ n, (∃ v, res.headers.get contentLengthName = some v ∧
      decimal (fromUtf8Lossy v.1) = some n) ↔
        (firstField head contentLengthName).bind (fun f => decimal (trim f.2)) = some n := by
    intro n
    have hget := congrArg (Option.bind · decimal) (lossy_get hbuild contentLengthName)
    simp only [Option.bind_map] at hget
    rw [← Option.bind_eq_some_iff]
    exact Eq.congr_left hget
  have hcoding : (isChunked U (fromUtf8Lossy head) = true ↔
      "chunked".toList ∈ listed res.headers transferEncodingName) ↔ CodingAgrees U head := by
    rw [isChunked_iff hU, mem_listed_lines hbuild, lists_iff U]
    unfold CodingAgrees
    by_cases hplain : PlainCoding U head
    · exact ⟨fun _ => .inl hplain, fun _ => ⟨fun _ => .inl hplain, fun _ => .inl hplain⟩⟩
    · rw [or_iff_right hplain, or_iff_right hplain, or_iff_right hplain]
      exact iff_comm
  rw [← length_eq_iff, ← hcoding]
  constructor
  · refine fun hagree => ⟨Option.ext fun n => ?_, hagree.coding⟩
    rw [← getContentLength_lines, ← hdeclared]
    exact hagree.length n
  · rintro ⟨hlength, hagree⟩
    refine ⟨fun n => ?_, hagree⟩
    rw [getContentLength_lines, hlength, hdeclared]

/-- A head as servers write it. -/
def plainHead : Bytes := lit "HTTP/1.1 200 OK\r\nContent-Length: 5\r\n\r\n"

theorem basic_lowers : LowersInPlace Unicode.basic := by
  intro a s b _
  show s.map Char.toLower <:+: (a ++ s ++ b).map Char.toLower
  rw [List.map_append, List.map_append]
  exact ⟨_, _, rfl⟩

theorem scanners_agree_plain : ∃ res, parseRawResponse plainHead = .ok res ∧
    ScannersAgree Unicode.basic plainHead res.headers := by
  have hparse : (parseRawResponse plainHead).toOption.isSome := by decide +kernel
  cases hres : parseRawResponse plainHead with
  | error e => rw [hres] at hparse; exact nomatch hparse
  | ok res =>
    refine ⟨res, rfl, (scanners_agree_iff _ basic_lowers _ _ hres).2 ⟨?_, .inr ?_⟩⟩
    · have hline : firstLine Unicode.basic plainHead contentLengthName =
          some "Content-Length: 5".toList := by decide +kernel
      have hfield : firstField plainHead contentLengthName =
          some ("content-length".toList, " 5".toList) := by decide +kernel
      have hfive : decimal (trim " 5".toList) = some 5 := by decide +kernel
      unfold LengthAgrees
      rw [hline, hfield]
      simp only
      rw [if_pos (by decide +kernel)]
      refine ⟨fun n hn => ?_, fun ds n hds => ?_, fun a b hab => ?_⟩
      · rw [hfive] at hn
        rw [← Option.some.inj hn]
        decide
      · have hne : trim " 5".toList = ['5'] := by decide
        rw [hne, List.cons.injEq] at hds
        exact absurd hds.1 (by decide)
      · have hmem : ':' ∈ " 5".toList := hab ▸ List.mem_append_right a List.mem_cons_self
        exact absurd hmem (by decide)
    · -- neither is there
      have hspaced : ¬ SpacedCoding Unicode.basic plainHead := by
        rintro ⟨l, hl, ⟨v, hsplit, -⟩, -⟩
        have hno : ∀ l ∈ fieldLines plainHead,
            (splitField l).map Prod.fst ≠ some transferEncodingName.1 := by decide +kernel
        exact hno l hl (by rw [hsplit]; rfl)
      have hstray : ¬ StrayCoding Unicode.basic plainHead := by
        rintro ⟨l, hl, hbegins, -⟩
        have hno : ∀ l ∈ lines (fromUtf8Lossy plainHead),
            ¬ Begins Unicode.basic transferEncodingName l := by decide +kernel
        exact hno l hl hbegins
      exact ⟨fun h => absurd h hspaced, fun h => absurd h hstray⟩

/-- A blank in front of the colon hides the length from the scanner. -/
def blankHead : Bytes := lit "HTTP/1.1 200 OK\r\nContent-Length : 5\r\n\r\n"

theorem scanners_disagree_blank : ¬ ∀ (U : Unicode) (head : Bytes) (res : Response),
    parseRawResponse head = .ok res → ScannersAgree U head res.headers := by
  intro hall
  have hparse : (parseRawResponse blankHead).toOption.map (·.headers) =
      some [(contentLengthName, ⟨lit "5", by decide⟩)] := by decide +kernel
  cases hres : parseRawResponse blankHead with
  | error e => rw [hres] at hparse; exact nomatch hparse
  | ok res =>
    rw [hres] at hparse
    have hm : res.headers = [(contentLengthName, ⟨lit "5", by decide⟩)] :=
      Option.some.inj hparse
    have hscan := ((hall Unicode.basic blankHead res hres).length 5).2 (by
      rw [hm]
      exact ⟨_, rfl, by decide +kernel⟩)
    have hnone : getContentLength Unicode.basic (fromUtf8Lossy blankHead) = none := by
      decide +kernel
    rw [hnone] at hscan
    exact nomatch hscan

end HexbufferProxy
