import HexbufferProxy.Proof.Host
import HexbufferProxy.Proof.Parse
import HexbufferProxy.Spec.Deliver

/-!
# Do the handlers get the client's request?

* `cut_fields`, `fields_truncated`: how much of the field lines must have arrived for all fields
  to be found, and what is then found.
* `handleHttp_calls`, `handleHttps_calls`: what the first handler is asked on each path.
* `handleClient_delivers_iff`: the handlers get the request exactly when it comes in one read.
-/

namespace HexbufferProxy

open Rust Rust.Proc Rust.Source

variable {ω : Type} {env : Env ω} {http : HttpCrate}

/-! ## Field lines that break off -/

theorem prefix_append_cases {α : Type} {a b c : List α} (h : a <+: b ++ c) :
    (a <+: b ∧ a.length < b.length) ∨ ∃ r, a = b ++ r ∧ r <+: c := by
  rcases List.prefix_or_prefix_of_prefix h (List.prefix_append b c) with hab | ⟨r, rfl⟩
  · rcases Nat.lt_or_ge a.length b.length with hlt | hge
    · exact Or.inl ⟨hab, hlt⟩
    · have heq : a = b := hab.eq_of_length_le hge
      exact Or.inr ⟨[], by rw [heq, List.append_nil], List.nil_prefix⟩
  · exact Or.inr ⟨r, rfl, (List.prefix_append_right_inj b).1 h⟩

/-- A part of a line in front of its LF is one line at most. -/
theorem lines_part {l b : Bytes} (hl : (10 : UInt8) ∉ l) (hb : b <+: l ++ [13, 10])
    (hlt : b.length < (l ++ [13, 10]).length) : (lines (fromUtf8Lossy b)).length ≤ 1 := by
  apply lines_length_le
  intro hm
  obtain ⟨x, hx, he⟩ := mem_lossy_ascii hm (by decide) (by decide)
  have hx10 : x = 10 := UInt8.toNat_inj.1 he
  rw [hx10] at hx
  -- without its last byte the line has no LF
  have hpre : b <+: l ++ [13] := by
    apply List.prefix_of_prefix_length_le hb (List.prefix_append_right_inj l |>.2 ⟨[10], rfl⟩)
    simp only [List.length_append, List.length_cons, List.length_nil] at hlt ⊢
    omega
  have hmem := hpre.mem hx
  simp only [List.mem_append, List.mem_singleton] at hmem
  rcases hmem with h | h
  · exact hl h
  · exact absurd h (by decide)

theorem headerFields_length (ls : List Str) : (headerFields ls).length ≤ ls.length := by
  induction ls with
  | nil => exact Nat.le_refl 0
  | cons l ls ih =>
    unfold headerFields
    split
    · exact Nat.zero_le _
    · split
      · simpa using ih
      · rw [List.length_cons]; omega

/-- A part of a name is no field. -/
theorem headerFields_part {f : WireField} {b : Bytes} (hb : b <+: encode f.name) :
    headerFields (lines (fromUtf8Lossy b)) = [] := by
  have hmem : ∀ c ∈ fromUtf8Lossy b, c.toNat < 128 → c.toNat ≠ 0 → c ∈ f.name := by
    intro c hc hlt h0
    obtain ⟨x, hx, he⟩ := mem_lossy_ascii hc h0 hlt
    have h := mem_of_encode (he ▸ hlt) (hb.mem hx)
    rwa [he, char_ofNat_toNat] at h
  have hlf : '\n' ∉ fromUtf8Lossy b := fun h =>
    (f.name_spec _ (hmem _ h (by decide) (by decide))).2.2.2.1 rfl
  have hcolon : ':' ∉ fromUtf8Lossy b := fun h =>
    f.name_colon (hmem _ h (by decide) (by decide))
  by_cases hnil : fromUtf8Lossy b = []
  · rw [hnil]; rfl
  · rw [lines_last hlf hnil, headerFields, if_neg hnil, splitOnce_none hcolon]
    rfl

theorem WireField.bytes_no_lf (f : WireField) : (10 : UInt8) ∉ f.bytes := by
  unfold bytes
  simp only [List.mem_append, List.mem_cons, not_or]
  refine ⟨fun h => (f.name_spec _ (mem_of_encode (by decide) h)).2.2.2.1 (by decide), by decide, ?_⟩
  intro h
  exact absurd (List.all_eq_true.1 f.raw_ok 10 h) (by decide)

/-- The lines of a line that is there in full. -/
theorem lines_one (f : WireField) (r : Bytes) :
    lines (fromUtf8Lossy (f.bytes ++ 13 :: 10 :: r)) = f.line :: lines (fromUtf8Lossy r) := by
  have h := lines_wire [f] r
  simpa using h

/-- **To find all fields, the reader needs all lines but the last one, and that one up to its
colon.** -/
theorem cut_fields : ∀ (fs : List WireField) (b : Bytes), fs ≠ [] →
    b <+: (fs.map WireField.bytes).flatMap (· ++ [13, 10]) ++ [13, 10] →
    fs.length ≤ (headerFields (lines (fromUtf8Lossy b))).length →
    ∃ init last rest, fs = init ++ [last] ∧
      b = (init.map WireField.bytes).flatMap (· ++ [13, 10]) ++ (encode last.name ++ 58 :: rest) := by
  intro fs
  induction fs with
  | nil => intro b h; exact absurd rfl h
  | cons f fs ih =>
    intro b _ hb hlen
    by_cases hfs : fs = []
    · -- the last line: without its colon it is no field
      subst hfs
      simp only [List.map_cons, List.map_nil, List.flatMap_cons, List.flatMap_nil,
        List.append_nil, List.append_assoc] at hb
      have hb' : b <+: (encode f.name ++ [58]) ++ (f.raw ++ ([13, 10] ++ [13, 10])) := by
        have e : f.bytes = (encode f.name ++ [58]) ++ f.raw := by
          unfold WireField.bytes
          rw [List.append_assoc]; rfl
        rw [e, List.append_assoc] at hb
        exact hb
      rcases prefix_append_cases hb' with ⟨hpre, hlt⟩ | ⟨rest, rfl, -⟩
      · exfalso
        have hname : b <+: encode f.name := by
          apply List.prefix_of_prefix_length_le hpre (List.prefix_append _ _)
          rw [List.length_append, List.length_singleton] at hlt
          omega
        rw [headerFields_part hname, List.length_singleton] at hlen
        exact absurd hlen (by decide)
      · refine ⟨[], f, rest, rfl, ?_⟩
        simp
    · -- other lines follow: this one must be there in full
      rw [List.map_cons, List.flatMap_cons, List.append_assoc] at hb
      rcases prefix_append_cases hb with ⟨hpre, hlt⟩ | ⟨r, rfl, hr⟩
      · exfalso
        have h1 := lines_part f.bytes_no_lf hpre hlt
        have h2 := headerFields_length (lines (fromUtf8Lossy b))
        have h3 : 0 < fs.length := List.length_pos_iff.2 hfs
        rw [List.length_cons] at hlen
        omega
      · have hone : headerFields (lines (fromUtf8Lossy (f.bytes ++ [13, 10] ++ r))) =
            (f.name, f.value) :: headerFields (lines (fromUtf8Lossy r)) := by
          have h := headerFields_lines [f] (lines (fromUtf8Lossy r))
          rw [List.append_assoc]
          show headerFields (lines (fromUtf8Lossy (f.bytes ++ 13 :: 10 :: r))) = _
          rw [lines_one]
          exact h
        rw [hone, List.length_cons, List.length_cons] at hlen
        obtain ⟨init, last, rest, rfl, rfl⟩ := ih r hfs hr (by omega)
        refine ⟨f :: init, last, rest, rfl, ?_⟩
        rw [List.map_cons, List.flatMap_cons, List.append_assoc (f.bytes ++ [13, 10])]

/-- A field that breaks off in its value, or behind it in front of the LF. -/
theorem headerFields_cut (f : WireField) {rest : Bytes} (h : (10 : UInt8) ∉ rest) :
    headerFields (lines (fromUtf8Lossy (encode f.name ++ 58 :: rest))) =
      [(f.name, trim (fromUtf8Lossy rest))] := by
  have hrest : '\n' ∉ fromUtf8Lossy rest := by
    intro hm
    obtain ⟨x, hx, he⟩ := mem_lossy_ascii hm (by decide) (by decide)
    have hx10 : x = 10 := UInt8.toNat_inj.1 he
    exact h (hx10 ▸ hx)
  have htext : fromUtf8Lossy (encode f.name ++ 58 :: rest) =
      f.name ++ ':' :: fromUtf8Lossy rest := by
    rw [lossy_encode, lossy_cons_ascii (by decide)]
    rfl
  have hline : '\n' ∉ f.name ++ ':' :: fromUtf8Lossy rest := by
    simp only [List.mem_append, List.mem_cons, not_or]
    exact ⟨fun h => (f.name_spec _ h).2.2.2.1 rfl, by decide, hrest⟩
  have hne : f.name ++ ':' :: fromUtf8Lossy rest ≠ [] := by simp
  rw [htext, lines_last hline hne, headerFields, if_neg hne, splitOnce_append f.name_colon]
  simp only [f.trim_name]
  rfl

/-- A field whose line is complete, with some of the empty line behind it. -/
theorem headerFields_ended (f : WireField) {r : Bytes} (h : r <+: [13, 10]) :
    headerFields (lines (fromUtf8Lossy (encode f.name ++ 58 :: (f.raw ++ 13 :: 10 :: r)))) =
      [(f.name, trim (fromUtf8Lossy (f.raw ++ 13 :: 10 :: r)))] := by
  have hr : headerFields (lines (fromUtf8Lossy r)) = [] ∧
      ∀ c ∈ fromUtf8Lossy (13 :: 10 :: r), isWhitespace c = true := by
    have hall : ∀ r ∈ ([13, 10] : Bytes).inits, headerFields (lines (fromUtf8Lossy r)) = [] ∧
        ∀ c ∈ fromUtf8Lossy (13 :: 10 :: r), isWhitespace c = true := by decide +kernel
    exact hall r ((List.mem_inits r _).2 h)
  have hbytes : encode f.name ++ 58 :: (f.raw ++ 13 :: 10 :: r) = f.bytes ++ 13 :: 10 :: r := by
    unfold WireField.bytes
    rw [List.append_assoc]; rfl
  have hfields := headerFields_lines [f] (lines (fromUtf8Lossy r))
  have hvalue : trim (fromUtf8Lossy (f.raw ++ 13 :: 10 :: r)) = f.value := by
    rw [lossy_append_ascii (by decide)]
    exact trim_around (w := []) (by simp) hr.2 _
  rw [hr.1, List.append_nil] at hfields
  rw [hbytes, lines_one, hvalue]
  exact hfields

/-- **The fields that are found when the bytes break off inside the value of the last one**, or
behind it. -/
theorem fields_truncated (init : List WireField) (last : WireField) {rest : Bytes}
    (h : rest <+: last.raw ++ [13, 10, 13, 10]) :
    headerFields (lines (fromUtf8Lossy ((init.map WireField.bytes).flatMap (· ++ [13, 10]) ++
      (encode last.name ++ 58 :: rest)))) =
      init.map (fun f => (f.name, f.value)) ++ [(last.name, trim (fromUtf8Lossy rest))] := by
  have hraw : (10 : UInt8) ∉ last.raw :=
    fun hm => absurd (List.all_eq_true.1 last.raw_ok 10 hm) (by decide)
  have hlast : headerFields (lines (fromUtf8Lossy (encode last.name ++ 58 :: rest))) =
      [(last.name, trim (fromUtf8Lossy rest))] := by
    have h' : rest <+: (last.raw ++ [13, 10]) ++ [13, 10] := by
      rw [List.append_assoc]
      exact h
    rcases prefix_append_cases h' with ⟨hpre, hlt⟩ | ⟨r, rfl, hr⟩
    · -- the LF of the line has not come
      apply headerFields_cut
      have hpre' : rest <+: last.raw ++ [13] := by
        apply List.prefix_of_prefix_length_le hpre
          ((List.prefix_append_right_inj last.raw).2 ⟨[10], rfl⟩)
        simp only [List.length_append, List.length_cons, List.length_nil] at hlt ⊢
        omega
      intro hm
      rcases List.mem_append.1 (hpre'.mem hm) with hm | hm
      · exact hraw hm
      · exact absurd hm (by decide)
    · rw [List.append_assoc]
      exact headerFields_ended last hr
  rw [lines_wire, headerFields_lines, hlast]

/-! ## The header map that is built -/

/-- The values of all names tell how many fields there are. -/
theorem length_of_values {ps qs : HeaderMap}
    (h : ∀ n, HeaderMap.values ps n = HeaderMap.values qs n) : ps.length = qs.length := by
  have hcount : ∀ (m : HeaderMap) (p : HeaderName × HeaderValue),
      m.count p = (HeaderMap.values m p.1).count p.2 := by
    intro m p
    induction m with
    | nil => rfl
    | cons q m ih =>
      unfold HeaderMap.values at ih ⊢
      by_cases hq : q.1 = p.1
      · rw [List.filter_cons_of_pos (by simpa using hq), List.map_cons, List.count_cons,
          List.count_cons, ih]
        have hiff : q = p ↔ q.2 = p.2 := by rw [Prod.ext_iff, and_iff_right hq]
        simp only [beq_iff_eq, hiff]
      · have hne : q ≠ p := fun e => hq (congrArg Prod.fst e)
        rw [List.filter_cons_of_neg (by simpa using hq), List.count_cons_of_ne hne, ih]
  have hperm : ps.Perm qs := by
    rw [List.perm_iff_count]
    intro p
    rw [hcount, hcount, h]
  exact hperm.length_eq

/-- With the names in order, the values of all names tell the fields. -/
theorem eq_of_values : ∀ {ps qs : HeaderMap}, ps.map Prod.fst = qs.map Prod.fst →
    (∀ n, HeaderMap.values ps n = HeaderMap.values qs n) → ps = qs := by
  intro ps
  induction ps with
  | nil => intro qs hnames _; exact (List.map_eq_nil_iff.1 hnames.symm).symm
  | cons p ps ih =>
    intro qs hnames h
    rcases qs with _ | ⟨q, qs⟩
    · exact nomatch hnames
    rw [List.map_cons, List.map_cons, List.cons.injEq] at hnames
    have hstep : ∀ n, HeaderMap.values (p :: ps) n =
        (if p.1 = n then [p.2] else []) ++ HeaderMap.values ps n ∧
        HeaderMap.values (q :: qs) n =
          (if p.1 = n then [q.2] else []) ++ HeaderMap.values qs n := by
      intro n
      unfold HeaderMap.values
      by_cases hn : p.1 = n
      · have hn' : q.1 = n := hnames.1.symm.trans hn
        simp [hn, hn']
      · have hn' : q.1 ≠ n := fun e => hn (hnames.1.trans e)
        simp [hn, hn']
    have hhead : p.2 = q.2 := by
      have hp := h p.1
      rw [(hstep p.1).1, (hstep p.1).2, if_pos rfl, if_pos rfl] at hp
      exact (List.cons.inj hp).1
    have htail : ∀ n, HeaderMap.values ps n = HeaderMap.values qs n := by
      intro n
      have hn := h n
      rw [(hstep n).1, (hstep n).2, hhead] at hn
      exact List.append_cancel_left hn
    rw [ih hnames.2 htail, Prod.ext hnames.1 hhead]

/-- The fields of a client, as the header map should have them. -/
def meant (fs : List RequestField) : HeaderMap := fs.map fun f => (f.wire.key, f.value)

theorem values_meant (fs : List RequestField) (n : HeaderName) :
    HeaderMap.values (meant fs) n =
      (fs.filter fun f => f.name.map Char.toLower = n.1).map RequestField.value := by
  unfold meant HeaderMap.values
  rw [List.filter_map, List.map_map]
  have hkey : ∀ f : RequestField, ((fun p : HeaderName × HeaderValue => decide (p.1 = n)) ∘
      fun f : RequestField => (f.wire.key, f.value)) f =
      decide (f.name.map Char.toLower = n.1) := by
    intro f
    exact decide_eq_decide.2 Subtype.ext_iff
  rw [List.filter_congr fun f _ => hkey f]
  rfl

/-- **The builder gives the client's fields back** exactly when each value has been read as
meant. -/
theorem buildHeaders_meant_iff (shown : List (RequestField × Str)) :
    (∃ h, buildHeaders [] (shown.map fun x => (x.1.name, x.2)) = some h ∧
      ∀ n, HeaderMap.values h n = HeaderMap.values (meant (shown.map Prod.fst)) n) ↔
    ∀ x ∈ shown, encode x.2 = x.1.value.1 := by
  constructor
  · -- the builder keeps names and order, so that the values agree field by field
    rintro ⟨h, hb, hvalues⟩
    obtain ⟨ps, hps, rfl⟩ := buildHeaders_some hb
    have hpv : ∀ n, HeaderMap.values ps n =
        HeaderMap.values (meant (shown.map Prod.fst)) n := by
      intro n
      rw [← hvalues n, values_appendAll]
      rfl
    have hnames : ps.map Prod.fst = (meant (shown.map Prod.fst)).map Prod.fst := by
      unfold meant
      rw [List.map_map, List.map_map]
      unfold Parses at hps
      rw [List.forall₂_map_left_iff] at hps
      clear hb hvalues hpv
      induction hps with
      | nil => rfl
      | @cons x p shown ps hx _ ih =>
        have hkey := x.1.wire.parse_name.symm.trans hx.1
        rw [List.map_cons, List.map_cons, ih, ← Option.some.inj hkey]
        rfl
    have heq := eq_of_values hnames hpv
    rw [heq] at hps
    unfold Parses meant at hps
    rw [List.map_map, List.forall₂_map_left_iff, List.forall₂_map_right_iff,
      List.forall₂_same] at hps
    intro x hx
    have hv := (hps x hx).2
    unfold HeaderValue.parse at hv
    split at hv
    · exact congrArg Subtype.val (Option.some.inj hv)
    · exact nomatch hv
  · intro hall
    have hps : Parses (shown.map fun x => (x.1.name, x.2)) (meant (shown.map Prod.fst)) := by
      unfold Parses meant
      rw [List.map_map, List.forall₂_map_left_iff, List.forall₂_map_right_iff,
        List.forall₂_same]
      intro x hx
      refine ⟨x.1.wire.parse_name, ?_⟩
      unfold HeaderValue.parse
      rw [dif_pos (show (encode x.2).all isValueByte = true from (hall x hx) ▸ x.1.value.2)]
      exact congrArg some (Subtype.ext (hall x hx))
    refine ⟨_, buildHeaders_eq hps [], ?_⟩
    intro n
    rw [values_appendAll]
    rfl

/-- Blanks are white space. -/
theorem encode_blanks {bs : Bytes} (h : ∀ b ∈ bs, b = 32 ∨ b = 9) :
    ∃ w : Str, (∀ c ∈ w, isWhitespace c = true) ∧ bs = encode w := by
  induction bs with
  | nil => exact ⟨[], by simp, rfl⟩
  | cons b bs ih =>
    obtain ⟨w, hw, rfl⟩ := ih fun x hx => h x (List.mem_cons_of_mem b hx)
    rcases h b List.mem_cons_self with rfl | rfl
    · exact ⟨' ' :: w, by simpa using ⟨by decide, hw⟩, rfl⟩
    · exact ⟨'\t' :: w, by simpa using ⟨by decide, hw⟩, rfl⟩

/-- A value reads as meant when it is a text. -/
theorem RequestField.value_iff (f : RequestField) :
    encode f.wire.value = f.value.1 ↔ f.value.IsText := by
  constructor
  · intro h
    exact ⟨f.wire.value, h.symm, trim_trim _⟩
  · rintro ⟨t, ht, htrim⟩
    obtain ⟨w, hw, hbefore⟩ := encode_blanks f.before_blank
    obtain ⟨w', hw', hafter⟩ := encode_blanks f.after_blank
    have hlossy : fromUtf8Lossy f.wire.raw = w ++ t ++ w' := by
      rw [← lossy_encode_self (w ++ t ++ w'), encode_append, encode_append, ← hbefore, ← ht,
        ← hafter]
      rfl
    unfold WireField.value
    rw [hlossy, trim_around hw hw', htrim, ht]

/-! ## What the parser makes of the first bytes -/

namespace PlainRequest

variable (m : PlainRequest http)

theorem firstLine : IsFirstLine (requestLine m.method m.target) :=
  requestLine_line m.method m.target_word

/-- Inside the head there is no body yet. -/
theorem bodyAfterHead_part {first : Bytes} (h : first <+: m.head) : bodyAfterHead first = [] := by
  obtain ⟨more, hmore⟩ := h
  unfold bodyAfterHead
  cases hj : position crlfcrlf first with
  | none => rfl
  | some j =>
    obtain ⟨i, hi, hlen⟩ := position_headBytes m.firstLine (m.fields.map RequestField.wire) []
    have hj' := position_append hj more
    rw [hmore] at hj'
    rw [List.append_nil] at hi
    have hij : i = j := Option.some.inj (hi.symm.trans hj')
    have hle : first.length ≤ m.head.length := by
      rw [← hmore, List.length_append]
      omega
    apply List.drop_eq_nil_iff.2
    unfold head at hle
    omega

/-- The host is there for a request that has been read as meant. -/
theorem extractHost_is {r : Request} (h : m.Is r) (raw : Bytes) :
    ∃ host, extractHost r raw = some host := by
  obtain ⟨f, hf, hname⟩ := m.host_given
  have hmem : f.value ∈ HeaderMap.values r.headers hostName := by
    rw [h.headers]
    exact List.mem_map.2 ⟨f, List.mem_filter.2 ⟨hf, by simpa using hname⟩, rfl⟩
  obtain ⟨v, vs, hv⟩ := List.exists_cons_of_ne_nil (List.ne_nil_of_mem hmem)
  have hvm : v ∈ HeaderMap.values r.headers hostName := by rw [hv]; exact List.mem_cons_self
  rw [h.headers] at hvm
  obtain ⟨g, hg, rfl⟩ := List.mem_map.1 hvm
  obtain ⟨hgm, hgn⟩ := List.mem_filter.1 hg
  obtain ⟨host, hhost⟩ := Option.isSome_iff_exists.1 (m.host_text g hgm (by simpa using hgn))
  refine ⟨host, ?_⟩
  unfold extractHost HeaderMap.get
  rw [hv, List.head?_cons, Option.bind_some, hhost]

/-- **What the parser makes of a buffer whose fields it has found.** -/
theorem parse_shown {first : Bytes} {ls : List Str} {shown : List (RequestField × Str)}
    (hlines : lines (fromUtf8Lossy first) = requestLine m.method m.target :: ls)
    (hfields : headerFields ls = shown.map fun x => (x.1.name, x.2))
    (hshown : shown.map Prod.fst = m.fields) :
    (∃ r, parseRawRequest http first = .ok r ∧ m.Is r) ↔
      (∀ x ∈ shown, encode x.2 = x.1.value.1) ∧ bodyAfterHead first = m.body := by
  rw [← buildHeaders_meant_iff, hshown, parseRawRequest_eq hlines m.target_word m.target_uri,
    hfields]
  constructor
  · rintro ⟨r, hr, his⟩
    cases hb : buildHeaders [] (shown.map fun x => (x.1.name, x.2)) with
    | none => rw [hb] at hr; exact nomatch hr
    | some h =>
      rw [hb] at hr
      have hr' : _ = r := Except.ok.inj hr
      subst hr'
      refine ⟨⟨h, rfl, ?_⟩, Body.full.inj his.body⟩
      intro n
      rw [values_meant]
      exact his.headers n
  · rintro ⟨⟨h, hb, hvalues⟩, hbody⟩
    rw [hb]
    refine ⟨_, rfl, ⟨rfl, rfl, ?_, congrArg Body.full hbody⟩⟩
    intro n
    rw [← values_meant]
    exact hvalues n

theorem bytes_eq : m.bytes = (encode (requestLine m.method m.target) ++ [13, 10]) ++
    (((m.fields.map RequestField.wire).map WireField.bytes).flatMap (· ++ [13, 10]) ++ [13, 10] ++
      m.body) := by
  unfold bytes head headBytes
  simp only [List.append_assoc]

/-- **A part of the request reads as the whole** exactly when nothing of it that matters is
missing. -/
theorem parse_part_iff {first : Bytes} (h : first <+: m.bytes) :
    (∃ r, parseRawRequest http first = .ok r ∧ m.Is r) ↔
      (∀ f ∈ m.fields, f.value.IsText) ∧ m.Arrives first := by
  have hall : ∀ fs : List RequestField,
      (∀ x ∈ fs.map fun f => (f, f.wire.value), encode x.2 = x.1.value.1) ↔
        ∀ f ∈ fs, f.value.IsText := by
    intro fs
    rw [List.forall_mem_map]
    exact forall₂_congr fun f _ => f.value_iff
  have hfst : ∀ fs : List RequestField, (fs.map fun f => (f, f.wire.value)).map Prod.fst = fs := by
    intro fs
    rw [List.map_map]
    exact List.map_id fs
  -- all of it
  have hwhole : ∀ b, (∃ r, parseRawRequest http (m.head ++ b) = .ok r ∧ m.Is r) ↔
      (∀ f ∈ m.fields, f.value.IsText) ∧ b = m.body := by
    intro b
    have hbody : bodyAfterHead (m.head ++ b) = b := bodyAfterHead_headBytes m.firstLine _ b
    have hlines : lines (fromUtf8Lossy (m.head ++ b)) = _ := lines_headBytes m.firstLine _ b
    have hfields : headerFields (((m.fields.map RequestField.wire).map WireField.line) ++
        [] :: lines (fromUtf8Lossy b)) =
          (m.fields.map fun f => (f, f.wire.value)).map fun x => (x.1.name, x.2) := by
      rw [headerFields_head, List.map_map, List.map_map]
      rfl
    rw [m.parse_shown hlines hfields (hfst _), hall, hbody]
  -- up to the value of the last field
  have hcut : ∀ init last rest, m.fields = init ++ [last] →
      rest <+: last.wire.raw ++ [13, 10, 13, 10] →
      first = encode (requestLine m.method m.target) ++ [13, 10] ++
        (init.map fun f => f.wire.bytes).flatMap (· ++ [13, 10]) ++ encode last.name ++ 58 :: rest →
      first <+: m.head →
      ((∃ r, parseRawRequest http first = .ok r ∧ m.Is r) ↔ ((∀ f ∈ init, f.value.IsText) ∧
        encode (trim (fromUtf8Lossy rest)) = last.value.1) ∧ [] = m.body) := by
    intro init last rest hfields hrest hfirst hhead
    have hlines : lines (fromUtf8Lossy first) = requestLine m.method m.target ::
        lines (fromUtf8Lossy (((init.map RequestField.wire).map WireField.bytes).flatMap
          (· ++ [13, 10]) ++ (encode last.wire.name ++ 58 :: rest))) := by
      rw [← lines_first m.firstLine, hfirst, List.map_map]
      simp only [List.append_assoc, List.cons_append, List.nil_append]
      rfl
    have hshown : headerFields (lines (fromUtf8Lossy (((init.map RequestField.wire).map
        WireField.bytes).flatMap (· ++ [13, 10]) ++ (encode last.wire.name ++ 58 :: rest)))) =
          ((init.map fun f => (f, f.wire.value)) ++ [(last, trim (fromUtf8Lossy rest))]).map
            fun x => (x.1.name, x.2) := by
      rw [fields_truncated (init.map RequestField.wire) last.wire hrest, List.map_append,
        List.map_map, List.map_map]
      rfl
    have hnames : ((init.map fun f => (f, f.wire.value)) ++
        [(last, trim (fromUtf8Lossy rest))]).map Prod.fst = m.fields := by
      rw [List.map_append, hfst, hfields]
      rfl
    rw [m.parse_shown hlines hshown hnames, m.bodyAfterHead_part hhead, List.forall_mem_append,
      hall, List.forall_mem_singleton]
  constructor
  · rintro ⟨r, hr, his⟩
    obtain ⟨-, hheaders, hbody⟩ := parseRawRequest_ok hr
    rw [m.bytes_eq] at h
    rcases prefix_append_cases h with ⟨hpre, hlt⟩ | ⟨r₁, rfl, hr₁⟩
    · -- not even the first line: no fields, and no Host among them
      exfalso
      have hlf : (10 : UInt8) ∉ encode (requestLine m.method m.target) :=
        fun hm => m.firstLine.2 (mem_of_encode (by decide) hm)
      have hle := lines_part hlf hpre hlt
      have htail : (lines (fromUtf8Lossy first)).tail = [] := by
        apply List.length_eq_zero_iff.1
        rw [List.length_tail]
        omega
      rw [htail] at hheaders
      obtain ⟨f, hf, hname⟩ := m.host_given
      have hvalues := his.headers hostName
      rw [← Option.some.inj hheaders] at hvalues
      have hnil : f.value ∈ HeaderMap.values [] hostName := by
        rw [hvalues]
        exact List.mem_map.2 ⟨f, List.mem_filter.2 ⟨hf, by simpa using hname⟩, rfl⟩
      exact absurd hnil List.not_mem_nil
    rcases prefix_append_cases hr₁ with ⟨hpre, hlt⟩ | ⟨b, rfl, -⟩
    · have hhead : encode (requestLine m.method m.target) ++ [13, 10] ++ r₁ <+: m.head := by
        unfold head headBytes
        rw [List.append_assoc, List.append_assoc]
        exact (List.prefix_append_right_inj _).2 ((List.prefix_append_right_inj _).2 hpre)
      have hnil : m.body = [] :=
        (Body.full.inj (his.body.symm.trans hbody)).trans (m.bodyAfterHead_part hhead)
      have hlines : lines (fromUtf8Lossy (encode (requestLine m.method m.target) ++ [13, 10] ++
          r₁)) = requestLine m.method m.target :: lines (fromUtf8Lossy r₁) := by
        rw [List.append_assoc]
        exact lines_first m.firstLine r₁
      rw [hlines, List.tail_cons] at hheaders
      -- as many fields have been found as there are
      have hlen : (m.fields.map RequestField.wire).length ≤
          (headerFields (lines (fromUtf8Lossy r₁))).length := by
        obtain ⟨ps, hps, hmap⟩ := buildHeaders_some hheaders
        have hvalues : ∀ n, HeaderMap.values ps n = HeaderMap.values (meant m.fields) n := by
          intro n
          rw [values_meant, ← his.headers n, hmap, values_appendAll]
          rfl
        have h1 := length_of_values hvalues
        have h2 : _ = _ := List.Forall₂.length_eq hps
        rw [h2, h1]
        unfold meant
        simp only [List.length_map]
        exact Nat.le_refl _
      have hne : m.fields.map RequestField.wire ≠ [] := by
        obtain ⟨f, hf, -⟩ := m.host_given
        exact List.ne_nil_of_mem (List.mem_map.2 ⟨f, hf, rfl⟩)
      obtain ⟨init', last', rest, hfs, hr₁eq⟩ := cut_fields _ _ hne hpre hlen
      obtain ⟨init, last₁, hfields, rfl, hlast⟩ := List.map_eq_append_iff.1 hfs
      obtain ⟨last, rfl, rfl⟩ := List.map_eq_singleton_iff.1 hlast
      have hrest : rest <+: last.wire.raw ++ [13, 10, 13, 10] := by
        rw [hfs, hr₁eq, List.map_append, List.flatMap_append, List.append_assoc,
          List.prefix_append_right_inj] at hpre
        simpa [WireField.bytes] using hpre
      have hfirst : encode (requestLine m.method m.target) ++ [13, 10] ++ r₁ =
          encode (requestLine m.method m.target) ++ [13, 10] ++
            (init.map fun f => f.wire.bytes).flatMap (· ++ [13, 10]) ++ encode last.name ++
              58 :: rest := by
        rw [hr₁eq, List.map_map, List.append_assoc _ (encode last.name), List.append_assoc _ _
          (encode last.name ++ 58 :: rest)]
        rfl
      obtain ⟨⟨hinit, hval⟩, -⟩ := (hcut init last rest hfields hrest hfirst hhead).1 ⟨r, hr, his⟩
      refine ⟨?_, Or.inr ⟨hnil, init, last, rest, hfields, hfirst, hrest, hval⟩⟩
      intro f hf
      rw [hfields] at hf
      rcases List.mem_append.1 hf with hf | hf
      · exact hinit f hf
      · rw [List.mem_singleton.1 hf]
        exact ⟨_, hval.symm, trim_trim _⟩
    · have hwhole' : encode (requestLine m.method m.target) ++ [13, 10] ++
          (((m.fields.map RequestField.wire).map WireField.bytes).flatMap (· ++ [13, 10]) ++
            [13, 10] ++ b) = m.head ++ b := by
        unfold head headBytes
        simp only [List.append_assoc]
      rw [hwhole'] at hr ⊢
      obtain ⟨htext, rfl⟩ := (hwhole b).1 ⟨r, hr, his⟩
      exact ⟨htext, Or.inl rfl⟩
  · rintro ⟨htext, rfl | ⟨hnil, init, last, rest, hfields, hfirst, hrest, hval⟩⟩
    · exact (hwhole m.body).2 ⟨htext, rfl⟩
    · have hhead : first <+: m.head := by
        unfold bytes at h
        rwa [hnil, List.append_nil] at h
      refine (hcut init last rest hfields hrest hfirst hhead).2 ⟨⟨?_, hval⟩, hnil.symm⟩
      intro f hf
      apply htext f
      rw [hfields]
      exact List.mem_append_left _ hf

end PlainRequest

/-! ## What the first handler is asked -/

/-- A call of the first handler is for the request that came in. -/
theorem stack_asks (users : List (UserHandler ω)) (ctx : HttpContext) (req : Request) :
    Ensures Event.isContact 0 (HandlerStack.handleRequest (numbered users 0) ctx req)
      (fun _ => True) (fun e => ∀ c q d, e = .request 0 c q d → c = ctx ∧ q = req) := by
  rcases users with _ | ⟨u, us⟩
  · exact ensures_pure trivial
  · intro s
    obtain ⟨h0, -, h2⟩ := stack_calls (u :: us) 0 ctx req s
    refine ⟨h0, ?_, h2⟩
    intro e he c q d hreq
    obtain ⟨d₀, rest, hevents, hrest⟩ := stack_first u us 0 ctx req s
    rw [hevents, hreq] at he
    rcases List.mem_cons.1 he with he | he
    · simp only [Event.request.injEq] at he
      exact ⟨he.2.1, he.2.2.1⟩
    · exact absurd (hrest 0 c q d he) (Nat.lt_irrefl 0)

theorem notRequest {P : HttpContext → Request → Decision → Prop} {e : Event}
    (he : e.isRequestCall = false) : ∀ c q d, e = .request 0 c q d → P c q d := by
  rintro c q d rfl
  have h : true = false := he
  exact nomatch h

section

variable {users : List (UserHandler ω)} {ws : Option (WebSocketHandler ω)}

/-- On the plain path the first handler is asked about the parsed request, and told that it is
plain. -/
theorem handleHttp_calls {client : Source} {addr : SocketAddr} {n : ℕ} {bytes : Bytes}
    {s : World ω} {c : HttpContext} {r : Request} {d : Decision}
    (h : Event.request 0 c r d ∈
      (handleHttp env (proxyHandler env.enabled users) ws client addr n bytes s).events) :
    parseRawRequest env.http bytes = .ok r ∧ c.isHttps = false := by
  have hens : Ensures Event.isContact 1
      (handleHttp env (proxyHandler env.enabled users) ws client addr n bytes) (fun _ => True)
      (fun e => ∀ c q d, e = .request 0 c q d →
        parseRawRequest env.http bytes = .ok q ∧ c.isHttps = false) := by
    have htransfer : ∀ e : Event, e.isTransfer = true → ∀ c q d, e = .request 0 c q d →
        parseRawRequest env.http bytes = .ok q ∧ c.isHttps = false := by
      intro e he
      apply notRequest
        (P := fun c q _ => parseRawRequest env.http bytes = .ok q ∧ c.isHttps = false)
      cases e <;> first | rfl | exact absurd he Bool.false_ne_true
    -- only the handlers' own calls are about requests
    apply ensures_handleHttp htransfer (fun _ _ _ => True)
    · intro request host id hparse _
      rw [proxyHandler_request]
      refine (stack_asks users _ request).mono (Nat.le_refl 0) (fun _ _ => trivial) ?_
      intro e he c q d hreq
      rw [(he c q d hreq).1, (he c q d hreq).2]
      exact ⟨hparse, rfl⟩
    · intro request host r ctx _ _ _
      rcases r with req | res
      · refine ensures_answerHttp htransfer ?_ ?_ ?_ ?_
        · exact ensures_handleResponse env.enabled users fun _ _ _ c q d hreq => nomatch hreq
        · exact fun _ c q d hreq => nomatch hreq
        · exact fun _ _ _ c q d hreq => nomatch hreq
        · exact fun _ _ _ c q d hreq => nomatch hreq
      · exact (ensures_answerHttp_response htransfer _ ws client n host _ res ctx).mono
          (Nat.zero_le 1) (fun _ h => h) (fun _ h => h)
  exact (hens s).2.1 _ h c r d rfl

/-- Inside TLS, the handlers are told so. -/
theorem handleHttps_calls {client : Source} {target : Str} {addr : SocketAddr}
    {s : World ω} {c : HttpContext} {r : Request} {d : Decision}
    (h : Event.request 0 c r d ∈
      (handleHttps env (proxyHandler env.enabled users) ws client target addr s).events) :
    c.isHttps = true := by
  have hens : Ensures (fun _ => false) 0
      (handleHttps env (proxyHandler env.enabled users) ws client target addr) (fun _ => True)
      (fun e => ∀ c q d, e = .request 0 c q d → c.isHttps = true) := by
    have htransfer : ∀ e : Event, e.isTransfer = true → ∀ c q d, e = .request 0 c q d →
        c.isHttps = true := by
      intro e he
      apply notRequest (P := fun c _ _ => c.isHttps = true)
      cases e <;> first | rfl | exact absurd he Bool.false_ne_true
    have hresponse : ∀ ctx res, Ensures Event.isContact 0
        ((proxyHandler env.enabled users).handleResponse ctx res) (fun _ => True)
        (fun e => ∀ c q d, e = .request 0 c q d → c.isHttps = true) :=
      ensures_handleResponse env.enabled users fun _ _ _ c q d hreq => nomatch hreq
    refine ensures_handleHttps htransfer ?_ ?_ ?_ ?_ ?_
    · refine (proxyHandler_intercept env.enabled users _).mono (Nat.le_refl 0) (fun _ h => h) ?_
      intro e he
      apply notRequest (P := fun c _ _ => c.isHttps = true)
      cases e <;> first | rfl | exact absurd he Bool.false_ne_true
    · exact fun c q d hreq => nomatch hreq
    · exact fun _ c q d hreq => nomatch hreq
    · exact fun c q d hreq => nomatch hreq
    · intro cert w reqs _ req _
      apply ensures_serveRequest (fun _ => True)
      · intro id
        rw [proxyHandler_request]
        refine (stack_asks users _ req).mono (Nat.le_refl 0) (fun _ _ => trivial) ?_
        intro e he c q d hreq
        rw [(he c q d hreq).1]
      · rintro ⟨r, ctx⟩ -
        by_cases hd : decision r = .forward
        · rcases r with e | q | res
          · exact Decision.noConfusion hd
          · refine ensures_answerHttps htransfer hresponse ?_ ?_
            · intro _ _ _ _ _ _ _ _ _ _ _ _ c q d hreq
              exact nomatch hreq
            · intro _ _ _ c q d hreq
              exact nomatch hreq
          · exact Decision.noConfusion hd
        · exact (ensures_answerHttps_refused htransfer hd).mono (Nat.zero_le 1) (fun _ h => h)
            (fun _ h => h)
  exact (hens s).2.1 _ h c r d rfl

end

/-- A request that can be parsed and has a host is shown to the first handler. -/
theorem handleHttp_asks {u : UserHandler ω} {us : List (UserHandler ω)}
    {ws : Option (WebSocketHandler ω)} {client : Source} {addr : SocketAddr} {n : ℕ}
    {bytes : Bytes} {s : World ω} {r : Request} {host : Str}
    (hparse : parseRawRequest env.http bytes = .ok r) (hhost : extractHost r bytes = some host) :
    ∃ c d, Event.request 0 c r d ∈ (handleHttp env (proxyHandler env.enabled (u :: us)) ws client
      addr n bytes s).events ∧ c.isHttps = false := by
  obtain ⟨d, rest, hevents, -⟩ := stack_first u us 0 ⟨s.requestId, host, addr, false⟩ r
    { s with requestId := s.requestId + 1 }
  refine ⟨⟨s.requestId, host, addr, false⟩, d, ?_, rfl⟩
  unfold handleHttp
  rw [hparse, lift_bind]
  simp only [hhost]
  unfold nextRequestId requestOrFail
  rw [call_bind, bind_assoc, proxyHandler_request]
  apply mem_bind
  rw [hevents]
  exact List.mem_cons_self

namespace PlainRequest

variable (m : PlainRequest http)

theorem requestLine_bytes : encode (requestLine m.method m.target) =
    encode m.method.1 ++ 32 :: encode (m.target ++ " HTTP/1.1".toList) := by
  unfold requestLine
  rw [encode_append, encode_cons]
  rfl

/-- Bytes that are enough have the method in front. -/
theorem method_of_arrives {first : Bytes} (h : m.Arrives first) :
    encode m.method.1 <+: first := by
  have hline : ∀ r, encode m.method.1 <+: encode (requestLine m.method m.target) ++ r := by
    intro r
    rw [m.requestLine_bytes, List.append_assoc]
    exact List.prefix_append _ _
  rcases h with rfl | ⟨-, init, last, rest, -, rfl, -⟩
  · rw [m.bytes_eq, List.append_assoc]
    exact hline _
  · simp only [List.append_assoc]
    exact hline _

/-- The word CONNECT in front of a request is in front of its method. -/
theorem connect_method {first : Bytes} (h : first <+: m.bytes) (hc : lit "CONNECT" <+: first) :
    lit "CONNECT" <+: encode m.method.1 := by
  have hbytes : lit "CONNECT" <+: encode m.method.1 ++ (32 ::
      (encode (m.target ++ " HTTP/1.1".toList) ++ ([13, 10] ++
        (((m.fields.map RequestField.wire).map WireField.bytes).flatMap (· ++ [13, 10]) ++
          [13, 10] ++ m.body)))) := by
    have hpre := hc.trans h
    rw [m.bytes_eq, m.requestLine_bytes, List.append_assoc, List.append_assoc] at hpre
    exact hpre
  rcases prefix_append_cases hbytes with ⟨hpre, -⟩ | ⟨r, hr, hrest⟩
  · exact hpre
  · rcases r with _ | ⟨b, r⟩
    · rw [List.append_nil] at hr
      rw [hr]
    · rw [List.cons_prefix_cons] at hrest
      have hspace : (32 : UInt8) ∈ lit "CONNECT" := by
        rw [hr, hrest.1]
        exact List.mem_append_right _ List.mem_cons_self
      exact absurd hspace (by decide)

end PlainRequest

/-- **The first handler gets the client's request** exactly when enough of it comes in the first
read, when it is no CONNECT, and when its values are texts. -/
theorem handleClient_delivers_iff (env : Env ω) (u : UserHandler ω) (us : List (UserHandler ω))
    (ws : Option (WebSocketHandler ω)) (peer : Option SocketAddr) (n : ℕ)
    (m : PlainRequest env.http) (client : Source) (hs : client.bytes = m.bytes) (s : World ω) :
    m.Reaches
      (handleClient env (proxyHandler env.enabled (u :: us)) ws peer client n s).events ↔
      ¬ lit "CONNECT" <+: encode m.method.1 ∧ (∀ f ∈ m.fields, f.value.IsText) ∧
        ∃ first rest, client.read 4096 = (.ok first, rest) ∧ m.Arrives first := by
  unfold handleClient
  rcases hread : client.read 4096 with ⟨e | first, rest⟩
  · constructor
    · rintro ⟨c, r, d, hm, -⟩
      exact absurd hm List.not_mem_nil
    · rintro ⟨-, -, first, rest', h, -⟩
      exact nomatch h
  obtain ⟨hbytes, -, -⟩ := read_ok hread
  have hpre : first <+: m.bytes := ⟨rest.bytes, by rw [← hs, hbytes]⟩
  have hread_iff : (∃ first' rest', ((.ok first, rest) : Except IoError Bytes × Source) =
      (.ok first', rest') ∧ m.Arrives first') ↔ m.Arrives first := by
    constructor
    · rintro ⟨first', rest', h, harr⟩
      simp only [Prod.mk.injEq, Except.ok.injEq] at h
      rwa [h.1]
    · exact fun harr => ⟨first, rest, rfl, harr⟩
  rw [hread_iff]
  simp only
  by_cases hc : (lit "CONNECT").isPrefixOf first = true
  · rw [if_pos hc]
    have hcm := m.connect_method hpre (List.isPrefixOf_iff_prefix.1 hc)
    constructor
    · -- a CONNECT shows the handlers only requests inside TLS
      rintro ⟨c, r, d, hm, hplain, -⟩
      cases htarget : connectTarget first with
      | none => rw [htarget] at hm; exact absurd hm List.not_mem_nil
      | some target =>
        rw [htarget] at hm
        rw [handleHttps_calls hm] at hplain
        exact nomatch hplain
    · rintro ⟨hnc, -⟩
      exact absurd hcm hnc
  · rw [if_neg hc]
    constructor
    · rintro ⟨c, r, d, hm, -, his⟩
      obtain ⟨htext, harr⟩ := (m.parse_part_iff hpre).1 ⟨r, (handleHttp_calls hm).1, his⟩
      refine ⟨?_, htext, harr⟩
      intro hcm
      exact hc (List.isPrefixOf_iff_prefix.2 (hcm.trans (m.method_of_arrives harr)))
    · rintro ⟨-, htext, harr⟩
      obtain ⟨r, hr, his⟩ := (m.parse_part_iff hpre).2 ⟨htext, harr⟩
      obtain ⟨host, hhost⟩ := m.extractHost_is his first
      obtain ⟨c, d, hm, hplain⟩ := handleHttp_asks hr hhost
      exact ⟨c, r, d, hm, hplain, his⟩

/-! ## A body in a segment of its own -/

/-- A POST with a body of five bytes. -/
def examplePost : PlainRequest HttpCrate.basic where
  method := .post
  target := ['/']
  uri := .origin .slash
  fields := [⟨"Host".toList, [32], exampleHost, [], by decide, by decide, by decide, by decide⟩,
    ⟨"Content-Length".toList, [32], exampleLength, [], by decide, by decide, by decide, by decide⟩]
  body := lit "hello"
  target_word := by decide
  target_uri := by decide
  host_given := ⟨_, List.mem_cons_self, by decide⟩
  host_text := by decide

/-- The head and the body in one segment, and in two. -/
def onePost : Source := ⟨[⟨examplePost.bytes, by decide⟩], none⟩

def twoPosts : Source := ⟨[⟨examplePost.head, by decide⟩, ⟨examplePost.body, by decide⟩], none⟩

/-- A body that comes behind its head does not reach the handlers. -/
theorem handleClient_late_body :
    ¬ ∀ (env : Env Unit) (u : UserHandler Unit) (us : List (UserHandler Unit))
      (ws : Option (WebSocketHandler Unit)) (peer : Option SocketAddr) (n : ℕ)
      (m : PlainRequest env.http) (client : Source) (s : World Unit),
      client.bytes = m.bytes → m.Reaches
        (handleClient env (proxyHandler env.enabled (u :: us)) ws peer client n s).events := by
  intro hall
  obtain ⟨c, r, d, hm, -, his⟩ :=
    hall hostEnv forwarder [] none none 4096 examplePost twoPosts ⟨(), 0⟩ (by decide +kernel)
  have hread : twoPosts.read 4096 =
      (.ok examplePost.head, ⟨[⟨lit "hello", by decide⟩], none⟩) := by rfl
  have hconnect : ¬ (lit "CONNECT").isPrefixOf examplePost.head = true := by decide +kernel
  unfold handleClient at hm
  rw [hread] at hm
  simp only at hm
  rw [if_neg hconnect] at hm
  have hbody := (parseRawRequest_ok (handleHttp_calls hm).1).2.2
  rw [his.body, examplePost.bodyAfterHead_part List.prefix_rfl] at hbody
  exact absurd (Body.full.inj hbody) (by decide)

theorem handleClient_delivers_one :
    examplePost.Reaches (handleClient hostEnv (proxyHandler hostEnv.enabled [forwarder]) none none
      onePost 4096 ⟨(), 0⟩).events := by
  apply (handleClient_delivers_iff hostEnv forwarder [] none none 4096 examplePost onePost
    (by decide +kernel) ⟨(), 0⟩).2
  refine ⟨by decide, ?_, examplePost.bytes, ⟨[], none⟩, rfl, Or.inl rfl⟩
  intro f hf
  rcases List.mem_cons.1 hf with rfl | hf
  · exact ⟨"a.example".toList, by decide, by decide⟩
  · rw [List.mem_singleton.1 hf]
    exact ⟨"5".toList, by decide, by decide⟩

end HexbufferProxy
