import HexbufferProxy.Proof.RoundTrip
import HexbufferProxy.Spec.Normal

/-!
# One hop is as good as many

* `appendAll_grouped`: what the builder has made of some fields it makes of them again.
* `parse_serializeRequest_same`, `parse_serializeResponse_same`: so parsing what a parsed message is
  written as gives the same message, field by field in the same order.
* `rewrite_normal`: a chain of hops sends what one hop sends.
-/

namespace HexbufferProxy

open Rust

/-! ## Fields that stand together -/

theorem names_append (m : HeaderMap) (n k : HeaderName) (v : HeaderValue) :
    k ∈ (m.append n v).map Prod.fst ↔ k ∈ m.map Prod.fst ∨ k = n := by
  induction m with
  | nil =>
    unfold HeaderMap.append
    simp only [List.map_cons, List.map_nil, List.mem_singleton, List.not_mem_nil, false_or]
  | cons p m ih =>
    unfold HeaderMap.append
    split
    · simp only [List.map_cons, List.mem_cons]
      tauto
    · simp only [List.map_cons, List.mem_cons] at ih ⊢
      tauto

/-- A field is appended to those of its name. -/
theorem grouped_append {m : HeaderMap} (h : m.Grouped) (n : HeaderName) (v : HeaderValue) :
    (m.append n v).Grouped := by
  induction m with
  | nil => exact ⟨.inl List.not_mem_nil, trivial⟩
  | cons p m ih =>
    obtain ⟨hfirst, hrest⟩ := h
    unfold HeaderMap.append
    split
    · rename_i hlast
      exact ⟨.inr (congrArg some hlast.1.symm), .inl hlast.2, hrest⟩
    · rename_i hlast
      refine ⟨?_, ih hrest⟩
      rcases hfirst with hnot | hnext
      · -- the name of `p` does not come again, so it is not `n`
        left
        rw [names_append, not_or]
        exact ⟨hnot, fun heq => hlast ⟨heq, heq ▸ hnot⟩⟩
      · right
        cases m with
        | nil => exact absurd hnext (Option.some_ne_none p.1).symm
        | cons q m =>
          unfold HeaderMap.append
          split
          · exact hnext
          · exact hnext

theorem grouped_appendAll (ps : List (HeaderName × HeaderValue)) {m : HeaderMap} (h : m.Grouped) :
    (appendAll m ps).Grouped := by
  induction ps generalizing m with
  | nil => exact h
  | cons p ps ih => exact ih (grouped_append h p.1 p.2)

/-- At the end of those of its name, a field is appended at the end. -/
theorem append_last {m : HeaderMap} {n : HeaderName} (v : HeaderValue)
    (h : n ∉ m.map Prod.fst ∨ (m.map Prod.fst).getLast? = some n) :
    m.append n v = m ++ [(n, v)] := by
  induction m with
  | nil => rfl
  | cons p m ih =>
    unfold HeaderMap.append
    by_cases hlast : p.1 = n ∧ n ∉ m.map Prod.fst
    · rw [if_pos hlast]
      cases m with
      | nil => rfl
      | cons q m =>
        exfalso
        rcases h with hnot | hend
        · exact hnot (hlast.1 ▸ List.mem_cons_self)
        · rw [List.map_cons, List.map_cons, List.getLast?_cons_cons] at hend
          exact hlast.2 (List.mem_of_getLast? hend)
    · rw [if_neg hlast]
      refine congrArg (p :: ·) (ih ?_)
      rcases h with hnot | hend
      · exact .inl fun hmem => hnot (List.mem_cons_of_mem _ hmem)
      · cases m with
        | nil => exact .inl List.not_mem_nil
        | cons q m =>
          rw [List.map_cons, List.map_cons, List.getLast?_cons_cons] at hend
          exact .inr hend

theorem grouped_split {l m : HeaderMap} {p : HeaderName × HeaderValue}
    (h : HeaderMap.Grouped (l ++ p :: m)) :
    p.1 ∉ l.map Prod.fst ∨ (l.map Prod.fst).getLast? = some p.1 := by
  induction l with
  | nil => exact .inl List.not_mem_nil
  | cons q l ih =>
    obtain ⟨hfirst, hrest⟩ := h
    have hcons : l ≠ [] → (List.map Prod.fst (q :: l)).getLast? = (l.map Prod.fst).getLast? := by
      intro hl
      cases l with
      | nil => exact absurd rfl hl
      | cons x l => exact List.getLast?_cons_cons
    rcases ih hrest with hnot | hend
    · by_cases hqp : q.1 = p.1
      · right
        cases l with
        | nil => exact congrArg some hqp
        | cons x l =>
          exfalso
          rcases hfirst with hnone | hnext
          · have hmem : p ∈ x :: l ++ p :: m := List.mem_append_right _ List.mem_cons_self
            rw [hqp] at hnone
            exact hnone (List.mem_map_of_mem hmem)
          · have hx : x.1 = q.1 := Option.some.inj hnext
            exact hnot ((hx.trans hqp) ▸ List.mem_cons_self)
      · left
        intro hmem
        rcases List.mem_cons.1 hmem with heq | hmem
        · exact hqp heq.symm
        · exact hnot hmem
    · right
      rw [hcons, hend]
      rintro rfl
      exact absurd hend.symm (Option.some_ne_none p.1)

/-- **What stands together stays as it is.** The induction is on what is still to be appended. -/
theorem appendAll_grouped {l m : HeaderMap} (h : HeaderMap.Grouped (l ++ m)) :
    appendAll l m = l ++ m := by
  induction m generalizing l with
  | nil => exact (List.append_nil l).symm
  | cons p m ih =>
    show appendAll (l.append p.1 p.2) m = _
    have hstep : l.append p.1 p.2 = l ++ [p] := append_last p.2 (grouped_split h)
    rw [hstep, ih, List.append_assoc]
    · rfl
    · rwa [List.append_assoc]

theorem appendAll_twice (ps : List (HeaderName × HeaderValue)) :
    appendAll [] (appendAll [] ps) = appendAll [] ps :=
  appendAll_grouped (l := []) (grouped_appendAll ps trivial)

/-- The header map of a message that the parsers return. -/
theorem buildHeaders_twice {ls : List Str} {m : HeaderMap}
    (h : buildHeaders [] (headerFields ls) = some m) : appendAll [] m = m := by
  obtain ⟨ps, -, rfl⟩ := buildHeaders_some h
  exact appendAll_twice ps

/-! ## Messages -/

/-- **A parsed request is read again as it is**, but for the form of its target. -/
theorem parse_serializeRequest_same {http : HttpCrate}
    (hword : ∀ s u, IsWord s → http.parseUri s = some u → IsWord u.display)
    (hdisplay : http.Reparses) {raw : Bytes} {r : Request} (h : parseRawRequest http raw = .ok r) :
    ∃ u, u.display = r.uri.display ∧
      parseRawRequest http (serializeRequest r) = .ok { r with uri := u } := by
  have hwire := parseRawRequest_isWire hword h
  obtain ⟨huri, hheaders, hbody⟩ := parseRawRequest_ok h
  obtain ⟨u, hu, hsame⟩ := hdisplay _ _ huri
  have hline := requestLine_line r.method hwire.uri_word
  refine ⟨u, hsame, ?_⟩
  rw [serializeRequest_eq, hbody, parseRawRequest_eq (lines_headBytes hline _ _) hwire.uri_word hu,
    headerFields_head, buildHeaders_eq (parses_wireFields hwire.values),
    bodyAfterHead_headBytes hline, buildHeaders_twice hheaders]
  rfl

/-- **A parsed response is read again as it is.** -/
theorem parse_serializeResponse_same (http : HttpCrate) {raw : Bytes} {res : Response}
    (h : parseRawResponse raw = .ok res) :
    parseRawResponse (serializeResponse http res) = .ok res := by
  obtain ⟨hheaders, hbody⟩ := parseRawResponse_ok h
  have hvalues := buildHeaders_text hheaders
  have htext := statusText_line http res
  have hline : IsFirstLine (statusText http res) :=
    ⟨fun h => (htext _ h).2.1 rfl, fun h => (htext _ h).2.2 rfl⟩
  have hstatus : StatusCode.parse res.status.1 = some res.status := dif_pos res.status.2
  unfold serializeResponse
  rw [serializeResponseHead_wire, hbody]
  simp only [Body.fullBytes, parseRawResponse, bodyAfterHead_headBytes hline,
    lines_headBytes hline, List.tail_cons, headerFields_head, List.head?_cons, Option.getD_some,
    words_statusText, (status_spec res.status).2.2, hstatus, buildHeaders_eq (parses_wireFields hvalues),
    buildHeaders_twice hheaders]
  rw [← hbody]

/-! ## Hops -/

/-- A hop whose output it leaves alone is as good as any number of them. -/
theorem hops_once {hop : Bytes → Except Fault Bytes}
    (h : ∀ raw out, hop raw = .ok out → hop out = .ok out) (k : ℕ) (raw : Bytes) :
    hops hop (k + 1) raw = hop raw := by
  induction k generalizing raw with
  | zero =>
    unfold hops
    cases hop raw with
    | error e => rfl
    | ok out => rfl
  | succ k ih =>
    unfold hops
    cases hraw : hop raw with
    | error e => rfl
    | ok out =>
      show hops hop (k + 1) out = _
      rw [ih, h raw out hraw]

/-- **A chain of hops sends what one hop sends**, byte for byte, requests and responses alike; and
a message that a hop has sent is read by the next as the message it has sent. -/
theorem rewrite_normal (http : HttpCrate)
    (hword : ∀ s u, IsWord s → http.parseUri s = some u → IsWord u.display)
    (hdisplay : http.Reparses) :
    (∀ k raw, hops (rewriteRequest http) (k + 1) raw = rewriteRequest http raw) ∧
    (∀ k raw, hops (rewriteResponse http) (k + 1) raw = rewriteResponse http raw) ∧
    (∀ raw r, parseRawRequest http raw = .ok r → ∃ u, u.display = r.uri.display ∧
      parseRawRequest http (serializeRequest r) = .ok { r with uri := u }) ∧
    ∀ raw res, parseRawResponse raw = .ok res →
      parseRawResponse (serializeResponse http res) = .ok res := by
  refine ⟨hops_once ?_, hops_once ?_, fun raw r h => parse_serializeRequest_same hword hdisplay h,
    fun raw res h => parse_serializeResponse_same http h⟩
  · intro raw out h
    unfold rewriteRequest at h ⊢
    rcases hparse : parseRawRequest http raw with e | r
    · rw [hparse] at h
      cases h
    · rw [hparse] at h
      obtain ⟨u, hsame, hagain⟩ := parse_serializeRequest_same hword hdisplay hparse
      obtain rfl : serializeRequest r = out := Except.ok.inj h
      rw [hagain]
      -- the target is written as its text
      have hbytes : serializeRequest { r with uri := u } = serializeRequest r := by
        unfold serializeRequest
        rw [hsame]
      exact congrArg Except.ok hbytes
  · intro raw out h
    unfold rewriteResponse at h ⊢
    rcases hparse : parseRawResponse raw with e | res
    · rw [hparse] at h
      cases h
    · rw [hparse] at h
      obtain rfl : serializeResponse http res = out := Except.ok.inj h
      rw [parse_serializeResponse_same http hparse]
      rfl

/-! ## An example -/

theorem displayPath_slash (pq : PathAndQuery) : (Uri.displayPath pq).head? = some '/' := by
  unfold Uri.displayPath
  split
  · assumption
  · rfl

theorem displayPath_pathOf (s : Str) :
    Uri.displayPath (HttpCrate.pathOf (Uri.displayPath (HttpCrate.pathOf s))) =
      Uri.displayPath (HttpCrate.pathOf s) := by
  -- no fragment is left
  have hpath : ∀ c ∈ (HttpCrate.pathOf s).1, c ≠ '#' := by
    intro c hc
    unfold HttpCrate.pathOf at hc
    split at hc
    · simpa using List.mem_takeWhile_imp hc
    · exact absurd hc List.not_mem_nil
  have hhash : ∀ c ∈ Uri.displayPath (HttpCrate.pathOf s), c ≠ '#' := by
    intro c hc
    unfold Uri.displayPath at hc
    split at hc
    · exact hpath c hc
    · rcases List.mem_cons.1 hc with rfl | hc
      · decide
      · exact hpath c hc
  have hslash := displayPath_slash (HttpCrate.pathOf s)
  generalize Uri.displayPath (HttpCrate.pathOf s) = t at hhash hslash
  have htake : t.takeWhile (· ≠ '#') = t := by
    rw [List.takeWhile_eq_self_iff]
    intro c hc
    simpa using hhash c hc
  unfold HttpCrate.pathOf
  simp only [htake]
  rw [dif_pos (.inr (.inl hslash))]
  unfold Uri.displayPath
  rw [if_pos hslash]

/-- The text of an absolute URI is split where it has been put together. -/
theorem parseTarget_display {scheme a : Str} (pq : PathAndQuery) (hcolon : ':' ∉ scheme)
    (hslash : scheme.head? ≠ some '/') (ha : ∀ c ∈ a, endsAuthority c = false) :
    HttpCrate.parseTarget (Uri.display (.absolute scheme a pq)) =
      some (.absolute scheme a (HttpCrate.pathOf (Uri.displayPath pq))) := by
  have htext : Uri.display (.absolute scheme a pq) =
      scheme ++ ':' :: '/' :: '/' :: (a ++ Uri.displayPath pq) := by
    show scheme ++ "://".toList ++ a ++ Uri.displayPath pq = _
    rw [List.append_assoc, List.append_assoc]
    rfl
  have hhead : (Uri.displayPath pq).takeWhile (fun c => !endsAuthority c) = [] ∧
      (Uri.displayPath pq).dropWhile (fun c => !endsAuthority c) = Uri.displayPath pq := by
    have hfirst := displayPath_slash pq
    cases hpath : Uri.displayPath pq with
    | nil =>
      rw [hpath] at hfirst
      exact absurd hfirst.symm (Option.some_ne_none '/')
    | cons c cs =>
      rw [hpath] at hfirst
      obtain rfl : c = '/' := Option.some.inj hfirst
      exact ⟨rfl, rfl⟩
  have hkept : ∀ c ∈ a, (!endsAuthority c) = true := by
    intro c hc
    rw [ha c hc]
    rfl
  rw [htext]
  unfold HttpCrate.parseTarget
  rw [if_neg, if_neg, if_neg, splitOnce_append hcolon]
  · show some (Uri.absolute scheme ((a ++ Uri.displayPath pq).takeWhile fun c => !endsAuthority c)
        (HttpCrate.pathOf ((a ++ Uri.displayPath pq).dropWhile fun c => !endsAuthority c))) = _
    rw [List.takeWhile_append_of_pos hkept, List.dropWhile_append_of_pos hkept, hhead.1, hhead.2,
      List.append_nil]
  · cases scheme with
    | nil =>
      intro heq
      exact absurd (Option.some.inj heq) (by decide)
    | cons c cs => exact hslash
  · intro h
    have hlen := congrArg List.length h
    rw [List.length_append] at hlen
    simp only [List.length_cons, List.length_nil] at hlen
    omega
  · exact List.append_ne_nil_of_right_ne_nil _ (List.cons_ne_nil _ _)

/-- The simple URI parser reads the text of a URI as that text. -/
theorem basic_reparses : HttpCrate.basic.Reparses := by
  intro s u h
  have hparse : HttpCrate.parseTarget s = some u := h
  unfold HttpCrate.parseTarget at hparse
  split_ifs at hparse with hempty hstar hslash
  · obtain rfl := Option.some.inj hparse
    exact ⟨.asterisk, rfl, rfl⟩
  · obtain rfl := Option.some.inj hparse
    refine ⟨.origin (HttpCrate.pathOf (Uri.displayPath (HttpCrate.pathOf s))), ?_,
      displayPath_pathOf s⟩
    have hfirst := displayPath_slash (HttpCrate.pathOf s)
    show HttpCrate.parseTarget (Uri.displayPath (HttpCrate.pathOf s)) = _
    unfold HttpCrate.parseTarget
    rw [if_neg, if_neg, if_pos hfirst]
    · intro heq
      rw [heq] at hfirst
      exact absurd (Option.some.inj hfirst) (by decide)
    · intro heq
      rw [heq] at hfirst
      exact absurd hfirst.symm (Option.some_ne_none '/')
  · split at hparse
    · rename_i scheme r hsplit
      obtain rfl := Option.some.inj hparse
      obtain ⟨heq, hcolon⟩ := splitOnce_eq hsplit
      refine ⟨_, parseTarget_display _ hcolon ?_ ?_, ?_⟩
      · intro hfirst
        cases scheme with
        | nil => exact absurd hfirst.symm (Option.some_ne_none '/')
        | cons c cs =>
          rw [heq] at hslash
          exact hslash hfirst
      · intro c hc
        simpa using List.mem_takeWhile_imp hc
      · exact congrArg (scheme ++ "://".toList ++ _ ++ ·) (displayPath_pathOf _)
    · obtain rfl := Option.some.inj hparse
      exact ⟨_, h, rfl⟩

/-- A request with a name in capitals, blanks around a value, and another field between two of one
name. -/
def untidyRequest : Bytes :=
  lit "GET   /a#b HTTP/1.1\r\nHost:a.example\r\nAccept:  x \r\nHOST: b\r\n\r\nbody"

theorem rewrite_normal_untidy :
    hops (rewriteRequest HttpCrate.basic) 3 untidyRequest =
      rewriteRequest HttpCrate.basic untidyRequest :=
  (rewrite_normal HttpCrate.basic parseTarget_word basic_reparses).1 2 untidyRequest

end HexbufferProxy
