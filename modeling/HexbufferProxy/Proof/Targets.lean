import HexbufferProxy.Proof.Host
import HexbufferProxy.Proof.Validity
import HexbufferProxy.Spec.Targets

/-!
# When host and port are cut out right

* `authority_split_iff`: of a CONNECT target exactly when the host has no colon in it; of a Host
  value, when it has none or a port is given.
* `extractHost_uri_iff`: of an absolute target exactly when it is a plain one.
-/

namespace HexbufferProxy

open Rust

namespace NamedAuthority

variable (a : NamedAuthority)

/-- An authority with a port is a target with one. -/
theorem socketEndpoint_port {p : Digits 10} (hp : a.port = some p) (default : ℕ) :
    socketEndpoint a.text = some (a.endpoint default) := by
  obtain ⟨hne, hlt⟩ := a.port_ok p hp
  have h := socketEndpoint_text ⟨a.host, p, a.host_ok, hne, hlt⟩
  unfold text endpoint
  rw [hp]
  exact h

/-- An authority without a port gets the default behind it. -/
theorem socketEndpoint_default (hp : a.port = none) {port : Str} {default : ℕ}
    (hcolon : ':' ∉ port) (hport : fromStrRadix 10 65536 port = some default) :
    socketEndpoint (a.text ++ ':' :: port) = some (a.endpoint default) := by
  unfold socketEndpoint text endpoint
  rw [hp, rsplitOnce_append hcolon, Option.bind_some, hport, Option.map_some]
  simp

/-- An address in brackets is taken for a host and a port. -/
theorem socketEndpoint_bracket (hp : a.port = none) (hcolon : ':' ∈ a.host) :
    socketEndpoint a.text = none := by
  have htext : a.text = a.host := by
    unfold text
    rw [hp]
    exact List.append_nil _
  have hlast : a.host.getLast? = some ']' := by
    rcases a.host_ok with hname | ⟨x, hx, -⟩
    · exact absurd (by decide : ':' ∈ "/?#@[]:".toList) (hname _ hcolon)
    · rw [hx, ← List.cons_append, List.getLast?_concat]
  rw [htext]
  unfold socketEndpoint
  cases hsplit : rsplitOnce ':' a.host with
  | none => rfl
  | some q =>
    obtain ⟨hq, -⟩ := rsplitOnce_eq hsplit
    rw [Option.bind_some, Option.map_eq_none_iff]
    -- what is behind the last colon ends in a bracket
    have hbracket : ']' ∈ q.2 := by
      rw [hq, List.getLast?_append, List.getLast?_cons] at hlast
      cases hl : q.2.getLast? with
      | none =>
        rw [hl] at hlast
        exact absurd (Option.some.inj hlast) (by decide)
      | some c =>
        rw [hl] at hlast
        rw [← Option.some.inj hlast]
        exact List.mem_of_getLast? hl
    cases hparse : fromStrRadix 10 65536 q.2 with
    | none => rfl
    | some n =>
      rcases isPortText_of_parse hparse _ hbracket with h | h
      · exact absurd h (by decide)
      · exact absurd h (by decide)

theorem colon_mem_text : ':' ∈ a.text ↔ ':' ∈ a.host ∨ a.port ≠ none := by
  unfold text
  rw [List.mem_append]
  cases a.port with
  | none => simp
  | some p => simp

/-- What is in front of the first colon. -/
theorem targetHost_text (hcolon : ':' ∉ a.host) (r : Str) :
    targetHost (a.host ++ ':' :: r) = a.host := splitFirst_append hcolon r

end NamedAuthority

theorem no_colon_targetHost (target : Str) : ':' ∉ targetHost target := by
  intro h
  exact absurd (List.mem_takeWhile_imp h) (by simp)

theorem secondWord_eq (raw : Bytes) :
    ((lines (fromUtf8Lossy raw)).head?.bind fun l => (splitWhitespace l)[1]?) =
      (firstWords raw)[1]? := by
  unfold firstWords
  cases (lines (fromUtf8Lossy raw)).head? with
  | none => rfl
  | some l => rfl

/-- **A CONNECT target and a Host value are split at colons**, so right exactly when the colon of
an address in brackets is not in the way. -/
theorem authority_split_iff (a : NamedAuthority) (raw : Bytes)
    (h : (firstWords raw)[1]? = some a.text) :
    (SplitsConnect raw a.host (a.endpoint 443).2 ↔ ':' ∉ a.host) ∧
      (socketEndpoint (upgradeTarget a.text) = some (a.endpoint 80) ↔
        (':' ∈ a.host → a.port ≠ none)) := by
  have hconnect : connectTarget raw =
      some (if ':' ∈ a.text then a.text else a.text ++ ":443".toList) := by
    unfold connectTarget
    rw [secondWord_eq, h]
    rfl
  constructor
  · constructor
    · rintro ⟨target, -, hhost, -⟩
      rw [← hhost]
      exact no_colon_targetHost target
    · intro hcolon
      refine ⟨_, hconnect, ?_⟩
      cases hp : a.port with
      | some p =>
        have hmem : ':' ∈ a.text := a.colon_mem_text.2 (Or.inr (by rw [hp]; simp))
        rw [if_pos hmem]
        refine ⟨?_, a.socketEndpoint_port hp 443⟩
        unfold NamedAuthority.text
        rw [hp]
        exact a.targetHost_text hcolon _
      | none =>
        have hmem : ':' ∉ a.text := by
          rw [a.colon_mem_text, hp]
          simpa using hcolon
        rw [if_neg hmem]
        refine ⟨?_, a.socketEndpoint_default hp (by decide) (by decide)⟩
        unfold NamedAuthority.text
        rw [hp, Option.elim_none, List.append_nil]
        exact a.targetHost_text hcolon _
  · unfold upgradeTarget
    cases hp : a.port with
    | some p =>
      have hmem : ':' ∈ a.text := a.colon_mem_text.2 (Or.inr (by rw [hp]; simp))
      rw [if_pos hmem]
      exact ⟨fun _ _ => by simp, fun _ => a.socketEndpoint_port hp 80⟩
    | none =>
      by_cases hcolon : ':' ∈ a.host
      · rw [if_pos (a.colon_mem_text.2 (Or.inl hcolon)), a.socketEndpoint_bracket hp hcolon]
        exact ⟨fun hno => absurd hno (by simp), fun hno => absurd rfl (hno hcolon)⟩
      · have hmem : ':' ∉ a.text := by
          rw [a.colon_mem_text, hp]
          simpa using hcolon
        rw [if_neg hmem]
        exact ⟨fun _ hm => absurd hm hcolon,
          fun _ => a.socketEndpoint_default hp (by decide) (by decide)⟩

/-- An IPv6 address on port 8443, and one without a port. -/
def addressPort : NamedAuthority where
  host := "[::1]".toList
  port := some [(8, false), (4, false), (4, false), (3, false)]
  host_ok := Or.inr ⟨"::1".toList, by decide, by decide⟩
  port_ok := by
    intro p hp
    rw [← Option.some.inj hp]
    exact ⟨by decide, by decide⟩

def bareAddress : NamedAuthority where
  host := "[::1]".toList
  port := none
  host_ok := Or.inr ⟨"::1".toList, by decide, by decide⟩
  port_ok := by simp

/-- A name without a port. -/
def bareName : NamedAuthority where
  host := "example.com".toList
  port := none
  host_ok := altTarget.host_ok
  port_ok := by simp

theorem authority_split_name :
    SplitsConnect (lit "CONNECT example.com HTTP/1.1\r\n\r\n") "example.com".toList 443 ∧
      socketEndpoint (upgradeTarget "example.com".toList) = some ("example.com".toList, 80) := by
  have h := authority_split_iff bareName (lit "CONNECT example.com HTTP/1.1\r\n\r\n")
    (by decide +kernel)
  exact ⟨h.1.2 (by decide), h.2.2 fun hm => absurd hm (by decide)⟩

/-- The host of an IPv6 address is cut off at its first colon, and without a port none is put
behind it. -/
theorem authority_split_address :
    (¬ ∀ (a : NamedAuthority) (raw : Bytes), (firstWords raw)[1]? = some a.text →
      SplitsConnect raw a.host (a.endpoint 443).2) ∧
      ¬ ∀ a : NamedAuthority, socketEndpoint (upgradeTarget a.text) = some (a.endpoint 80) := by
  constructor
  · intro hall
    obtain ⟨target, -, hhost, -⟩ := hall addressPort
      (lit "CONNECT [::1]:8443 HTTP/1.1\r\n\r\n") (by decide +kernel)
    have hcolon : ':' ∈ targetHost target := hhost ▸ (by decide)
    exact no_colon_targetHost target hcolon
  · intro hall
    exact absurd (hall bareAddress) (by decide +kernel)

/-! ## Absolute targets -/

theorem no_colon_scheme {s : Str} (hs : IsHttpScheme s) : ':' ∉ s := by
  intro hm
  have hlower : ':' ∈ s.map Char.toLower := List.mem_map.2 ⟨':', hm, by decide⟩
  rcases hs with hs | hs <;> rw [hs] at hlower <;> exact absurd hlower (by decide)

/-- The text of a target, from its scheme on. -/
theorem hostOfTarget_some_iff {target host : Str} : hostOfTarget target = some host ↔
    ∃ s r, (s = "http".toList ∨ s = "https".toList) ∧ target = s ++ "://".toList ++ r ∧
      host = splitFirst '/' r := by
  have hhttp : "http".toList ++ "://".toList = "http://".toList := by decide
  have hhttps : "https".toList ++ "://".toList = "https://".toList := by decide
  have hstarts : ∀ k : Str, startsWith k target = true ↔ k <+: target :=
    fun _ => List.isPrefixOf_iff_prefix
  unfold hostOfTarget
  constructor
  · intro h
    split at h
    · rename_i hs
      obtain ⟨r, rfl⟩ := (hstarts _).1 hs
      refine ⟨_, r, Or.inl rfl, by rw [hhttp], ?_⟩
      rw [← Option.some.inj h]
      rfl
    · split at h
      · rename_i hs
        obtain ⟨r, rfl⟩ := (hstarts _).1 hs
        refine ⟨_, r, Or.inr rfl, by rw [hhttps], ?_⟩
        rw [← Option.some.inj h]
        rfl
      · exact nomatch h
  · rintro ⟨s, r, rfl | rfl, rfl, rfl⟩
    · rfl
    · rfl

theorem hostOfTarget_none_iff {target : Str} : hostOfTarget target = none ↔
    ∀ s r, (s = "http".toList ∨ s = "https".toList) → target ≠ s ++ "://".toList ++ r := by
  rw [Option.eq_none_iff_forall_ne_some]
  constructor
  · rintro h s r hs rfl
    exact h _ (hostOfTarget_some_iff.2 ⟨s, r, hs, rfl, rfl⟩)
  · intro h host hhost
    obtain ⟨s, r, hs, ht, -⟩ := hostOfTarget_some_iff.1 hhost
    exact h s r hs ht

theorem authorityHost_afterHost (a : Str) :
    Uri.authorityHost a ++ afterHost a = Uri.hostPort a := by
  obtain ⟨r, hr⟩ := authorityHost_starts a
  unfold afterHost
  rw [← hr, List.drop_left]

theorem hostAndPort_length (a : Str) : (hostAndPort a).length ≤ (Uri.hostPort a).length := by
  rw [← authorityHost_afterHost]
  unfold hostAndPort
  split <;> simp

/-- **All of an authority is host and port** when it has no user information, and nothing but a port
behind the host. -/
theorem hostAndPort_self_iff {a : Str} : hostAndPort a = a ↔
    '@' ∉ a ∧ (afterHost a = [] ∨ (Uri.authorityPort a).isSome) := by
  constructor
  · intro h
    have hself : Uri.hostPort a = a := by
      apply (hostPort_suffix a).eq_of_length_le
      rw [← congrArg List.length h]
      exact hostAndPort_length a
    refine ⟨hself ▸ no_at_hostPort a, ?_⟩
    by_cases hport : (Uri.authorityPort a).isSome
    · exact Or.inr hport
    · left
      have hhost : Uri.authorityHost a = Uri.authorityHost a ++ afterHost a := by
        rw [authorityHost_afterHost, hself]
        unfold hostAndPort at h
        rwa [if_neg hport, List.append_nil] at h
      exact List.self_eq_append_right.1 hhost
  · rintro ⟨huser, hport⟩
    have hself := authorityHost_afterHost a
    rw [hostPort_self huser] at hself
    unfold hostAndPort
    split
    · exact hself
    · rename_i hnone
      rw [(hport.resolve_right hnone)] at hself
      exact hself

/-- The host of an accepted request without a Host field comes from the target. -/
theorem extractHost_target {raw : Bytes} {req : Request}
    (hhost : HeaderMap.get req.headers hostName = none) :
    extractHost req raw = (firstWords raw)[1]?.bind hostOfTarget := by
  unfold extractHost
  rw [hhost, Option.bind_none, secondWord_eq]

/-- **The host and port of an absolute target are cut out right** exactly when it is a plain one;
and of nothing else is a host cut out. -/
theorem extractHost_uri_iff (http : HttpCrate) (hread : http.ReadsAbsolute) (raw : Bytes)
    (req : Request) (h : parseRawRequest http raw = .ok req)
    (hhost : HeaderMap.get req.headers hostName = none) :
    (∀ s a pq, req.uri = .absolute s a pq → IsHttpScheme s →
      (extractHost req raw = some (hostAndPort a) ↔ PlainTarget (targetWord raw) a)) ∧
    ((∀ s a pq, req.uri = .absolute s a pq → ¬ IsHttpScheme s) →
      extractHost req raw = none) := by
  have huri : http.parseUri (targetWord raw) = some req.uri := (parseRawRequest_ok h).1
  rw [extractHost_target hhost]
  constructor
  · intro s a pq habs hs
    rw [habs] at huri
    obtain ⟨scheme, rest, htarget, hcase, ha, hrest⟩ := hread _ _ _ _ huri
    have hscheme : IsHttpScheme scheme := by
      unfold IsHttpScheme at hs ⊢
      rwa [hcase]
    have hslash : '/' ∉ a := fun hm => absurd (ha '/' hm) (by decide)
    have hword : (firstWords raw)[1]? = some (targetWord raw) := by
      unfold targetWord at htarget ⊢
      cases hw : (firstWords raw)[1]? with
      | none =>
        rw [hw] at htarget
        have hlen := congrArg List.length htarget
        simp at hlen
        omega
      | some w => rfl
    rw [hword, Option.bind_some]
    have hcut : ∀ r : Str, splitFirst '/' (a ++ r) = a ++ splitFirst '/' r := by
      intro r
      unfold splitFirst
      apply List.takeWhile_append_of_pos
      intro c hc
      simp only [ne_eq, decide_eq_true_eq]
      rintro rfl
      exact hslash hc
    constructor
    · intro heq
      obtain ⟨s', r, hs', htarget', hr⟩ := hostOfTarget_some_iff.1 heq
      -- both readings of the target split it at its first colon
      have hs'' : IsHttpScheme s' := by rcases hs' with rfl | rfl <;> decide
      have hone := splitOnce_append (no_colon_scheme hscheme) ("//".toList ++ a ++ rest)
      have htwo := splitOnce_append (no_colon_scheme hs'') ("//".toList ++ r)
      have hsame : scheme ++ ':' :: ("//".toList ++ a ++ rest) = s' ++ ':' :: ("//".toList ++ r) := by
        have hboth := htarget.symm.trans htarget'
        simpa using hboth
      rw [hsame, htwo] at hone
      simp only [Option.some.injEq, Prod.mk.injEq, List.append_assoc,
        List.append_cancel_left_eq] at hone
      obtain ⟨rfl, rfl⟩ := hone
      rw [hcut] at hr
      have hlen := congrArg List.length hr
      rw [List.length_append] at hlen
      have hle := (hostAndPort_length a).trans (hostPort_suffix a).length_le
      have hnil : splitFirst '/' rest = [] := List.length_eq_zero_iff.1 (by omega)
      rw [hnil, List.append_nil] at hr
      obtain ⟨huser, hport⟩ := hostAndPort_self_iff.1 hr
      refine ⟨⟨s', rest, hs', htarget, ?_⟩, huser, hport⟩
      cases rest with
      | nil => exact Or.inl rfl
      | cons c cs =>
        right
        by_contra hne
        have hc : c ≠ '/' := fun hc => hne (congrArg some hc)
        unfold splitFirst at hnil
        rw [List.takeWhile_cons_of_pos (by simpa using hc)] at hnil
        exact nomatch hnil
    · rintro ⟨⟨s', r, hs', htarget', hr⟩, huser, hport⟩
      refine hostOfTarget_some_iff.2 ⟨s', a ++ r, hs', ?_, ?_⟩
      · rw [htarget', List.append_assoc _ a r]
      · have hnil : splitFirst '/' r = [] := by
          rcases hr with rfl | hr
          · rfl
          · cases r with
            | nil => rfl
            | cons c cs =>
              rw [Option.some.inj hr]
              exact List.takeWhile_cons_of_neg (by simp)
        rw [hcut, hnil, List.append_nil]
        exact hostAndPort_self_iff.2 ⟨huser, hport⟩
  · intro hno
    rw [Option.bind_eq_none_iff]
    intro w hw
    rw [hostOfTarget_none_iff]
    rintro s r hs rfl
    have hword : targetWord raw = s ++ "://".toList ++ r := by
      unfold targetWord
      rw [hw]
      rfl
    rw [hword] at huri
    have hlower : s ≠ [] ∧ ∀ c ∈ s, c.isLower = true := by
      rcases hs with rfl | rfl <;> decide
    obtain ⟨pq, hpq⟩ := parse_authority http hlower.1 hlower.2 huri
    exact hno _ _ _ hpq (by rcases hs with rfl | rfl <;> decide)

theorem readsAbsolute_basic : HttpCrate.basic.ReadsAbsolute := by
  intro target s a pq h
  have h' : HttpCrate.parseTarget target = some (.absolute s a pq) := h
  unfold HttpCrate.parseTarget at h'
  split at h'
  · exact nomatch h'
  split at h'
  · exact nomatch h'
  split at h'
  · exact nomatch h'
  split at h'
  · rename_i scheme r hsplit
    obtain ⟨rfl, -⟩ := splitOnce_eq hsplit
    simp only [Option.some.injEq, Uri.absolute.injEq] at h'
    obtain ⟨rfl, rfl, -⟩ := h'
    refine ⟨scheme, r.dropWhile fun c => !endsAuthority c, ?_, rfl, ?_, ?_⟩
    · rw [List.append_assoc _ (r.takeWhile _), List.takeWhile_append_dropWhile]
      simp
    · intro c hc
      simpa using List.mem_takeWhile_imp hc
    · intro c hc
      have hnot := List.head?_dropWhile_not (fun c => !endsAuthority c) r
      rw [hc] at hnot
      simpa using hnot
  · exact nomatch h'

/-- A query without a path in front of it is taken for a part of the host. -/
def queryTarget : Bytes := lit "GET http://example.com?q=1 HTTP/1.1\r\n\r\n"

def pathTarget : Bytes := lit "GET http://example.com:8080/a HTTP/1.1\r\n\r\n"

theorem parsed_absolute {http : HttpCrate} {raw : Bytes} {u : Uri}
    (h : (parseRawRequest http raw).toOption.map (fun r => (r.uri, r.headers)) = some (u, [])) :
    ∃ req, parseRawRequest http raw = .ok req ∧ req.uri = u ∧
      HeaderMap.get req.headers hostName = none := by
  cases hreq : parseRawRequest http raw with
  | error e => rw [hreq] at h; exact nomatch h
  | ok req =>
    rw [hreq] at h
    obtain ⟨huri, hheaders⟩ := Prod.mk.inj (Option.some.inj h)
    exact ⟨req, rfl, huri, by rw [hheaders]; rfl⟩

theorem extractHost_path : ∃ req, parseRawRequest HttpCrate.basic pathTarget = .ok req ∧
    extractHost req pathTarget = some (hostAndPort "example.com:8080".toList) := by
  have hparse : (parseRawRequest HttpCrate.basic pathTarget).toOption.map
      (fun r => (r.uri, r.headers)) = some (.absolute "http".toList "example.com:8080".toList
        ⟨"/a".toList, by decide⟩, []) := by decide +kernel
  obtain ⟨req, hreq, huri, hhost⟩ := parsed_absolute hparse
  refine ⟨req, hreq, ?_⟩
  refine ((extractHost_uri_iff _ readsAbsolute_basic _ _ hreq hhost).1 _ _ _ huri
    (by decide)).2 ⟨⟨"http".toList, "/a".toList, Or.inl rfl, by decide +kernel, Or.inr rfl⟩,
      by decide, Or.inr (by decide +kernel)⟩

theorem extractHost_query : ¬ ∀ (http : HttpCrate) (raw : Bytes) (req : Request)
    (s a : Str) (pq : PathAndQuery), http.ReadsAbsolute → parseRawRequest http raw = .ok req →
      HeaderMap.get req.headers hostName = none → req.uri = .absolute s a pq → IsHttpScheme s →
        extractHost req raw = some (hostAndPort a) := by
  intro hall
  have hparse : (parseRawRequest HttpCrate.basic queryTarget).toOption.map
      (fun r => (r.uri, r.headers)) = some (.absolute "http".toList "example.com".toList
        ⟨"?q=1".toList, by decide⟩, []) := by decide +kernel
  obtain ⟨req, hreq, huri, hhost⟩ := parsed_absolute hparse
  have heq := hall _ _ req _ _ _ readsAbsolute_basic hreq hhost huri (by decide)
  rw [extractHost_target hhost] at heq
  exact absurd heq (by decide +kernel)

end HexbufferProxy
