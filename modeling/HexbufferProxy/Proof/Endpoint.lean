import HexbufferProxy.Proof.Flow
import HexbufferProxy.Proof.Head
import HexbufferProxy.Spec.Endpoint

/-!
# Intercepted and not, a tunnel leads to the same endpoint only on port 443

* `absoluteRequest_authority`, `upstreamHandshake_authority`: the authority of the URI that an
  upstream is asked for.
* `socketEndpoint_text`: where the passthrough goes.
* `uriEndpoint_iff`: when a URI built from the host alone goes there too.
* `handleHttps_endpoint_iff`: so for the contacts of `handle_https`.
-/

namespace HexbufferProxy

open Rust Rust.Proc

variable {ω : Type} {env : Env ω}

/-! ## The authority of an upstream URI -/

/-- **What stands behind the scheme, up to the path, is the authority.** -/
theorem parse_authority (http : HttpCrate) {scheme text : Str} {u : Uri} (hne : scheme ≠ [])
    (hlower : ∀ c ∈ scheme, c.isLower = true)
    (h : http.parseUri (scheme ++ "://".toList ++ text) = some u) :
    ∃ pq, u = .absolute scheme (authorityOf text) pq := by
  have hsplit : scheme ++ "://".toList ++ text = scheme ++ "://".toList ++ authorityOf text ++
      text.dropWhile (fun c => !endsAuthority c) := by
    rw [List.append_assoc _ (authorityOf text)]
    unfold authorityOf
    rw [List.takeWhile_append_dropWhile]
  rw [hsplit] at h
  apply http.parseUri_absolute scheme _ _ u hne hlower _ _ h
  · intro c hc
    have := List.mem_takeWhile_imp hc
    simpa using this
  · intro c hc
    have hnot := List.head?_dropWhile_not (fun c => !endsAuthority c) text
    rw [hc] at hnot
    simpa using hnot

/-- A path ends the authority, so what is behind it does not matter. -/
theorem authorityOf_append {path : Str} {c : Char} (hpath : path.head? = some c)
    (hc : endsAuthority c = true) (host : Str) :
    authorityOf (host ++ path) = authorityOf host := by
  obtain ⟨r, rfl⟩ : ∃ r, path = c :: r := by
    cases path with
    | nil => exact absurd hpath (by simp)
    | cons x r =>
      rw [List.head?_cons, Option.some.injEq] at hpath
      exact ⟨r, by rw [hpath]⟩
  unfold authorityOf
  rw [List.takeWhile_append]
  split
  · rename_i hlen
    rw [List.takeWhile_cons_of_neg (by rw [hc]; decide), List.append_nil]
    exact (List.takeWhile_prefix _).eq_of_length hlen |>.symm
  · rfl

theorem absoluteRequest_authority {scheme host : Str} {req q : Request} (hne : scheme ≠ [])
    (hlower : ∀ c ∈ scheme, c.isLower = true)
    (h : absoluteRequest env scheme host req = some q) :
    (∃ s, req.uri.scheme = some s ∧ q = req) ∨ req.uri.scheme = none ∧
      ∃ pq, q.uri = .absolute scheme (authorityOf (host ++ req.uri.display)) pq := by
  unfold absoluteRequest at h
  cases hs : req.uri.scheme with
  | some s =>
    rw [hs] at h
    exact Or.inl ⟨s, rfl, (Option.some.inj h).symm⟩
  | none =>
    rw [hs] at h
    obtain ⟨u, hu, rfl⟩ := Option.map_eq_some_iff.1 h
    rw [List.append_assoc] at hu
    exact Or.inr ⟨rfl, parse_authority env.http hne hlower hu⟩

/-- The path of an absolute URI is never empty. -/
theorem withScheme_path {u v : Uri} {s : Str} (h : u.withScheme s = some v) :
    ∃ c, (v.pathAndQuery.getD ['/']).head? = some c ∧ endsAuthority c = true := by
  cases u with
  | absolute s' a pq =>
    rw [← Option.some.inj h]
    unfold Uri.pathAndQuery
    rw [Option.getD_some]
    obtain ⟨pq, h0 | h0 | h0⟩ := pq
    · exact ⟨'/', by rw [if_pos h0]; rfl, by decide⟩
    · refine ⟨'/', ?_, by decide⟩
      rw [if_neg (by rintro rfl; exact absurd h0 (by simp))]
      exact h0
    · refine ⟨'?', ?_, by decide⟩
      rw [if_neg (by rintro rfl; exact absurd h0 (by simp))]
      exact h0
  | _ => exact nomatch h

/-- The handshake of an upgrade inside TLS goes to the host alone. -/
theorem upstreamHandshake_authority {host path key : Str} {origin cookie : Option Str}
    {r : Request} (hpath : ∃ c, path.head? = some c ∧ endsAuthority c = true)
    (h : upstreamHandshake env host path key origin cookie = some r) :
    ∃ pq, r.uri = .absolute "wss".toList (authorityOf host) pq := by
  obtain ⟨c, hhead, hc⟩ := hpath
  unfold upstreamHandshake at h
  split at h
  · rename_i u m hu hm
    rw [← Option.some.inj h]
    rw [List.append_assoc] at hu
    have hne : "wss".toList ≠ [] := by decide
    have hlower : ∀ c ∈ "wss".toList, c.isLower = true := by decide
    obtain ⟨pq, hpq⟩ := parse_authority env.http hne hlower hu
    rw [authorityOf_append hhead hc] at hpq
    exact ⟨pq, hpq⟩
  · exact nomatch h

/-! ## The two endpoints of a CONNECT target -/

/-- **The passthrough goes to the target's host and port.** -/
theorem socketEndpoint_text (t : ConnectTarget) : socketEndpoint t.text = some t.endpoint := by
  have hcolon : ':' ∉ t.port.text := fun h => (text_ten _ h).2.2.2 rfl
  have hport : fromStrRadix 10 65536 t.port.text = some t.port.value := by
    rw [fromStrRadix_text t.port_ne (fun p _ => toDigit_ten p.1 p.2)
      fun c hc => (text_ten c hc).2.2.1, if_pos t.port_lt]
  unfold socketEndpoint ConnectTarget.text
  rw [rsplitOnce_append hcolon, Option.bind_some, hport]
  rfl

theorem hostPort_suffix (a : Str) : Uri.hostPort a <:+ a := by
  unfold Uri.hostPort
  cases h : rsplitOnce '@' a with
  | none => exact List.suffix_refl a
  | some p =>
    obtain ⟨hs, -⟩ := rsplitOnce_eq h
    refine ⟨p.1 ++ ['@'], ?_⟩
    rw [Option.map_some, Option.getD_some, List.append_assoc]
    exact hs.symm

theorem hostPort_self {a : Str} (ha : '@' ∉ a) : Uri.hostPort a = a := by
  unfold Uri.hostPort
  rw [rsplitOnce_none ha]
  rfl

/-- The host is what an authority starts with, behind the user information. -/
theorem authorityHost_starts (a : Str) : Uri.authorityHost a <+: Uri.hostPort a := by
  unfold Uri.authorityHost
  split
  · cases h : splitOnce ']' (Uri.hostPort a) with
    | none => exact List.prefix_refl _
    | some p =>
      obtain ⟨hs, -⟩ := splitOnce_eq h
      refine ⟨p.2, ?_⟩
      rw [hs]
      simp
  · exact List.takeWhile_prefix _

theorem mem_authorityHost {a : Str} {c : Char} (hc : c ∈ Uri.authorityHost a) : c ∈ a :=
  (hostPort_suffix a).mem ((authorityHost_starts a).mem hc)

/-- A host that is one in itself, and names no port. -/
theorem authorityHost_self {h : Str} (hh : IsHost h) (hcolon : ':' ∉ h) :
    Uri.authorityHost h = h ∧ Uri.authorityPort h = none := by
  have hself : Uri.authorityHost h = h := by
    rcases hh with hname | ⟨a, rfl, ha⟩
    · have hat : '@' ∉ h := fun hm => hname _ hm (by decide)
      have hhead : h.head? ≠ some '[' := by
        intro hm
        exact hname _ (List.mem_of_mem_head? hm) (by decide)
      unfold Uri.authorityHost
      rw [hostPort_self hat, if_neg hhead, splitFirst_self hcolon]
    · have hat : '@' ∉ '[' :: (a ++ [']']) := by
        simp only [List.mem_cons, List.mem_append, List.not_mem_nil, or_false, not_or]
        exact ⟨by decide, fun hm => ha _ hm (by decide), by decide⟩
      have hbracket : ']' ∉ '[' :: a := by
        rw [List.mem_cons, not_or]
        exact ⟨by decide, fun hm => ha _ hm (by decide)⟩
      have hsplit := splitOnce_append hbracket []
      unfold Uri.authorityHost
      rw [hostPort_self hat, if_pos (by rfl)]
      rw [List.cons_append] at hsplit
      rw [hsplit]
      rfl
  refine ⟨hself, ?_⟩
  unfold Uri.authorityPort
  rw [hself]
  have hlen : (Uri.hostPort h).drop h.length = [] := by
    rw [List.drop_eq_nil_iff]
    exact (hostPort_suffix h).length_le
  rw [hlen]
  rfl

namespace ConnectTarget

variable (t : ConnectTarget)

/-- What is left of the target for the URI: nothing behind the first colon. -/
theorem targetHost_eq : targetHost t.text = splitFirst ':' t.host := by
  unfold targetHost text splitFirst
  rw [List.takeWhile_append]
  split
  · rename_i hlen
    rw [List.takeWhile_cons_of_neg (by decide), List.append_nil]
    exact (List.takeWhile_prefix _).eq_of_length hlen |>.symm
  · rfl

theorem host_plain : ∀ c ∈ t.host, endsAuthority c = false := by
  intro c hc
  by_contra hne
  have hends : c = '/' ∨ c = '?' ∨ c = '#' := by
    have h : endsAuthority c = true := by simpa using hne
    simpa only [endsAuthority, Bool.or_eq_true, decide_eq_true_eq, or_assoc] using h
  rcases t.host_ok with hname | ⟨a, ha, hchars⟩
  · rcases hends with rfl | rfl | rfl <;> exact hname _ hc (by decide)
  · rw [ha] at hc
    simp only [List.mem_cons, List.mem_append, List.not_mem_nil, or_false] at hc
    rcases hends with rfl | rfl | rfl <;> rcases hc with hc | hc | hc <;>
      first | exact absurd hc (by decide) | exact hchars _ hc (by decide)

theorem targetHost_plain : authorityOf (targetHost t.text) = targetHost t.text := by
  unfold authorityOf
  rw [List.takeWhile_eq_self_iff]
  intro c hc
  rw [targetHost_eq] at hc
  rw [t.host_plain c ((List.takeWhile_prefix _).mem hc)]
  rfl

/-- **A URI built from the host of the target leads to the target's endpoint** exactly when its
port is 443 and its host has no colon. -/
theorem uriEndpoint_iff {scheme : Str} (hs : schemePort scheme = some 443) (pq : PathAndQuery) :
    uriEndpoint (.absolute scheme (targetHost t.text) pq) = some t.endpoint ↔
      t.port.value = 443 ∧ ':' ∉ t.host := by
  simp only [uriEndpoint, hs, t.targetHost_eq, Option.map_some, Option.some.injEq]
  by_cases hcolon : ':' ∈ t.host
  · -- the URI's host is cut off at the colon
    have hne : Uri.authorityHost (splitFirst ':' t.host) ≠ t.host := by
      intro he
      rw [← he] at hcolon
      have hmem := mem_authorityHost hcolon
      exact absurd (List.mem_takeWhile_imp hmem) (by simp)
    constructor
    · intro he
      exact absurd (congrArg Prod.fst he) hne
    · rintro ⟨-, hno⟩
      exact absurd hcolon hno
  · obtain ⟨hhost, hport⟩ := authorityHost_self t.host_ok hcolon
    rw [splitFirst_self hcolon, hhost, hport, Option.getD_none]
    constructor
    · intro he
      exact ⟨(congrArg Prod.snd he).symm, hcolon⟩
    · rintro ⟨hp, -⟩
      exact Prod.ext rfl hp.symm

end ConnectTarget

/-! ## The contacts of `handle_https` -/

/-- What one contact of `handle_https` is told about. -/
def LeadsTo (t : ConnectTarget) (e : Event) : Prop :=
  (e.isPassthrough = true → e.endpoint = some t.endpoint) ∧
    (e.isInside = true → (e.endpoint = some t.endpoint ↔ t.port.value = 443 ∧ ':' ∉ t.host))

theorem leadsTo_other {t : ConnectTarget} {e : Event} (he : e.isContact = false) : LeadsTo t e := by
  have hcontact : e.isPassthrough = false ∧ e.isInside = false := by
    cases e <;> first | exact ⟨rfl, rfl⟩ | exact absurd he.symm Bool.false_ne_true
  unfold LeadsTo
  rw [hcontact.1, hcontact.2]
  exact ⟨fun h => absurd h Bool.false_ne_true, fun h => absurd h Bool.false_ne_true⟩

theorem handleHttps_leadsTo {users : List (UserHandler ω)}
    (hkeep : ∀ u ∈ users, u.Respects fun _ q => q.uri.IsOrigin)
    {ws : Option (WebSocketHandler ω)} {client : Source} {addr : SocketAddr} (t : ConnectTarget)
    (hreqs : ∀ cert w reqs, (env.tlsAccept cert client w).1 = .ok reqs →
      ∀ r ∈ reqs, r.uri.IsOrigin) :
    Ensures (fun _ => false) 0
      (handleHttps env (proxyHandler env.enabled users) ws client t.text addr)
      (fun _ => True) (LeadsTo t) := by
  have htransfer : ∀ e : Event, e.isTransfer = true → LeadsTo t e := by
    intro e he
    apply leadsTo_other
    cases e <;> first | rfl | exact absurd he Bool.false_ne_true
  have hresponse : ∀ ctx res, Ensures Event.isContact 0
      ((proxyHandler env.enabled users).handleResponse ctx res) (fun _ => True) (LeadsTo t) :=
    ensures_handleResponse env.enabled users fun _ _ _ => leadsTo_other rfl
  -- the rewritten URI has the target's host for its authority
  have hauthority : ∀ {req q : Request}, req.uri.IsOrigin →
      absoluteRequest env "https".toList (targetHost t.text) req = some q →
      ∃ pq, q.uri = .absolute "https".toList (targetHost t.text) pq := by
    intro req q horigin hq
    rcases absoluteRequest_authority (by decide) (by decide) hq with ⟨s, hs, -⟩ | ⟨-, pq, hpq⟩
    · cases hu : req.uri with
      | origin pq => rw [hu] at hs; exact nomatch hs
      | _ => rw [hu] at horigin; exact horigin.elim
    · refine ⟨pq, ?_⟩
      rw [hpq]
      cases hu : req.uri with
      | origin p =>
        have hhead : (Uri.displayPath p).head? = some '/' := by
          unfold Uri.displayPath
          split
          · assumption
          · rfl
        rw [show (Uri.origin p).display = Uri.displayPath p from rfl,
          authorityOf_append hhead (by decide), t.targetHost_plain]
      | _ => rw [hu] at horigin; exact horigin.elim
  apply ensures_handleHttps htransfer
  · refine (proxyHandler_intercept env.enabled users _).mono (Nat.le_refl 0) (fun _ h => h) ?_
    intro e he
    apply leadsTo_other
    cases e <;> first | rfl | exact absurd he Bool.false_ne_true
  · exact ⟨fun _ => socketEndpoint_text t, fun h => absurd h Bool.false_ne_true⟩
  · exact fun _ => leadsTo_other rfl
  · exact leadsTo_other rfl
  · intro cert w reqs hr req hmem
    have horigin := hreqs cert w reqs hr req hmem
    apply ensures_serveRequest
      (fun r => ∀ q, r.1 = .ok (.request q) → q.uri.IsOrigin)
    · intro id
      rw [proxyHandler_request]
      refine (stack_respects users 0 _ req hkeep horigin).mono (Nat.le_refl 0) (fun _ h => h) ?_
      rintro _ ⟨_, _, _, _, rfl, -⟩
      exact leadsTo_other rfl
    · rintro ⟨r, ctx⟩ hgood
      by_cases hd : decision r = .forward
      · rcases r with e | q | res
        · exact Decision.noConfusion hd
        · have hq := hgood q rfl
          refine ensures_answerHttps htransfer hresponse ?_ ?_
          · intro _ q' u path origin cookie key r habs hscheme hpath hr
            obtain ⟨pq, hpq⟩ := upstreamHandshake_authority (hpath ▸ withScheme_path hscheme) hr
            refine ⟨fun h => absurd h Bool.false_ne_true, fun _ => ?_⟩
            show uriEndpoint r.uri = _ ↔ _
            rw [hpq, t.targetHost_plain]
            exact t.uriEndpoint_iff (by decide) pq
          · intro _ q' habs
            obtain ⟨pq, hpq⟩ := hauthority hq habs
            refine ⟨fun h => absurd h Bool.false_ne_true, fun _ => ?_⟩
            show uriEndpoint q'.uri = _ ↔ _
            rw [hpq]
            exact t.uriEndpoint_iff (by decide) pq
        · exact Decision.noConfusion hd
      · exact (ensures_answerHttps_refused htransfer hd).mono (Nat.zero_le 1) (fun _ h => h)
          (fun _ h => h)

/-- **A tunnel that is intercepted leads where the passthrough would lead exactly when the port is
443 and the host has no colon**: the port of the target is dropped with all that follows the first
colon, and HTTPS has 443 for its own. -/
theorem handleHttps_endpoint_iff (env : Env ω) (users : List (UserHandler ω))
    (hkeep : ∀ u ∈ users, u.Respects fun _ q => q.uri.IsOrigin)
    (ws : Option (WebSocketHandler ω)) (client : Source) (addr : SocketAddr) (t : ConnectTarget)
    (hreqs : ∀ cert w reqs, (env.tlsAccept cert client w).1 = .ok reqs →
      ∀ r ∈ reqs, r.uri.IsOrigin) (x y : World ω) :
    ∀ e ∈ (handleHttps env (proxyHandler env.enabled users) ws client t.text addr x).events,
    ∀ e' ∈ (handleHttps env (proxyHandler env.enabled users) ws client t.text addr y).events,
      e.isInside = true → e'.isPassthrough = true →
      (e.endpoint = e'.endpoint ↔ t.port.value = 443 ∧ ':' ∉ t.host) := by
  intro e he e' he' hinside hpass
  have h : Ensures (fun _ => false) 0
      (handleHttps env (proxyHandler env.enabled users) ws client t.text addr)
      (fun _ => True) (LeadsTo t) := handleHttps_leadsTo hkeep t hreqs
  rw [((h y).2.1 e' he').1 hpass]
  exact ((h x).2.1 e he).2 hinside

/-- `example.com` on the given port. -/
def exampleTarget (port : Digits 10) (hne : port ≠ []) (hlt : port.value < 65536) :
    ConnectTarget where
  host := "example.com".toList
  port := port
  host_ok := Or.inl (by decide)
  port_ne := hne
  port_lt := hlt

def altTarget : ConnectTarget :=
  exampleTarget [(8, false), (4, false), (4, false), (3, false)] (by decide) (by decide)

def httpsTarget : ConnectTarget :=
  exampleTarget [(4, false), (4, false), (3, false)] (by decide) (by decide)

/-- `GET /`, as a client sends it inside TLS. -/
def exampleInside : Request :=
  ⟨.get, .origin .slash, [], .full []⟩

/-- A client with one request, and a proxy whose flag is the state. -/
def insideEnv : Env Bool := Env.basic id ⟨[], none⟩ badGateway [exampleInside]

/-- What the proxy does for a target, with its flag set or not. -/
def exampleRun (t : ConnectTarget) (enabled : Bool) : List Event :=
  (handleHttps insideEnv (proxyHandler insideEnv.enabled []) none ⟨[], none⟩ t.text
    ⟨"127.0.0.1", 0⟩ ⟨enabled, 0⟩).events

/-- The endpoints of some of the contacts. -/
def endpoints (p : Event → Bool) (es : List Event) : List (Option Endpoint) :=
  (es.filter p).map Event.endpoint

theorem mem_endpoints {p : Event → Bool} {es : List Event} {o : Option Endpoint}
    (h : endpoints p es = [o]) : ∃ e ∈ es, p e = true ∧ e.endpoint = o := by
  obtain ⟨e, he, heo⟩ := List.mem_map.1 (h.symm ▸ List.mem_singleton_self o)
  rw [List.mem_filter] at he
  exact ⟨e, he.1, he.2, heo⟩

theorem insideEnv_origin : ∀ cert w reqs, (insideEnv.tlsAccept cert ⟨[], none⟩ w).1 = .ok reqs →
    ∀ r ∈ reqs, r.uri.IsOrigin := by
  intro cert w reqs h r hr
  have hreqs : [exampleInside] = reqs := Except.ok.inj h
  rw [← hreqs, List.mem_singleton] at hr
  rw [hr]
  trivial

/-- Intercepted, `example.com:8443` leads to port 443. -/
theorem handleHttps_other_port :
    ¬ ∀ (env : Env Bool) (users : List (UserHandler Bool)),
      (∀ u ∈ users, u.Respects fun _ q => q.uri.IsOrigin) →
      ∀ (ws : Option (WebSocketHandler Bool)) (client : Source) (addr : SocketAddr)
        (t : ConnectTarget),
      (∀ cert w reqs, (env.tlsAccept cert client w).1 = .ok reqs → ∀ r ∈ reqs, r.uri.IsOrigin) →
      ∀ x y : World Bool,
      ∀ e ∈ (handleHttps env (proxyHandler env.enabled users) ws client t.text addr x).events,
      ∀ e' ∈ (handleHttps env (proxyHandler env.enabled users) ws client t.text addr y).events,
        e.isInside = true → e'.isPassthrough = true → e.endpoint = e'.endpoint := by
  intro hall
  have hin : endpoints Event.isInside (exampleRun altTarget true) =
      [some ("example.com".toList, 443)] := by decide +kernel
  have hpass : endpoints Event.isPassthrough (exampleRun altTarget false) =
      [some ("example.com".toList, 8443)] := by decide +kernel
  obtain ⟨e, he, hein, hee⟩ := mem_endpoints hin
  obtain ⟨e', he', hepass, hee'⟩ := mem_endpoints hpass
  have h := hall insideEnv [] (by simp) none ⟨[], none⟩ ⟨"127.0.0.1", 0⟩ altTarget
    insideEnv_origin ⟨true, 0⟩ ⟨false, 0⟩ e he e' he' hein hepass
  rw [hee, hee'] at h
  exact absurd h (by decide)

theorem handleHttps_endpoint_https :
    ∃ e ∈ exampleRun httpsTarget true, ∃ e' ∈ exampleRun httpsTarget false,
      e.isInside = true ∧ e'.isPassthrough = true ∧ e.endpoint = e'.endpoint := by
  have hin : endpoints Event.isInside (exampleRun httpsTarget true) =
      [some ("example.com".toList, 443)] := by decide +kernel
  have hpass : endpoints Event.isPassthrough (exampleRun httpsTarget false) =
      [some ("example.com".toList, 443)] := by decide +kernel
  obtain ⟨e, he, hein, -⟩ := mem_endpoints hin
  obtain ⟨e', he', hepass, -⟩ := mem_endpoints hpass
  exact ⟨e, he, e', he', hein, hepass, (handleHttps_endpoint_iff insideEnv [] (by simp) none
    ⟨[], none⟩ ⟨"127.0.0.1", 0⟩ httpsTarget insideEnv_origin ⟨true, 0⟩ ⟨false, 0⟩ e he e' he'
    hein hepass).2 ⟨by decide, by decide⟩⟩

end HexbufferProxy
