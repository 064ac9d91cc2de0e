import HexbufferProxy.Proof.Endpoint
import HexbufferProxy.Spec.Host

/-!
# Do handlers see the host that is contacted?

* `sameHost_self`: for a request with a path, exactly when the Host value is a host.
* `sameHost_appended`: for a target that is put behind the host, by the form of both.
* `sameHost_absoluteRequest`: for the pooled client, in all four forms of a target.
* `handleHttp_tellsHost`, `serveRequest_tellsHost`: so on the plain path and inside TLS.
-/

namespace HexbufferProxy

open Rust Rust.Proc

variable {ω : Type} {env : Env ω}

/-! ## Host values -/

theorem no_at_hostPort (a : Str) : '@' ∉ Uri.hostPort a := by
  unfold Uri.hostPort
  cases h : rsplitOnce '@' a with
  | none => exact not_mem_of_rsplitOnce h
  | some p => exact (rsplitOnce_eq h).2

theorem authorityOf_plain {host : Str} (h : ∀ c ∈ host, endsAuthority c = false) :
    authorityOf host = host := by
  unfold authorityOf
  rw [List.takeWhile_eq_self_iff]
  intro c hc
  rw [h c hc]
  rfl

theorem delimiter_iff {c : Char} : c ∈ "/?#@".toList ↔ endsAuthority c = true ∨ c = '@' := by
  have e : "/?#@".toList = ['/', '?', '#', '@'] := by decide
  rw [e]
  simp only [List.mem_cons, List.not_mem_nil, or_false, endsAuthority, Bool.or_eq_true,
    decide_eq_true_eq, or_assoc]

/-- The host of an authority has no character of another part of a URI. -/
theorem authorityHost_plain {text : Str} {c : Char}
    (hc : c ∈ Uri.authorityHost (authorityOf text)) : c ∉ "/?#@".toList := by
  rw [delimiter_iff]
  rintro (hends | rfl)
  · have := List.mem_takeWhile_imp (mem_authorityHost hc)
    rw [hends] at this
    exact absurd this (by decide)
  · exact no_at_hostPort _ ((authorityHost_starts _).mem hc)

/-- A host that handlers see has no character of another part of a URI, if it is the one that a text
names. -/
theorem sameHost_plain {host text : Str}
    (h : SameHost host (Uri.authorityHost (authorityOf text))) : ∀ c ∈ host, c ∉ "/?#@".toList := by
  intro c hc
  rcases h with h | ⟨p, h, hp⟩
  · rw [h] at hc
    exact authorityHost_plain hc
  · rw [h] at hc
    rcases List.mem_append.1 hc with hc | hc
    · exact authorityHost_plain hc
    rcases List.mem_cons.1 hc with rfl | hc
    · decide
    · intro hm
      have key : ∀ c ∈ "/?#@".toList, ¬ (c.isDigit = true ∨ c = '+') := by decide
      exact key c hm (hp c hc)

/-- **What a path is put behind is read as the host it stands for exactly when it is one.** -/
theorem sameHost_self (host : Str) :
    SameHost host (Uri.authorityHost (authorityOf host)) ↔ IsHostValue host := by
  constructor
  · intro h
    have hchars := sameHost_plain h
    -- so the host is cut nowhere
    have hself : authorityOf host = host := by
      apply authorityOf_plain
      intro c hc
      have := hchars c hc
      rw [delimiter_iff, not_or] at this
      simpa using this.1
    rw [hself] at h
    refine ⟨hchars, ?_⟩
    rcases h with h | ⟨p, h, hp⟩
    · left
      rw [← h, List.drop_length]
    · right
      refine ⟨p, ?_, hp⟩
      have hdrop : (Uri.authorityHost host ++ ':' :: p).drop (Uri.authorityHost host).length =
          ':' :: p := List.drop_left
      rwa [← h] at hdrop
  · rintro ⟨hchars, hrest⟩
    have hself : authorityOf host = host := by
      apply authorityOf_plain
      intro c hc
      have := hchars c hc
      rw [delimiter_iff, not_or] at this
      simpa using this.1
    have hport : Uri.hostPort host = host :=
      hostPort_self fun h => hchars _ h (by decide)
    obtain ⟨r, hr⟩ := authorityHost_starts host
    rw [hport] at hr
    have hdrop : host.drop (Uri.authorityHost host).length = r := by
      have : (Uri.authorityHost host ++ r).drop (Uri.authorityHost host).length = r :=
        List.drop_left
      rwa [hr] at this
    rw [hself]
    rw [hdrop] at hrest
    rcases hrest with rfl | ⟨p, rfl, hp⟩
    · left
      rw [List.append_nil] at hr
      exact hr.symm
    · right
      exact ⟨p, hr.symm, hp⟩

theorem sameHost_longer {host h : Str} (hlen : host.length < h.length) : ¬ SameHost host h := by
  rintro (rfl | ⟨p, rfl, -⟩)
  · exact Nat.lt_irrefl _ hlen
  · rw [List.length_append] at hlen
    omega

/-- Behind user information, a text is read as if it stood alone. -/
theorem authorityHost_user {t : Str} (ht : '@' ∈ t) (host : Str) :
    Uri.authorityHost (host ++ t) = Uri.authorityHost t := by
  have hsame : Uri.hostPort (host ++ t) = Uri.hostPort t := by
    cases h : rsplitOnce '@' t with
    | none => exact absurd ht (not_mem_of_rsplitOnce h)
    | some p =>
      obtain ⟨heq, hlast⟩ := rsplitOnce_eq h
      unfold Uri.hostPort
      rw [h, heq, ← List.append_assoc, rsplitOnce_append hlast]
      rfl
  unfold Uri.authorityHost
  rw [hsame]

/-- A host that ends itself is read alone. -/
theorem authorityHost_ends {host t : Str} (hhost : '@' ∉ host) (ht : '@' ∉ t) (h : EndsItself host) :
    Uri.authorityHost (host ++ t) = Uri.authorityHost host := by
  have hboth : '@' ∉ host ++ t := fun hm => (List.mem_append.1 hm).elim hhost ht
  unfold EndsItself at h
  unfold Uri.authorityHost
  rw [hostPort_self hboth, hostPort_self hhost]
  split at h
  · next hb =>
    obtain ⟨p, r, rfl, hp⟩ := List.eq_append_cons_of_mem h
    have hhead : (p ++ ']' :: r ++ t).head? = some '[' := by
      rw [List.head?_append, hb]
      rfl
    rw [if_pos hhead, if_pos hb, List.append_assoc, List.cons_append, splitOnce_append hp,
      splitOnce_append hp]
  · next hb =>
    obtain ⟨p, r, rfl, hp⟩ := List.eq_append_cons_of_mem h
    have hhead : (p ++ ':' :: r ++ t).head? ≠ some '[' := by
      rw [List.append_assoc]
      cases p with
      | nil => exact fun hx => by cases hx
      | cons c p => exact hb
    rw [if_neg hhead, if_neg hb, List.append_assoc, List.cons_append, splitFirst_append hp,
      splitFirst_append hp]

/-- A port may come behind a host. -/
theorem authorityHost_port {host t : Str} (hhost : '@' ∉ host) (ht : '@' ∉ t)
    (hb : host.head? ≠ some '[') (hport : t.head? = some ':') :
    Uri.authorityHost (host ++ t) = Uri.authorityHost host := by
  have hboth : '@' ∉ host ++ t := fun hm => (List.mem_append.1 hm).elim hhost ht
  by_cases hcolon : ':' ∈ host
  · refine authorityHost_ends hhost ht ?_
    unfold EndsItself
    rw [if_neg hb]
    exact hcolon
  · cases t with
    | nil => cases hport
    | cons c t =>
      obtain rfl := Option.some.inj hport
      have hhead : (host ++ ':' :: t).head? ≠ some '[' := by
        cases host with
        | nil => exact fun hx => by cases hx
        | cons c host => exact hb
      unfold Uri.authorityHost
      rw [hostPort_self hboth, hostPort_self hhost, if_neg hhead, if_neg hb,
        splitFirst_append hcolon, splitFirst_self hcolon]

/-- Any other is read together with what comes behind it. -/
theorem authorityHost_longer {host t : Str} (hhost : '@' ∉ host) (ht : '@' ∉ t) (hne : t ≠ [])
    (h : ¬ EndsItself host) (hport : ¬ (host.head? ≠ some '[' ∧ t.head? = some ':')) :
    host.length < (Uri.authorityHost (host ++ t)).length := by
  have hboth : '@' ∉ host ++ t := fun hm => (List.mem_append.1 hm).elim hhost ht
  have hpos : 0 < t.length := List.length_pos_iff.2 hne
  unfold EndsItself at h
  unfold Uri.authorityHost
  rw [hostPort_self hboth]
  by_cases hx : (host ++ t).head? = some '['
  · rw [if_pos hx]
    cases hs : splitOnce ']' (host ++ t) with
    | none =>
      rw [List.length_append]
      omega
    | some p =>
      -- the bracket is not in the host, which all comes before it
      obtain ⟨heq, -⟩ := splitOnce_eq hs
      rw [List.length_append, List.length_singleton]
      by_contra hlt
      have hle : p.1.length < host.length := by omega
      have hmem : ']' ∈ host := by
        have hget : (host ++ t)[p.1.length]? = (p.1 ++ ']' :: p.2)[p.1.length]? := by rw [heq]
        rw [List.getElem?_append_left hle, List.getElem?_append_right le_rfl, Nat.sub_self] at hget
        exact List.mem_of_getElem? hget
      split at h
      · exact h hmem
      · next hb =>
        cases host with
        | nil => exact List.not_mem_nil hmem
        | cons c host => exact hb hx
  · rw [if_neg hx]
    have hb : host.head? ≠ some '[' := by
      intro hb
      rw [List.head?_append, hb] at hx
      exact hx rfl
    rw [if_neg hb] at h
    have hcolon : t.head? ≠ some ':' := fun hc => hport ⟨hb, hc⟩
    have hsplit : splitFirst ':' (host ++ t) = host ++ splitFirst ':' t := by
      unfold splitFirst
      apply List.takeWhile_append_of_pos
      intro c hc
      rw [decide_eq_true_eq]
      rintro rfl
      exact h hc
    rw [hsplit, List.length_append]
    cases t with
    | nil => exact absurd rfl hne
    | cons c t =>
      have hc : c ≠ ':' := fun hc => hcolon (by rw [hc]; rfl)
      unfold splitFirst
      rw [List.takeWhile_cons, if_pos (decide_eq_true hc), List.length_cons]
      omega

/-- **What a text is put behind is read as the host it stands for** when the text leaves it alone. -/
theorem sameHost_appended (host rest : Str) :
    SameHost host (Uri.authorityHost (authorityOf (host ++ rest))) ↔
      AppendedAgrees host (authorityOf rest) := by
  unfold AppendedAgrees
  by_cases hplain : ∀ c ∈ host, c ∉ "/?#@".toList
  · have hends : ∀ c ∈ host, endsAuthority c = false := by
      intro c hc
      have hno := hplain c hc
      rw [delimiter_iff, not_or] at hno
      exact Bool.eq_false_of_not_eq_true hno.1
    have hself : authorityOf host = host := authorityOf_plain hends
    have hat : '@' ∉ host := fun h => hplain _ h (by decide)
    have hfront : authorityOf (host ++ rest) = host ++ authorityOf rest := by
      unfold authorityOf
      apply List.takeWhile_append_of_pos
      intro c hc
      rw [hends c hc]
      rfl
    have halone := sameHost_self host
    rw [hself] at halone
    rw [hfront]
    split
    · next hat' => rw [authorityHost_user hat']
    · next hat' =>
      by_cases hnil : authorityOf rest = []
      · rw [hnil, List.append_nil, halone]
        exact (and_iff_left (.inl rfl)).symm
      by_cases hown : EndsItself host
      · rw [authorityHost_ends hat hat' hown, halone]
        exact (and_iff_left (.inr (.inl hown))).symm
      by_cases hport : host.head? ≠ some '[' ∧ (authorityOf rest).head? = some ':'
      · rw [authorityHost_port hat hat' hport.1 hport.2, halone]
        exact (and_iff_left (.inr (.inr hport))).symm
      · refine iff_of_false (sameHost_longer (authorityHost_longer hat hat' hnil hown hport)) ?_
        rintro ⟨-, h | h | h⟩
        · exact hnil h
        · exact hown h
        · exact hport h
  · refine iff_of_false (fun h => hplain (sameHost_plain h)) ?_
    split
    · exact fun h => hplain (sameHost_plain h)
    · exact fun h => hplain h.1.1

/-! ## The host of a contact -/

theorem contactHost_uri {e : Event} {h s a : Str} {pq : PathAndQuery} {u : Uri}
    (he : e.endpoint = uriEndpoint u) (hu : u = .absolute s a pq)
    (hh : e.contactHost = some h) : h = Uri.authorityHost a := by
  unfold Event.contactHost at hh
  rw [he, hu] at hh
  obtain ⟨p, hp, rfl⟩ := Option.map_eq_some_iff.1 hh
  obtain ⟨q, -, rfl⟩ := Option.map_eq_some_iff.1 hp
  rfl

theorem toDigit_ten_isDigit {c : Char} {v : ℕ} (h : toDigit 10 c = some v) : c.isDigit = true := by
  have hle : ∀ {d e : Char}, d ≤ e → d.toNat ≤ e.toNat := fun h => UInt32.le_iff_toNat_le.1 h
  unfold toDigit at h
  simp only at h
  by_cases h1 : '0' ≤ c ∧ c ≤ '9'
  · exact Char.isDigit_iff_toNat.2 ⟨hle h1.1, hle h1.2⟩
  rw [if_neg h1] at h
  -- letters have values from ten on
  by_cases h2 : 'a' ≤ c ∧ c ≤ 'z'
  · have ha := hle h2.1
    rw [show 'a'.toNat = 97 from rfl] at ha
    rw [if_pos h2, if_neg (by omega)] at h
    exact nomatch h
  rw [if_neg h2] at h
  by_cases h3 : 'A' ≤ c ∧ c ≤ 'Z'
  · have hA := hle h3.1
    rw [show 'A'.toNat = 65 from rfl] at hA
    rw [if_pos h3, if_neg (by omega)] at h
    exact nomatch h
  · rw [if_neg h3, if_neg (by decide)] at h
    exact nomatch h

theorem digits_ten_isDigit {s : Str} {acc n : ℕ} (h : digits 10 acc s = some n) :
    ∀ c ∈ s, c.isDigit = true := by
  induction s generalizing acc with
  | nil => intro c hc; exact absurd hc List.not_mem_nil
  | cons x s ih =>
    obtain ⟨v, hv, hrest⟩ := Option.bind_eq_some_iff.1 h
    intro c hc
    rcases List.mem_cons.1 hc with rfl | hc
    · exact toDigit_ten_isDigit hv
    · exact ih hrest c hc

/-- What parses as a port is a port text. -/
theorem isPortText_of_parse {s : Str} {bound n : ℕ} (h : fromStrRadix 10 bound s = some n) :
    IsPortText s := by
  have key : ∀ t, (if t = [] then none
      else (digits 10 0 t).bind fun n => if n < bound then some n else none) = some n →
      ∀ c ∈ t, c.isDigit = true := by
    intro t ht
    split at ht
    · exact nomatch ht
    · obtain ⟨v, hv, -⟩ := Option.bind_eq_some_iff.1 ht
      exact digits_ten_isDigit hv
  unfold fromStrRadix at h
  simp only at h
  intro c hc
  by_cases hplus : s.head? = some '+'
  · rw [if_pos hplus] at h
    cases s with
    | nil => exact absurd hc List.not_mem_nil
    | cons x t =>
      rw [List.head?_cons, Option.some.injEq] at hplus
      rcases List.mem_cons.1 hc with rfl | hc
      · exact Or.inr hplus
      · exact Or.inl (key t h c hc)
  · rw [if_neg hplus] at h
    exact Or.inl (key s h c hc)

/-- The upgrade branch connects to the host that handlers see. -/
theorem sameHost_upgradeTarget {host h : Str}
    (hh : (Event.connect (upgradeTarget host)).contactHost = some h) : SameHost host h := by
  obtain ⟨p, hp, rfl⟩ := Option.map_eq_some_iff.1 hh
  obtain ⟨⟨a, b⟩, hsplit, hport⟩ := Option.bind_eq_some_iff.1 hp
  obtain ⟨port, hparse, rfl⟩ := Option.map_eq_some_iff.1 hport
  obtain ⟨heq, -⟩ := rsplitOnce_eq hsplit
  unfold upgradeTarget at heq hsplit
  by_cases hcolon : ':' ∈ host
  · rw [if_pos hcolon] at heq
    exact Or.inr ⟨b, heq, isPortText_of_parse hparse⟩
  · -- the default port has been put behind the host
    rw [if_neg hcolon] at hsplit
    have hdefault : rsplitOnce ':' (host ++ ":80".toList) = some (host, "80".toList) :=
      rsplitOnce_append (by decide) host
    rw [hdefault, Option.some.injEq, Prod.mk.injEq] at hsplit
    exact Or.inl hsplit.1

/-- **The pooled client's URI** names the host that handlers see exactly when the target leaves it
alone. -/
theorem sameHost_absoluteRequest {scheme host h : Str} {req q : Request} (hne : scheme ≠ [])
    (hlower : ∀ c ∈ scheme, c.isLower = true)
    (hq : absoluteRequest env scheme host req = some q)
    (hh : (Event.sendRequest q).contactHost = some h) :
    SameHost host h ↔ TargetAgrees host req.uri := by
  rcases absoluteRequest_authority hne hlower hq with ⟨s, hs, rfl⟩ | ⟨hs, pq, hpq⟩
  · cases hu : q.uri with
    | absolute s' a pq =>
      rw [contactHost_uri rfl hu hh]
      rfl
    | _ => rw [hu] at hs; exact nomatch hs
  · rw [contactHost_uri rfl hpq hh]
    cases hu : req.uri with
    | absolute s' a pq' => rw [hu] at hs; exact nomatch hs
    | authority a => exact sameHost_appended host a
    | asterisk =>
      refine (sameHost_appended host ['*']).trans ?_
      unfold AppendedAgrees
      rw [show authorityOf ['*'] = ['*'] by decide, if_neg (by decide)]
      refine and_congr_right fun _ => ⟨fun h => ?_, fun h => .inr (.inl h)⟩
      rcases h with h | h | ⟨-, h⟩
      · cases h
      · exact h
      · exact absurd h (by decide)
    | origin p =>
      have hhead : (Uri.displayPath p).head? = some '/' := by
        unfold Uri.displayPath
        split
        · assumption
        · rfl
      rw [show (Uri.origin p).display = Uri.displayPath p from rfl,
        authorityOf_append hhead (by decide)]
      exact sameHost_self host

/-! ## On the two paths -/

/-- What one event says of the request `req` to the host `host`. -/
def Tells (host : Str) (req : Request) (agrees : Prop) (e : Event) : Prop :=
  (∀ i ctx q d, e = .request i ctx q d → q = req ∧ ctx.host = host) ∧
    ∀ h, e.contactHost = some h → (SameHost host h ↔ agrees)

theorem tells_other {host : Str} {req : Request} {agrees : Prop} {e : Event}
    (hc : e.isContact = false) (hr : e.isRequestCall = false) : Tells host req agrees e := by
  refine ⟨?_, ?_⟩
  · rintro i ctx q d rfl
    exact absurd hr.symm Bool.false_ne_true
  · intro h hh
    cases e <;> first | exact absurd hc.symm Bool.false_ne_true | exact nomatch hh

theorem tells_transfer {host : Str} {req : Request} {agrees : Prop} (e : Event)
    (he : e.isTransfer = true) : Tells host req agrees e := by
  have hother : e.isContact = false ∧ e.isRequestCall = false := by
    cases e <;> first | exact ⟨rfl, rfl⟩ | exact absurd he Bool.false_ne_true
  exact tells_other hother.1 hother.2

section

variable {users : List (UserHandler ω)} {host : Str} {req : Request} {agrees : Prop}

theorem tells_response (ctx : HttpContext) (res : Response) :
    Ensures Event.isContact 0 ((proxyHandler env.enabled users).handleResponse ctx res)
      (fun _ => True) (Tells host req agrees) :=
  ensures_handleResponse env.enabled users (fun _ _ _ => tells_other rfl rfl) ctx res

/-- Handlers that leave request and host alone all see both. -/
theorem tells_request (hun : ∀ u ∈ users, u.Unchanging) {ctx : HttpContext}
    (hctx : ctx.host = host) :
    Ensures Event.isContact 0 ((proxyHandler env.enabled users).handleRequest ctx req)
      (fun r => ∀ q, r.1 = .ok (.request q) → q = req) (Tells host req agrees) := by
  have hrespects : ∀ u ∈ users, u.Respects fun c q => q = req ∧ c.host = host := by
    intro u hu ctx₀ q₀ w q ctx' w' hinv hcall
    obtain ⟨hq, hhost⟩ := hun u hu ctx₀ q₀ w q ctx' w' hcall
    exact ⟨hq.trans hinv.1, hhost.trans hinv.2⟩
  rw [proxyHandler_request]
  refine (stack_respects users 0 ctx req hrespects ⟨rfl, hctx⟩).mono (Nat.le_refl 0) ?_ ?_
  · intro r hr q hq
    exact (hr q hq).1
  · rintro _ ⟨j, ctx', q, d, rfl, hq, hhost⟩
    refine ⟨?_, fun h hh => nomatch hh⟩
    intro i ctx₀ q₀ d₀ he
    simp only [Event.request.injEq] at he
    rw [← he.2.1, ← he.2.2.1]
    exact ⟨hq, hhost⟩

end

theorem tellsHost_of_tells {es : List Event} {host : Str} {req : Request}
    {agrees : Str → Request → Prop} (h : ∀ e ∈ es, Tells host req (agrees host req) e) :
    TellsHost agrees es := by
  intro e he h' hh i ctx q d hmem
  obtain ⟨hq, hhost⟩ := (h _ hmem).1 i ctx q d rfl
  rw [hq, hhost]
  exact (h e he).2 h' hh

theorem handleHttp_tellsHost (users : List (UserHandler ω)) (hun : ∀ u ∈ users, u.Unchanging)
    (ws : Option (WebSocketHandler ω)) (client : Source) (addr : SocketAddr) (n : ℕ)
    (bytes : Bytes) (x : World ω) :
    TellsHost (PlainAgrees env)
      (handleHttp env (proxyHandler env.enabled users) ws client addr n bytes x).events := by
  have hkey : ∀ request host, parseRawRequest env.http bytes = .ok request →
      extractHost request bytes = some host → Ensures Event.isContact 1
        (handleHttp env (proxyHandler env.enabled users) ws client addr n bytes) (fun _ => True)
        (Tells host request (PlainAgrees env host request)) := by
    intro request host hparse hhost
    apply ensures_handleHttp tells_transfer
      (fun request' host' r => request' = request ∧ host' = host ∧
        ∀ q, r.1 = .ok (.request q) → q = request)
    · intro request' host' id hparse' hhost'
      have hreq : request' = request := Except.ok.inj (hparse'.symm.trans hparse)
      subst hreq
      have hh : host' = host := Option.some.inj (hhost'.symm.trans hhost)
      subst hh
      refine (tells_request hun rfl).mono (Nat.le_refl 0) ?_ (fun _ h => h)
      exact fun r hr => ⟨rfl, rfl, hr⟩
    · rintro request' host' r ctx - - ⟨rfl, rfl, hr⟩
      rcases r with q | res
      · have hq := hr q rfl
        subst hq
        refine ensures_answerHttp tells_transfer tells_response ?_ ?_ ?_
        · intro hws
          refine ⟨fun _ _ _ _ he => (nomatch he), ?_⟩
          intro h hh
          exact iff_of_true (sameHost_upgradeTarget hh) (Or.inl hws)
        · intro _ w ctx'
          exact tells_other rfl rfl
        · intro hws q' hq'
          refine ⟨fun _ _ _ _ he => (nomatch he), ?_⟩
          intro h hh
          rw [sameHost_absoluteRequest (by decide) (by decide) hq' hh]
          unfold PlainAgrees
          rw [hws]
          simp
      · exact (ensures_answerHttp_response tells_transfer _ _ _ _ _ _ _ _).mono (Nat.zero_le 1)
          (fun _ h => h) (fun _ h => h)
  -- with both, every call is about this request and this host
  by_cases hgood : ∃ request host, parseRawRequest env.http bytes = .ok request ∧
      extractHost request bytes = some host
  · obtain ⟨request, host, hparse, hhost⟩ := hgood
    exact tellsHost_of_tells (hkey request host hparse hhost x).2.1
  · -- without a request and a host no handler is called
    have hnone : Ensures Event.isContact 1
        (handleHttp env (proxyHandler env.enabled users) ws client addr n bytes) (fun _ => True)
        (fun e => e.isRequestCall = false) := by
      apply ensures_handleHttp _ (fun _ _ _ => False)
      · intro request host id hparse hhost
        exact absurd ⟨request, host, hparse, hhost⟩ hgood
      · intro _ _ _ _ _ _ h
        exact h.elim
      · intro e he
        cases e <;> first | rfl | exact absurd he Bool.false_ne_true
    intro e _ h _ i ctx req d hmem
    exact absurd ((hnone x).2.1 _ hmem) Bool.noConfusion

theorem serveRequest_tellsHost (users : List (UserHandler ω)) (hun : ∀ u ∈ users, u.Unchanging)
    (ws : Option (WebSocketHandler ω)) (host : Str) (addr : SocketAddr) (req : Request)
    (x : World ω) :
    TellsHost (InsideAgrees env)
      (serveRequest env (proxyHandler env.enabled users) ws host addr req x).events := by
  have hkey : Ensures Event.isContact 1
      (serveRequest env (proxyHandler env.enabled users) ws host addr req) (fun _ => True)
      (Tells host req (InsideAgrees env host req)) := by
    apply ensures_serveRequest (fun r => ∀ q, r.1 = .ok (.request q) → q = req)
    · intro id
      exact tells_request hun rfl
    · rintro ⟨r, ctx⟩ hr
      by_cases hd : decision r = .forward
      · rcases r with e | q | res
        · exact Decision.noConfusion hd
        · have hq := hr q rfl
          subst hq
          refine ensures_answerHttps tells_transfer tells_response ?_ ?_
          · intro hup q' u path origin cookie key r _ hscheme hpath hhand
            obtain ⟨pq, hpq⟩ :=
              upstreamHandshake_authority (hpath ▸ withScheme_path hscheme) hhand
            refine ⟨fun _ _ _ _ he => (nomatch he), ?_⟩
            intro h hh
            rw [contactHost_uri rfl hpq hh, sameHost_self]
            unfold InsideAgrees
            rw [if_pos hup]
          · intro hup q' hq'
            refine ⟨fun _ _ _ _ he => (nomatch he), ?_⟩
            intro h hh
            rw [sameHost_absoluteRequest (by decide) (by decide) hq' hh]
            unfold InsideAgrees
            rw [if_neg (by rw [hup]; exact Bool.false_ne_true)]
        · exact Decision.noConfusion hd
      · exact (ensures_answerHttps_refused tells_transfer hd).mono (Nat.zero_le 1) (fun _ h => h)
          (fun _ h => h)
  exact tellsHost_of_tells (hkey x).2.1

/-- **Handlers are told the host that is contacted exactly when the target of the request leaves
it alone**: an absolute target that names another host goes past them. -/
theorem request_tellsHost_iff (env : Env ω) (users : List (UserHandler ω))
    (hun : ∀ u ∈ users, u.Unchanging) (ws : Option (WebSocketHandler ω)) (addr : SocketAddr)
    (x : World ω) :
    (∀ client n bytes, TellsHost (PlainAgrees env)
      (handleHttp env (proxyHandler env.enabled users) ws client addr n bytes x).events) ∧
    ∀ target req, TellsHost (InsideAgrees env)
      (serveRequest env (proxyHandler env.enabled users) ws (targetHost target) addr req
        x).events :=
  ⟨fun client n bytes => handleHttp_tellsHost users hun ws client addr n bytes x,
    fun target req => serveRequest_tellsHost users hun ws (targetHost target) addr req x⟩

/-- A handler that forwards everything as it is. -/
def forwarder : UserHandler Unit where
  handleRequest ctx req w := ((.ok (.request req), ctx), w)
  handleResponse ctx res w := ((.ok res, ctx), w)
  shouldInterceptTls _ w := (true, w)

theorem forwarder_unchanging : ∀ u ∈ [forwarder], u.Unchanging := by
  intro u hu ctx req w q ctx' w' h
  rw [List.mem_singleton] at hu
  subst hu
  simp only [forwarder, Prod.mk.injEq, Except.ok.injEq, RequestOrResponse.request.injEq] at h
  exact ⟨h.1.1.symm, by rw [h.1.2]⟩

def hostEnv : Env Unit := Env.basic (fun _ => true) ⟨[], none⟩ badGateway []

/-- What the proxy does for a request on the plain path. -/
def plainRun (bytes : Bytes) : List Event :=
  (handleHttp hostEnv (proxyHandler hostEnv.enabled [forwarder]) none ⟨[], none⟩ ⟨"127.0.0.1", 0⟩
    4096 bytes ⟨(), 0⟩).events

/-- The host that a handler is told. -/
def Event.toldHost : Event → Option Str
  | request _ ctx _ _ => some ctx.host
  | _ => none

/-- An absolute target with a Host field of another host. -/
def evilRequest : Bytes := lit "GET http://evil.example/ HTTP/1.1\r\nHost: good.example\r\n\r\n"

/-- The handlers see `good.example`, and the proxy contacts `evil.example`. -/
theorem request_tellsHost_absolute :
    ¬ ∀ (env : Env Unit) (users : List (UserHandler Unit)), (∀ u ∈ users, u.Unchanging) →
      ∀ (ws : Option (WebSocketHandler Unit)) (addr : SocketAddr) (x : World Unit),
      (∀ client n bytes, TellsHost (fun _ _ => True)
        (handleHttp env (proxyHandler env.enabled users) ws client addr n bytes x).events) ∧
      ∀ target req, TellsHost (fun _ _ => True)
        (serveRequest env (proxyHandler env.enabled users) ws (targetHost target) addr req
          x).events := by
  intro hall
  have hrun := (hall hostEnv [forwarder] forwarder_unchanging none ⟨"127.0.0.1", 0⟩ ⟨(), 0⟩).1
    ⟨[], none⟩ 4096 evilRequest
  have hcontact : (plainRun evilRequest).filterMap Event.contactHost = ["evil.example".toList] := by
    decide +kernel
  have htold : (plainRun evilRequest).filterMap Event.toldHost = ["good.example".toList] := by
    decide +kernel
  obtain ⟨e, he, hhost⟩ := List.mem_filterMap.1 (hcontact.symm ▸ List.mem_singleton_self _)
  obtain ⟨r, hr, htell⟩ := List.mem_filterMap.1 (htold.symm ▸ List.mem_singleton_self _)
  cases r with
  | request i ctx req d =>
    have hsame := (hrun e he _ hhost i ctx req d hr).2 trivial
    rw [show ctx.host = "good.example".toList from Option.some.inj htell] at hsame
    rcases hsame with h | ⟨p, h, -⟩
    · exact absurd h (by decide)
    · exact absurd (congrArg List.head? h) (by simp)
  | _ => exact nomatch htell

theorem request_tellsHost_origin :
    TellsHost (PlainAgrees hostEnv)
      (plainRun (lit "GET / HTTP/1.1\r\nHost: good.example:8080\r\n\r\n")) :=
  (request_tellsHost_iff hostEnv [forwarder] forwarder_unchanging none ⟨"127.0.0.1", 0⟩
    ⟨(), 0⟩).1 ⟨[], none⟩ 4096 _

end HexbufferProxy
