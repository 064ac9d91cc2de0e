import HexbufferProxy.Model.Passthrough
import HexbufferProxy.Proof.Accept
import HexbufferProxy.Proof.Guard
import HexbufferProxy.Proof.Stack
import HexbufferProxy.Proof.Toggle
import HexbufferProxy.Rust.Runs
import HexbufferProxy.Spec.Consent

/-!
# A proxy does what its handlers have agreed to

* `InterceptCalls.answers`: a stack of handlers agrees when all of them do; the one that does not is
  heard.
* `openTunnel_opening`: so a tunnel is taken, or handed on.
* `tunnels_granted`: every tunnel of a run goes back to a CONNECT that was agreed to.
* `run_letInto`, `run_mayContact`: what a run looks into, and what it contacts.
* `run_refused`: a handler that refuses a host keeps the proxy out of its tunnels in every run.
-/

namespace HexbufferProxy

open Rust Rust.Proc

variable {ω : Type} {env : Env ω} {users : List (UserHandler ω)}
  {ws : Option (WebSocketHandler ω)} {n : ℕ}

/-! ## What the handlers say -/

/-- The answers of the handlers from number `i` on, and what the stack makes of them. -/
structure Answers (users : List (UserHandler ω)) (i : ℕ) (host : Str) (es : List Event)
    (answer : Bool) : Prop where
  agreed : answer = true → ∀ j < users.length, Event.intercept (i + j) host true ∈ es
  refused : answer = false → ∃ j < users.length, Event.intercept (i + j) host false ∈ es
  given : ∀ e ∈ es, ∃ j u w, users[j]? = some u ∧
    e = .intercept (i + j) host (u.shouldInterceptTls host w).1

theorem answers_nil (i : ℕ) (host : Str) : Answers ([] : List (UserHandler ω)) i host [] true where
  agreed _ j hj := absurd hj (Nat.not_lt_zero j)
  refused h := Bool.noConfusion h
  given _ he := absurd he List.not_mem_nil

/-- The first handler agrees: it is up to the others. -/
theorem Answers.next {u : UserHandler ω} {us : List (UserHandler ω)} {i : ℕ} {host : Str} {w : ω}
    (hu : (u.shouldInterceptTls host w).1 = true) {es : List Event} {answer : Bool}
    (h : Answers us (i + 1) host es answer) :
    Answers (u :: us) i host (.intercept i host true :: es) answer where
  agreed hyes j hj := by
    cases j with
    | zero => exact List.mem_cons_self
    | succ j =>
      have hmem := h.agreed hyes j (Nat.lt_of_succ_lt_succ hj)
      rw [Nat.add_right_comm] at hmem
      exact List.mem_cons_of_mem _ hmem
  refused hno := by
    obtain ⟨j, hj, hmem⟩ := h.refused hno
    refine ⟨j + 1, Nat.succ_lt_succ hj, List.mem_cons_of_mem _ ?_⟩
    rwa [Nat.add_right_comm] at hmem
  given e he := by
    rcases List.mem_cons.1 he with rfl | he
    · exact ⟨0, u, w, rfl, by rw [hu]; rfl⟩
    · obtain ⟨j, v, w', hv, rfl⟩ := h.given e he
      exact ⟨j + 1, v, w', hv, by rw [Nat.add_right_comm]; rfl⟩

/-- The first handler does not agree, and no other is asked. -/
theorem answers_refused {u : UserHandler ω} {us : List (UserHandler ω)} {i : ℕ} {host : Str} {w : ω}
    (hu : (u.shouldInterceptTls host w).1 = false) :
    Answers (u :: us) i host [.intercept i host false] false where
  agreed h := Bool.noConfusion h
  refused _ := ⟨0, Nat.zero_lt_succ _, List.mem_singleton_self _⟩
  given e he := ⟨0, u, w, rfl, by rw [List.mem_singleton.1 he, hu]; rfl⟩

theorem InterceptCalls.answers {i : ℕ} {host : Str} {es : List Event} {answer : Bool}
    (h : InterceptCalls users i host es answer) : Answers users i host es answer := by
  induction h with
  | done i host => exact answers_nil i host
  | next u us i host w es answer hu _ ih => exact ih.next hu
  | refuse u us i host w hu => exact answers_refused hu

/-- The proxy agrees when the flag is true and all handlers agree. -/
theorem proxyHandler_agrees (flag : Bool) (users : List (UserHandler ω)) (host : Str) :
    Traces ((proxyHandler (env.flagged flag).enabled users).shouldInterceptTls host) fun es r =>
      ∃ answer, r = .ok answer ∧ (flag = false → answer = false ∧ es = []) ∧
        (flag = true → Answers users 0 host es answer) := by
  refine Traces.mono (@proxyHandler_intercepts ω (env.flagged flag) users host) fun es r h => ?_
  rcases h with ⟨hr, ⟨w, hon⟩, hcalls⟩ | ⟨hr, ⟨⟨w, hoff⟩, hes⟩ | ⟨⟨w, hon⟩, hcalls⟩⟩
  · obtain rfl : flag = true := hon
    exact ⟨true, hr, fun h => Bool.noConfusion h, fun _ => hcalls.answers⟩
  · obtain rfl : flag = false := hoff
    exact ⟨false, hr, fun _ => ⟨rfl, hes⟩, fun h => Bool.noConfusion h⟩
  · obtain rfl : flag = true := hon
    exact ⟨false, hr, fun h => Bool.noConfusion h, fun _ => hcalls.answers⟩

/-! ## Tunnels -/

/-- What becomes of a CONNECT: the 200, the answers of the handlers, and then what they allow. -/
inductive Opening (users : List (UserHandler ω)) (flag : Bool) (client : Source) (target : Str) :
    List Event → Except Fault (Option (List Request)) → Prop
  | cut (e : Fault) : Opening users flag client target [.toClient established] (.error e)
  | handedOn (answers rest : List Event) (r : Except Fault (Option (List Request)))
      (hrefused : (flag = false ∧ answers = []) ∨
        flag = true ∧ Answers users 0 (targetHost target) answers false)
      (hrest : rest = [.connect target] ∨
        ∃ server, rest = [.connect target, .tunnel target client server])
      (hr : ∀ o, r = .ok o → o = none) :
      Opening users flag client target (.toClient established :: (answers ++ rest)) r
  | taken (answers rest : List Event) (r : Except Fault (Option (List Request)))
      (hflag : flag = true) (hagreed : Answers users 0 (targetHost target) answers true)
      (hrest : rest = [] ∨ rest = [.tlsAccept (targetHost target) client]) :
      Opening users flag client target (.toClient established :: (answers ++ rest)) r

/-- **A tunnel is taken if the flag is true and every handler agrees**, and handed on otherwise. -/
theorem openTunnel_opening (env : Env ω) (users : List (UserHandler ω)) (flag : Bool)
    (client : Source) (target : Str) :
    Traces (openTunnel (env.flagged flag) (proxyHandler (env.flagged flag).enabled users) client
      target) (Opening users flag client target) := by
  unfold openTunnel
  dsimp only
  refine traces_bind (traces_writeClient established) ?_ ?_
  · rintro es e rfl
    exact .cut e
  rintro es - rfl
  refine traces_bind (proxyHandler_agrees flag users (targetHost target)) ?_ ?_
  · rintro es e ⟨answer, h, -⟩
    cases h
  rintro answers answer ⟨b, hb, hoff, hon⟩
  obtain rfl : answer = b := Except.ok.inj hb
  cases answer with
  | false =>
    rw [if_pos (by rfl)]
    have hrefused : (flag = false ∧ answers = []) ∨
        flag = true ∧ Answers users 0 (targetHost target) answers false := by
      cases flag with
      | false => exact .inl ⟨rfl, (hoff rfl).2⟩
      | true => exact .inr ⟨rfl, hon rfl⟩
    refine traces_bind (traces_connectServer target) ?_ ?_
    · rintro es e ⟨rfl, -⟩
      refine .handedOn answers _ _ hrefused (.inl rfl) fun o h => ?_
      cases h
    · rintro es - ⟨rfl, -⟩
      intro x
      exact .handedOn answers _ _ hrefused (.inr ⟨_, rfl⟩) fun o h => (Except.ok.inj h).symm
  | true =>
    rw [if_neg (by simp only [Bool.not_true, Bool.false_eq_true, not_false_eq_true])]
    have hflag : flag = true := by
      by_contra h
      exact Bool.noConfusion (hoff (Bool.eq_false_of_not_eq_true h)).1
    have htaken : ∀ rest r, rest = [] ∨ rest = [.tlsAccept (targetHost target) client] →
        Opening users flag client target ([.toClient established] ++ (answers ++ rest)) r :=
      fun rest r => .taken answers rest r hflag (hon hflag)
    refine traces_bind (T := fun es _ => es = []) (traces_call fun _ => rfl) ?_ ?_
    · rintro es e rfl
      exact htaken [] _ (.inl rfl)
    rintro es cert rfl
    refine traces_bind (T := fun es _ => es = []) (traces_lift rfl) ?_ ?_
    · rintro es e rfl
      exact htaken [] _ (.inl rfl)
    rintro es pair rfl
    refine traces_bind (T := fun es _ => es = [.tlsAccept (targetHost target) client])
      (traces_emit rfl) ?_ ?_
    · rintro es e rfl
      exact htaken _ _ (.inr rfl)
    rintro es - rfl
    refine traces_bind (T := fun es _ => es = []) (traces_call fun _ => rfl) ?_ ?_
    · rintro es e rfl
      exact htaken _ _ (.inr rfl)
    rintro es reqs rfl
    refine traces_bind (T := fun es _ => es = []) (traces_lift rfl) ?_ ?_
    · rintro es e rfl
      exact htaken _ _ (.inr rfl)
    rintro es reqs rfl
    exact traces_pure (htaken _ _ (.inr rfl))

/-- The answers are the only calls of a handler when a tunnel is opened. -/
theorem Answers.shape {i : ℕ} {host : Str} {es : List Event} {answer : Bool}
    (h : Answers users i host es answer) {e : Event} (he : e ∈ es) :
    e.isContact = false ∧ ∃ j b, e = .intercept j host b := by
  obtain ⟨j, u, w, -, rfl⟩ := h.given e he
  exact ⟨rfl, _, _, rfl⟩

theorem Answers.willing {i : ℕ} {host : Str} {es : List Event} (h : Answers users i host es true) :
    ∀ u ∈ users, ∃ w, (u.shouldInterceptTls host w).1 = true := by
  intro u hu
  obtain ⟨j, hj, hju⟩ := List.mem_iff_getElem.1 hu
  obtain ⟨k, v, w, hv, heq⟩ := h.given _ (h.agreed rfl j hj)
  simp only [Event.intercept.injEq, true_and] at heq
  obtain ⟨hjk, hanswer⟩ := heq
  obtain rfl : j = k := Nat.add_left_cancel hjk
  rw [List.getElem?_eq_getElem hj, hju] at hv
  obtain rfl := Option.some.inj hv
  exact ⟨w, hanswer.symm⟩

/-! ## Single actions -/

/-- Inside TLS the first handler is told of the tunnel's host and client. -/
theorem serveRequest_calls {host : Str} {addr : SocketAddr} {req : Request} {x : World ω}
    {c : HttpContext} {q : Request} {d : Decision}
    (h : Event.request 0 c q d ∈
      (serveRequest env (proxyHandler env.enabled users) ws host addr req x).events) :
    c.host = host ∧ c.clientAddr = addr ∧ c.isHttps = true := by
  have htransfer : ∀ e : Event, e.isTransfer = true → ∀ c q d, e = .request 0 c q d →
      c.host = host ∧ c.clientAddr = addr ∧ c.isHttps = true := by
    intro e he
    apply notRequest (P := fun c _ _ => c.host = host ∧ c.clientAddr = addr ∧ c.isHttps = true)
    cases e <;> first | rfl | exact absurd he Bool.false_ne_true
  have hother : ∀ e : Event, e.isRequestCall = false → ∀ c q d, e = .request 0 c q d →
      c.host = host ∧ c.clientAddr = addr ∧ c.isHttps = true :=
    fun e => notRequest (P := fun c _ _ => c.host = host ∧ c.clientAddr = addr ∧ c.isHttps = true)
  have hens : Ensures Event.isContact 1
      (serveRequest env (proxyHandler env.enabled users) ws host addr req) (fun _ => True)
      (fun e => ∀ c q d, e = .request 0 c q d →
        c.host = host ∧ c.clientAddr = addr ∧ c.isHttps = true) := by
    apply ensures_serveRequest (fun _ => True)
    · intro id
      rw [proxyHandler_request]
      refine (stack_asks users _ req).mono (Nat.le_refl 0) (fun _ _ => trivial) ?_
      intro e he c q d hreq
      rw [(he c q d hreq).1]
      exact ⟨rfl, rfl, rfl⟩
    · rintro ⟨r, ctx⟩ -
      by_cases hd : decision r = .forward
      · rcases r with e | q | res
        · exact Decision.noConfusion hd
        · refine ensures_answerHttps htransfer ?_ ?_ ?_
          · exact ensures_handleResponse env.enabled users fun _ _ _ => hother _ rfl
          · intro _ _ _ _ _ _ _ _ _ _ _ _
            exact hother _ rfl
          · intro _ _ _
            exact hother _ rfl
        · exact Decision.noConfusion hd
      · exact (ensures_answerHttps_refused htransfer hd).mono (Nat.zero_le 1) (fun _ h => h)
          (fun _ h => h)
  exact (hens x).2.1 _ h c q d rfl

namespace Server

/-- A run is one of a machine with an output. -/
theorem run_eq (as : List Action) (s : Server ω) :
    s.run env users ws n as = runOf (fun s a => s.step env users ws n a) s as := by
  induction as generalizing s with
  | nil => rfl
  | cons a as ih =>
    rw [runOf_cons, ← ih]
    rfl

theorem run_concat (s : Server ω) (as : List Action) (a : Action) :
    (s.run env users ws n (as ++ [a])).1 =
      ((s.run env users ws n as).1.step env users ws n a).1 := by
  rw [run_eq, run_eq, runOf_concat]

/-- The action opens a tunnel, with the consent of all. -/
def Opens (env : Env ω) (users : List (UserHandler ω)) (ws : Option (WebSocketHandler ω)) (n : ℕ)
    (s : Server ω) (a : Action) (host : Str) (addr : SocketAddr) : Prop :=
  ∃ client target answers rest, a = .connect client target addr ∧ targetHost target = host ∧
    s.enabled = true ∧ Answers users 0 host answers true ∧
    (s.step env users ws n a).2 = .toClient established :: (answers ++ rest)

/-- A CONNECT, by what becomes of it; the tunnel is added if the proxy has taken it. -/
theorem step_opening (s : Server ω) (client : Source) (target : Str) (addr : SocketAddr) :
    ∃ r, Opening users s.enabled client target
        (s.step env users ws n (.connect client target addr)).2 r ∧
      ∀ t ∈ (s.step env users ws n (.connect client target addr)).1.tunnels, t ∈ s.tunnels ∨
        (∃ reqs, r = .ok (some reqs)) ∧ t = ⟨targetHost target, addr, true⟩ := by
  refine ⟨_, openTunnel_opening env users s.enabled client target s.world, fun t ht => ?_⟩
  unfold step handler at ht
  dsimp only at ht
  rcases List.mem_append.1 ht with ht | ht
  · exact .inl ht
  split at ht
  · next reqs hresult => exact .inr ⟨⟨reqs, hresult⟩, List.mem_singleton.1 ht⟩
  · exact absurd ht List.not_mem_nil

/-- A tunnel that an action leaves was there before, or the action has opened it. -/
theorem step_tunnels (s : Server ω) (a : Action) :
    ∀ t ∈ (s.step env users ws n a).1.tunnels,
      (∃ t' ∈ s.tunnels, t'.host = t.host ∧ t'.clientAddr = t.clientAddr) ∨
        Opens env users ws n s a t.host t.clientAddr := by
  have hclosed : ∀ i, ∀ t ∈ s.closed i,
      ∃ t' ∈ s.tunnels, t'.host = t.host ∧ t'.clientAddr = t.clientAddr := by
    intro i t ht
    unfold closed at ht
    obtain ⟨j, hj⟩ := List.mem_iff_getElem?.1 ht
    rw [List.getElem?_modify] at hj
    obtain ⟨t', ht', htt⟩ := Option.map_eq_some_iff.1 hj
    refine ⟨t', List.mem_of_getElem? ht', ?_⟩
    by_cases hij : i = j
    · rw [if_pos hij] at htt
      rw [← htt]
      exact ⟨rfl, rfl⟩
    · rw [if_neg hij] at htt
      rw [← htt]
      exact ⟨rfl, rfl⟩
  intro t ht
  cases a with
  | setEnabled b => exact .inl ⟨t, ht, rfl, rfl⟩
  | close i => exact .inl (hclosed i t ht)
  | plain client addr raw => exact .inl ⟨t, ht, rfl, rfl⟩
  | request i req =>
    rcases s.tunnel_cases i with hdead | ⟨host, addr, hi⟩
    · rw [step_dead hdead] at ht
      exact .inl ⟨t, ht, rfl, rfl⟩
    · rw [step_live hi req rfl] at ht
      dsimp only at ht
      split at ht
      · exact .inl ⟨t, ht, rfl, rfl⟩
      · exact .inl (hclosed i t ht)
  | connect client target addr =>
    obtain ⟨r, hopening, htunnels⟩ := s.step_opening client target addr
    rcases htunnels t ht with ht | ⟨⟨reqs, rfl⟩, rfl⟩
    · exact .inl ⟨t, ht, rfl, rfl⟩
    generalize hes : (s.step env users ws n (.connect client target addr)).2 = es at hopening
    cases hopening with
    | handedOn answers rest r hrefused hrest hr =>
      exact absurd (hr _ rfl) (Option.some_ne_none reqs)
    | taken answers rest r hflag hagreed hrest =>
      exact .inr ⟨client, target, answers, rest, rfl, rfl, hflag, hagreed, hes⟩

/-- Some action of the run has opened such a tunnel. -/
def Granted (env : Env ω) (users : List (UserHandler ω)) (ws : Option (WebSocketHandler ω)) (n : ℕ)
    (s : Server ω) (as : List Action) (host : Str) (addr : SocketAddr) : Prop :=
  ∃ before a after, as = before ++ a :: after ∧
    Opens env users ws n (s.run env users ws n before).1 a host addr

/-- **Every tunnel of a run has been granted.** The induction is on the last action: it leaves a
tunnel as it was, or has opened it. -/
theorem tunnels_granted {s : Server ω} (hs : s.tunnels = []) (as : List Action) :
    ∀ t ∈ (s.run env users ws n as).1.tunnels, Granted env users ws n s as t.host t.clientAddr := by
  induction as using List.reverseRecOn with
  | nil =>
    intro t ht
    have hnil : t ∈ s.tunnels := ht
    rw [hs] at hnil
    exact absurd hnil List.not_mem_nil
  | append_singleton as a ih =>
    intro t ht
    rw [run_concat] at ht
    rcases step_tunnels _ a t ht with ⟨t', ht', hhost, haddr⟩ | hopens
    · obtain ⟨before, b, after, heq, hopens⟩ := ih t' ht'
      rw [hhost, haddr] at hopens
      exact ⟨before, b, after ++ [a], by rw [heq, List.append_assoc, List.cons_append], hopens⟩
    · exact ⟨as, a, [], rfl, hopens⟩

/-- **What an action decrypts**: the request that it serves on one of the tunnels. -/
theorem step_decrypts {s : Server ω} {a : Action} {ctx : HttpContext} {q : Request} {d : Decision}
    (h : Event.request 0 ctx q d ∈ (s.step env users ws n a).2) (htls : ctx.isHttps = true) :
    ∃ t ∈ s.tunnels, t.host = ctx.host ∧ t.clientAddr = ctx.clientAddr := by
  cases a with
  | setEnabled b => exact absurd h List.not_mem_nil
  | close i => exact absurd h List.not_mem_nil
  | connect client target addr =>
    have hquiet : Event.isRequestCall (.request 0 ctx q d) = false :=
      @openTunnel_quiet ω (env.flagged s.enabled) users client target s.world _ h
    exact Bool.noConfusion hquiet
  | plain client addr raw =>
    have hplain : Event.request 0 ctx q d ∈ (handleHttp (env.flagged s.enabled)
        (proxyHandler (env.flagged s.enabled).enabled users) ws client addr n raw s.world).events := h
    rw [(handleHttp_calls hplain).2] at htls
    exact Bool.noConfusion htls
  | request i req =>
    rcases s.tunnel_cases i with hdead | ⟨host, addr, hi⟩
    · rw [step_dead hdead] at h
      exact absurd h List.not_mem_nil
    · rw [step_live hi req rfl] at h
      have hinside : Event.request 0 ctx q d ∈ (serveRequest (env.flagged s.enabled)
          (proxyHandler (env.flagged s.enabled).enabled users) ws host addr req s.world).events := h
      obtain ⟨hhost, haddr, -⟩ := serveRequest_calls hinside
      exact ⟨⟨host, addr, true⟩, List.mem_of_getElem? hi, hhost.symm, haddr.symm⟩

/-- **What an action accepts in another's name**: the tunnel that it opens itself. -/
theorem step_accepts {s : Server ω} {a : Action} {host : Str} {client : Source} {p q : List Event}
    (h : (s.step env users ws n a).2 = p ++ .tlsAccept host client :: q) :
    ∃ target addr answers, a = .connect client target addr ∧ targetHost target = host ∧
      s.enabled = true ∧ Answers users 0 host answers true ∧
      p = .toClient established :: answers := by
  have hmem : Event.tlsAccept host client ∈ (s.step env users ws n a).2 := by
    rw [h]
    exact List.mem_append_right _ List.mem_cons_self
  -- of what else there is, nothing hands a stream to the acceptor
  have hother : ∀ e : Event, e.handsOver = false → e ≠ .tlsAccept host client := by
    rintro e he rfl
    exact Bool.noConfusion he
  cases a with
  | setEnabled b => exact absurd hmem List.not_mem_nil
  | close i => exact absurd hmem List.not_mem_nil
  | plain client' addr raw =>
    have hens : Ensures Event.isContact 1 (handleHttp (env.flagged s.enabled)
        (proxyHandler (env.flagged s.enabled).enabled users) ws client' addr n raw) (fun _ => True)
        (fun e => e ≠ .tlsAccept host client) := by
      apply handleHttp_events hother
      intro w ctx heq
      cases heq
    exact absurd rfl ((hens s.world).2.1 _ hmem)
  | request i req =>
    rcases s.tunnel_cases i with hdead | ⟨host', addr, hi⟩
    · rw [step_dead hdead] at hmem
      exact absurd hmem List.not_mem_nil
    · rw [step_live hi req rfl] at hmem
      have hens : Ensures Event.isContact 1 (serveRequest (env.flagged s.enabled)
          (proxyHandler (env.flagged s.enabled).enabled users) ws host' addr req) (fun _ => True)
          (fun e => e ≠ .tlsAccept host client) := by
        apply serveRequest_events
        rintro e he rfl
        exact Bool.noConfusion he
      exact absurd rfl ((hens s.world).2.1 _ hmem)
  | connect client' target addr =>
    obtain ⟨r, hopening, -⟩ := s.step_opening client' target addr
    rw [h] at hopening
    have hnot : ∀ {answers b}, Answers users 0 (targetHost target) answers b →
        Event.tlsAccept host client ∉ .toClient established :: answers := by
      intro answers b hanswers hin
      rcases List.mem_cons.1 hin with hin | hin
      · cases hin
      · obtain ⟨-, j, b, heq⟩ := hanswers.shape hin
        cases heq
    generalize hall : p ++ .tlsAccept host client :: q = es at hopening
    cases hopening with
    | cut e =>
      have hin : Event.tlsAccept host client ∈ [Event.toClient established] := by
        rw [← hall]
        exact List.mem_append_right _ List.mem_cons_self
      cases List.mem_singleton.1 hin
    | handedOn answers rest r hrefused hrest hr =>
      have hfirst : Event.tlsAccept host client ∉ .toClient established :: answers := by
        rcases hrefused with ⟨-, rfl⟩ | ⟨-, hanswers⟩
        · intro hin
          cases List.mem_singleton.1 hin
        · exact hnot hanswers
      obtain ⟨p', -, hp⟩ := split_right hall.symm hfirst
      have hin : Event.tlsAccept host client ∈ rest := by
        rw [hp]
        exact List.mem_append_right _ List.mem_cons_self
      rcases hrest with rfl | ⟨server, rfl⟩
      · cases List.mem_singleton.1 hin
      · rcases List.mem_cons.1 hin with hin | hin
        · cases hin
        · cases List.mem_singleton.1 hin
    | taken answers rest r hflag hagreed hrest =>
      obtain ⟨p', rfl, hp⟩ := split_right hall.symm (hnot hagreed)
      rcases hrest with rfl | rfl
      · exact absurd hp.symm (List.append_ne_nil_of_right_ne_nil _ (List.cons_ne_nil _ _))
      · cases p' with
        | nil =>
          obtain ⟨heq, -⟩ := List.cons.inj hp
          cases heq
          exact ⟨target, addr, answers, rfl, rfl, hflag, hagreed, List.append_nil _⟩
        | cons e p' =>
          exact absurd (List.cons.inj hp).2.symm
            (List.append_ne_nil_of_right_ne_nil _ (List.cons_ne_nil _ _))

/-! ## Runs -/

/-- What a run has looked into, some action has opened with the consent of all: `since` is what has
happened from this action on. -/
theorem looks_opens {s : Server ω} (hs : s.tunnels = []) {as : List Action} {pre post : List Event}
    {e : Event} {host : Str} (h : (s.run env users ws n as).2 = pre ++ e :: post)
    (he : e.LooksInto host) :
    ∃ before client target addr answers after since,
      as = before ++ .connect client target addr :: after ∧ targetHost target = host ∧
        (s.run env users ws n before).1.enabled = true ∧ Answers users 0 host answers true ∧
        pre = (s.run env users ws n before).2 ++ since ∧
        (.toClient established :: answers) <+: since ∧
        ∀ ctx q d, e = .request 0 ctx q d → ctx.clientAddr = addr := by
  rw [run_eq] at h
  obtain ⟨before, a, after, p, q, has, hout, hpre⟩ := output_split h
  rw [← run_eq] at hout hpre
  rcases he with ⟨client, rfl⟩ | ⟨ctx, req, d, rfl, htls, rfl⟩
  · -- the handshake belongs to the CONNECT itself
    obtain ⟨target, addr, answers, rfl, hhost, hon, hanswers, rfl⟩ := step_accepts hout
    refine ⟨before, client, target, addr, answers, after, _, has, hhost, hon, hanswers, hpre,
      List.prefix_rfl, ?_⟩
    intro ctx q d heq
    cases heq
  · -- the request has come through a tunnel, which some earlier action has opened
    have hmem : Event.request 0 ctx req d ∈
        ((s.run env users ws n before).1.step env users ws n a).2 := by
      rw [hout]
      exact List.mem_append_right _ List.mem_cons_self
    obtain ⟨t, ht, hhost, haddr⟩ := step_decrypts hmem htls
    obtain ⟨earlier, b, later, rfl, client, target, answers, rest, rfl, htarget, hon, hanswers,
      hevents⟩ := tunnels_granted hs before t ht
    rw [hhost] at htarget hanswers
    rw [haddr] at has hevents hpre
    have hafter : pre = (s.run env users ws n earlier).2 ++
        (.toClient established :: (answers ++ rest) ++
          ((((s.run env users ws n earlier).1.step env users ws n
            (.connect client target ctx.clientAddr)).1.run env users ws n later).2 ++ p)) := by
      rw [hpre, run_eq, runOf_append, runOf_cons, ← run_eq, ← run_eq, ← hevents]
      simp only [List.append_assoc]
    refine ⟨earlier, client, target, ctx.clientAddr, answers, later ++ a :: after, _, ?_, htarget,
      hon, hanswers, hafter, ?_, ?_⟩
    · rw [has, List.append_assoc, List.cons_append]
    · rw [List.cons_append, List.append_assoc]
      exact List.cons_prefix_cons.2 ⟨rfl, List.prefix_append answers _⟩
    · intro ctx' q' d' heq
      cases heq
      rfl

end Server

/-- **A proxy looks into no tunnel without consent.** In every run from a start without tunnels, a
TLS handshake in the name of a host, and every request shown from inside a tunnel to it, comes after
a CONNECT for that host, by the same client, at which the flag was true, and after every handler has
agreed to the interception of that host. -/
theorem run_letInto (env : Env ω) (users : List (UserHandler ω)) (ws : Option (WebSocketHandler ω))
    (n : ℕ) (s : Server ω) (hs : s.tunnels = []) (as : List Action) (pre post : List Event)
    (e : Event) (host : Str) (h : (s.run env users ws n as).2 = pre ++ e :: post)
    (he : e.LooksInto host) :
    ∃ addr, Server.LetInto env users ws n s as pre host addr ∧
      ∀ ctx q d, e = .request 0 ctx q d → ctx.clientAddr = addr := by
  obtain ⟨before, client, target, addr, answers, after, since, has, hhost, hon, hanswers, hpre,
    hsince, haddr⟩ := Server.looks_opens hs h he
  refine ⟨addr, ⟨before, client, target, after, since, has, hhost, hon, hpre, fun i hi => ?_⟩, haddr⟩
  have hmem := hanswers.agreed rfl i hi
  rw [Nat.zero_add] at hmem
  exact hsince.subset (List.mem_cons_of_mem _ hmem)

theorem run_letInto_inside : ∃ addr, Server.LetInto toggleEnv [forwarder] none 4096 started
    [connectExample, requestInside]
    [.toClient established, .intercept 0 "a.example".toList true,
      .tlsAccept "a.example".toList ⟨[], none⟩] "a.example".toList addr ∧
      ∀ ctx q d, Event.request 0 ⟨0, "a.example".toList, ⟨"127.0.0.1", 0⟩, true⟩ exampleGet .forward =
        .request 0 ctx q d → ctx.clientAddr = addr :=
  run_letInto toggleEnv [forwarder] none 4096 started rfl [connectExample, requestInside] _ _ _ _ rfl
    (.inr ⟨_, _, _, rfl, rfl, rfl⟩)

/-- **A handler that refuses a host keeps the proxy out of its tunnels**, in every run, and wherever
it stands among the handlers. -/
theorem run_refused {u : UserHandler ω} (hu : u ∈ users) {host : Str} (hrefuses : u.Refuses host)
    {s : Server ω} (hs : s.tunnels = []) (as : List Action) :
    ∀ e ∈ (s.run env users ws n as).2, ¬ e.LooksInto host := by
  intro e he hlooks
  obtain ⟨pre, post, hsplit⟩ := List.mem_iff_append.1 he
  obtain ⟨-, -, -, -, answers, -, -, -, -, -, hanswers, -⟩ := Server.looks_opens hs hsplit hlooks
  obtain ⟨w, hw⟩ := hanswers.willing u hu
  rw [hrefuses w] at hw
  exact Bool.noConfusion hw

/-! ## Contacts -/

namespace Server

/-- **An action contacts one upstream at most**, and only what it may. -/
theorem step_contacts (s : Server ω) (a : Action) :
    (s.step env users ws n a).2.countP Event.isContact ≤ (if a.asks then 1 else 0) ∧
      ∀ p e q, (s.step env users ws n a).2 = p ++ e :: q → e.isContact = true →
        MayContact users.length s p e a := by
  have hnone : ∀ a : Action, ([] : List Event).countP Event.isContact ≤ (if a.asks then 1 else 0) ∧
      ∀ p e q, [] = p ++ e :: q → e.isContact = true → MayContact users.length s p e a := by
    refine fun a => ⟨Nat.zero_le _, fun p e q h _ => ?_⟩
    exact absurd h.symm (List.append_ne_nil_of_right_ne_nil p (List.cons_ne_nil e q))
  cases a with
  | setEnabled b => exact hnone _
  | close i => exact hnone _
  | plain client addr raw =>
    have hguarded := handleHttp_guarded (env.flagged s.enabled) users ws client addr n raw s.world
    exact ⟨hguarded.once, hguarded.forwarded⟩
  | request i req =>
    rcases s.tunnel_cases i with hdead | ⟨host, addr, hi⟩
    · rw [step_dead hdead]
      exact hnone _
    · rw [step_live hi req rfl]
      have hguarded := serveRequest_guarded (env.flagged s.enabled) users ws host addr req s.world
      exact ⟨hguarded.once, hguarded.forwarded⟩
  | connect client target addr =>
    obtain ⟨r, hopening, -⟩ := s.step_opening client target addr
    generalize (s.step env users ws n (.connect client target addr)).2 = es at hopening ⊢
    show es.countP Event.isContact ≤ 1 ∧ _
    have hquiet : (∀ x ∈ es, x.isContact = false) → es.countP Event.isContact ≤ 1 ∧
        ∀ p e q, es = p ++ e :: q → e.isContact = true →
          MayContact users.length s p e (.connect client target addr) := by
      refine fun h => ⟨?_, ?_⟩
      · rw [List.countP_eq_zero.2 fun x hx => Bool.eq_false_iff.1 (h x hx)]
        exact Nat.zero_le 1
      · rintro p e q rfl he
        have hmem := h e (List.mem_append_right _ List.mem_cons_self)
        exact Bool.noConfusion (hmem.symm.trans he)
    have hfirst : ∀ {answers b}, Answers users 0 (targetHost target) answers b →
        ∀ x ∈ Event.toClient established :: answers, x.isContact = false := by
      intro answers b hanswers x hx
      rcases List.mem_cons.1 hx with rfl | hx
      · rfl
      · exact (hanswers.shape hx).1
    cases hopening with
    | cut e => exact hquiet fun x hx => by rw [List.mem_singleton.1 hx]; rfl
    | taken answers rest r hflag hagreed hrest =>
      refine hquiet fun x hx => ?_
      rw [← List.cons_append] at hx
      rcases List.mem_append.1 hx with hx | hx
      · exact hfirst hagreed x hx
      · rcases hrest with rfl | rfl
        · exact absurd hx List.not_mem_nil
        · rw [List.mem_singleton.1 hx]
          rfl
    | handedOn answers rest r hrefused hrest hr =>
      obtain ⟨tail, rfl, htail⟩ : ∃ tail, rest = .connect target :: tail ∧
          ∀ x ∈ tail, x.isContact = false := by
        rcases hrest with rfl | ⟨server, rfl⟩
        · exact ⟨[], rfl, fun x hx => absurd hx List.not_mem_nil⟩
        · exact ⟨_, rfl, fun x hx => by rw [List.mem_singleton.1 hx]; rfl⟩
      have hquiet : ∀ x ∈ Event.toClient established :: answers, x.isContact = false := by
        rcases hrefused with ⟨-, rfl⟩ | ⟨-, hanswers⟩
        · exact fun x hx => by rw [List.mem_singleton.1 hx]; rfl
        · exact hfirst hanswers
      obtain ⟨honce, hplace⟩ := split_once (e := Event.connect target) hquiet htail
      refine ⟨honce, fun p e q h he => ?_⟩
      obtain ⟨rfl, rfl⟩ := hplace p e q h he
      refine ⟨rfl, ?_⟩
      rcases hrefused with ⟨hoff, -⟩ | ⟨-, hanswers⟩
      · exact .inl hoff
      · obtain ⟨i, hi, hmem⟩ := hanswers.refused rfl
        rw [Nat.zero_add] at hmem
        exact .inr ⟨i, hi, List.mem_cons_of_mem _ hmem⟩

end Server

/-- **No upstream is contacted behind the handlers' backs, in any run.** There are no more contacts
than CONNECTs and requests; each of them is made by an action that may make it: a tunnel that is not
intercepted reaches its own target, and a request goes out when every handler has forwarded it in
the course of the same action. -/
theorem run_mayContact (env : Env ω) (users : List (UserHandler ω))
    (ws : Option (WebSocketHandler ω)) (n : ℕ) (s : Server ω) (as : List Action) :
    (s.run env users ws n as).2.countP Event.isContact ≤ as.countP Action.asks ∧
      ∀ pre e post, (s.run env users ws n as).2 = pre ++ e :: post → e.isContact = true →
        ∃ before a after done, as = before ++ a :: after ∧
          pre = (s.run env users ws n before).2 ++ done ∧
          (done ++ [e]) <+: ((s.run env users ws n before).1.step env users ws n a).2 ∧
          Server.MayContact users.length (s.run env users ws n before).1 done e a := by
  rw [Server.run_eq]
  refine ⟨countP_runOf (fun s a => (Server.step_contacts s a).1) as s, fun pre e post h he => ?_⟩
  obtain ⟨before, a, after, done, q, has, hout, hpre⟩ := output_split h
  rw [← Server.run_eq] at hout hpre
  refine ⟨before, a, after, done, has, hpre, ?_, (Server.step_contacts _ a).2 done e q hout he⟩
  exact ⟨q, by rw [hout, List.append_assoc]; rfl⟩

/-! ## The pass-through handler -/

/-- It refuses the hosts of its list and those below them, and no others. -/
theorem passthrough_refuses_iff {passthrough : List Str} {host : Str} (w : ω) :
    ((PassthroughHandler passthrough).shouldInterceptTls host w).1 = false ↔
      ∃ p ∈ passthrough, host = p ∨ ('.' :: p) <:+ host := by
  show (!passthrough.any fun p => coversHost p host) = false ↔ _
  unfold coversHost
  simp only [Bool.not_eq_eq_eq_not, Bool.not_false, List.any_eq_true, Bool.or_eq_true,
    decide_eq_true_eq, List.isSuffixOf_iff_suffix]

/-- A CONNECT that some handler refuses is at most handed on, as it is. -/
theorem Server.step_refused {u : UserHandler ω} (hu : u ∈ users) {target : Str}
    (hrefuses : u.Refuses (targetHost target)) (s : Server ω) (client : Source) (addr : SocketAddr) :
    ∃ answers server, (∀ e ∈ answers, ∃ i b, e = Event.intercept i (targetHost target) b) ∧
      (s.step env users ws n (.connect client target addr)).2 <+:
        .toClient established :: (answers ++ [.connect target, .tunnel target client server]) := by
  obtain ⟨r, hopening, -⟩ := s.step_opening client target addr
  generalize (s.step env users ws n (.connect client target addr)).2 = es at hopening ⊢
  cases hopening with
  | cut e =>
    refine ⟨[], ⟨[], none⟩, fun e he => absurd he List.not_mem_nil, ?_⟩
    exact List.cons_prefix_cons.2 ⟨rfl, List.nil_prefix⟩
  | taken answers rest r hflag hagreed hrest =>
    obtain ⟨w, hw⟩ := hagreed.willing u hu
    rw [hrefuses w] at hw
    exact Bool.noConfusion hw
  | handedOn answers rest r hrefused hrest hr =>
    have hanswers : ∀ e ∈ answers, ∃ i b, e = Event.intercept i (targetHost target) b := by
      rcases hrefused with ⟨-, rfl⟩ | ⟨-, h⟩
      · exact fun e he => absurd he List.not_mem_nil
      · exact fun e he => (h.shape he).2
    rcases hrest with rfl | ⟨server, rfl⟩
    · refine ⟨answers, ⟨[], none⟩, hanswers, List.cons_prefix_cons.2 ⟨rfl, ?_⟩⟩
      exact (List.prefix_append_right_inj answers).2 ⟨_, rfl⟩
    · exact ⟨answers, server, hanswers, List.prefix_rfl⟩

/-- **The hosts of a pass-through list are left alone**, they and all below them, in every run of a
proxy that has the handler anywhere in its stack: none of their tunnels is looked into, and a CONNECT
to one of them is at most handed on as it is. -/
theorem passthrough_spares (env : Env ω) (users : List (UserHandler ω))
    (ws : Option (WebSocketHandler ω)) (n : ℕ) {passthrough : List Str}
    (hmem : PassthroughHandler passthrough ∈ users) {p host : Str} (hp : p ∈ passthrough)
    (hhost : host = p ∨ ('.' :: p) <:+ host) (s : Server ω) (hs : s.tunnels = [])
    (as : List Action) :
    (∀ e ∈ (s.run env users ws n as).2, ¬ e.LooksInto host) ∧
      ∀ before client target addr after, as = before ++ .connect client target addr :: after →
        targetHost target = host →
        ∃ answers server, (∀ e ∈ answers, ∃ i b, e = Event.intercept i host b) ∧
          ((s.run env users ws n before).1.step env users ws n (.connect client target addr)).2 <+:
            .toClient established :: (answers ++ [.connect target, .tunnel target client server]) := by
  have hrefuses : (PassthroughHandler passthrough : UserHandler ω).Refuses host :=
    fun w => (passthrough_refuses_iff w).2 ⟨p, hp, hhost⟩
  refine ⟨run_refused hmem hrefuses hs as, ?_⟩
  rintro before client target addr - - rfl
  exact Server.step_refused hmem hrefuses _ client addr

/-- The list of the example, and a host below one of its entries. -/
def trackers : List Str := ["doubleclick.net".toList, "google-analytics.com".toList]

/-- A CONNECT to that host. -/
def connectTracker : Action := .connect ⟨[], none⟩ "ad.doubleclick.net:443".toList ⟨"127.0.0.1", 0⟩

theorem passthrough_spares_subdomain :
    let users := [forwarder, PassthroughHandler trackers]
    (∀ e ∈ (started.run toggleEnv users none 4096 [connectExample, connectTracker]).2,
      ¬ e.LooksInto "ad.doubleclick.net".toList) ∧
    ∃ answers server, (∀ e ∈ answers, ∃ i b, e = Event.intercept i "ad.doubleclick.net".toList b) ∧
      ((started.run toggleEnv users none 4096 [connectExample]).1.step toggleEnv users none 4096
        connectTracker).2 <+: .toClient established :: (answers ++
          [.connect "ad.doubleclick.net:443".toList,
            .tunnel "ad.doubleclick.net:443".toList ⟨[], none⟩ server]) := by
  obtain ⟨hspared, hconnect⟩ := passthrough_spares toggleEnv [forwarder, PassthroughHandler trackers]
    none 4096 (List.mem_cons_of_mem _ (List.mem_singleton_self _)) (p := "doubleclick.net".toList)
    List.mem_cons_self (.inr ⟨"ad".toList, rfl⟩) started rfl [connectExample, connectTracker]
  exact ⟨hspared, hconnect [connectExample] _ _ _ [] rfl rfl⟩

example : coversHost "doubleclick.net".toList "notdoubleclick.net".toList = false := by decide

end HexbufferProxy
