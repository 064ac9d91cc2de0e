import HexbufferProxy.Proof.Deliver
import HexbufferProxy.Proof.Host
import HexbufferProxy.Proof.Reply
import HexbufferProxy.Spec.Toggle

/-!
# Disabling a running proxy

* `handleHttps_opens`, `run_connection`: the server's actions are what `handle_https` does, one
  request after the other.
* `step_honours_iff`: which action shows the handlers a decrypted request although the flag is
  false.
* `run_honours_iff`: so a run honours the flag exactly when no request comes late.
* `run_disabled`: a proxy that has no open tunnel stays quiet until it is enabled.
-/

namespace HexbufferProxy

open Rust Rust.Proc

variable {ω : Type} {env : Env ω} {users : List (UserHandler ω)}
  {ws : Option (WebSocketHandler ω)} {n : ℕ}

/-! ## Actions and procedures -/

/-- `handle_https` opens the tunnel, and serves its requests. -/
theorem handleHttps_opens (handler : HttpHandler ω) (client : Source) (target : Str)
    (addr : SocketAddr) :
    handleHttps env handler ws client target addr =
      openTunnel env handler client target >>= fun o =>
        match o with
        | none => pure ()
        | some reqs => serveConnection env handler ws (targetHost target) addr reqs := by
  unfold handleHttps openTunnel
  simp only [bind_assoc]
  congr 1
  funext _
  congr 1
  funext intercept
  cases intercept with
  | false => simp only [Bool.not_false, if_true, bind_assoc, pure_bind, bind_pure_unit]
  | true => simp only [Bool.not_true, Bool.false_eq_true, if_false, bind_assoc, pure_bind]

namespace Server

/-- A request on a tunnel that is not there, or closed, is not served. -/
theorem step_dead {s : Server ω} {i : ℕ} (h : ∀ t, s.tunnels[i]? = some t → t.live = false)
    (req : Request) : s.step env users ws n (.request i req) = (s, []) := by
  unfold step
  dsimp only
  cases ht : s.tunnels[i]? with
  | none => rfl
  | some t =>
    obtain ⟨host, addr, live⟩ := t
    have hlive : live = false := h _ ht
    rw [hlive]

/-- A request on an open tunnel is served there. -/
theorem step_live {s : Server ω} {i : ℕ} {host : Str} {addr : SocketAddr}
    (ht : s.tunnels[i]? = some ⟨host, addr, true⟩) (req : Request)
    {r : Ran Event (World ω) Fault Bool}
    (hr : serveRequest (env.flagged s.enabled) (s.handler env users) ws host addr req s.world = r) :
    s.step env users ws n (.request i req) = ({ s with
      world := r.state
      tunnels :=
        match r.result with
        | .ok true => s.tunnels
        | _ => s.closed i }, r.events) := by
  unfold step
  dsimp only
  rw [ht]
  subst hr
  rfl

/-- A tunnel is open, or it is not. -/
theorem tunnel_cases (s : Server ω) (i : ℕ) :
    (∀ t, s.tunnels[i]? = some t → t.live = false) ∨
      ∃ host addr, s.tunnels[i]? = some ⟨host, addr, true⟩ := by
  rw [or_iff_not_imp_left]
  intro h
  obtain ⟨⟨host, addr, live⟩, ht, hlive⟩ : ∃ t, s.tunnels[i]? = some t ∧ ¬ t.live = false := by
    simpa only [not_forall, exists_prop] using h
  obtain rfl : live = true := Bool.eq_true_of_not_eq_false hlive
  exact ⟨host, addr, ht⟩

theorem closed_live (s : Server ω) (i : ℕ) :
    ∀ t, (s.closed i)[i]? = some t → t.live = false := by
  intro t ht
  unfold closed at ht
  rw [List.getElem?_modify_eq] at ht
  obtain ⟨t', -, rfl⟩ := Option.map_eq_some_iff.1 ht
  rfl

/-- A tunnel that has been closed serves nothing any more. -/
theorem run_dead {s : Server ω} {i : ℕ} (h : ∀ t, s.tunnels[i]? = some t → t.live = false) :
    ∀ reqs : List Request, (s.run env users ws n (reqs.map (.request i))).2 = [] := by
  intro reqs
  induction reqs with
  | nil => rfl
  | cons req reqs ih =>
    rw [List.map_cons]
    unfold run
    dsimp only
    rw [step_dead h]
    exact ih

/-- **The requests of a connection are the actions on its tunnel**, one after the other. -/
theorem run_connection : ∀ (reqs : List Request) (s : Server ω) (i : ℕ) (host : Str)
    (addr : SocketAddr), s.tunnels[i]? = some ⟨host, addr, true⟩ →
    (serveConnection (env.flagged s.enabled) (s.handler env users) ws host addr reqs
      s.world).events = (s.run env users ws n (reqs.map (.request i))).2 := by
  intro reqs
  induction reqs with
  | nil => intro s i host addr _; rfl
  | cons req reqs ih =>
    intro s i host addr ht
    rw [List.map_cons]
    unfold run serveConnection
    dsimp only
    obtain ⟨r, w, es, hr⟩ : ∃ r w es, serveRequest (env.flagged s.enabled) (s.handler env users) ws
        host addr req s.world = ⟨r, w, es⟩ := ⟨_, _, _, rfl⟩
    rw [step_live ht req hr]
    -- the rest is served only if the request has left the connection to the server
    have hdead : ∀ s' : Server ω, s'.tunnels = s.closed i →
        es ++ (s'.run env users ws n (reqs.map (.request i))).2 = es := by
      intro s' hs'
      rw [run_dead (fun t ht' => s.closed_live i t (hs' ▸ ht')), List.append_nil]
    rcases r with e | more
    · rw [bind_error (e := e) (by rw [hr]), hr]
      exact (hdead _ rfl).symm
    · rw [bind_ok (a := more) (by rw [hr]), hr]
      cases more with
      | false =>
        rw [if_neg Bool.false_ne_true]
        exact (List.append_nil es).trans (hdead _ rfl).symm
      | true =>
        rw [if_pos rfl]
        exact congrArg (es ++ ·) (ih { s with world := w } i host addr ht)

/-- **A connection of a client is a run**: its CONNECT, and then its requests. -/
theorem run_connect (s : Server ω) (client : Source) (target : Str) (addr : SocketAddr)
    {o : Option (List Request)}
    (ho : (openTunnel (env.flagged s.enabled) (s.handler env users) client target s.world).result =
      .ok o) :
    (handleHttps (env.flagged s.enabled) (s.handler env users) ws client target addr
      s.world).events = (s.run env users ws n (.connect client target addr ::
        (o.getD []).map (.request s.tunnels.length))).2 := by
  rw [handleHttps_opens, bind_ok ho]
  unfold run step
  dsimp only
  rw [ho]
  cases o with
  | none => rfl
  | some reqs =>
    apply congrArg (_ ++ ·)
    refine run_connection reqs { s with
      world := (openTunnel (env.flagged s.enabled) (s.handler env users) client target s.world).state
      tunnels := s.tunnels ++ [⟨targetHost target, addr, true⟩] } s.tunnels.length _ addr ?_
    rw [List.getElem?_append_right (Nat.le_refl _), Nat.sub_self]
    rfl

end Server

/-! ## Single actions -/

/-- Opening a tunnel shows no handler a request. -/
theorem openTunnel_quiet (client : Source) (target : Str) :
    Traces (openTunnel env (proxyHandler env.enabled users) client target) fun es _ =>
      ∀ e ∈ es, e.isRequestCall = false := by
  have hwrite : ∀ bs, Ensures Event.isContact 0 (writeClient env bs) (fun _ => True)
      (fun e => e.isRequestCall = false) := fun _ => ensures_write rfl (Or.inl rfl)
  have hconnect : ∀ t, Ensures Event.isContact 1 (connectServer env t) (fun _ => True)
      (fun e => e.isRequestCall = false) := fun _ => ensures_write rfl (Or.inr Nat.one_pos)
  have hemit : ∀ e : Event, e.isContact = false → e.isRequestCall = false →
      Ensures Event.isContact 0 (Proc.emit e : P ω Unit) (fun _ => True)
        (fun e => e.isRequestCall = false) := fun e h he => ensures_emit he (Or.inl h)
  have hens : Ensures Event.isContact 1
      (openTunnel env (proxyHandler env.enabled users) client target) (fun _ => True)
      (fun e => e.isRequestCall = false) := by
    unfold openTunnel
    apply ensures_bind (hwrite _)
    intro _ _
    apply ensures_bind (R := fun _ => True)
    · refine (proxyHandler_intercept env.enabled users _).mono (Nat.le_refl 0) (fun _ h => h) ?_
      intro e he
      cases e <;> first | rfl | exact absurd he Bool.false_ne_true
    intro intercept _
    cases intercept with
    -- the tunnel is handed on
    | false =>
      rw [if_pos (by rfl)]
      apply ensures_bind_last (hconnect target)
      intro _ _
      apply ensures_bind (ensures_external_any _)
      intro server _
      apply ensures_bind (hemit _ rfl rfl)
      intro _ _
      exact ensures_pure trivial
    -- the proxy takes the tunnel for itself
    | true =>
      rw [if_neg (by decide)]
      apply ensures_bind (ensures_external_any _)
      intro cert _
      apply ensures_bind (ensures_lift_any _)
      intro cert _
      apply ensures_bind (hemit _ rfl rfl)
      intro _ _
      apply ensures_bind (ensures_external_any _)
      intro reqs _
      apply ensures_bind (ensures_lift_any _)
      intro reqs _
      exact ensures_pure trivial
  exact hens.traces

/-- While the flag is false, no tunnel is opened. -/
theorem openTunnel_disabled {client : Source} {target : Str} {x : World ω}
    {o : Option (List Request)} (h : (openTunnel (env.flagged false)
      (proxyHandler (env.flagged false).enabled users) client target x).result = .ok o) :
    o = none := by
  have hens : Ensures (fun _ => false) 0 (openTunnel (env.flagged false)
      (proxyHandler (env.flagged false).enabled users) client target) (fun o => o = none)
      (fun _ => True) := by
    have hany : ∀ {α : Type} (m : P ω α), Ensures (fun _ => false) 0 m (fun _ => True)
        (fun _ => True) := by
      intro α m s
      refine ⟨?_, fun _ _ => trivial, fun _ _ => trivial⟩
      rw [List.countP_false]
      exact Nat.le_refl 0
    unfold openTunnel
    apply ensures_bind (hany _)
    intro _ _
    apply ensures_bind (R := fun answer => answer = false)
    · apply ensures_bind (R := fun on => on = false) (ensures_call fun _ => rfl)
      rintro _ rfl
      exact ensures_pure rfl
    rintro _ rfl
    rw [if_pos (by rfl)]
    apply ensures_bind (hany _)
    intro _ _
    apply ensures_bind (hany _)
    intro _ _
    apply ensures_bind (hany _)
    intro _ _
    exact ensures_pure rfl
  exact (hens x).2.2 o h

/-- The first handler is shown every request of a tunnel. -/
theorem serveRequest_asks (env : Env ω) (ws : Option (WebSocketHandler ω)) (u : UserHandler ω)
    (us : List (UserHandler ω)) (host : Str) (addr : SocketAddr) (req : Request) (x : World ω) :
    ∃ e ∈ (serveRequest env (proxyHandler env.enabled (u :: us)) ws host addr req x).events,
      e.Decrypted := by
  obtain ⟨d, rest, hevents, -⟩ := stack_first u us 0 ⟨x.requestId, host, addr, true⟩ req x.numbered
  refine ⟨.request 0 ⟨x.requestId, host, addr, true⟩ req d, ?_, _, _, _, rfl, rfl⟩
  rw [serveRequest_run, proxyHandler_request]
  apply mem_bind
  rw [hevents]
  exact List.mem_cons_self

namespace Server

/-- **One action honours the flag** unless it is a request that comes late. -/
theorem step_honours_iff (u : UserHandler ω) (us : List (UserHandler ω)) (s : Server ω)
    (a : Action) :
    HonoursFlag env (u :: us) ws n s a ↔ NoLateRequest s a := by
  unfold HonoursFlag NoLateRequest
  apply imp_congr_right
  intro _
  have hquiet : ∀ e : Event, e.isRequestCall = false → ¬ e.Decrypted := by
    rintro e he ⟨ctx, req, d, rfl, -⟩
    exact absurd he.symm Bool.false_ne_true
  -- only a request on a live tunnel is decrypted for the handlers
  cases a with
  | setEnabled b =>
    refine iff_of_true ?_ fun i req h => nomatch h
    exact fun e he => absurd he List.not_mem_nil
  | close i =>
    refine iff_of_true ?_ fun i req h => nomatch h
    exact fun e he => absurd he List.not_mem_nil
  | connect client target addr =>
    refine iff_of_true ?_ fun i req h => nomatch h
    exact fun e he => hquiet e (openTunnel_quiet client target s.world e he)
  | plain client addr raw =>
    refine iff_of_true ?_ fun i req h => nomatch h
    rintro e he ⟨ctx, req, d, rfl, htls⟩
    rw [(handleHttp_calls he).2] at htls
    exact Bool.false_ne_true htls
  | request i req =>
    by_cases hdead : ∀ t, s.tunnels[i]? = some t → t.live = false
    · refine iff_of_true ?_ ?_
      · rw [step_dead hdead]
        exact fun e he => absurd he List.not_mem_nil
      · intro j q h t ht
        cases h
        exact hdead t ht
    · refine iff_of_false ?_ fun h => hdead (h i req rfl)
      intro hnone
      obtain ⟨⟨host, addr, live⟩, ht, hlive⟩ : ∃ t, s.tunnels[i]? = some t ∧ ¬ t.live = false := by
        simpa only [not_forall, exists_prop] using hdead
      have hlive' : live = true := Bool.eq_true_of_not_eq_false hlive
      rw [hlive'] at ht
      obtain ⟨e, he, hdec⟩ := serveRequest_asks (env.flagged s.enabled) ws u us host addr req s.world
      rw [step_live ht req rfl] at hnone
      exact hnone e he hdec

/-! ## Runs -/

/-- What a disabled proxy without open tunnels keeps, as long as it is not enabled. -/
def Quiet (s : Server ω) : Prop := s.enabled = false ∧ s.AllClosed

theorem step_quiet {s : Server ω} (h : s.Quiet) {a : Action} (ha : a ≠ .setEnabled true) :
    (s.step env users ws n a).1.Quiet := by
  obtain ⟨hoff, hclosed⟩ := h
  have hmodify : ∀ i, ∀ t ∈ s.closed i, t.live = false := by
    intro i t ht
    unfold closed at ht
    obtain ⟨j, hj⟩ := List.mem_iff_getElem?.1 ht
    rw [List.getElem?_modify] at hj
    obtain ⟨t', ht', htt⟩ := Option.map_eq_some_iff.1 hj
    have hlive := hclosed t' (List.mem_of_getElem? ht')
    by_cases hij : i = j
    · rw [if_pos hij] at htt
      rw [← htt]
    · rw [if_neg hij] at htt
      rw [← htt]
      exact hlive
  cases a with
  | setEnabled b =>
    cases b with
    | true => exact absurd rfl ha
    | false => exact ⟨rfl, hclosed⟩
  | close i => exact ⟨hoff, hmodify i⟩
  | plain client addr raw => exact ⟨hoff, hclosed⟩
  | request i req =>
    have hdead : ∀ t, s.tunnels[i]? = some t → t.live = false :=
      fun t ht => hclosed t (List.mem_of_getElem? ht)
    rw [step_dead hdead]
    exact ⟨hoff, hclosed⟩
  | connect client target addr =>
    refine ⟨hoff, ?_⟩
    unfold step AllClosed handler
    dsimp only
    rw [hoff]
    intro t ht
    rcases List.mem_append.1 ht with ht | ht
    · exact hclosed t ht
    · split at ht
      · rename_i reqs hopen
        exact absurd (openTunnel_disabled hopen) (Option.some_ne_none reqs)
      · exact absurd ht List.not_mem_nil

theorem always_congr {p q : Server ω → Action → Prop} (h : ∀ s a, p s a ↔ q s a) :
    ∀ (as : List Action) (s : Server ω),
      Always env users ws n p s as ↔ Always env users ws n q s as := by
  intro as
  induction as with
  | nil => exact fun _ => Iff.rfl
  | cons a as ih => exact fun s => and_congr (h s a) (ih _)

end Server

/-- **A run honours the flag** exactly when no request arrives, while the flag is false, on a tunnel
that has been opened before. -/
theorem run_honours_iff (env : Env ω) (u : UserHandler ω) (us : List (UserHandler ω))
    (ws : Option (WebSocketHandler ω)) (n : ℕ) (s : Server ω) (as : List Action) :
    s.Always env (u :: us) ws n (Server.HonoursFlag env (u :: us) ws n) as ↔
      s.Always env (u :: us) ws n Server.NoLateRequest as :=
  Server.always_congr (Server.step_honours_iff u us) as s

/-- **A disabled proxy without open tunnels stays quiet** until it is enabled, whoever connects. -/
theorem run_disabled (users : List (UserHandler ω)) : ∀ (as : List Action) (s : Server ω), s.Quiet →
    .setEnabled true ∉ as → s.Always env users ws n Server.NoLateRequest as := by
  intro as
  induction as with
  | nil => exact fun _ _ _ => trivial
  | cons a as ih =>
    intro s hs has
    refine ⟨?_, ih _ (Server.step_quiet hs fun h => has (h ▸ List.mem_cons_self))
      fun h => has (List.mem_cons_of_mem a h)⟩
    exact fun _ i req _ t ht => hs.2 t (List.mem_of_getElem? ht)

/-! ## A tunnel that stays open -/

/-- An enabled proxy, with one handler. -/
def toggleEnv : Env Unit := Env.basic (fun _ => true) ⟨[], none⟩ badGateway []

def started : Server Unit := ⟨true, ⟨(), 0⟩, []⟩

/-- A CONNECT, and a request on its tunnel. -/
def connectExample : Action := .connect ⟨[], none⟩ "a.example:443".toList ⟨"127.0.0.1", 0⟩

def requestInside : Action := .request 0 exampleGet

/-- A tunnel that is open when the proxy is disabled goes on as before. -/
theorem run_late_request :
    ¬ ∀ (env : Env Unit) (users : List (UserHandler Unit)) (ws : Option (WebSocketHandler Unit))
      (n : ℕ) (s : Server Unit) (as : List Action),
      s.Always env users ws n (Server.HonoursFlag env users ws n) as := by
  intro hall
  obtain ⟨-, -, hlate, -⟩ := hall toggleEnv [forwarder] none 4096 started
    [connectExample, .setEnabled false, requestInside]
  have hno := (Server.step_honours_iff forwarder [] _ requestInside).1 hlate
  exact Bool.noConfusion (hno rfl 0 exampleGet rfl ⟨"a.example".toList, ⟨"127.0.0.1", 0⟩, true⟩ rfl)

theorem run_honours_closed :
    started.Always toggleEnv [forwarder] none 4096
      (Server.HonoursFlag toggleEnv [forwarder] none 4096)
      [connectExample, requestInside, .close 0, .setEnabled false, connectExample, requestInside] := by
  apply (run_honours_iff toggleEnv forwarder [] none 4096 started _).2
  have hon : ∀ s : Server Unit, s.enabled = true → ∀ a, s.NoLateRequest a :=
    fun s h a h' => Bool.noConfusion (h.symm.trans h')
  refine ⟨hon _ rfl _, hon _ rfl _, hon _ rfl _, hon _ rfl _, ?_⟩
  apply run_disabled
  · refine ⟨rfl, ?_⟩
    intro t ht
    have hone : t ∈ [(⟨"a.example".toList, ⟨"127.0.0.1", 0⟩, false⟩ : TlsTunnel)] := ht
    rw [List.mem_singleton.1 hone]
  · intro h
    rcases List.mem_cons.1 h with h | h
    · exact Action.noConfusion h
    · exact Action.noConfusion (List.mem_singleton.1 h)

end HexbufferProxy
