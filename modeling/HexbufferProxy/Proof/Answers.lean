import HexbufferProxy.Proof.Reply
import HexbufferProxy.Proof.Toggle
import HexbufferProxy.Spec.Answers

/-!
# Requests of a tunnel are answered in turn

* `upgradeTask_switch`, `answerHttps_answers`: the answer to a request that all handlers have let
  through, and the task that it may leave behind.
* `serveRequest_answers`: one request is served, or ends its tunnel.
* `run_answers`: so it goes on in every run.
-/

namespace HexbufferProxy

open Rust Rust.Proc

variable {ω : Type} {env : Env ω} {users : List (UserHandler ω)}
  {ws : Option (WebSocketHandler ω)} {n : ℕ}

/-! ## One request -/

/-- Handlers that all let a request through are each asked once. -/
theorem RequestCalls.let_through {k i : ℕ} {es : List Event} {b : Bool} (h : RequestCalls k i es b)
    (hb : b = true) : es.map Event.letsThrough = (List.range' i (k - i)).map some := by
  induction h with
  | all =>
    rw [Nat.sub_self]
    rfl
  | @forward i es b ctx req hi h ih =>
    have hleft : k - i = (k - (i + 1)) + 1 := by omega
    rw [List.map_cons, ih hb, hleft, List.range'_succ, List.map_cons]
    rfl
  | stop ctx req hi hd => exact Bool.noConfusion hb

/-- The task of an upgrade has nothing to do with requests. -/
theorem upgradeTask_switch (ctx : HttpContext) (host path : Str) (origin cookie : Option Str) :
    Traces (upgradeTask env ws ctx host path origin cookie) fun es _ =>
      ∀ e ∈ es, e.isSwitch = true := by
  have hens : Ensures Event.isContact 1 (upgradeTask env ws ctx host path origin cookie)
      (fun _ => True) (fun e => e.isSwitch = true) := by
    unfold upgradeTask
    apply ensures_bind (ensures_external_any _)
    intro key _
    cases upstreamHandshake env host path key origin cookie with
    | none => exact ensures_pure trivial
    | some r =>
      dsimp only
      apply ensures_bind (ensures_external_any _)
      intro client _
      cases client with
      | error e => exact ensures_pure trivial
      | ok u =>
        dsimp only
        have hconnect : (Event.wsConnect r).isSwitch = true := rfl
        refine ensures_bind_last (ensures_emit (Q := fun e : Event => e.isSwitch = true) hconnect
          (Or.inr Nat.one_pos)) ?_
        intro _ _
        apply ensures_bind (ensures_external_any _)
        intro server _
        cases server with
        | error e => exact ensures_pure trivial
        | ok u => exact ensures_emit rfl (Or.inl rfl)
  exact hens.traces

/-- What becomes of a request that the handlers have let through: a response after some work, or
nothing, or a response at once with a task for what comes then. -/
inductive Answer (env : Env ω) (ws : Option (WebSocketHandler ω)) :
    List Event → Except Fault (Response × Option (P ω Unit)) → Prop
  | response (es : List Event) (res : Response) (hes : ∀ e ∈ es, e.isReply = false) :
      Answer env ws es (.ok (res, none))
  | failed (f : Fault) : Answer env ws [] (.error f)
  | switch (res : Response) (ctx : HttpContext) (host path : Str) (origin cookie : Option Str) :
      Answer env ws [] (.ok (res, some (upgradeTask env ws ctx host path origin cookie)))

theorem handleHttpsWebsocket_answers (ctx : HttpContext) (host : Str) (req : Request) :
    Traces (handleHttpsWebsocket env ws ctx host req) (Answer env ws) := by
  unfold handleHttpsWebsocket
  cases absoluteRequest env "https".toList host req with
  | none => exact traces_fail (.failed _)
  | some q =>
    dsimp only
    cases q.uri.withScheme "wss".toList with
    | none => exact traces_fail (.failed _)
    | some u =>
      dsimp only
      cases env.upgrade { q with uri := u } with
      | error e => exact fun _ => .failed _
      | ok res => exact fun _ => .switch _ ctx host _ _ _

/-- **A request that the handlers have let through.** -/
theorem answerHttps_answers (host : Str) (ctx : HttpContext) (req : Request) :
    Traces (answerHttps env (proxyHandler env.enabled users) ws host (.ok (.request req), ctx))
      (Answer env ws) := by
  by_cases hup : env.isUpgradeRequest req = true
  · rw [answerHttps_upgrade hup]
    exact handleHttpsWebsocket_answers ctx host req
  rw [answerHttps_ordinary hup]
  cases absoluteRequest env "https".toList host req with
  | none => exact traces_fail (.failed _)
  | some q =>
    refine traces_bind (traces_sendRequest q) ?_ ?_
    · rintro es e ⟨-, w, h⟩
      cases h
    rintro es r ⟨rfl, -⟩
    have hsent : ∀ e ∈ [Event.sendRequest q], e.isReply = false := by
      intro e he
      rw [List.mem_singleton.1 he]
      rfl
    cases r with
    | error f => exact fun _ => .response _ badGateway hsent
    | ok res =>
      rw [proxyHandler_response]
      refine traces_bind (T := fun es r => ∃ a, r = .ok a ∧ ∀ e ∈ es, e.isReply = false) ?_ ?_ ?_
      · intro s
        obtain ⟨a, ha, hcalls⟩ := stack_responses users 0 ctx res s
        refine ⟨a, ha, fun e he => ?_⟩
        obtain ⟨j, ctx', res', rfl, -⟩ := hcalls.mem e he
        rfl
      · rintro es e ⟨a, h, -⟩
        cases h
      rintro calls ⟨r, ctx'⟩ ⟨-, -, hcalls⟩
      have hboth : ∀ e ∈ [Event.sendRequest q] ++ calls, e.isReply = false := by
        intro e he
        rcases List.mem_append.1 he with he | he
        · exact hsent e he
        · exact hcalls e he
      cases r with
      | error e =>
        intro s
        show Answer env ws ([Event.sendRequest q] ++ (calls ++ [])) _
        rw [List.append_nil]
        exact .response _ badGateway hboth
      | ok out =>
        intro s
        show Answer env ws ([Event.sendRequest q] ++ (calls ++ [])) _
        rw [List.append_nil]
        exact .response _ out hboth

/-- The request has been served, and the tunnel is still open, or neither. -/
def Goes (k : ℕ) (es : List Event) (r : Except Fault Bool) : Prop :=
  r = .ok true ∧ Served es ∨ r ≠ .ok true ∧ EndsTunnel k es

theorem sendReply_goes {k : ℕ} {asked es : List Event} {res : Response}
    (hasked : ∀ e ∈ asked, e.isReply = false) (hes : ∀ e ∈ es, e.isReply = false) :
    Traces (sendReply (res, none) : P ω Bool) fun es' r => Goes k (asked ++ (es ++ es')) r := by
  refine fun _ => .inl ⟨rfl, asked ++ es, res, ?_, fun e he => ?_⟩
  · rw [List.append_assoc]
    rfl
  · rcases List.mem_append.1 he with he | he
    · exact hasked e he
    · exact hes e he

/-- **One request of a tunnel.** -/
theorem serveRequest_answers (host : Str) (addr : SocketAddr) (req : Request) :
    Traces (serveRequest env (proxyHandler env.enabled users) ws host addr req)
      (Goes users.length) := by
  intro s
  rw [serveRequest_run]
  refine traces_bind (T := fun es r => ∃ a, r = .ok a ∧ (∀ e ∈ es, e.isReply = false) ∧
    (decision a.1 = .forward → es.map Event.letsThrough = (List.range users.length).map some))
    ?_ ?_ ?_ s.numbered
  · intro x
    rw [proxyHandler_request]
    obtain ⟨a, ha, hcalls⟩ := stack_requestCalls users 0 ⟨s.requestId, host, addr, true⟩ req x
    refine ⟨a, ha, fun e he => ?_, fun hd => ?_⟩
    · obtain ⟨i, ctx, q, d, rfl, -⟩ := hcalls.mem e he
      rfl
    · rw [hcalls.let_through (decide_eq_true hd), Nat.zero_add, Nat.sub_zero, List.range_eq_range']
  · rintro es e ⟨a, h, -⟩
    cases h
  rintro asked ⟨r, ctx⟩ ⟨-, ⟨⟩, hasked, hforward⟩
  have hnone : ∀ e ∈ ([] : List Event), e.isReply = false :=
    fun e he => absurd he List.not_mem_nil
  rcases r with e | q | res
  · exact sendReply_goes hasked hnone
  · have hlet := hforward rfl
    refine traces_bind (answerHttps_answers host ctx q) ?_ ?_
    · rintro es f ⟨⟩
      exact .inr ⟨(fun h => by cases h), asked, [], rfl, hlet, .inl rfl⟩
    rintro es a hanswer
    generalize ha : (Except.ok a : Except Fault (Response × Option (P ω Unit))) = r at hanswer
    cases hanswer with
    | response es res hes =>
      obtain rfl := Except.ok.inj ha
      exact sendReply_goes hasked hes
    | failed f => cases ha
    | switch res ctx host path origin cookie =>
      obtain rfl := Except.ok.inj ha
      -- the response is out before the task begins
      refine traces_bind (T := fun es _ => es = [.reply res]) (fun _ => rfl) ?_ ?_
      · rintro es f rfl
        exact .inr ⟨(fun h => by cases h), asked, _, rfl, hlet,
          .inr ⟨res, [], rfl, fun e he => absurd he List.not_mem_nil⟩⟩
      rintro es - rfl
      refine traces_bind (upgradeTask_switch ctx host path origin cookie) ?_ ?_
      · intro es f hes
        exact .inr ⟨(fun h => by cases h), asked, _, rfl, hlet, .inr ⟨res, es, rfl, hes⟩⟩
      · intro es _ hes x
        refine .inr ⟨(fun h => by cases h), asked, _, rfl, hlet, .inr ⟨res, es, ?_, hes⟩⟩
        show [] ++ ([Event.reply res] ++ (es ++ [])) = _
        rw [List.append_nil]
        rfl
  · exact sendReply_goes hasked hnone

/-! ## Runs -/

namespace Server

variable {s : Server ω} {i : ℕ}

/-- The tunnel has been opened, and is no longer served. -/
def Over (s : Server ω) (i : ℕ) : Prop := ∃ t, s.tunnels[i]? = some t ∧ t.live = false

theorem closed_length (s : Server ω) (j : ℕ) : (s.closed j).length = s.tunnels.length :=
  List.length_modify ..

/-- Closing some tunnel opens none. -/
theorem closed_over (j : ℕ) (h : s.Over i) : ∃ t, (s.closed j)[i]? = some t ∧ t.live = false := by
  obtain ⟨t, ht, hlive⟩ := h
  unfold closed
  rw [List.getElem?_modify, ht]
  refine ⟨_, rfl, ?_⟩
  split
  · rfl
  · exact hlive

/-- Whatever happens, a tunnel keeps its place, and is not opened again. -/
theorem step_place (a : Action) (hi : i < s.tunnels.length) :
    i < (s.step env users ws n a).1.tunnels.length ∧
      (s.Over i → (s.step env users ws n a).1.Over i) := by
  have hclosed : ∀ j, i < (s.closed j).length := by
    intro j
    rw [closed_length]
    exact hi
  cases a with
  | setEnabled b => exact ⟨hi, fun h => h⟩
  | plain client addr raw => exact ⟨hi, fun h => h⟩
  | close j => exact ⟨hclosed j, closed_over j⟩
  | connect client target addr =>
    refine ⟨?_, ?_⟩
    · show i < (s.tunnels ++ _).length
      rw [List.length_append]
      exact Nat.lt_add_right _ hi
    · rintro ⟨t, ht, hlive⟩
      refine ⟨t, ?_, hlive⟩
      show (s.tunnels ++ _)[i]? = some t
      rw [List.getElem?_append_left hi]
      exact ht
  | request j req =>
    rcases s.tunnel_cases j with hdead | ⟨host, addr, hlive⟩
    · rw [step_dead hdead]
      exact ⟨hi, fun h => h⟩
    · rw [step_live hlive req rfl]
      dsimp only
      unfold Over
      dsimp only
      split
      · exact ⟨hi, fun h => h⟩
      · exact ⟨hclosed j, closed_over j⟩

/-- An open tunnel stays open, unless the action is one of its own. -/
theorem step_open (a : Action) (es : List Event) (h : s.Open i) (ha : turnOf i es a = none) :
    (s.step env users ws n a).1.Open i := by
  obtain ⟨t, ht, hlive⟩ := h
  have hclosed : ∀ j, ¬ j = i → (s.closed j)[i]? = some t := by
    intro j hj
    unfold closed
    rw [List.getElem?_modify_ne _ _ hj, ht]
  cases a with
  | setEnabled b => exact ⟨t, ht, hlive⟩
  | plain client addr raw => exact ⟨t, ht, hlive⟩
  | close j =>
    by_cases hj : j = i
    · rw [turnOf, if_pos hj] at ha
      cases ha
    · exact ⟨t, hclosed j hj, hlive⟩
  | connect client target addr =>
    refine ⟨t, ?_, hlive⟩
    show (s.tunnels ++ _)[i]? = some t
    rw [List.getElem?_append_left (List.getElem?_eq_some_iff.1 ht).1]
    exact ht
  | request j req =>
    by_cases hj : j = i
    · rw [turnOf, if_pos hj] at ha
      cases ha
    rcases s.tunnel_cases j with hdead | ⟨host, addr, hopen⟩
    · rw [step_dead hdead]
      exact ⟨t, ht, hlive⟩
    · rw [step_live hopen req rfl]
      refine ⟨t, ?_, hlive⟩
      dsimp only
      split
      · exact ht
      · exact hclosed j hj

theorem open_place (h : s.Open i) : i < s.tunnels.length := by
  obtain ⟨t, ht, -⟩ := h
  exact (List.getElem?_eq_some_iff.1 ht).1

/-- A tunnel that its client closes is over. -/
theorem closed_itself_over (hi : i < s.tunnels.length) :
    ∃ t, (s.closed i)[i]? = some t ∧ t.live = false :=
  ⟨_, List.getElem?_eq_getElem (by rw [closed_length]; exact hi),
    closed_live s i _ (List.getElem?_eq_getElem _)⟩

/-- A request on an open tunnel is served, or ends the tunnel. -/
theorem step_answers (req : Request) (h : s.Open i) :
    Served (s.step env users ws n (.request i req)).2 ∧
        (s.step env users ws n (.request i req)).1.Open i ∨
      EndsTunnel users.length (s.step env users ws n (.request i req)).2 ∧
        (s.step env users ws n (.request i req)).1.Over i := by
  have hi := open_place h
  obtain ⟨⟨host, addr, live⟩, ht, hlive⟩ := h
  obtain rfl : live = true := hlive
  have hgoes := @serveRequest_answers ω (env.flagged s.enabled) users ws host addr req s.world
  rw [step_live ht req rfl]
  unfold Open Over
  dsimp only
  rcases hgoes with ⟨hresult, hserved⟩ | ⟨hresult, hends⟩
  · refine .inl ⟨hserved, ?_⟩
    split
    · exact ⟨_, ht, rfl⟩
    · next hfailed => exact absurd hresult hfailed
  · refine .inr ⟨hends, ?_⟩
    split
    · next hok => exact absurd hok hresult
    · exact closed_itself_over hi

/-- What a turn of a tunnel is. -/
theorem turnOf_some {es : List Event} {a : Action} {turn : Turn} (h : turnOf i es a = some turn) :
    (∃ req, a = .request i req ∧ turn = .request es) ∨ a = .close i ∧ turn = .close := by
  cases a with
  | request j req =>
    by_cases hj : j = i
    · rw [turnOf, if_pos hj] at h
      exact .inl ⟨req, hj ▸ rfl, (Option.some.inj h).symm⟩
    · rw [turnOf, if_neg hj] at h
      cases h
  | close j =>
    by_cases hj : j = i
    · rw [turnOf, if_pos hj] at h
      exact .inr ⟨hj ▸ rfl, (Option.some.inj h).symm⟩
    · rw [turnOf, if_neg hj] at h
      cases h
  | _ => cases h

/-- For the requests of a tunnel that is over, nothing is done. -/
theorem turns_over (as : List Action) (hi : i < s.tunnels.length) (h : s.Over i) :
    IdleTurns (s.turns env users ws n i as) := by
  induction as generalizing s with
  | nil => exact fun es hes => absurd hes List.not_mem_nil
  | cons a as ih =>
    obtain ⟨hplace, hover⟩ := @step_place ω env users ws n s i a hi
    intro es hes
    rcases List.mem_append.1 hes with hes | hes
    · rcases turnOf_some (Option.mem_toList.1 hes) with ⟨req, rfl, hturn⟩ | ⟨-, hturn⟩
      · obtain ⟨t, ht, hlive⟩ := h
        have hdead : ∀ t', s.tunnels[i]? = some t' → t'.live = false := by
          intro t' ht'
          rw [ht] at ht'
          rw [← Option.some.inj ht']
          exact hlive
        rw [step_dead hdead] at hturn
        exact Turn.request.inj hturn
      · cases hturn
    · exact ih hplace (hover h) es hes

end Server

/-- **The requests of a tunnel are answered in turn**, in every run, whatever is done on other
connections in between, and whoever enables or disables the proxy. Each request is given one response,
behind everything that is done for it, until one is lost, when every handler has let it through and
no upstream has been contacted for it, or switches the protocol, or the client closes the tunnel.
Nothing is done for those that come after. -/
theorem run_answers (env : Env ω) (users : List (UserHandler ω)) (ws : Option (WebSocketHandler ω))
    (n i : ℕ) (s : Server ω) (h : s.Open i) (actions : List Action) :
    AnsweredInTurn users.length (s.turns env users ws n i actions) := by
  induction actions generalizing s with
  | nil => exact .none
  | cons a as ih =>
    unfold Server.turns
    dsimp only
    have hi := Server.open_place h
    obtain ⟨hplace, -⟩ := @Server.step_place ω env users ws n s i a hi
    cases hturn : Server.turnOf i (s.step env users ws n a).2 a with
    | none => exact ih _ (Server.step_open a _ h hturn)
    | some turn =>
      rcases Server.turnOf_some hturn with ⟨req, rfl, rfl⟩ | ⟨rfl, rfl⟩
      · rcases Server.step_answers req h with ⟨hserved, hopen⟩ | ⟨hends, hover⟩
        · exact .served _ _ hserved (ih _ hopen)
        · exact .ends _ _ hends (Server.turns_over as hplace hover)
      · exact .close _ (Server.turns_over as hplace (Server.closed_itself_over hi))

/-- A tunnel is open. -/
def opened : Server Unit := { started with tunnels := [⟨"a.example".toList, ⟨"127.0.0.1", 0⟩, true⟩] }

/-- The number of responses that the client is given. -/
def Turn.replies : Turn → ℕ
  | request es => es.countP Event.isReply
  | close => 0

/-- A request behind an upgrade. -/
theorem run_answers_switch :
    let turns := opened.turns switchEnv [forwarder] none 4096 0
      [requestInside, .setEnabled false, .request 0 insideUpgrade, requestInside]
    turns.map Turn.replies = [1, 1, 0] ∧ AnsweredInTurn 1 turns :=
  ⟨rfl, run_answers switchEnv [forwarder] none 4096 0 opened ⟨_, rfl, rfl⟩ _⟩

end HexbufferProxy
