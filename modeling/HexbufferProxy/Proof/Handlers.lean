import HexbufferProxy.Spec.Reply
import HexbufferProxy.Spec.Upstream

/-!
# The handlers of a proxy

* `proxyHandler_request`, `proxyHandler_response`: whatever `ProxyBuilder::build` wraps around
  the registered handlers, requests and responses go through the stack of all of them.
* `RequestCalls`, `stack_requestCalls`: the handlers are asked in order, up to the first that
  does not forward.
* `proxyHandler_intercept`: asking whether to intercept shows nothing but the handlers' answers.
* `stack_respects`: what each handler keeps of a request, the stack keeps.
-/

namespace HexbufferProxy

open Rust Rust.Proc

variable {ω : Type}

/-- The handlers of the users, numbered from `i` on. -/
def numbered (users : List (UserHandler ω)) (i : ℕ) : List (HttpHandler ω) :=
  (users.zipIdx i).map fun p => p.1.toHandler p.2

theorem numbered_cons (u : UserHandler ω) (us : List (UserHandler ω)) (i : ℕ) :
    numbered (u :: us) i = u.toHandler i :: numbered us (i + 1) := by
  simp only [numbered, List.zipIdx_cons, List.map_cons]

/-! ## The wrappers -/

theorem stack_request_single (h : HttpHandler ω) :
    HandlerStack.handleRequest [h] = h.handleRequest := by
  funext ctx req s
  show Proc.bind (h.handleRequest ctx req) _ s = _
  unfold Proc.bind
  rcases hr : h.handleRequest ctx req s with ⟨r, s', es⟩
  rcases r with e | ⟨⟨e⟩ | ⟨q | q⟩, ctx'⟩
  · rfl
  · exact congrArg (Ran.mk _ _) (List.append_nil es)
  · exact congrArg (Ran.mk _ _) (List.append_nil es)
  · exact congrArg (Ran.mk _ _) (List.append_nil es)

theorem stack_response_single (h : HttpHandler ω) :
    HandlerStack.handleResponse [h] = h.handleResponse := by
  funext ctx res s
  show Proc.bind (h.handleResponse ctx res) _ s = _
  unfold Proc.bind
  rcases hr : h.handleResponse ctx res s with ⟨r, s', es⟩
  rcases r with e | ⟨⟨e⟩ | ⟨q⟩, ctx'⟩
  · rfl
  · exact congrArg (Ran.mk _ _) (List.append_nil es)
  · exact congrArg (Ran.mk _ _) (List.append_nil es)

/-- **Requests go through the stack of all handlers**, enabled or not. -/
theorem proxyHandler_request (enabled : ω → Bool) (users : List (UserHandler ω)) :
    (proxyHandler enabled users).handleRequest = HandlerStack.handleRequest (numbered users 0) := by
  rcases users with _ | ⟨u, _ | ⟨v, us⟩⟩
  · rfl
  · exact (stack_request_single (u.toHandler 0)).symm
  · rfl

/-- **Responses go through the stack of all handlers**, in the same order. -/
theorem proxyHandler_response (enabled : ω → Bool) (users : List (UserHandler ω)) :
    (proxyHandler enabled users).handleResponse =
      HandlerStack.handleResponse (numbered users 0) := by
  rcases users with _ | ⟨u, _ | ⟨v, us⟩⟩
  · rfl
  · exact (stack_response_single (u.toHandler 0)).symm
  · rfl

/-! ## TLS interception -/

/-- A handler's answer about a host. -/
def Event.isIntercept : Event → Bool
  | intercept .. => true
  | _ => false

theorem toHandler_intercept (u : UserHandler ω) (i : ℕ) (host : Str) :
    Ensures Event.isContact 0 ((u.toHandler i).shouldInterceptTls host) (fun _ => True)
      (fun e => e.isIntercept = true) := by
  apply ensures_bind (R := fun _ => True) (ensures_call fun _ => trivial)
  intro answer _
  have hemit : Ensures Event.isContact 0 (Proc.emit (.intercept i host answer) : P ω Unit)
      (fun _ => True) (fun e => e.isIntercept = true) := ensures_emit rfl (Or.inl rfl)
  apply ensures_bind hemit
  intro _ _
  exact ensures_pure trivial

theorem stack_intercept : ∀ (users : List (UserHandler ω)) (i : ℕ) (host : Str),
    Ensures Event.isContact 0 (HandlerStack.shouldInterceptTls (numbered users i) host)
      (fun _ => True) (fun e => e.isIntercept = true) := by
  intro users
  induction users with
  | nil => intro i host; exact ensures_pure trivial
  | cons u us ih =>
    intro i host
    rw [numbered_cons]
    unfold HandlerStack.shouldInterceptTls
    apply ensures_bind (toHandler_intercept u i host)
    intro answer _
    rcases answer with _ | _
    · exact ensures_pure trivial
    · exact ih (i + 1) host

theorem proxyHandler_intercept (enabled : ω → Bool) (users : List (UserHandler ω)) (host : Str) :
    Ensures Event.isContact 0 ((proxyHandler enabled users).shouldInterceptTls host)
      (fun _ => True) (fun e => e.isIntercept = true) := by
  apply ensures_bind (R := fun _ => True) (ensures_call fun _ => trivial)
  intro on _
  rcases on with _ | _
  · exact ensures_pure trivial
  · rcases users with _ | ⟨u, _ | ⟨v, us⟩⟩
    · exact ensures_pure trivial
    · exact toHandler_intercept u 0 host
    · exact stack_intercept (u :: v :: us) 0 host

/-! ## Requests -/

/-- The calls of `handle_request` from handler `i` of `n` on. The last argument says whether all
of them forward. -/
inductive RequestCalls (n : ℕ) : ℕ → List Event → Bool → Prop
  | all : RequestCalls n n [] true
  | forward {i : ℕ} {es : List Event} {b : Bool} (ctx : HttpContext) (req : Request)
      (hi : i < n) (h : RequestCalls n (i + 1) es b) :
      RequestCalls n i (.request i ctx req .forward :: es) b
  | stop {i : ℕ} (ctx : HttpContext) (req : Request) {d : Decision} (hi : i < n)
      (hd : d ≠ .forward) : RequestCalls n i [.request i ctx req d] false

/-- What a call of a user's handler does. -/
theorem toHandler_request (u : UserHandler ω) (i : ℕ) (ctx : HttpContext) (req : Request)
    (s : World ω) : (u.toHandler i).handleRequest ctx req s =
      ⟨.ok (u.handleRequest ctx req s.ext).1,
        { s with ext := (u.handleRequest ctx req s.ext).2 },
        [.request i ctx req (decision (u.handleRequest ctx req s.ext).1.1)]⟩ := rfl

/-- **The stack asks its handlers in order**, up to the first that does not forward, and
forwards if all of them do. -/
theorem stack_requestCalls : ∀ (users : List (UserHandler ω)) (i : ℕ) (ctx : HttpContext)
    (req : Request) (s : World ω),
    ∃ r, (HandlerStack.handleRequest (numbered users i) ctx req s).result = .ok r ∧
      RequestCalls (i + users.length) i
        (HandlerStack.handleRequest (numbered users i) ctx req s).events
        (decide (decision r.1 = .forward)) := by
  intro users
  induction users with
  | nil => intro i ctx req s; exact ⟨_, rfl, RequestCalls.all⟩
  | cons u us ih =>
    intro i ctx req s
    rw [numbered_cons]
    have hlen : i + (u :: us).length = i + 1 + us.length := by
      rw [List.length_cons]; omega
    have hi : i < i + (u :: us).length := by rw [hlen]; omega
    unfold HandlerStack.handleRequest
    show ∃ r, (Proc.bind ((u.toHandler i).handleRequest ctx req) _ s).result = .ok r ∧
      RequestCalls _ i (Proc.bind ((u.toHandler i).handleRequest ctx req) _ s).events _
    unfold Proc.bind
    rw [toHandler_request]
    rcases hu : u.handleRequest ctx req s.ext with ⟨⟨r, ctx'⟩, w⟩
    rcases r with e | q | q
    · exact ⟨_, rfl, RequestCalls.stop ctx req hi fun hd => nomatch hd⟩
    · -- the handler forwards: the rest of the stack goes on
      obtain ⟨r, hr, hcalls⟩ := ih (i + 1) ctx' q ⟨w, s.requestId⟩
      refine ⟨r, hr, RequestCalls.forward ctx req hi ?_⟩
      rw [hlen]; exact hcalls
    · exact ⟨_, rfl, RequestCalls.stop ctx req hi fun hd => nomatch hd⟩

/-- A user's handler that keeps `inv` of the context and the request when it forwards. -/
def UserHandler.Respects (inv : HttpContext → Request → Prop) (u : UserHandler ω) : Prop :=
  ∀ ctx req w q ctx' w', inv ctx req →
    u.handleRequest ctx req w = ((.ok (.request q), ctx'), w') → inv ctx' q

/-- **What all handlers keep, the stack keeps**, and each of them sees. -/
theorem stack_respects {inv : HttpContext → Request → Prop} : ∀ (users : List (UserHandler ω))
    (i : ℕ) (ctx : HttpContext) (req : Request), (∀ u ∈ users, u.Respects inv) → inv ctx req →
    Ensures Event.isContact 0 (HandlerStack.handleRequest (numbered users i) ctx req)
      (fun r => ∀ q, r.1 = .ok (.request q) → inv r.2 q)
      (fun e => ∃ j ctx' q d, e = .request j ctx' q d ∧ inv ctx' q) := by
  intro users
  induction users with
  | nil =>
    intro i ctx req _ hinv
    apply ensures_pure
    intro q hq
    simp only [Except.ok.injEq, RequestOrResponse.request.injEq] at hq
    rw [← hq]
    exact hinv
  | cons u us ih =>
    intro i ctx req hus hinv
    have hu := hus u List.mem_cons_self
    rw [numbered_cons]
    unfold HandlerStack.handleRequest
    -- the first handler's own call
    have hcall : Ensures Event.isContact 0 ((u.toHandler i).handleRequest ctx req)
        (fun r => ∀ q, r.1 = .ok (.request q) → inv r.2 q)
        (fun e => ∃ j ctx' q d, e = .request j ctx' q d ∧ inv ctx' q) := by
      intro s
      rw [toHandler_request]
      refine ⟨Nat.le_refl 0, ?_, ?_⟩
      · intro e he
        exact ⟨i, ctx, req, _, List.mem_singleton.1 he, hinv⟩
      · intro r hr q hq
        have hr' : (u.handleRequest ctx req s.ext).1 = r := Except.ok.inj hr
        rcases hx : u.handleRequest ctx req s.ext with ⟨⟨r₀, ctx'⟩, w⟩
        rw [hx] at hr'
        subst hr'
        simp only at hq
        rw [hq] at hx
        exact hu ctx req s.ext q ctx' w hinv hx
    apply ensures_bind hcall
    rintro ⟨r, ctx'⟩ hr
    -- only a request goes on to the others
    rcases r with e | q | q
    · exact ensures_pure fun q hq => nomatch hq
    · exact ih (i + 1) ctx' q (fun v hv => hus v (List.mem_cons_of_mem u hv)) (hr q rfl)
    · exact ensures_pure fun q hq => nomatch hq

section RequestCalls

variable {n i : ℕ} {es : List Event} {b : Bool}

/-- All the events of the handlers are calls, in order. -/
theorem RequestCalls.mem (h : RequestCalls n i es b) : ∀ e ∈ es,
    ∃ j ctx req d, e = .request j ctx req d ∧ i ≤ j ∧ j < n ∧ (b = true → d = .forward) := by
  induction h with
  | all => intro e he; exact absurd he List.not_mem_nil
  | @forward i es b ctx req hi h ih =>
    intro e he
    rcases List.mem_cons.1 he with rfl | he
    · exact ⟨i, ctx, req, .forward, rfl, le_refl i, hi, fun _ => rfl⟩
    · obtain ⟨j, ctx', req', d, rfl, hj, hjn, hb⟩ := ih e he
      exact ⟨j, ctx', req', d, rfl, by omega, hjn, hb⟩
  | @stop i ctx req d hi hd =>
    intro e he
    rw [List.mem_singleton] at he
    exact ⟨i, ctx, req, d, he, le_refl i, hi, fun hb => absurd hb Bool.false_ne_true⟩

/-- If all forward, each has been asked and has forwarded. -/
theorem RequestCalls.forwards (h : RequestCalls n i es b) (hb : b = true) :
    ∀ j, i ≤ j → j < n → ∃ ctx req, Event.request j ctx req .forward ∈ es := by
  induction h with
  | all => intro j hj hjn; omega
  | @forward i es b ctx req hi h ih =>
    intro j hj hjn
    rcases Nat.eq_or_lt_of_le hj with rfl | hlt
    · exact ⟨ctx, req, List.mem_cons_self⟩
    · obtain ⟨ctx', req', hm⟩ := ih hb j hlt hjn
      exact ⟨ctx', req', List.mem_cons_of_mem _ hm⟩
  | stop => exact absurd hb Bool.false_ne_true

/-- A handler that does not forward is the last one asked. -/
theorem RequestCalls.last (h : RequestCalls n i es b) {pre post : List Event} {j : ℕ}
    {ctx : HttpContext} {req : Request} {d : Decision}
    (hes : es = pre ++ .request j ctx req d :: post) (hd : d ≠ .forward) : post = [] := by
  induction h generalizing pre with
  | all => exact absurd hes.symm (by simp)
  | forward ctx' req' hi h ih =>
    rcases pre with _ | ⟨e, pre⟩
    · simp only [List.nil_append, List.cons.injEq, Event.request.injEq] at hes
      exact absurd hes.1.2.2.2.symm hd
    · simp only [List.cons_append, List.cons.injEq] at hes
      exact ih hes.2
  | stop ctx' req' hi hd' =>
    rcases pre with _ | ⟨e, pre⟩
    · simp only [List.nil_append, List.cons.injEq] at hes
      exact hes.2.symm
    · simp only [List.cons_append, List.cons.injEq] at hes
      exact absurd hes.2.symm (by simp)

/-- No handler behind one that does not forward is asked. -/
theorem RequestCalls.behind (h : RequestCalls n i es b) {j k : ℕ} {ctx ctx' : HttpContext}
    {req req' : Request} {d d' : Decision} (hj : Event.request j ctx req d ∈ es)
    (hd : d ≠ .forward) (hk : Event.request k ctx' req' d' ∈ es) : k ≤ j := by
  induction h with
  | all => exact absurd hj List.not_mem_nil
  | @forward i es b ctx₀ req₀ hi h ih =>
    rcases List.mem_cons.1 hj with hj | hj
    · simp only [Event.request.injEq] at hj
      exact absurd hj.2.2.2 hd
    rcases List.mem_cons.1 hk with hk | hk
    · simp only [Event.request.injEq] at hk
      obtain ⟨_, _, _, _, he, hij, _⟩ := h.mem _ hj
      simp only [Event.request.injEq] at he
      omega
    · exact ih hj hk
  | @stop i ctx₀ req₀ d₀ hi hd₀ =>
    rw [List.mem_singleton] at hj hk
    simp only [Event.request.injEq] at hj hk
    omega

/-- **What the handlers are promised**, if what follows their calls keeps to their answer. -/
theorem RequestCalls.guarded (h : RequestCalls n 0 es b) {rest : List Event}
    (hreq : ∀ e ∈ rest, e.isRequestCall = false) (honce : rest.countP Event.isContact ≤ 1)
    (hstop : b = false → ∀ e ∈ rest, e.isResponseCall = false ∧ e.isContact = false) :
    Guarded n (es ++ rest) := by
  have hes : ∀ e ∈ es, e.isRequestCall = true ∧ e.isResponseCall = false ∧
      e.isContact = false := by
    intro e he
    obtain ⟨_, _, _, _, rfl, -⟩ := h.mem e he
    exact ⟨rfl, rfl, rfl⟩
  have hcount : es.countP Event.isContact = 0 := by
    rw [List.countP_eq_zero]
    intro e he
    rw [(hes e he).2.2]; exact Bool.false_ne_true
  -- a call found in the whole trace is one of the handlers' own
  have hcall : ∀ {j ctx req d}, Event.request j ctx req d ∈ es ++ rest →
      Event.request j ctx req d ∈ es := by
    intro j ctx req d hm
    rcases List.mem_append.1 hm with hm | hm
    · exact hm
    · exact absurd (hreq _ hm) (by simp [Event.isRequestCall])
  have hfalse : ∀ {j ctx req d}, Event.request j ctx req d ∈ es → d ≠ .forward → b = false := by
    intro j ctx req d hm hd
    obtain ⟨_, _, _, _, he, -, -, hb⟩ := h.mem _ hm
    simp only [Event.request.injEq] at he
    rcases b with _ | _
    · rfl
    · exact absurd (he.2.2.2.trans (hb rfl)) hd
  refine ⟨?_, ?_, ?_, ?_, ?_⟩
  · rw [List.countP_append, hcount]; omega
  · intro pre e post hsplit he j hj
    rcases List.append_eq_append_iff.1 hsplit with ⟨mid, hpre, hrest⟩ | ⟨mid, hpre, hrest⟩
    · -- the contact comes after the calls
      have hb : b = true := by
        by_contra hb
        have hm : e ∈ rest := by rw [hrest]; simp
        have := (hstop (by simpa using hb) e hm).2
        rw [he] at this; exact absurd this (by simp)
      obtain ⟨ctx, req, hm⟩ := h.forwards hb j (Nat.zero_le j) hj
      exact ⟨ctx, req, by rw [hpre]; exact List.mem_append_left _ hm⟩
    · rcases mid with _ | ⟨x, mid⟩
      · have hb : b = true := by
          by_contra hb
          have hm : e ∈ rest := by rw [List.nil_append] at hrest; rw [← hrest]; simp
          have := (hstop (by simpa using hb) e hm).2
          rw [he] at this; exact absurd this (by simp)
        obtain ⟨ctx, req, hm⟩ := h.forwards hb j (Nat.zero_le j) hj
        rw [List.append_nil] at hpre
        exact ⟨ctx, req, by rw [← hpre]; exact hm⟩
      · rw [List.cons_append, List.cons.injEq] at hrest
        have hm : e ∈ es := by rw [hpre, hrest.1]; simp
        rw [(hes e hm).2.2] at he; exact absurd he (by simp)
  · intro pre j ctx req d post hsplit hd e he
    rcases List.append_eq_append_iff.1 hsplit with ⟨mid, hpre, hrest⟩ | ⟨mid, hpre, hrest⟩
    · exact hreq e (by rw [hrest]; simp [he])
    · rcases mid with _ | ⟨x, mid⟩
      · rw [List.nil_append] at hrest
        exact hreq e (by rw [← hrest]; simp [he])
      · rw [List.cons_append, List.cons.injEq] at hrest
        obtain ⟨rfl, rfl⟩ := hrest
        have hmid : mid = [] := h.last hpre hd
        rw [hmid, List.nil_append] at he
        exact hreq e he
  · intro j ctx req d hm hd k ctx' req' d' hk
    exact h.behind (hcall hm) hd (hcall hk)
  · intro j ctx req d hm hd e he
    rcases List.mem_append.1 he with he | he
    · exact (hes e he).2
    · exact hstop (hfalse (hcall hm) hd) e he

end RequestCalls

/-- The first handler is asked about what came in. -/
theorem stack_first (u : UserHandler ω) (us : List (UserHandler ω)) (i : ℕ) (ctx : HttpContext)
    (req : Request) (s : World ω) :
    ∃ d rest, (HandlerStack.handleRequest (numbered (u :: us) i) ctx req s).events =
      .request i ctx req d :: rest ∧ ∀ j ctx' q d', Event.request j ctx' q d' ∈ rest → i < j := by
  rw [numbered_cons]
  unfold HandlerStack.handleRequest
  show ∃ d rest, (Proc.bind ((u.toHandler i).handleRequest ctx req) _ s).events =
    .request i ctx req d :: rest ∧ _
  unfold Proc.bind
  rw [toHandler_request]
  rcases hu : u.handleRequest ctx req s.ext with ⟨⟨r, ctx'⟩, w⟩
  rcases r with e | q | q
  · exact ⟨_, [], rfl, fun _ _ _ _ h => absurd h List.not_mem_nil⟩
  · obtain ⟨r, -, hcalls⟩ := stack_requestCalls us (i + 1) ctx' q ⟨w, s.requestId⟩
    refine ⟨_, _, rfl, ?_⟩
    intro j ctx₀ q₀ d₀ hmem
    obtain ⟨k, _, _, _, he, hk, -⟩ := hcalls.mem _ hmem
    simp only [Event.request.injEq] at he
    omega
  · exact ⟨_, [], rfl, fun _ _ _ _ h => absurd h List.not_mem_nil⟩

/-- Whatever the handlers answer, asking them shows nothing but their calls. -/
theorem stack_calls (users : List (UserHandler ω)) (i : ℕ) (ctx : HttpContext) (req : Request) :
    Ensures Event.isContact 0 (HandlerStack.handleRequest (numbered users i) ctx req)
      (fun _ => True) (fun e => e.isRequestCall = true) := by
  intro s
  obtain ⟨r, -, hcalls⟩ := stack_requestCalls users i ctx req s
  have hmem : ∀ e ∈ (HandlerStack.handleRequest (numbered users i) ctx req s).events,
      e.isRequestCall = true ∧ e.isContact = false := by
    intro e he
    obtain ⟨_, _, _, _, rfl, -⟩ := hcalls.mem e he
    exact ⟨rfl, rfl⟩
  refine ⟨?_, fun e he => (hmem e he).1, fun _ _ => trivial⟩
  rw [Nat.le_zero, List.countP_eq_zero]
  intro e he
  rw [(hmem e he).2]
  exact Bool.false_ne_true

/-! ## Responses -/

/-- **The stack shows a response to its handlers in order**, each what the one before has made of
it. -/
theorem stack_responses : ∀ (users : List (UserHandler ω)) (i : ℕ) (ctx : HttpContext)
    (res : Response) (s : World ω),
    ∃ r, (HandlerStack.handleResponse (numbered users i) ctx res s).result = .ok r ∧
      ResponseCalls users i res (HandlerStack.handleResponse (numbered users i) ctx res s).events
        r.1.toOption := by
  intro users
  induction users with
  | nil => intro i ctx res s; exact ⟨_, rfl, ResponseCalls.done i res⟩
  | cons u us ih =>
    intro i ctx res s
    rw [numbered_cons]
    unfold HandlerStack.handleResponse
    show ∃ r, (Proc.bind ((u.toHandler i).handleResponse ctx res) _ s).result = .ok r ∧
      ResponseCalls _ i res (Proc.bind ((u.toHandler i).handleResponse ctx res) _ s).events _
    have hcall : (u.toHandler i).handleResponse ctx res s =
        ⟨.ok (u.handleResponse ctx res s.ext).1,
          { s with ext := (u.handleResponse ctx res s.ext).2 }, [.response i ctx res]⟩ := rfl
    unfold Proc.bind
    rw [hcall]
    rcases hu : u.handleResponse ctx res s.ext with ⟨⟨r, ctx'⟩, w⟩
    rcases r with e | out
    · exact ⟨_, rfl, ResponseCalls.fail u us i ctx res s.ext e (by rw [hu])⟩
    · obtain ⟨r, hr, hcalls⟩ := ih (i + 1) ctx' out ⟨w, s.requestId⟩
      exact ⟨r, hr, ResponseCalls.next u us i ctx res out s.ext _ _ (by rw [hu]) hcalls⟩

section ResponseCalls

variable {users : List (UserHandler ω)} {i : ℕ} {res : Response} {es : List Event}
  {final : Option Response}

/-- All the events of the handlers are calls, in order; the first is about the response itself. -/
theorem ResponseCalls.mem (h : ResponseCalls users i res es final) : ∀ e ∈ es,
    ∃ j ctx res', e = .response j ctx res' ∧ i ≤ j ∧ (j = i → res' = res) := by
  induction h with
  | done => intro e he; exact absurd he List.not_mem_nil
  | next u us i ctx res out w es final _ _ ih =>
    intro e he
    rcases List.mem_cons.1 he with rfl | he
    · exact ⟨i, ctx, res, rfl, Nat.le_refl i, fun _ => rfl⟩
    · obtain ⟨j, ctx', res', rfl, hj, -⟩ := ih e he
      exact ⟨j, ctx', res', rfl, by omega, fun hji => absurd hji (by omega)⟩
  | fail u us i ctx res w e _ =>
    intro e' he
    exact ⟨i, ctx, res, List.mem_singleton.1 he, Nat.le_refl i, fun _ => rfl⟩

end ResponseCalls

/-- A call of `handle_response` shows nothing but such calls. -/
theorem stack_responseCalls (users : List (UserHandler ω)) (i : ℕ) (ctx : HttpContext)
    (res : Response) :
    Ensures Event.isContact 0 (HandlerStack.handleResponse (numbered users i) ctx res)
      (fun _ => True) (fun e => ∃ j ctx' res', e = .response j ctx' res') := by
  intro s
  obtain ⟨r, -, hcalls⟩ := stack_responses users i ctx res s
  have hmem : ∀ e ∈ (HandlerStack.handleResponse (numbered users i) ctx res s).events,
      ∃ j ctx' res', e = Event.response j ctx' res' := by
    intro e he
    obtain ⟨j, ctx', res', rfl, -⟩ := hcalls.mem e he
    exact ⟨j, ctx', res', rfl⟩
  refine ⟨?_, hmem, fun _ _ => trivial⟩
  rw [Nat.le_zero, List.countP_eq_zero]
  intro e he
  obtain ⟨j, ctx', res', rfl⟩ := hmem e he
  exact Bool.false_ne_true

/-- What holds of all such calls holds of what the proxy's response handlers show. -/
theorem ensures_handleResponse (enabled : ω → Bool) (users : List (UserHandler ω))
    {Q : Event → Prop} (hQ : ∀ j ctx res, Q (.response j ctx res)) (ctx : HttpContext)
    (res : Response) :
    Ensures Event.isContact 0 ((proxyHandler enabled users).handleResponse ctx res)
      (fun _ => True) Q := by
  rw [proxyHandler_response]
  refine (stack_responseCalls users 0 ctx res).mono (Nat.le_refl 0) (fun _ h => h) ?_
  rintro _ ⟨j, ctx', res', rfl⟩
  exact hQ j ctx' res'

end HexbufferProxy
