import HexbufferProxy.Proof.Handlers
import HexbufferProxy.Spec.Order

/-!
# Stacks of handlers

* `stack_append`: a stack of two stacks is the stack of their handlers. One induction on the first
  list for each method; what differs is when a handler ends the chain.
* `build_installs`: what `ProxyBuilder::build` installs, for any calls of the builder.
-/

namespace HexbufferProxy

open Rust Rust.Proc

variable {ω Ca : Type}

/-- Handlers with the same methods are the same. -/
theorem handler_eq {h h' : HttpHandler ω} (hreq : h.handleRequest = h'.handleRequest)
    (hres : h.handleResponse = h'.handleResponse)
    (htls : h.shouldInterceptTls = h'.shouldInterceptTls) : h = h' := by
  cases h
  cases h'
  obtain rfl := hreq
  obtain rfl := hres
  obtain rfl := htls
  rfl

/-! ## Stacks of stacks -/

/-- Behind the first handlers of a stack come the others, if these forward. -/
theorem handleRequest_append (xs ys : List (HttpHandler ω)) (ctx : HttpContext) (req : Request) :
    HandlerStack.handleRequest (xs ++ ys) ctx req =
      HandlerStack.handleRequest xs ctx req >>= fun r =>
        match r with
        | (.error e, ctx) => pure (.error e, ctx)
        | (.ok (.request req), ctx) => HandlerStack.handleRequest ys ctx req
        | (.ok (.response res), ctx) => pure (.ok (.response res), ctx) := by
  induction xs generalizing ctx req with
  | nil =>
    unfold HandlerStack.handleRequest
    rw [List.nil_append, pure_bind]
  | cons x xs ih =>
    rw [List.cons_append, HandlerStack.handleRequest, HandlerStack.handleRequest, bind_assoc]
    congr 1
    funext r
    rcases r with ⟨e | req' | res, ctx'⟩
    · rw [pure_bind]
    · exact ih ctx' req'
    · rw [pure_bind]

theorem handleResponse_append (xs ys : List (HttpHandler ω)) (ctx : HttpContext) (res : Response) :
    HandlerStack.handleResponse (xs ++ ys) ctx res =
      HandlerStack.handleResponse xs ctx res >>= fun r =>
        match r with
        | (.error e, ctx) => pure (.error e, ctx)
        | (.ok res, ctx) => HandlerStack.handleResponse ys ctx res := by
  induction xs generalizing ctx res with
  | nil =>
    unfold HandlerStack.handleResponse
    rw [List.nil_append, pure_bind]
  | cons x xs ih =>
    rw [List.cons_append, HandlerStack.handleResponse, HandlerStack.handleResponse, bind_assoc]
    congr 1
    funext r
    rcases r with ⟨e | res', ctx'⟩
    · rw [pure_bind]
    · exact ih ctx' res'

theorem shouldInterceptTls_append (xs ys : List (HttpHandler ω)) (host : Str) :
    HandlerStack.shouldInterceptTls (xs ++ ys) host =
      HandlerStack.shouldInterceptTls xs host >>= fun answer =>
        if answer then HandlerStack.shouldInterceptTls ys host else pure false := by
  induction xs with
  | nil => rfl
  | cons x xs ih =>
    rw [List.cons_append, HandlerStack.shouldInterceptTls, HandlerStack.shouldInterceptTls,
      bind_assoc]
    congr 1
    funext answer
    cases answer with
    | false => rfl
    | true => exact ih

theorem stack_intercept_single (h : HttpHandler ω) :
    HandlerStack.shouldInterceptTls [h] = h.shouldInterceptTls := by
  funext host
  have hlast : ∀ answer : Bool, (if answer then (pure true : P ω Bool) else pure false) =
      pure answer := by
    intro answer
    cases answer <;> rfl
  show (h.shouldInterceptTls host >>= fun answer =>
    if answer then (pure true : P ω Bool) else pure false) = _
  simp only [hlast, bind_pure]

/-- A stack of one handler is the handler. -/
theorem stack_single (h : HttpHandler ω) : HandlerStack [h] = h :=
  handler_eq (stack_request_single h) (stack_response_single h) (stack_intercept_single h)

/-- **A stack of stacks is the stack of all their handlers**: the same results, the same calls,
the same contexts. -/
theorem stack_append (xs ys : List (HttpHandler ω)) :
    HandlerStack (xs ++ ys) = HandlerStack [HandlerStack xs, HandlerStack ys] := by
  have hreq : HandlerStack.handleRequest (xs ++ ys) =
      HandlerStack.handleRequest [HandlerStack xs, HandlerStack ys] := by
    funext ctx req
    rw [handleRequest_append, HandlerStack.handleRequest, stack_request_single]
    rfl
  have hres : HandlerStack.handleResponse (xs ++ ys) =
      HandlerStack.handleResponse [HandlerStack xs, HandlerStack ys] := by
    funext ctx res
    rw [handleResponse_append, HandlerStack.handleResponse, stack_response_single]
    rfl
  have htls : HandlerStack.shouldInterceptTls (xs ++ ys) =
      HandlerStack.shouldInterceptTls [HandlerStack xs, HandlerStack ys] := by
    funext host
    rw [shouldInterceptTls_append, HandlerStack.shouldInterceptTls, stack_intercept_single]
    rfl
  exact handler_eq hreq hres htls

/-! ## What the builder installs -/

theorem buildHandler_stack (flag : ω → Bool) (handlers : List (HttpHandler ω)) :
    buildHandler flag handlers = EnabledWrapperHandler flag (HandlerStack handlers) := by
  rcases handlers with _ | ⟨h, _ | ⟨h', hs⟩⟩
  · rfl
  · show EnabledWrapperHandler flag h = _
    rw [stack_single]
  · rfl

/-- Where no call replaces the handlers, all that are named stay. -/
theorem registered_kept {calls : List (BuilderCall ω Ca)}
    (h : calls.any BuilderCall.replaces = false) :
    registered calls = calls.filterMap BuilderCall.handler? := by
  cases calls with
  | nil => rfl
  | cons c cs =>
    rw [List.any_cons, Bool.or_eq_false_iff] at h
    unfold registered
    rw [h.2, if_neg Bool.false_ne_true]

/-- The handlers of a builder after some calls. -/
theorem handlers_calls (calls : List (BuilderCall ω Ca)) (b : ProxyBuilder ω Ca) :
    (calls.foldl ProxyBuilder.apply b).handlers =
      if calls.any BuilderCall.replaces then registered calls
      else b.handlers ++ registered calls := by
  induction calls generalizing b with
  | nil => exact (List.append_nil b.handlers).symm
  | cons c cs ih =>
    rw [List.foldl_cons, ih, List.any_cons]
    cases hcs : cs.any BuilderCall.replaces with
    | true =>
      -- what comes before the last replacement is forgotten
      have hlater : registered (c :: cs) = registered cs := by
        rw [registered, hcs, if_pos rfl]
      rw [Bool.or_true, if_pos rfl, if_pos rfl, hlater]
    | false =>
      rw [registered_kept hcs, registered, hcs, if_neg Bool.false_ne_true,
        if_neg Bool.false_ne_true, Bool.or_false, List.filterMap_cons]
      cases c with
      | withHttpHandler h => rfl
      | addHttpHandler h => exact List.append_assoc b.handlers [h] _
      | withAddr addr => rfl
      | withCa ca => rfl
      | withWsHandler ws => rfl
      | withRequestBufferSize size => rfl
      | withEnabled on => rfl
      | withCertDir dir => rfl

/-- **`ProxyBuilder::build` installs the stack of the handlers registered since the last
`with_http_handler`**, whichever form it gives it. -/
theorem build_installs (newIn : Str → Except Fault Ca) (flag : ω → Bool)
    (calls : List (BuilderCall ω Ca)) :
    ((calls.foldl ProxyBuilder.apply .new).build newIn flag).map Proxy.handler =
      ((calls.foldl ProxyBuilder.apply .new).authority newIn).map fun _ =>
        EnabledWrapperHandler flag (HandlerStack (registered calls)) := by
  have hhandlers : (calls.foldl ProxyBuilder.apply .new).handlers = registered calls := by
    rw [handlers_calls]
    split
    · rfl
    · exact List.nil_append _
  unfold ProxyBuilder.build
  rw [hhandlers, buildHandler_stack]
  cases (calls.foldl ProxyBuilder.apply .new).authority newIn <;> rfl

/-- **Stacks compose**: a stack of two stacks is the stack of their handlers, and a built proxy
asks the stack of those registered since the last `with_http_handler`. Handlers are equal when
their results, their calls and what they do to the context and to their state are. -/
theorem stacks_compose :
    (∀ xs ys : List (HttpHandler ω),
      HandlerStack (xs ++ ys) = HandlerStack [HandlerStack xs, HandlerStack ys]) ∧
    ∀ (newIn : Str → Except Fault Ca) (flag : ω → Bool) (calls : List (BuilderCall ω Ca)),
      ((calls.foldl ProxyBuilder.apply .new).build newIn flag).map Proxy.handler =
        ((calls.foldl ProxyBuilder.apply .new).authority newIn).map fun _ =>
          EnabledWrapperHandler flag (HandlerStack (registered calls)) :=
  ⟨stack_append, build_installs⟩

end HexbufferProxy
