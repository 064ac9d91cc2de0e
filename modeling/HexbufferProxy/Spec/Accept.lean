import HexbufferProxy.Spec.Reply

/-!
# What a client is told of a tunnel or an upgrade

A client is told by `200 Connection Established` that it has a tunnel, and by a head with the
status 101 that it speaks another protocol from now on.
-/

namespace HexbufferProxy

open Rust

variable {ω : Type}

/-- The client is told that the protocol is switched. -/
def Event.Tells101 : Event → Prop
  | toClient bs => lit "HTTP/1.1 101 " <+: bs
  | reply res => res.status.1 = 101
  | _ => False

/-- The handlers from number `i` on are asked about an interception, in order, up to one that does
not agree; and what comes out. -/
inductive InterceptCalls : List (UserHandler ω) → ℕ → Str → List Event → Bool → Prop
  | done (i : ℕ) (host : Str) : InterceptCalls [] i host [] true
  | next (u : UserHandler ω) (us : List (UserHandler ω)) (i : ℕ) (host : Str) (w : ω)
      (es : List Event) (answer : Bool) (h : (u.shouldInterceptTls host w).1 = true)
      (hc : InterceptCalls us (i + 1) host es answer) :
      InterceptCalls (u :: us) i host (.intercept i host true :: es) answer
  | refuse (u : UserHandler ω) (us : List (UserHandler ω)) (i : ℕ) (host : Str) (w : ω)
      (h : (u.shouldInterceptTls host w).1 = false) :
      InterceptCalls (u :: us) i host [.intercept i host false] false

/-- The flag is off, or a handler does not agree. -/
def Declined (env : Env ω) (users : List (UserHandler ω)) (host : Str) (asked : List Event) : Prop :=
  (∃ w, env.enabled w = false) ∧ asked = [] ∨
    (∃ w, env.enabled w = true) ∧ InterceptCalls users 0 host asked false

/-- The flag is on, and every handler agrees. -/
def Agreed (env : Env ω) (users : List (UserHandler ω)) (host : Str) (asked : List Event) : Prop :=
  (∃ w, env.enabled w = true) ∧ InterceptCalls users 0 host asked true

end HexbufferProxy
