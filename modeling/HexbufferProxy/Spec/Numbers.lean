import HexbufferProxy.Model.Begun
import HexbufferProxy.Spec.Upstream

/-!
# The numbers of requests

`REQUEST_ID` is one counter for all connections. The first handler is told the number of each
request; it is what tells two requests apart.
-/

namespace HexbufferProxy

open Rust

/-- The number under which the first handler is shown a request. -/
def Event.shownId : Event → List UInt64
  | .request 0 ctx _ _ => [ctx.id]
  | _ => []

/-- The next `k` numbers of the counter, which wraps around. -/
def idsFrom (id : UInt64) (k : ℕ) : List UInt64 := (List.range k).map fun i => id + UInt64.ofNat i

/-- The numbers of the requests that have begun. -/
def Busy.waiting {ω : Type} (b : Busy ω) : List UInt64 := b.begun.map fun r => r.ctx.id

end HexbufferProxy
