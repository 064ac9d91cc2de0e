import HexbufferProxy.Model.Flow

/-!
# What the proxy does for a request, seen from outside

A contact is an event that reaches an upstream: a connection, a request of the pooled client, a
WebSocket handshake. `Guarded n` is what `n` handlers are promised of the events of one request:
all of them have forwarded it before anything reaches an upstream, and one that does not forward
it has the last word.
-/

namespace HexbufferProxy

open Rust

namespace Event

/-- An upstream is contacted. -/
def isContact : Event → Bool
  | connect _ | sendRequest _ | wsConnect _ => true
  | _ => false

/-- A handler's `handle_request` is called. -/
def isRequestCall : Event → Bool
  | request .. => true
  | _ => false

/-- A handler's `handle_response` is called. -/
def isResponseCall : Event → Bool
  | response .. => true
  | _ => false

/-- Bytes and responses that go to one of the two ends. -/
def isTransfer : Event → Bool
  | toServer _ | toClient _ | shutdownClient | reply _ | relayUpgraded .. => true
  | _ => false

end Event

/-- **The order of events that `n` handlers may rely on.** -/
structure Guarded (n : ℕ) (es : List Event) : Prop where
  /-- One contact at most. -/
  once : es.countP Event.isContact ≤ 1
  /-- Every handler has forwarded the request before the contact. -/
  forwarded : ∀ pre e post, es = pre ++ e :: post → e.isContact = true →
    ∀ i < n, ∃ ctx req, Event.request i ctx req .forward ∈ pre
  /-- After a handler that does not forward, no other is asked. -/
  last : ∀ pre i ctx req d post, es = pre ++ Event.request i ctx req d :: post → d ≠ .forward →
    ∀ e ∈ post, e.isRequestCall = false
  /-- A handler behind the one that does not forward is not asked at all. -/
  behind : ∀ i ctx req d, Event.request i ctx req d ∈ es → d ≠ .forward →
    ∀ j ctx' req' d', Event.request j ctx' req' d' ∈ es → j ≤ i
  /-- Where one does not forward, nobody sees a response and no upstream is contacted. -/
  refused : ∀ i ctx req d, Event.request i ctx req d ∈ es → d ≠ .forward →
    ∀ e ∈ es, e.isResponseCall = false ∧ e.isContact = false

end HexbufferProxy
