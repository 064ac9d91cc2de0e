import HexbufferProxy.Spec.Wire

/-!
# The normal form of a message

A hop reads a message and writes it again. It may write other bytes than it has read: names in
lower case, values without the blanks around them, the fields of one name together, the words of the
first line one blank apart. The next hop should find nothing left to change.
-/

namespace HexbufferProxy

open Rust

/-- The fields of each name stand together. -/
def HeaderMap.Grouped : HeaderMap → Prop
  | [] => True
  | p :: m => (p.1 ∉ m.map Prod.fst ∨ (m.map Prod.fst).head? = some p.1) ∧ Grouped m

/-- What a hop sends for the bytes of a request. -/
def rewriteRequest (http : HttpCrate) (raw : Bytes) : Except Fault Bytes :=
  (parseRawRequest http raw).map serializeRequest

/-- What a hop sends for the bytes of a response. -/
def rewriteResponse (http : HttpCrate) (raw : Bytes) : Except Fault Bytes :=
  (parseRawResponse raw).map (serializeResponse http)

/-- What comes out behind `k` hops. -/
def hops (hop : Bytes → Except Fault Bytes) : ℕ → Bytes → Except Fault Bytes
  | 0, raw => .ok raw
  | k + 1, raw => hop raw >>= hops hop k

/-- The text of a URI is a URI with that text. -/
def HttpCrate.Reparses (http : HttpCrate) : Prop :=
  ∀ s u, http.parseUri s = some u → ∃ u', http.parseUri u.display = some u' ∧
    u'.display = u.display

end HexbufferProxy
