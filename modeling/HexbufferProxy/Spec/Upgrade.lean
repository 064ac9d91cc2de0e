import HexbufferProxy.Model.Flow

/-!
# What an upgraded connection carries

The head of a 101 response ends at its first CRLFCRLF; every byte behind it is the first protocol
byte of the other kind, and belongs to the relay.
-/

namespace HexbufferProxy

open Rust

/-- The head of a 101 response. -/
structure SwitchingHead where
  bytes : Bytes
  complete : ∃ i, position crlfcrlf bytes = some i ∧ i + 4 = bytes.length
  code : ((lines (fromUtf8Lossy bytes)).head?.bind fun l => (splitWhitespace l)[1]?).bind
    (fromStrRadix 10 65536) = some 101

/-- What the relays that start in these events can read from the server. -/
def relayed (es : List Event) : List Bytes :=
  es.filterMap fun
    | .relay _ _ _ server => some server.bytes
    | _ => none

end HexbufferProxy
