import HexbufferProxy.Spec.Status
import HexbufferProxy.Spec.Wire

/-!
# Reading once more what was relayed

The upgrade branch reads a reply, which takes the framing off its body, and writes the reply again.
What it writes should read as the same reply.
-/

namespace HexbufferProxy

open Rust

/-- **These bytes read as the response `res`**, however they are cut, with a buffer of `n` bytes. -/
def ReadsAs (U : Unicode) (n : ℕ) (bytes : Bytes) (res : Response) : Prop :=
  ∀ s : Source, s.bytes = bytes → s.failure = none →
    ∃ res', upstreamReply U s n = .ok res' ∧ SameResponse res' res

end HexbufferProxy
