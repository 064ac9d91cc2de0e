import HexbufferProxy.Spec.Head
import HexbufferProxy.Model.Message
import HexbufferProxy.Spec.Forward

/-!
# What the upgrade branch takes for the upstream's status

The branch reads a response off the upstream's stream and parses what it has read. A status is the
upstream's own if the stream begins with a status line that says so, up to its line end.
-/

namespace HexbufferProxy

open Rust

/-- A status line: the version, a code of three digits, and what stands behind it. -/
structure StatusLine where
  version : Str
  code : Digits 10
  reason : Bytes
  version_text : ∀ c ∈ version, 32 < c.toNat ∧ c.toNat < 127
  code_length : code.length = 3
  reason_line : ∀ b ∈ reason, b ≠ 13 ∧ b ≠ 10
  reason_space : reason = [] ∨ reason.head? = some 32

/-- The line, without its end. -/
def StatusLine.bytes (l : StatusLine) : Bytes :=
  encode ("HTTP/".toList ++ l.version ++ ' ' :: l.code.text) ++ l.reason

/-- **`w` begins with a complete status line, which has this code.** -/
def BeginsWithStatus (w : Bytes) (code : ℕ) : Prop :=
  ∃ l : StatusLine, l.bytes ++ [13, 10] <+: w ∧ l.code.value = code

/-- What the upgrade branch takes for the upstream's response. -/
def upstreamReply (U : Unicode) (s : Source) (n : ℕ) : Except Fault Response :=
  (readFullResponse U s n).1.bind parseRawResponse

end HexbufferProxy
