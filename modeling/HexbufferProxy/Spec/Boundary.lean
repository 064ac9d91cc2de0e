import HexbufferProxy.Spec.Validity

/-!
# Where a head ends

Twice: where the header loop stops reading lines, and where the body is cut off. `unread` is what
the loop leaves, `bodyAfterHead` what becomes the body; both are ends of the same bytes.
-/

namespace HexbufferProxy

open Rust

/-- What is behind the first `n` lines. -/
def afterLines : ℕ → Bytes → Bytes
  | 0, bs => bs
  | n + 1, bs => afterLines n (bs.dropWhile (· ≠ 10)).tail

/-- What the header loop leaves: it has read the first line, the field lines, and the empty line
behind them. -/
def unread (raw : Bytes) : Bytes := afterLines ((fieldLines raw).length + 2) raw

/-- The last line is empty, and it is not the first. -/
def EndsInEmptyLine (p : Bytes) : Prop := [10, 10] <:+ p ∨ [10, 13, 10] <:+ p

/-- The first line, and all that follows up to an empty line. -/
structure IsHead (head : Bytes) : Prop where
  ends : EndsInEmptyLine head
  first : ∀ p, p <+: head → EndsInEmptyLine p → p = head

/-- The head, when something follows it, ends in CRLFCRLF. -/
def HeadEndsInCrlf (raw : Bytes) : Prop :=
  ∀ head rest, raw = head ++ rest → IsHead head → rest = [] ∨ crlfcrlf <:+ head

end HexbufferProxy
