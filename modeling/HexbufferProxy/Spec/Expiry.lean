import HexbufferProxy.Spec.Authority

/-!
# How long a certificate is good for

A certificate is valid for a span of time, which begins before the call that makes it. The cache
keeps it as long as the proxy runs.
-/

namespace HexbufferProxy

open Rust

variable {Key : Type} (R : Rcgen Key) (clock : ℕ → ℤ)

/-- The certificate is valid at the time `t`. -/
def ValidAt (der : Bytes) (t : ℤ) : Prop :=
  ∃ params, R.contents der = some params ∧ params.notBefore ≤ t ∧ t ≤ params.notAfter

/-- **Every certificate that a call has returned is valid at the time of the call.** -/
def AllValid (p : Pool (CertificationAuthority Key) Forge) : Prop :=
  ∀ (i : ℕ) host pair, p.calls[i]? = some (.returned host pair) → ValidAt R pair.1 (clock i)

/-- The times of the steps of a run, each that of its call. -/
def stepTimes (acts : List (Act Str)) : List ℤ :=
  acts.filterMap fun
    | .start _ => none
    | .step i => some (clock i)

/-- Time does not run backwards. -/
def InOrder (acts : List (Act Str)) : Prop := (stepTimes clock acts).Pairwise (· ≤ ·)

instance (acts : List (Act Str)) : Decidable (InOrder clock acts) :=
  inferInstanceAs (Decidable (List.Pairwise _ _))

/-- How long after it was made a certificate is still valid. -/
def lifespan : ℤ := ttlSecs - notBeforeOffsetSecs

/-- **A lookup finds no pair that another call made too long ago.** -/
def FindsYoung (n : ℕ) (ca : CertificationAuthority Key) : Forge → Prop
  | .lookup host => ∀ j pair, ca.certCache host = some pair →
    generateLeaf R ca j (clock j) host = some pair → clock n ≤ clock j + lifespan
  | _ => True

end HexbufferProxy
