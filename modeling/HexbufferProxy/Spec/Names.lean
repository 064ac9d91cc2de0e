import HexbufferProxy.Model.Authority
import HexbufferProxy.Model.Flow

/-!
# The name in a CONNECT request

The client chooses the bytes; what stands in the place of the host goes into a certificate.
-/

namespace HexbufferProxy

open Rust

/-- The second word of the first line of a request, up to its first colon. -/
def connectName (raw : Bytes) : Option Str :=
  ((lines (fromUtf8Lossy raw)).head?.bind fun l => (splitWhitespace l)[1]?).map (splitFirst ':')

/-- `str::is_ascii`. -/
def IsAscii (name : Str) : Prop := ∀ c ∈ name, c.toNat < 128

instance (name : Str) : Decidable (IsAscii name) := inferInstanceAs (Decidable (∀ c ∈ name, _))

variable {Key : Type} (R : Rcgen Key) (clock : ℕ → ℤ)

/-- What is relied on of `rcgen`: an `Ia5String` takes exactly the ASCII names, a key can be generated,
and what `forge_certificate` asks to be signed is signed. -/
structure Rcgen.Issues : Prop where
  isIa5 : ∀ name, R.isIa5 name = true ↔ IsAscii name
  generate : ∀ n, (R.generate n).isSome
  signedBy : ∀ now host params k issuer n, leafParams R now host = some params →
    (R.signedBy params k issuer n).isSome

/-- How many steps call `k` takes. -/
def stepsOf (k : ℕ) (acts : List (Act Str)) : ℕ :=
  acts.countP fun
    | .start _ => false
    | .step i => i = k

/-- **The next call is for this host. It never panics, whatever the calls do from then on, and its
third step, if not one before, returns a certificate.** -/
def Ends (p : Pool (CertificationAuthority Key) Forge) (host : Str) : Prop :=
  ∀ more,
    (∀ msg, (Pool.run (forgeCertificate R clock) p (.start host :: more)).calls[p.calls.length]? ≠
      some (.panicked msg)) ∧
    (3 ≤ stepsOf p.calls.length more → ∃ pair,
      (Pool.run (forgeCertificate R clock) p (.start host :: more)).calls[p.calls.length]? =
        some (.returned host pair))

end HexbufferProxy
