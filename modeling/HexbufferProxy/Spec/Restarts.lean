import HexbufferProxy.Spec.Authority

/-!
# A proxy that is started again and again

A process calls `new_in` once, and may come to its end in the middle of the call. The next one finds
what it has left in the directory. Who trusts the certificate of one process should not have to
trust another one later.
-/

namespace HexbufferProxy

open Rust

variable {Key : Type} (R : Rcgen Key)

/-- Processes one after the other, from number `i` on. Each is given by how many steps of `new_in`
it takes. -/
def restarts : ℕ → List ℕ → List (Act Unit)
  | _, [] => []
  | i, k :: ks => .start () :: List.replicate k (.step i) ++ restarts (i + 1) ks

/-- The steps of a call that is not interrupted, at most. -/
def newInSteps : ℕ := 6

/-- There is no key in the directory, or one with its certificate. -/
def CertDir.Sound (d : CertDir) : Prop :=
  d.key = none ∨
    ∃ pem k, d.cert = some pem ∧ d.key = some (R.serializePem k) ∧ R.pemCertifies pem k

/-- The pair is a certificate for the host with the key that it certifies, made at a time of the
clock and signed with `caKey`. -/
def IssuedBy (clock : ℕ → ℤ) (caKey : Key) (host : Str) (pair : Bytes × Bytes) : Prop :=
  ∃ n params k, leafParams R (clock n) host = some params ∧
    R.signedBy params k ⟨buildCaParams R, caKey⟩ n = some pair.1 ∧ R.contents pair.1 = some params ∧
    R.derCertifies pair.1 k ∧ pair.2 = R.serializeDer k

/-- **All that `forge_certificate` returns on this CA is signed with its key**, however its calls
meet. -/
def CertificationAuthority.Signs (ca : CertificationAuthority Key) : Prop :=
  ∀ clock acts (i : ℕ) host pair,
    (Pool.run (forgeCertificate R clock) ⟨ca, []⟩ acts).calls[i]? = some (.returned host pair) →
      IssuedBy R clock ca.caKey host pair

end HexbufferProxy
