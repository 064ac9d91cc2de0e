import HexbufferProxy.Model.Authority

/-!
# What the certification authority promises

A CA signs with the key that its certificate certifies, and a host keeps the certificate it once
had. Both hold of calls that do not meet; what they need of each other is stated here as a guard on
single steps.
-/

namespace HexbufferProxy

open Rust

variable {Key : Type} (R : Rcgen Key)

/-! ## `new_in` -/

/-- The certificate certifies the key that signs. -/
def CertificationAuthority.Certified (ca : CertificationAuthority Key) : Prop :=
  R.pemCertifies ca.caCertPem ca.caKey

/-- Every CA that a call has returned is certified. -/
def AllCertified (p : Pool CertDir (NewIn Key)) : Prop :=
  ∀ (i : ℕ) ca, p.calls[i]? = some (.returned ca) → ca.Certified R

/-- **An empty directory, or one that an earlier call has written**, from which either file may have
been deleted. -/
def Written (d : CertDir) : Prop :=
  d.cert = none ∧ d.key = none ∨
    ∃ k n pem, R.selfSigned (buildCaParams R) k n = some pem ∧
      (d.cert = none ∨ d.cert = some pem) ∧
      (d.key = none ∨ d.key = some (R.serializePem k))

/-- **A call writes `ca.pem` only where there is no `ca-key.pem`, and `ca-key.pem` only where
`ca.pem` is the one it has written.** -/
def WritesOwnPair (_ : ℕ) (d : CertDir) : NewIn Key → Prop
  | .writeCert _ _ => d.key = none
  | .writeKey _ caCertPem => d.cert = some caCertPem
  | _ => True

/-- No two calls generate the same key, nor one that is in the directory already. -/
structure FreshKeys (d : CertDir) : Prop where
  distinct : ∀ i j k, R.generate i = some k → R.generate j = some k → i = j
  unused : ∀ i k, R.generate i = some k → d.key ≠ some (R.serializePem k)

/-! ## `forge_certificate` -/

/-- The pair is a certificate for the host and the key in it. -/
def LeafFor (host : Str) (pair : Bytes × Bytes) : Prop :=
  ∃ k params, R.derCertifies pair.1 k ∧ pair.2 = R.serializeDer k ∧
    R.contents pair.1 = some params ∧ .dnsName host ∈ params.subjectAltNames ∧
    params.distinguishedName = [(.commonName, host)]

/-- **Once a call has returned a pair for a host, every call for this host that starts later returns
the same pair.** -/
def SamePair (clock : ℕ → ℤ) (ca : CertificationAuthority Key) (acts : List (Act Str)) : Prop :=
  ∀ before after, acts = before ++ after → ∀ (i j : ℕ) host pair pair',
    (Pool.run (forgeCertificate R clock) ⟨ca, []⟩ before).calls[i]? = some (.returned host pair) →
    (Pool.run (forgeCertificate R clock) ⟨ca, []⟩ before).calls.length ≤ j →
    (Pool.run (forgeCertificate R clock) ⟨ca, []⟩ acts).calls[j]? = some (.returned host pair') →
    pair' = pair

/-- **A call inserts only where the cache has nothing for the host.** -/
def InsertsFirst (_ : ℕ) (ca : CertificationAuthority Key) : Forge → Prop
  | .insert host _ => ca.certCache host = none
  | _ => True

/-- No two calls generate keys with the same DER. -/
def FreshLeaves : Prop :=
  ∀ i j k k', R.generate i = some k → R.generate j = some k' →
    R.serializeDer k = R.serializeDer k' → i = j

end HexbufferProxy
