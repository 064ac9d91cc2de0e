import HexbufferProxy.Rust.Interleave
import HexbufferProxy.Rust.Utf8

/-!
# The certification authority (`ca.rs`)

`new_in` loads the CA from the two files of its directory, or generates it and writes them;
`forge_certificate` makes a certificate for a host, once for each host that the cache does not have.
Both are given by the steps that other calls can come between: one operation on the file system,
one locked section of the cache.

Keys and signatures are random. What `rcgen` makes of the random bits of a call depends here on
the number of the call.
-/

namespace HexbufferProxy

open Rust

inductive DnType where
  | commonName
deriving DecidableEq

inductive SanType where
  | dnsName (name : Str)
deriving DecidableEq

inductive IsCa where
  | noCa
  /-- Of `BasicConstraints::Unconstrained`. -/
  | ca
deriving DecidableEq

inductive KeyUsagePurpose where
  | digitalSignature
  | keyEncipherment
  | keyCertSign
deriving DecidableEq

inductive ExtendedKeyUsagePurpose where
  | serverAuth
deriving DecidableEq

/-- `rcgen::CertificateParams`, as far as `ca.rs` sets it. Times are seconds of the Unix epoch. -/
structure CertificateParams where
  notBefore : ℤ
  notAfter : ℤ
  subjectAltNames : List SanType
  distinguishedName : List (DnType × Str)
  isCa : IsCa
  keyUsages : List KeyUsagePurpose
  extendedKeyUsages : List ExtendedKeyUsagePurpose
  useAuthorityKeyIdentifierExtension : Bool
deriving DecidableEq

variable {Key : Type}

/-- `rcgen::Issuer`. -/
structure Issuer (Key : Type) where
  params : CertificateParams
  key : Key

/-- What `ca.rs` uses of `rcgen`, and what can be seen of the certificates it makes. -/
structure Rcgen (Key : Type) where
  /-- `CertificateParams::default`. -/
  defaultParams : CertificateParams
  /-- Whether `Ia5String::try_from` accepts a name. -/
  isIa5 : Str → Bool
  /-- `KeyPair::generate`, in one call. -/
  generate : ℕ → Option Key
  /-- `CertificateParams::self_signed` and `Certificate::pem`. -/
  selfSigned : CertificateParams → Key → ℕ → Option Str
  /-- `CertificateParams::signed_by` and `Certificate::der`. -/
  signedBy : CertificateParams → Key → Issuer Key → ℕ → Option Bytes
  /-- `KeyPair::serialize_pem`. -/
  serializePem : Key → Str
  /-- `KeyPair::serialize_der`. -/
  serializeDer : Key → Bytes
  /-- `KeyPair::from_pem`. -/
  fromPem : Str → Option Key
  /-- The certificate in this PEM has the public key of this pair. -/
  pemCertifies : Str → Key → Prop
  /-- The certificate in this DER has the public key of this pair. -/
  derCertifies : Bytes → Key → Prop
  /-- What the certificate in this DER says. -/
  contents : Bytes → Option CertificateParams

/-- The documented behaviour of `rcgen`. -/
structure Rcgen.Lawful (R : Rcgen Key) : Prop where
  fromPem : ∀ k, R.fromPem (R.serializePem k) = some k
  selfSigned : ∀ params k n pem, R.selfSigned params k n = some pem → R.pemCertifies pem k
  /-- There is one public key in a certificate, and it determines the pair. -/
  certifies : ∀ pem k k', R.pemCertifies pem k → R.pemCertifies pem k' → k = k'
  signedBy : ∀ params k issuer n der, R.signedBy params k issuer n = some der →
    R.derCertifies der k ∧ R.contents der = some params

/-- `CertificationAuthority`. -/
structure CertificationAuthority (Key : Type) where
  caParams : CertificateParams
  caKey : Key
  caCertPem : Str
  /-- The map from hosts to the DER of a certificate and of its key. -/
  certCache : Str → Option (Bytes × Bytes)

/-- `ca.pem` and `ca-key.pem`. -/
structure CertFiles where
  cert : Option Str
  key : Option Str
deriving DecidableEq

/-- The directory of a CA, if it exists. -/
abbrev CertDir := Option CertFiles

namespace CertDir

/-- What `ca.pem` holds. -/
def cert (d : CertDir) : Option Str := d.bind CertFiles.cert

/-- What `ca-key.pem` holds. -/
def key (d : CertDir) : Option Str := d.bind CertFiles.key

end CertDir

/-- The panic of an `unwrap`. -/
def unwrapPanic : String := "called `Result::unwrap()` on an `Err` value"

section

variable (R : Rcgen Key)

/-- `build_ca_params`. -/
def buildCaParams : CertificateParams :=
  { R.defaultParams with
    isCa := .ca
    keyUsages := [.keyCertSign]
    distinguishedName := [(.commonName, "Hexbuffer Proxy CA".toList)] }

/-- A call of `new_in`, by what it does next. -/
inductive NewIn (Key : Type) where
  /-- `cert_path.exists()`. -/
  | certExists
  /-- `key_path.exists()`. -/
  | keyExists
  | readCert
  | readKey (caCertPem : Str)
  /-- `generate_ca`, up to its first operation on the file system. -/
  | generate
  | createDir (caKey : Key) (caCertPem : Str)
  | writeCert (caKey : Key) (caCertPem : Str)
  | writeKey (caKey : Key) (caCertPem : Str)
  | returned (ca : CertificationAuthority Key)
  | panicked (msg : String)

/-- The value that `new_in` makes of a key and a certificate. -/
def newCa (caKey : Key) (caCertPem : Str) : CertificationAuthority Key :=
  ⟨buildCaParams R, caKey, caCertPem, fun _ => none⟩

/-- A step of `new_in`. A call to which the system refuses an operation panics, and leaves the
directory as one that is interrupted there. -/
def newInStep (n : ℕ) (d : CertDir) : NewIn Key → CertDir × NewIn Key
  | .certExists => (d, if d.cert.isSome then .keyExists else .generate)
  | .keyExists => (d, if d.key.isSome then .readCert else .generate)
  | .readCert =>
    match d.cert with
    | some caCertPem => (d, .readKey caCertPem)
    | none => (d, .panicked "Failed to read CA certificate PEM")
  | .readKey caCertPem =>
    match d.key with
    | some keyPem =>
      match R.fromPem keyPem with
      | some caKey => (d, .returned (newCa R caKey caCertPem))
      | none => (d, .panicked "Failed to parse CA key from PEM")
    | none => (d, .panicked "Failed to read CA key PEM")
  | .generate =>
    match R.generate n with
    | some caKey =>
      match R.selfSigned (buildCaParams R) caKey n with
      | some caCertPem => (d, .createDir caKey caCertPem)
      | none => (d, .panicked unwrapPanic)
    | none => (d, .panicked unwrapPanic)
  | .createDir caKey caCertPem => (some (d.getD ⟨none, none⟩), .writeCert caKey caCertPem)
  | .writeCert caKey caCertPem =>
    match d with
    | some fs => (some { fs with cert := some caCertPem }, .writeKey caKey caCertPem)
    | none => (d, .panicked "Failed to save CA certificate")
  | .writeKey caKey caCertPem =>
    match d with
    | some fs =>
      (some { fs with key := some (R.serializePem caKey) }, .returned (newCa R caKey caCertPem))
    | none => (d, .panicked "Failed to save CA key")
  | .returned ca => (d, .returned ca)
  | .panicked msg => (d, .panicked msg)

/-- `new_in`, called any number of times for one directory. -/
def newIn : Machine CertDir (NewIn Key) Unit where
  start _ := .certExists
  step := newInStep R

/-- `NOT_BEFORE_OFFSET_SECS`. -/
def notBeforeOffsetSecs : ℤ := 300

/-- `TTL_SECS`. -/
def ttlSecs : ℤ := 31536000

/-- The parameters of the certificate for a host, at the time `now`. -/
def leafParams (now : ℤ) (host : Str) : Option CertificateParams :=
  if R.isIa5 host then
    some
      { notBefore := now - notBeforeOffsetSecs
        notAfter := now - notBeforeOffsetSecs + ttlSecs
        subjectAltNames := R.defaultParams.subjectAltNames ++ [.dnsName host]
        distinguishedName := [(.commonName, host)]
        isCa := .noCa
        keyUsages := [.digitalSignature, .keyEncipherment]
        extendedKeyUsages := [.serverAuth]
        useAuthorityKeyIdentifierExtension := true }
  else none

/-- The DER of a fresh certificate for a host and of its key. -/
def generateLeaf (ca : CertificationAuthority Key) (n : ℕ) (now : ℤ) (host : Str) :
    Option (Bytes × Bytes) := do
  let params ← leafParams R now host
  let leafKey ← R.generate n
  let certDer ← R.signedBy params leafKey ⟨ca.caParams, ca.caKey⟩ n
  some (certDer, R.serializeDer leafKey)

/-- A call of `forge_certificate`, by what it does next. -/
inductive Forge where
  /-- The lookup, under the read lock. -/
  | lookup (host : Str)
  | generate (host : Str)
  /-- The insertion, under the write lock. -/
  | insert (host : Str) (pair : Bytes × Bytes)
  | returned (host : Str) (pair : Bytes × Bytes)
  | panicked (msg : String)
deriving DecidableEq

/-- A step of `forge_certificate`; `clock` is what each call is told of the time. -/
def forgeStep (clock : ℕ → ℤ) (n : ℕ) (ca : CertificationAuthority Key) :
    Forge → CertificationAuthority Key × Forge
  | .lookup host =>
    match ca.certCache host with
    | some pair => (ca, .returned host pair)
    | none => (ca, .generate host)
  | .generate host =>
    match generateLeaf R ca n (clock n) host with
    | some pair => (ca, .insert host pair)
    | none => (ca, .panicked unwrapPanic)
  | .insert host pair =>
    ({ ca with certCache := Function.update ca.certCache host (some pair) }, .returned host pair)
  | .returned host pair => (ca, .returned host pair)
  | .panicked msg => (ca, .panicked msg)

/-- `forge_certificate`, called any number of times on one CA. -/
def forgeCertificate (clock : ℕ → ℤ) : Machine (CertificationAuthority Key) Forge Str where
  start := .lookup
  step := forgeStep R clock

end

end HexbufferProxy
