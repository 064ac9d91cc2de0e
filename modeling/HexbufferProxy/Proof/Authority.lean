import HexbufferProxy.Spec.Authority

/-!
# The pair of files of a CA

* `newInStep_files`: what a step can do to the two files.
* `newIn_outline`: while calls write their own pairs only, the files match, and so does what a call
  has read of them.
* `newIn_fresh`: what holds without this, as long as keys differ. It shows each other write to leave
  a pair behind that does not match.
* `newIn_certified`: runs of `new_in`.
-/

namespace HexbufferProxy

open Rust

variable {Key : Type} {R : Rcgen Key}

/-! ## A step -/

/-- Reading and generating leave the directory as it is. -/
theorem newInStep_reads (R : Rcgen Key) (n : ℕ) (d : CertDir) (pem : Str) :
    (newInStep R n d .readCert).1 = d ∧ (newInStep R n d (.readKey pem)).1 = d ∧
      (newInStep R n d .generate).1 = d := by
  refine ⟨?_, ?_, ?_⟩
  · simp only [newInStep]
    split <;> rfl
  · simp only [newInStep]
    split
    · split <;> rfl
    · rfl
  · simp only [newInStep]
    split
    · split <;> rfl
    · rfl

/-- **What a step does to the files**: it leaves them as they are, or writes one. -/
theorem newInStep_files (R : Rcgen Key) (n : ℕ) (d : CertDir) (l : NewIn Key) :
    (newInStep R n d l).1.cert = d.cert ∧ (newInStep R n d l).1.key = d.key ∨
    (∃ k pem, l = .writeCert k pem ∧ (newInStep R n d l).1.cert = some pem ∧
      (newInStep R n d l).1.key = d.key) ∨
    (∃ k pem, l = .writeKey k pem ∧ (newInStep R n d l).1.cert = d.cert ∧
      (newInStep R n d l).1.key = some (R.serializePem k)) := by
  cases l with
  | certExists => exact .inl ⟨rfl, rfl⟩
  | keyExists => exact .inl ⟨rfl, rfl⟩
  | readCert =>
    have hsame := (newInStep_reads R n d []).1
    exact .inl ⟨congrArg CertDir.cert hsame, congrArg CertDir.key hsame⟩
  | readKey pem =>
    have hsame := (newInStep_reads R n d pem).2.1
    exact .inl ⟨congrArg CertDir.cert hsame, congrArg CertDir.key hsame⟩
  | generate =>
    have hsame := (newInStep_reads R n d []).2.2
    exact .inl ⟨congrArg CertDir.cert hsame, congrArg CertDir.key hsame⟩
  | createDir k pem => cases d <;> exact .inl ⟨rfl, rfl⟩
  | writeCert k pem =>
    cases d with
    | none => exact .inl ⟨rfl, rfl⟩
    | some fs => exact .inr (.inl ⟨k, pem, rfl, rfl, rfl⟩)
  | writeKey k pem =>
    cases d with
    | none => exact .inl ⟨rfl, rfl⟩
    | some fs => exact .inr (.inr ⟨k, pem, rfl, rfl, rfl⟩)
  | returned ca => exact .inl ⟨rfl, rfl⟩
  | panicked msg => exact .inl ⟨rfl, rfl⟩

theorem serializePem_inj (hR : R.Lawful) {k k' : Key}
    (h : R.serializePem k = R.serializePem k') : k = k' := by
  have hk := hR.fromPem k
  rw [h, hR.fromPem k'] at hk
  exact (Option.some.inj hk).symm

/-! ## Calls that write their own pair -/

/-- The files, if both are there, are a certificate and its key. -/
def Matching (R : Rcgen Key) (d : CertDir) : Prop :=
  ∀ pem keyPem, d.cert = some pem → d.key = some keyPem →
    ∃ k, keyPem = R.serializePem k ∧ R.pemCertifies pem k

/-- What a call has of a pair. -/
def Knows (R : Rcgen Key) (d : CertDir) : Option (NewIn Key) → Prop
  | some .readCert => d.key ≠ none
  | some (.readKey pem) => ∃ k, d.key = some (R.serializePem k) ∧ R.pemCertifies pem k
  | some (.createDir k pem) => R.pemCertifies pem k
  | some (.writeCert k pem) => R.pemCertifies pem k
  | some (.writeKey k pem) => R.pemCertifies pem k
  | some (.returned ca) => ca.Certified R
  | _ => True

/-- Writing one's own pair keeps the files a pair. -/
theorem matching_step (n : ℕ) {d : CertDir} {l : NewIn Key} (hd : Matching R d)
    (hl : Knows R d (some l)) (hown : WritesOwnPair n d l) : Matching R (newInStep R n d l).1 := by
  intro pem keyPem hpem hkey
  obtain ⟨hc, hk⟩ | ⟨k, own, rfl, hc, hk⟩ | ⟨k, own, rfl, hc, hk⟩ := newInStep_files R n d l
  · exact hd pem keyPem (hc ▸ hpem) (hk ▸ hkey)
  · -- no key is there to go with the new certificate
    have hnone : d.key = none := hown
    rw [hk, hnone] at hkey
    exact nomatch hkey
  · have hcert : d.cert = some own := hown
    rw [hc, hcert] at hpem
    rw [hk] at hkey
    exact ⟨k, (Option.some.inj hkey).symm, Option.some.inj hpem ▸ hl⟩

/-- A step takes a call to what it knows next. -/
theorem knows_step (hR : R.Lawful) (n : ℕ) {d : CertDir} {l : NewIn Key} (hd : Matching R d)
    (hl : Knows R d (some l)) :
    Knows R (newInStep R n d l).1 (some (newInStep R n d l).2) := by
  cases l with
  | certExists =>
    simp only [newInStep]
    split <;> exact trivial
  | keyExists =>
    simp only [newInStep]
    split
    · rename_i hsome
      exact Option.isSome_iff_ne_none.1 hsome
    · exact trivial
  -- the certificate that is read goes with the key that is there
  | readCert =>
    simp only [newInStep]
    split
    · rename_i pem hc
      obtain ⟨keyPem, hkey⟩ := Option.ne_none_iff_exists'.1 hl
      obtain ⟨k, rfl, hcert⟩ := hd pem keyPem hc hkey
      exact ⟨k, hkey, hcert⟩
    · exact trivial
  | readKey pem =>
    obtain ⟨k, hkey, hcert⟩ := hl
    simp only [newInStep, hkey, hR.fromPem k]
    exact hcert
  | generate =>
    simp only [newInStep]
    split
    · rename_i k _
      split
      · rename_i pem hsigned
        exact hR.selfSigned _ k n pem hsigned
      · exact trivial
    · exact trivial
  | createDir k pem => exact hl
  -- without a directory the write panics
  | writeCert k pem =>
    cases d with
    | none => exact trivial
    | some fs => exact hl
  | writeKey k pem =>
    cases d with
    | none => exact trivial
    | some fs => exact hl
  | returned ca => exact hl
  | panicked msg => exact trivial

/-- What a call knows does not depend on a write of the others. -/
theorem knows_stable (hR : R.Lawful) (n : ℕ) {d : CertDir} {l : NewIn Key} (hd : Matching R d)
    (hl : Knows R d (some l)) (hown : WritesOwnPair n d l) {m : Option (NewIn Key)}
    (hm : Knows R d m) : Knows R (newInStep R n d l).1 m := by
  have hkeep : ∀ k, d.key = some (R.serializePem k) →
      (newInStep R n d l).1.key = some (R.serializePem k) := by
    intro k hkey
    obtain ⟨-, hk⟩ | ⟨k', own, rfl, -, hk⟩ | ⟨k', own, rfl, -, hk⟩ := newInStep_files R n d l
    · rw [hk, hkey]
    · rw [hk, hkey]
    · -- the key that is there is the one of the certificate
      obtain ⟨k'', hser, hcert⟩ := hd own _ hown hkey
      obtain rfl : k = k'' := serializePem_inj hR hser
      rw [hk, hR.certifies own k' k hl hcert]
  -- only the two phases that look at files know something of them
  cases m with
  | none => exact trivial
  | some m =>
    cases m with
    | readCert =>
      -- nobody removes a key
      obtain ⟨-, hk⟩ | ⟨k', own, -, -, hk⟩ | ⟨k', own, -, -, hk⟩ := newInStep_files R n d l
      · exact fun hnone => hm (hk ▸ hnone)
      · exact fun hnone => hm (hk ▸ hnone)
      · exact fun hnone => Option.some_ne_none _ (hk.symm.trans hnone)
    | readKey pem =>
      obtain ⟨k, hkey, hcert⟩ := hm
      exact ⟨k, hkeep k hkey, hcert⟩
    | certExists => exact trivial
    | keyExists => exact trivial
    | generate => exact trivial
    | createDir k pem => exact hm
    | writeCert k pem => exact hm
    | writeKey k pem => exact hm
    | returned ca => exact hm
    | panicked msg => exact trivial

theorem newIn_outline (hR : R.Lawful) :
    Outline (newIn R) WritesOwnPair (Matching R) fun _ m d => Knows R d m where
  start _ _ _ _ _ := trivial
  step n _ _ hd hl hown := ⟨matching_step n hd hl hown, knows_step hR n hd hl⟩
  stable n _ _ _ _ _ hd hl hm hown := knows_stable hR n hd hl hown hm

theorem Written.matching (hR : R.Lawful) {d : CertDir} (hd : Written R d) : Matching R d := by
  intro pem keyPem hpem hkey
  obtain ⟨hc, -⟩ | ⟨k, n, pem', hsigned, hc, hk⟩ := hd
  · rw [hc] at hpem
    exact nomatch hpem
  · rw [hpem] at hc
    rw [hkey] at hk
    have hpem' : pem = pem' := hc.elim (fun h => nomatch h) Option.some.inj
    have hkey' : keyPem = R.serializePem k := hk.elim (fun h => nomatch h) Option.some.inj
    exact ⟨k, hkey', hpem' ▸ hR.selfSigned _ k n pem' hsigned⟩

/-! ## All calls -/

/-- A key file is always one that `rcgen` has written. -/
def Serialized (R : Rcgen Key) (d : CertDir) : Prop :=
  ∀ keyPem, d.key = some keyPem → ∃ k, keyPem = R.serializePem k

/-- What keeps the key and the certificate of call `i` apart from those of the others. -/
def Apart (R : Rcgen Key) (i : ℕ) (m : Option (NewIn Key)) (d : CertDir) : Prop :=
  match m with
  | some .readCert => True
  | some (.readKey _) => True
  | some (.createDir k pem) =>
    R.generate i = some k ∧ R.pemCertifies pem k ∧ d.key ≠ some (R.serializePem k)
  | some (.writeCert k pem) =>
    R.generate i = some k ∧ R.pemCertifies pem k ∧ d.key ≠ some (R.serializePem k)
  | some (.writeKey k pem) =>
    R.generate i = some k ∧ R.pemCertifies pem k ∧
      ∃ own, d.cert = some own ∧ (R.pemCertifies own k → own = pem)
  | some (.returned _) => True
  | some (.panicked _) => True
  | _ => ∀ k, R.generate i = some k → d.key ≠ some (R.serializePem k)

theorem serialized_step (n : ℕ) {d : CertDir} {l : NewIn Key} (hd : Serialized R d) :
    Serialized R (newInStep R n d l).1 := by
  intro keyPem hkey
  obtain ⟨-, hk⟩ | ⟨_, _, -, -, hk⟩ | ⟨k, _, -, -, hk⟩ := newInStep_files R n d l
  · exact hd keyPem (hk ▸ hkey)
  · exact hd keyPem (hk ▸ hkey)
  · exact ⟨k, Option.some.inj (hkey.symm.trans hk)⟩

theorem apart_step (hR : R.Lawful) (n : ℕ) {d : CertDir} {l : NewIn Key}
    (hl : Apart R n (some l) d) :
    Apart R n (some (newInStep R n d l).2) (newInStep R n d l).1 := by
  cases l with
  | certExists =>
    simp only [newInStep]
    split <;> exact hl
  | keyExists =>
    simp only [newInStep]
    split
    · exact trivial
    · exact hl
  | readCert =>
    simp only [newInStep]
    split <;> exact trivial
  | readKey pem =>
    simp only [newInStep]
    split
    · split <;> exact trivial
    · exact trivial
  -- from here on the call has a key of its own
  | generate =>
    simp only [newInStep]
    split
    · rename_i k hgen
      split
      · rename_i pem hsigned
        exact ⟨hgen, hR.selfSigned _ k n pem hsigned, hl k hgen⟩
      · exact trivial
    · exact trivial
  | createDir k pem => cases d <;> exact hl
  -- its certificate is now the one in the directory
  | writeCert k pem =>
    cases d with
    | none => exact trivial
    | some fs => exact ⟨hl.1, hl.2.1, pem, rfl, fun _ => rfl⟩
  | writeKey k pem =>
    cases d with
    | none => exact trivial
    | some fs => exact trivial
  | returned ca => exact trivial
  | panicked msg => exact trivial

/-- A write of call `i` is no write of the key of call `j`. -/
theorem key_stable (hR : R.Lawful) {d₀ d : CertDir} (hfresh : FreshKeys R d₀) {i j : ℕ}
    (hij : j ≠ i) {l : NewIn Key} (hl : Apart R i (some l) d) {k : Key}
    (hk : R.generate j = some k) (hkey : d.key ≠ some (R.serializePem k)) :
    (newInStep R i d l).1.key ≠ some (R.serializePem k) := by
  obtain ⟨-, hsame⟩ | ⟨_, _, -, -, hsame⟩ | ⟨k', _, rfl, -, hnew⟩ := newInStep_files R i d l
  · rwa [hsame]
  · rwa [hsame]
  · intro heq
    rw [hnew] at heq
    have hkk : k' = k := serializePem_inj hR (Option.some.inj heq)
    exact hij (hfresh.distinct j i k hk (hkk ▸ hl.1))

/-- Nor does it put a second certificate for that key there. -/
theorem cert_stable (hR : R.Lawful) {d₀ d : CertDir} (hfresh : FreshKeys R d₀) {i j : ℕ}
    (hij : j ≠ i) {l : NewIn Key} (hl : Apart R i (some l) d) {k : Key} {pem : Str}
    (hk : R.generate j = some k)
    (hcert : ∃ own, d.cert = some own ∧ (R.pemCertifies own k → own = pem)) :
    ∃ own, (newInStep R i d l).1.cert = some own ∧ (R.pemCertifies own k → own = pem) := by
  obtain ⟨hsame, -⟩ | ⟨k', other, rfl, hnew, -⟩ | ⟨_, _, -, hsame, -⟩ := newInStep_files R i d l
  · rwa [hsame]
  · refine ⟨other, hnew, fun hother => ?_⟩
    have hkk : k' = k := hR.certifies other k' k hl.2.1 hother
    exact absurd (hfresh.distinct j i k hk (hkk ▸ hl.1)) hij
  · rwa [hsame]

theorem newIn_fresh (hR : R.Lawful) {d₀ : CertDir} (hfresh : FreshKeys R d₀) :
    Outline (newIn R) (fun _ _ _ => True) (Serialized R) (Apart R) where
  start _ _ _ _ h := h
  step n _ _ hd hl _ := ⟨serialized_step n hd, apart_step hR n hl⟩
  stable i j d l m hij _ hl hm _ := by
    cases m with
    | none => exact fun k hk => key_stable hR hfresh hij hl hk (hm k hk)
    | some m =>
      cases m with
      | certExists => exact fun k hk => key_stable hR hfresh hij hl hk (hm k hk)
      | keyExists => exact fun k hk => key_stable hR hfresh hij hl hk (hm k hk)
      | generate => exact fun k hk => key_stable hR hfresh hij hl hk (hm k hk)
      | readCert => exact trivial
      | readKey pem => exact trivial
      | createDir k pem => exact ⟨hm.1, hm.2.1, key_stable hR hfresh hij hl hm.1 hm.2.2⟩
      | writeCert k pem => exact ⟨hm.1, hm.2.1, key_stable hR hfresh hij hl hm.1 hm.2.2⟩
      | writeKey k pem => exact ⟨hm.1, hm.2.1, cert_stable hR hfresh hij hl hm.1 hm.2.2⟩
      | returned ca => exact trivial
      | panicked msg => exact trivial

theorem Written.serialized {d : CertDir} (hd : Written R d) : Serialized R d := by
  intro keyPem hkey
  obtain ⟨-, hk⟩ | ⟨k, _, _, -, -, hk⟩ := hd
  · rw [hk] at hkey
    exact nomatch hkey
  · rw [hkey] at hk
    exact ⟨k, hk.elim (fun h => nomatch h) Option.some.inj⟩

/-! ## Runs -/

/-- A call that is left alone returns what the two files hold. -/
theorem newIn_loads (hR : R.Lawful) {d : CertDir} (calls : List (NewIn Key)) {pem : Str} {k : Key}
    (hcert : d.cert = some pem) (hkey : d.key = some (R.serializePem k)) :
    Pool.run (newIn R) ⟨d, calls⟩ [.start (), .step calls.length, .step calls.length,
      .step calls.length, .step calls.length] = ⟨d, calls ++ [.returned (newCa R k pem)]⟩ := by
  have h1 : (newIn R).step calls.length d .certExists = (d, .keyExists) := by
    simp only [newIn, newInStep, hcert, Option.isSome_some, if_true]
  have h2 : (newIn R).step calls.length d .keyExists = (d, .readCert) := by
    simp only [newIn, newInStep, hkey, Option.isSome_some, if_true]
  have h3 : (newIn R).step calls.length d .readCert = (d, .readKey pem) := by
    simp only [newIn, newInStep, hcert]
  have h4 : (newIn R).step calls.length d (.readKey pem) = (d, .returned (newCa R k pem)) := by
    simp only [newIn, newInStep, hkey, hR.fromPem k]
  have hstart : Pool.act (newIn R) ⟨d, calls⟩ (.start ()) = ⟨d, calls ++ [.certExists]⟩ := rfl
  rw [Pool.run_cons, hstart, Pool.run_cons, Pool.act_last h1, Pool.run_cons, Pool.act_last h2,
    Pool.run_cons, Pool.act_last h3, Pool.run_cons, Pool.act_last h4]
  rfl

/-- So files that do not match reach the next call. -/
theorem newIn_mismatch (hR : R.Lawful) {p : Pool CertDir (NewIn Key)} {pem : Str} {k : Key}
    (hcert : p.shared.cert = some pem) (hkey : p.shared.key = some (R.serializePem k))
    (hnot : ¬ R.pemCertifies pem k) : ∃ more, ¬ AllCertified R (Pool.run (newIn R) p more) := by
  refine ⟨[.start (), .step p.calls.length, .step p.calls.length, .step p.calls.length,
    .step p.calls.length], fun hall => ?_⟩
  have hloads := newIn_loads hR p.calls hcert hkey
  have hall' : AllCertified R ⟨p.shared, p.calls ++ [.returned (newCa R k pem)]⟩ := hloads ▸ hall
  exact hnot (hall' _ _ List.getElem?_concat_length)

/-- **A write of a pair that is not one's own leaves a pair that does not match.** -/
theorem newInStep_mismatch (hR : R.Lawful) {i : ℕ} {d : CertDir} {l : NewIn Key}
    (hd : Serialized R d) (hl : Apart R i (some l) d) (hown : ¬ WritesOwnPair i d l) :
    ∃ pem k, (newInStep R i d l).1.cert = some pem ∧
      (newInStep R i d l).1.key = some (R.serializePem k) ∧ ¬ R.pemCertifies pem k := by
  cases l with
  | writeCert k pem =>
    obtain ⟨keyPem, hkey⟩ := Option.ne_none_iff_exists'.1 hown
    obtain ⟨k', rfl⟩ := hd keyPem hkey
    cases d with
    | none => exact nomatch hkey
    | some fs =>
      refine ⟨pem, k', rfl, hkey, fun hcert => ?_⟩
      obtain rfl : k' = k := hR.certifies pem k' k hcert hl.2.1
      exact hl.2.2 hkey
  | writeKey k pem =>
    obtain ⟨-, -, own, hcert, hpem⟩ := hl
    cases d with
    | none => exact nomatch hcert
    | some fs =>
      refine ⟨own, k, hcert, rfl, fun h => ?_⟩
      exact hown (hcert.trans (congrArg some (hpem h)))
  | certExists => exact absurd trivial hown
  | keyExists => exact absurd trivial hown
  | readCert => exact absurd trivial hown
  | readKey pem => exact absurd trivial hown
  | generate => exact absurd trivial hown
  | createDir k pem => exact absurd trivial hown
  | returned ca => exact absurd trivial hown
  | panicked msg => exact absurd trivial hown

/-- **Every CA that a call returns is certified, in every run in which calls write their own pairs
only.** And only then: after any other write, the next call returns one that is not. -/
theorem newIn_certified (R : Rcgen Key) (hR : R.Lawful) (d : CertDir) (hd : Written R d) :
    (∀ acts, Pool.Guarded (newIn R) WritesOwnPair ⟨d, []⟩ acts →
      AllCertified R (Pool.run (newIn R) ⟨d, []⟩ acts)) ∧
    (FreshKeys R d → ∀ acts i,
      ¬ Pool.Meets WritesOwnPair (Pool.run (newIn R) ⟨d, []⟩ acts) (.step i : Act Unit) →
      ∃ more, ¬ AllCertified R (Pool.run (newIn R) ⟨d, []⟩ (acts ++ .step i :: more))) := by
  refine ⟨?_, ?_⟩
  · intro acts hacts i ca hca
    have hholds := (newIn_outline hR).run_init (hd.matching hR) (fun _ => trivial) acts hacts
    have hknows := hholds.calls i
    rw [hca] at hknows
    exact hknows
  · intro hfresh acts i hi
    have hinit : ∀ j, Apart R j none d := fun j => hfresh.unused j
    have hholds := (newIn_fresh hR hfresh).run_init hd.serialized hinit acts
      (Pool.guarded_true acts)
    obtain ⟨l, hl⟩ := not_forall.1 hi
    obtain ⟨hcall, hown⟩ := Classical.not_imp.1 hl
    have hapart := hholds.calls i
    rw [hcall] at hapart
    obtain ⟨pem, k, hcert, hkey, hnot⟩ := newInStep_mismatch hR hholds.shared hapart hown
    have hafter := Pool.act_step (M := newIn R) hcall
    obtain ⟨more, hmore⟩ := newIn_mismatch (p := Pool.act (newIn R)
      (Pool.run (newIn R) ⟨d, []⟩ acts) (.step i)) hR (by rw [hafter]; exact hcert)
      (by rw [hafter]; exact hkey) hnot
    refine ⟨more, ?_⟩
    rwa [Pool.run_append, Pool.run_cons]

/-! ## Runs on an example -/

/-- The certificate of `example.com` at the beginning of the epoch. -/
def exampleParams : CertificateParams where
  notBefore := -300
  notAfter := 31535700
  subjectAltNames := [.dnsName "example.com".toList]
  distinguishedName := [(.commonName, "example.com".toList)]
  isCa := .noCa
  keyUsages := [.digitalSignature, .keyEncipherment]
  extendedKeyUsages := [.serverAuth]
  useAuthorityKeyIdentifierExtension := true

/-- Keys are numbers, and each file has as many marks as its key says. Certificates are made for
`example.com` only. -/
def plainRcgen : Rcgen ℕ where
  defaultParams :=
    { notBefore := 157766400
      notAfter := 67090118400
      subjectAltNames := []
      distinguishedName := [(.commonName, "rcgen self signed cert".toList)]
      isCa := .noCa
      keyUsages := []
      extendedKeyUsages := []
      useAuthorityKeyIdentifierExtension := false }
  isIa5 name := name.all fun c => c.toNat < 128
  generate n := some (n + 1)
  selfSigned _ k _ := some (List.replicate k 'C')
  signedBy params k _ _ := if params = exampleParams then some (List.replicate k 1) else none
  serializePem k := List.replicate k 'K'
  serializeDer k := List.replicate k 2
  fromPem pem := some pem.length
  pemCertifies pem k := pem = List.replicate k 'C'
  derCertifies der k := der = List.replicate k 1
  contents _ := some exampleParams

theorem plainRcgen_lawful : plainRcgen.Lawful where
  fromPem k := congrArg some List.length_replicate
  selfSigned _ k _ _ h := (Option.some.inj h).symm
  certifies pem k k' h h' := by
    have hlen := congrArg List.length (h.symm.trans h')
    rwa [List.length_replicate, List.length_replicate] at hlen
  signedBy params k _ _ der h := by
    have hsigned : (if params = exampleParams then some (List.replicate k (1 : UInt8)) else none) =
        some der := h
    by_cases hp : params = exampleParams
    · rw [if_pos hp] at hsigned
      exact ⟨(Option.some.inj hsigned).symm, congrArg some hp.symm⟩
    · rw [if_neg hp] at hsigned
      exact nomatch hsigned

/-- A directory whose `ca.pem` has been deleted. -/
def keyOnly : CertDir := some ⟨none, some (plainRcgen.serializePem 7)⟩

theorem keyOnly_written : Written plainRcgen keyOnly :=
  .inr ⟨7, 0, List.replicate 7 'C', rfl, .inl rfl, .inr rfl⟩

/-- A call finds no `ca.pem`, generates a pair and is interrupted when it has written `ca.pem`. -/
def interrupted : List (Act Unit) := .start () :: List.replicate 4 (.step 0)

/-- The next call loads the certificate of one key with the other key. -/
theorem newIn_loads_mismatch : Written plainRcgen keyOnly ∧
    ∃ ca, (Pool.run (newIn plainRcgen) ⟨keyOnly, []⟩
        (interrupted ++ .start () :: List.replicate 4 (.step 1))).calls[1]? =
        some (.returned ca) ∧ ¬ ca.Certified plainRcgen :=
  ⟨keyOnly_written, newCa plainRcgen 7 ['C'], rfl, fun h => nomatch congrArg List.length h⟩

/-- Two calls find no `ca-key.pem` and write their certificates. -/
def crossed : List (Act Unit) :=
  .start () :: .start () :: List.replicate 4 (.step 0) ++ List.replicate 5 (.step 1)

/-- A call alone on an empty directory; and the key that the first of two writes too late. -/
theorem newIn_certified_plain :
    AllCertified plainRcgen (Pool.run (newIn plainRcgen) ⟨none, []⟩
      (.start () :: List.replicate 5 (.step 0))) ∧
    ∃ more, ¬ AllCertified plainRcgen
      (Pool.run (newIn plainRcgen) ⟨none, []⟩ (crossed ++ .step 0 :: more)) := by
  have hnewIn := newIn_certified plainRcgen plainRcgen_lawful none (.inl ⟨rfl, rfl⟩)
  refine ⟨hnewIn.1 _ ?_, hnewIn.2 ⟨fun i j k hi hj => ?_, fun _ _ _ h => nomatch h⟩ crossed 0 ?_⟩
  · refine .cons trivial (.cons ?_ (.cons ?_ (.cons ?_ (.cons ?_ (.cons ?_ Pool.guarded_nil)))))
    all_goals intro l hl
    all_goals obtain rfl := Option.some.inj hl
    all_goals first | exact trivial | rfl
  · exact Nat.succ_injective (Option.some.inj (hi.trans hj.symm))
  · intro h
    have hown : some ['C', 'C'] = some ['C'] := h _ rfl
    exact absurd hown (by decide)

end HexbufferProxy
