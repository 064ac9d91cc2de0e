import HexbufferProxy.Proof.Authority
import HexbufferProxy.Proof.Forge
import HexbufferProxy.Spec.Restarts

/-!
# One CA for all processes

* `loads_step`, `makes_step`: what a call that nothing comes between has found and done, at each of
  its steps.
* `process_leaves`: so a process leaves a sound directory, with its own CA in it, or with the one
  that has been there.
* `restarts_keep`: and so do all processes, one after the other.
* `forge_issued`: what a CA returns is signed with its key.
* `restarts_trust`: the trust anchor survives restarts.
-/

namespace HexbufferProxy

open Rust

variable {Key : Type} {R : Rcgen Key}

/-! ## A call alone -/

/-- A call that finds this certificate and this key. -/
def Loads (R : Rcgen Key) (pem : Str) (k : Key) : NewIn Key → Prop
  | .certExists => True
  | .keyExists => True
  | .readCert => True
  | .readKey pem' => pem' = pem
  | .returned ca => ca = newCa R k pem
  | _ => False

/-- A call that finds no key, and what it has done to the directory. -/
def Makes (R : Rcgen Key) (d : CertDir) : NewIn Key → Prop
  | .certExists => d.key = none
  | .keyExists => d.key = none
  | .generate => d.key = none
  | .createDir k pem => d.key = none ∧ R.pemCertifies pem k
  | .writeCert k pem => d.key = none ∧ d.isSome ∧ R.pemCertifies pem k
  | .writeKey k pem => d.key = none ∧ d.cert = some pem ∧ R.pemCertifies pem k
  | .returned ca => ∃ k pem, ca = newCa R k pem ∧ d.cert = some pem ∧
      d.key = some (R.serializePem k) ∧ R.pemCertifies pem k
  | .panicked msg => d.key = none ∧ msg = unwrapPanic
  | _ => False

theorem loads_step (hR : R.Lawful) (n : ℕ) {d : CertDir} {pem : Str} {k : Key} {l : NewIn Key}
    (hcert : d.cert = some pem) (hkey : d.key = some (R.serializePem k)) (h : Loads R pem k l) :
    (newInStep R n d l).1 = d ∧ Loads R pem k (newInStep R n d l).2 := by
  cases l with
  | certExists =>
    simp only [newInStep, hcert, Option.isSome_some, if_true]
    exact ⟨trivial, trivial⟩
  | keyExists =>
    simp only [newInStep, hkey, Option.isSome_some, if_true]
    exact ⟨trivial, trivial⟩
  | readCert =>
    simp only [newInStep, hcert]
    exact ⟨trivial, rfl⟩
  | readKey pem' =>
    simp only [newInStep, hkey, hR.fromPem]
    exact ⟨trivial, congrArg (newCa R k) h⟩
  | returned ca => exact ⟨rfl, h⟩
  | _ => exact h.elim

theorem makes_step (hR : R.Lawful) (n : ℕ) {d : CertDir} {l : NewIn Key} (h : Makes R d l) :
    Makes R (newInStep R n d l).1 (newInStep R n d l).2 := by
  cases l with
  | certExists =>
    simp only [newInStep]
    split
    · exact h
    · exact h
  | keyExists =>
    have hkey : d.key = none := h
    simp only [newInStep, hkey, Option.isSome_none, Bool.false_eq_true, if_false]
    exact h
  | generate =>
    simp only [newInStep]
    cases R.generate n with
    | none => exact ⟨h, rfl⟩
    | some k =>
      simp only
      cases hpem : R.selfSigned (buildCaParams R) k n with
      | none => exact ⟨h, rfl⟩
      | some pem => exact ⟨h, hR.selfSigned _ k n pem hpem⟩
  | createDir k pem =>
    refine ⟨?_, rfl, h.2⟩
    cases d with
    | none => rfl
    | some fs => exact h.1
  | writeCert k pem =>
    cases d with
    | none => exact absurd h.2.1 Bool.false_ne_true
    | some fs => exact ⟨h.1, rfl, h.2.2⟩
  | writeKey k pem =>
    cases d with
    | none => cases h.2.1
    | some fs => exact ⟨k, pem, rfl, h.2.1, rfl, h.2.2⟩
  | returned ca => exact h
  | panicked msg => exact h
  | _ => exact h.elim

/-- The steps that a call may still take. -/
def NewIn.left : NewIn Key → ℕ
  | .certExists => 6
  | .keyExists => 5
  | .generate => 4
  | .createDir _ _ => 3
  | .writeCert _ _ => 2
  | .writeKey _ _ => 1
  | .readCert => 2
  | .readKey _ => 1
  | .returned _ => 0
  | .panicked _ => 0

theorem left_step (R : Rcgen Key) (n : ℕ) (d : CertDir) (l : NewIn Key) :
    (newInStep R n d l).2.left ≤ l.left - 1 := by
  cases l <;> simp only [newInStep] <;> repeat' split
  all_goals simp only [NewIn.left]; omega

/-! ## A process -/

/-- The call of a process, after `k` steps. -/
def process (R : Rcgen Key) (n k : ℕ) (d : CertDir) : CertDir × NewIn Key :=
  (fun q : CertDir × NewIn Key => newInStep R n q.1 q.2)^[k] (d, .certExists)

/-- The CA is the one in the directory. -/
structure CertificationAuthority.Kept (R : Rcgen Key) (ca : CertificationAuthority Key)
    (d : CertDir) : Prop where
  fresh : ca = newCa R ca.caKey ca.caCertPem
  cert : d.cert = some ca.caCertPem
  key : d.key = some (R.serializePem ca.caKey)
  certified : ca.Certified R

theorem process_loads (hR : R.Lawful) (n k : ℕ) {d : CertDir} {pem : Str} {key : Key}
    (hcert : d.cert = some pem) (hkey : d.key = some (R.serializePem key)) :
    (process R n k d).1 = d ∧ Loads R pem key (process R n k d).2 := by
  induction k with
  | zero => exact ⟨rfl, trivial⟩
  | succ k ih =>
    unfold process at ih ⊢
    rw [Function.iterate_succ_apply']
    generalize (fun q : CertDir × NewIn Key => newInStep R n q.1 q.2)^[k] (d, .certExists) = q at ih ⊢
    obtain ⟨d', l⟩ := q
    obtain ⟨hd, hl⟩ := ih
    obtain rfl : d' = d := hd
    exact loads_step hR n hcert hkey hl

theorem process_makes (hR : R.Lawful) (n k : ℕ) {d : CertDir} (hkey : d.key = none) :
    Makes R (process R n k d).1 (process R n k d).2 := by
  induction k with
  | zero => exact hkey
  | succ k ih =>
    unfold process at ih ⊢
    rw [Function.iterate_succ_apply']
    exact makes_step hR n ih

theorem process_ends (R : Rcgen Key) (n k : ℕ) (d : CertDir) :
    (process R n k d).2.left ≤ newInSteps - k := by
  induction k with
  | zero => exact Nat.le_refl 6
  | succ k ih =>
    unfold process at ih ⊢
    rw [Function.iterate_succ_apply']
    have hstep := left_step R n ((fun q : CertDir × NewIn Key => newInStep R n q.1 q.2)^[k]
      (d, .certExists)).1 ((fun q : CertDir × NewIn Key => newInStep R n q.1 q.2)^[k]
      (d, .certExists)).2
    omega

/-- What a process leaves behind, and has got. -/
structure LeftBehind (R : Rcgen Key) (d d' : CertDir) (l : NewIn Key) : Prop where
  sound : d'.Sound R
  returned : ∀ ca, l = .returned ca → ca.Kept R d'
  kept : ∀ ca : CertificationAuthority Key, ca.Kept R d → d' = d
  panicked : ∀ msg, l = .panicked msg → msg = unwrapPanic ∧ d.key = none

/-- **One process.** -/
theorem process_leaves (hR : R.Lawful) (n k : ℕ) {d : CertDir} (hd : d.Sound R) :
    LeftBehind R d (process R n k d).1 (process R n k d).2 := by
  rcases hd with hkey | ⟨pem, key, hcert, hkey, hcertifies⟩
  · have hmakes := process_makes hR n k hkey
    generalize (process R n k d).1 = d' at hmakes ⊢
    generalize (process R n k d).2 = l at hmakes ⊢
    refine ⟨?_, ?_, fun ca hca => ?_, ?_⟩
    · cases l with
      | certExists => exact .inl hmakes
      | keyExists => exact .inl hmakes
      | generate => exact .inl hmakes
      | createDir key pem => exact .inl hmakes.1
      | writeCert key pem => exact .inl hmakes.1
      | writeKey key pem => exact .inl hmakes.1
      | returned ca =>
        obtain ⟨key, pem, -, hcert, hkey', hcertifies⟩ := hmakes
        exact .inr ⟨pem, key, hcert, hkey', hcertifies⟩
      | panicked msg => exact .inl hmakes.1
      | _ => exact hmakes.elim
    · rintro ca rfl
      obtain ⟨key, pem, rfl, hcert, hkey', hcertifies⟩ := hmakes
      exact ⟨rfl, hcert, hkey', hcertifies⟩
    · have hkept := hca.key
      rw [hkey] at hkept
      cases hkept
    · rintro msg rfl
      exact ⟨hmakes.2, hkey⟩
  · obtain ⟨hsame, hloads⟩ := process_loads hR n k hcert hkey
    rw [hsame]
    generalize (process R n k d).2 = l at hloads ⊢
    refine ⟨.inr ⟨pem, key, hcert, hkey, hcertifies⟩, ?_, fun _ _ => rfl, ?_⟩
    · rintro ca rfl
      obtain rfl : ca = newCa R key pem := hloads
      exact ⟨rfl, hcert, hkey, hcertifies⟩
    · rintro msg rfl
      exact hloads.elim

/-! ## All processes -/

theorem restarts_cons (k : ℕ) (ks : List ℕ) (d : CertDir) (calls : List (NewIn Key)) :
    Pool.run (newIn R) ⟨d, calls⟩ (restarts calls.length (k :: ks)) =
      Pool.run (newIn R) ⟨(process R calls.length k d).1, calls ++ [(process R calls.length k d).2]⟩
        (restarts (calls ++ [(process R calls.length k d).2]).length ks) := by
  rw [List.length_append]
  show Pool.run (newIn R) ⟨d, calls⟩
    (.start () :: (List.replicate k (.step calls.length) ++ restarts (calls.length + 1) ks)) = _
  rw [Pool.run_cons, Pool.run_append]
  have hlast := Pool.run_last (M := newIn R) k d calls .certExists
  exact congrArg (fun p => Pool.run (newIn R) p (restarts (calls.length + 1) ks)) hlast

/-- The CAs that have been returned so far are the one in the directory. -/
def AllKept (R : Rcgen Key) (p : Pool CertDir (NewIn Key)) : Prop :=
  ∀ (i : ℕ) ca, p.calls[i]? = some (.returned ca) → ca.Kept R p.shared

/-- **Processes one after the other**, after some others. -/
theorem restarts_keep (hR : R.Lawful) (ks : List ℕ) {d : CertDir} {calls : List (NewIn Key)}
    (hd : d.Sound R) (hcalls : AllKept R ⟨d, calls⟩) :
    AllKept R (Pool.run (newIn R) ⟨d, calls⟩ (restarts calls.length ks)) ∧
      (∀ (i : ℕ) l, calls[i]? = some l →
        (Pool.run (newIn R) ⟨d, calls⟩ (restarts calls.length ks)).calls[i]? = some l) ∧
      ∀ (i : ℕ) k, ks[i]? = some k → ∃ l,
        (Pool.run (newIn R) ⟨d, calls⟩ (restarts calls.length ks)).calls[calls.length + i]? = some l ∧
        l.left ≤ newInSteps - k ∧ ∀ msg, l = .panicked msg → msg = unwrapPanic ∧
          ∀ j < calls.length + i, ∀ ca,
            (Pool.run (newIn R) ⟨d, calls⟩ (restarts calls.length ks)).calls[j]? ≠
              some (.returned ca) := by
  induction ks generalizing d calls with
  | nil => exact ⟨hcalls, fun i l h => h, fun i k h => by cases h⟩
  | cons k ks ih =>
    rw [restarts_cons]
    obtain ⟨hsound, hreturned, hkept, hpanicked⟩ := process_leaves hR calls.length k hd
    have hleft := process_ends R calls.length k d
    generalize (process R calls.length k d).1 = d' at hsound hreturned hkept ⊢
    generalize (process R calls.length k d).2 = l at hreturned hpanicked hleft ⊢
    -- the CAs from before are still there, and a new one has been put there
    have hcalls' : AllKept R ⟨d', calls ++ [l]⟩ := by
      intro i ca hi
      have hi' : (calls ++ [l])[i]? = some (.returned ca) := hi
      rcases lt_trichotomy i calls.length with hlt | rfl | hgt
      · rw [List.getElem?_append_left hlt] at hi'
        have hbefore := hcalls i ca hi'
        show ca.Kept R d'
        rw [hkept ca hbefore]
        exact hbefore
      · rw [List.getElem?_concat_length] at hi'
        exact hreturned ca (Option.some.inj hi')
      · rw [List.getElem?_eq_none (by rw [List.length_append]; exact hgt)] at hi'
        cases hi'
    obtain ⟨hall, hstay, hrest⟩ := ih hsound hcalls'
    refine ⟨hall, fun i m hi => hstay i m ?_, fun i k' hk' => ?_⟩
    · rw [List.getElem?_append_left (List.getElem?_eq_some_iff.1 hi).1]
      exact hi
    · cases i with
      | zero =>
        obtain rfl : k = k' := Option.some.inj hk'
        refine ⟨l, hstay _ l List.getElem?_concat_length, hleft, fun msg hmsg => ?_⟩
        obtain ⟨rfl, hnone⟩ := hpanicked msg hmsg
        refine ⟨rfl, fun j hj ca hca => ?_⟩
        have hjlt : j < calls.length := hj
        obtain ⟨m, hm⟩ : ∃ m, calls[j]? = some m := ⟨_, List.getElem?_eq_getElem hjlt⟩
        have hstays := hstay j m (by rw [List.getElem?_append_left hjlt]; exact hm)
        obtain rfl : m = .returned ca := Option.some.inj (hstays.symm.trans hca)
        have hkey := (hcalls j ca hm).key
        rw [hnone] at hkey
        cases hkey
      | succ i =>
        have hplace : calls.length + (i + 1) = (calls ++ [l]).length + i := by
          rw [List.length_append, List.length_singleton]
          omega
        rw [hplace]
        exact hrest i k' hk'

/-! ## What is signed -/

/-- What a call of `forge_certificate` has is signed. -/
def HasIssued (R : Rcgen Key) (clock : ℕ → ℤ) (caKey : Key) : Option Forge → Prop
  | some (.insert host pair) => IssuedBy R clock caKey host pair
  | some (.returned host pair) => IssuedBy R clock caKey host pair
  | _ => True

/-- The CA signs with this key, and has signed what is cached. -/
structure Issues (R : Rcgen Key) (clock : ℕ → ℤ) (caKey : Key) (ca : CertificationAuthority Key) :
    Prop where
  params : ca.caParams = buildCaParams R
  key : ca.caKey = caKey
  cached : ∀ host pair, ca.certCache host = some pair → IssuedBy R clock caKey host pair

theorem forge_issued (hR : R.Lawful) (clock : ℕ → ℤ) (caKey : Key) :
    Outline (forgeCertificate R clock) (fun _ _ _ => True) (Issues R clock caKey)
      fun _ m _ => HasIssued R clock caKey m where
  start _ _ _ _ _ := trivial
  step n ca l hca hl _ := by
    refine ⟨?_, ?_⟩
    · obtain hsame | ⟨host, pair, rfl, hins⟩ := forgeStep_cache R clock n ca l
      · show Issues R clock caKey (forgeStep R clock n ca l).1
        rw [hsame]
        exact hca
      · show Issues R clock caKey (forgeStep R clock n ca (.insert host pair)).1
        rw [hins]
        refine ⟨hca.params, hca.key, fun host' pair' hcached => ?_⟩
        have hupdate : Function.update ca.certCache host (some pair) host' = some pair' := hcached
        by_cases heq : host' = host
        · rw [heq, Function.update_self] at hupdate
          obtain rfl := Option.some.inj hupdate
          rw [heq]
          exact hl
        · rw [Function.update_of_ne heq] at hupdate
          exact hca.cached host' pair' hupdate
    · cases l with
      | lookup host =>
        simp only [forgeCertificate, forgeStep]
        split
        · next pair hcached => exact hca.cached host pair hcached
        · exact trivial
      | generate host =>
        simp only [forgeCertificate, forgeStep]
        split
        · next pair hpair =>
          obtain ⟨params, k, hparams, -, hsigned, hder⟩ := generateLeaf_some hpair
          rw [hca.params, hca.key] at hsigned
          obtain ⟨hcertifies, hcontents⟩ := hR.signedBy params k _ n pair.1 hsigned
          exact ⟨n, params, k, hparams, hsigned, hcontents, hcertifies, hder⟩
        · exact trivial
      | insert host pair => exact hl
      | returned host pair => exact hl
      | panicked msg => exact trivial
  stable _ _ _ _ _ _ _ _ hm _ := hm

/-- A CA as `new_in` returns it signs with its key. -/
theorem newCa_signs (hR : R.Lawful) (k : Key) (pem : Str) : (newCa R k pem).Signs R := by
  intro clock acts i host pair h
  have hholds := (forge_issued hR clock k).run_init (s := newCa R k pem)
    ⟨rfl, rfl, fun host pair hnone => by cases hnone⟩ (fun _ => trivial) acts
    (Pool.guarded_true acts)
  have hcall := hholds.calls i
  rw [h] at hcall
  exact hcall

/-- **The trust anchor survives restarts.** However many processes call `new_in` one after the other
on a directory without a key, and wherever each comes to its end, all that return have the same CA:
the certificate is the one in `ca.pem`, it certifies the key, and everything `forge_certificate` ever
returns on it is signed with this key. A process that is not interrupted gets it, unless `rcgen`
refuses to make one, which it is not asked to do again. -/
theorem restarts_trust (R : Rcgen Key) (hR : R.Lawful) (d : CertDir) (hd : d.Sound R) (ks : List ℕ) :
    let p := Pool.run (newIn R) ⟨d, []⟩ (restarts 0 ks)
    (∀ (i j : ℕ) ca ca', p.calls[i]? = some (.returned ca) → p.calls[j]? = some (.returned ca') →
      ca' = ca) ∧
    (∀ (i : ℕ) ca, p.calls[i]? = some (.returned ca) →
      p.shared.cert = some ca.caCertPem ∧ ca.Certified R ∧ ca.Signs R) ∧
    ∀ (i : ℕ) k, ks[i]? = some k → newInSteps ≤ k →
      (∃ ca, p.calls[i]? = some (.returned ca)) ∨ p.calls[i]? = some (.panicked unwrapPanic) ∧
        ∀ j < i, ∀ ca, p.calls[j]? ≠ some (.returned ca) := by
  have hnone : AllKept R (⟨d, []⟩ : Pool CertDir (NewIn Key)) := by
    intro i ca h
    cases h
  obtain ⟨hall, -, hends⟩ := restarts_keep hR ks hd hnone
  refine ⟨fun i j ca ca' hi hj => ?_, fun i ca hi => ?_, fun i k hk hsteps => ?_⟩
  · have hca := hall i ca hi
    have hca' := hall j ca' hj
    have hpem : ca'.caCertPem = ca.caCertPem := Option.some.inj (hca'.cert.symm.trans hca.cert)
    have hkey : ca'.caKey = ca.caKey :=
      serializePem_inj hR (Option.some.inj (hca'.key.symm.trans hca.key))
    rw [hca'.fresh, hca.fresh, hpem, hkey]
  · have hca := hall i ca hi
    refine ⟨hca.cert, hca.certified, ?_⟩
    rw [hca.fresh]
    exact newCa_signs hR _ _
  · obtain ⟨l, hl, hleft, hpanicked⟩ := hends i k hk
    rw [List.length_nil, Nat.zero_add] at hl hpanicked
    have hzero : l.left = 0 := by omega
    cases l with
    | returned ca => exact .inl ⟨ca, hl⟩
    | panicked msg =>
      obtain ⟨rfl, hbefore⟩ := hpanicked msg rfl
      exact .inr ⟨hl, hbefore⟩
    | _ => cases hzero

/-- A process that ends when it has written `ca.pem`, and two that come to their end in their own
time. -/
theorem restarts_trust_plain :
    let p := Pool.run (newIn plainRcgen) ⟨none, []⟩ (restarts 0 [4, 6, 5])
    (∃ ca, p.calls[1]? = some (.returned ca) ∧ p.calls[2]? = some (.returned ca)) ∧
      ∀ (i j : ℕ) ca ca', p.calls[i]? = some (.returned ca) →
        p.calls[j]? = some (.returned ca') → ca' = ca :=
  ⟨⟨_, rfl, rfl⟩, (restarts_trust plainRcgen plainRcgen_lawful none (.inl rfl) [4, 6, 5]).1⟩

end HexbufferProxy
