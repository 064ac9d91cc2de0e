import HexbufferProxy.Proof.Expiry
import HexbufferProxy.Spec.Names

/-!
# Names that panic

* `connectName_target`: the host of a CONNECT is what stands in the request, default port or not.
* `generateLeaf_ascii`: a certificate can be made for exactly the ASCII names.
* `forge_stages`: how far a call for an ASCII name has come, by the number of its steps.
* `forge_panics`: a call for any other name panics at its second step.
* `forgeCertificate_ends_iff`: the two together.
-/

namespace HexbufferProxy

open Rust

variable {Key : Type} {R : Rcgen Key} {clock : ℕ → ℤ}

/-! ## The name -/

/-- The port that is added to a target without one does not change its host. -/
theorem connectName_target {raw : Bytes} {target : Str} (h : connectTarget raw = some target) :
    connectName raw = some (targetHost target) := by
  unfold connectTarget at h
  unfold connectName targetHost
  obtain ⟨word, hword, rfl⟩ := Option.map_eq_some_iff.1 h
  rw [hword, Option.map_some]
  by_cases hcolon : ':' ∈ word
  · rw [if_pos hcolon]
  · rw [if_neg hcolon]
    refine congrArg some ((splitFirst_self hcolon).trans ?_)
    exact (splitFirst_append hcolon "443".toList).symm

/-- **A certificate can be made for a name** exactly if it is ASCII. -/
theorem generateLeaf_ascii (hR : R.Issues) (ca : CertificationAuthority Key) (n : ℕ) (now : ℤ)
    (host : Str) : (generateLeaf R ca n now host).isSome ↔ IsAscii host := by
  rw [← hR.isIa5]
  constructor
  · intro h
    obtain ⟨pair, hpair⟩ := Option.isSome_iff_exists.1 h
    obtain ⟨params, -, hparams, -⟩ := generateLeaf_some hpair
    by_contra hia5
    unfold leafParams at hparams
    rw [if_neg hia5] at hparams
    exact nomatch hparams
  · intro hia5
    obtain ⟨params, hparams⟩ : ∃ params, leafParams R now host = some params := by
      unfold leafParams
      rw [if_pos hia5]
      exact ⟨_, rfl⟩
    obtain ⟨k, hk⟩ := Option.isSome_iff_exists.1 (hR.generate n)
    obtain ⟨der, hder⟩ := Option.isSome_iff_exists.1
      (hR.signedBy now host params k ⟨ca.caParams, ca.caKey⟩ n hparams)
    have hleaf : generateLeaf R ca n now host = some (der, R.serializeDer k) := by
      unfold generateLeaf
      rw [hparams, Option.bind_eq_bind, Option.bind_some, hk, Option.bind_eq_bind,
        Option.bind_some, hder]
      rfl
    rw [hleaf]
    rfl

/-! ## ASCII names -/

/-- How far a call for the host has come in `k` steps. -/
def Stage (host : Str) (k : ℕ) : Forge → Prop
  | .lookup h => h = host ∧ k = 0
  | .generate h => h = host ∧ k ≤ 1
  | .insert h _ => h = host ∧ k ≤ 2
  | .returned h _ => h = host
  | .panicked _ => False

theorem stage_step (hR : R.Issues) {host : Str} (hhost : IsAscii host) {k : ℕ} (n : ℕ)
    (ca : CertificationAuthority Key) {l : Forge} (h : Stage host k l) :
    Stage host (k + 1) (forgeStep R clock n ca l).2 := by
  cases l with
  | lookup name =>
    obtain ⟨rfl, rfl⟩ := h
    simp only [forgeStep]
    split
    · exact rfl
    · exact ⟨rfl, le_rfl⟩
  | generate name =>
    obtain ⟨rfl, hk⟩ := h
    obtain ⟨pair, hpair⟩ := Option.isSome_iff_exists.1
      ((generateLeaf_ascii hR ca n (clock n) name).2 hhost)
    simp only [forgeStep, hpair]
    exact ⟨rfl, Nat.succ_le_succ hk⟩
  | insert name pair => exact h.1
  | returned name pair => exact h
  | panicked msg => exact h

/-- The steps of the other calls change nothing of how far this one has come. -/
theorem forge_stages (clock : ℕ → ℤ) (hR : R.Issues) {host : Str} (hhost : IsAscii host)
    (p : Pool (CertificationAuthority Key) Forge) (more : List (Act Str)) :
    ∃ l, (Pool.run (forgeCertificate R clock) p (.start host :: more)).calls[p.calls.length]? =
      some l ∧ Stage host (stepsOf p.calls.length more) l := by
  induction more using List.reverseRecOn with
  | nil => exact ⟨.lookup host, List.getElem?_concat_length, rfl, rfl⟩
  | append_singleton more a ih =>
    obtain ⟨l, hl, hstage⟩ := ih
    rw [← List.cons_append, Pool.run_concat]
    generalize Pool.run (forgeCertificate R clock) p (.start host :: more) = q at hl ⊢
    have hlt := (List.getElem?_eq_some_iff.1 hl).1
    cases a with
    | start name =>
      refine ⟨l, (List.getElem?_append_left hlt).trans hl, ?_⟩
      have hsame : stepsOf p.calls.length (more ++ [.start name]) =
          stepsOf p.calls.length more := List.countP_append
      rwa [hsame]
    | step i =>
      by_cases hi : i = p.calls.length
      · subst hi
        have hnext : stepsOf p.calls.length (more ++ [.step p.calls.length]) =
            stepsOf p.calls.length more + 1 := by
          unfold stepsOf
          rw [List.countP_append, List.countP_singleton]
          simp
        refine ⟨(forgeStep R clock p.calls.length q.shared l).2, ?_, ?_⟩
        · rw [Pool.act_step hl]
          exact List.getElem?_set_self hlt
        · rw [hnext]
          exact stage_step hR hhost _ _ hstage
      · have hsame : stepsOf p.calls.length (more ++ [.step i]) =
            stepsOf p.calls.length more := by
          unfold stepsOf
          rw [List.countP_append, List.countP_singleton]
          simp [hi]
        refine ⟨l, ?_, hsame ▸ hstage⟩
        cases hm : q.calls[i]? with
        | none =>
          unfold Pool.act
          simp only [hm]
          exact hl
        | some m =>
          rw [Pool.act_step hm]
          exact (List.getElem?_set_ne hi).trans hl

/-- A call for an ASCII name ends well. -/
theorem forge_ends (hR : R.Issues) {host : Str} (hhost : IsAscii host)
    (p : Pool (CertificationAuthority Key) Forge) : Ends R clock p host := by
  intro more
  obtain ⟨l, hl, hstage⟩ := forge_stages clock hR hhost p more
  rw [hl]
  constructor
  · intro msg hmsg
    obtain rfl := Option.some.inj hmsg
    exact hstage
  · intro hthree
    cases l with
    | lookup name => exact absurd hstage.2 (by omega)
    | generate name => exact absurd hstage.2 (by omega)
    | insert name pair => exact absurd hstage.2 (by omega)
    | returned name pair =>
      obtain rfl : name = host := hstage
      exact ⟨pair, rfl⟩
    | panicked msg => exact hstage.elim

/-! ## Other names -/

/-- Only ASCII names are ever cached. -/
theorem forge_named (hR : R.Issues) {ca : CertificationAuthority Key}
    (hca : ∀ host, ca.certCache host = none) (acts : List (Act Str)) {host : Str}
    {pair : Bytes × Bytes}
    (h : (Pool.run (forgeCertificate R clock) ⟨ca, []⟩ acts).shared.certCache host = some pair) :
    IsAscii host := by
  obtain ⟨T, hT⟩ := (stepTimes clock acts).toFinset.exists_le
  have hguard := guarded_times R ca fun t ht => hT t (List.mem_toFinset.2 ht)
  have hholds := (forge_made R clock T).run_init (fun host _ h => nomatch (hca host).symm.trans h)
    (fun _ => trivial) acts hguard
  obtain ⟨j, -, hmade⟩ := hholds.shared host pair h
  exact (generateLeaf_ascii hR _ j (clock j) host).1 (Option.isSome_of_eq_some hmade)

/-- A call for another name panics when it generates a certificate. -/
theorem forge_panics (hR : R.Issues) {ca : CertificationAuthority Key} (calls : List Forge)
    {host : Str} (hhost : ¬ IsAscii host) (hca : ca.certCache host = none) :
    (Pool.run (forgeCertificate R clock) ⟨ca, calls⟩
      [.start host, .step calls.length, .step calls.length]).calls[calls.length]? =
        some (.panicked unwrapPanic) := by
  have hlookup : (forgeCertificate R clock).step calls.length ca (.lookup host) =
      (ca, .generate host) := by
    simp only [forgeCertificate, forgeStep, hca]
  have hleaf : generateLeaf R ca calls.length (clock calls.length) host = none := by
    rw [← Option.not_isSome_iff_eq_none, generateLeaf_ascii hR]
    exact hhost
  have hgenerate : (forgeCertificate R clock).step calls.length ca (.generate host) =
      (ca, .panicked unwrapPanic) := by
    simp only [forgeCertificate, forgeStep, hleaf]
  have hstart : Pool.act (forgeCertificate R clock) ⟨ca, calls⟩ (.start host) =
      ⟨ca, calls ++ [.lookup host]⟩ := rfl
  rw [Pool.run_cons, hstart, Pool.run_cons, Pool.act_last hlookup, Pool.run_cons,
    Pool.act_last hgenerate]
  exact List.getElem?_concat_length

/-! ## Every request -/

/-- **The certificate for the target of a CONNECT request** is made, without a panic, exactly if the
name in the request is ASCII; whatever the other calls have done and do. -/
theorem forgeCertificate_ends_iff (R : Rcgen Key) (hR : R.Issues) (clock : ℕ → ℤ)
    (ca : CertificationAuthority Key) (hca : ∀ host, ca.certCache host = none)
    (acts : List (Act Str)) (raw : Bytes) (target : Str) (h : connectTarget raw = some target) :
    Ends R clock (Pool.run (forgeCertificate R clock) ⟨ca, []⟩ acts) (targetHost target) ↔
      ∀ name, connectName raw = some name → IsAscii name := by
  rw [connectName_target h]
  constructor
  · rintro hends name hname
    obtain rfl := Option.some.inj hname
    by_contra hascii
    have hnone : (Pool.run (forgeCertificate R clock) ⟨ca, []⟩ acts).shared.certCache
        (targetHost target) = none :=
      Option.eq_none_iff_forall_not_mem.2 fun _ hpair => hascii (forge_named hR hca acts hpair)
    exact (hends _).1 unwrapPanic (forge_panics hR _ hascii hnone)
  · exact fun hascii => forge_ends hR (hascii _ rfl) _

/-- A CONNECT request to `é.example`, in UTF-8. -/
def connectAccented : Bytes :=
  lit "CONNECT " ++ [0xC3, 0xA9] ++ lit ".example:443 HTTP/1.1\r\n\r\n"

/-- It panics. -/
theorem forgeCertificate_panics : ¬ ∀ (raw : Bytes) (target : Str),
    connectTarget raw = some target →
      Ends plainRcgen (fun _ => 0) ⟨plainCa, []⟩ (targetHost target) := by
  intro hall
  have htarget : connectTarget connectAccented = some "é.example:443".toList := by decide +kernel
  exact (hall connectAccented _ htarget [.step 0, .step 0]).1 unwrapPanic (by decide +kernel)

/-- `plainRcgen` with certificates for every name. -/
def signingRcgen : Rcgen ℕ := { plainRcgen with signedBy := fun _ k _ _ => some (List.replicate k 1) }

theorem signingRcgen_issues : signingRcgen.Issues where
  isIa5 name := by
    show (name.all fun c => decide (c.toNat < 128)) = true ↔ IsAscii name
    unfold IsAscii
    simp only [List.all_eq_true, decide_eq_true_eq]
  generate _ := rfl
  signedBy _ _ _ _ _ _ _ := rfl

/-- A CONNECT request to `example.com`. -/
theorem forgeCertificate_ends_plain :
    Ends signingRcgen (fun _ => 0) ⟨plainCa, []⟩ (targetHost "example.com:443".toList) :=
  (forgeCertificate_ends_iff signingRcgen signingRcgen_issues (fun _ => 0) plainCa (fun _ => rfl) []
    (lit "CONNECT example.com HTTP/1.1\r\n\r\n") "example.com:443".toList (by decide +kernel)).2
    fun name hname => by
      obtain rfl : "example.com".toList = name := Option.some.inj hname
      decide

end HexbufferProxy
