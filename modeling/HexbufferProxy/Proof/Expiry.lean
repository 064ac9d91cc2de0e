import HexbufferProxy.Proof.Forge
import HexbufferProxy.Spec.Expiry

/-!
# Certificates that outlive their validity

* `generateLeaf_span`: a certificate is valid from five minutes before the call that makes it.
* `forge_made`: what is cached some call has made, at the latest at the time of the last step.
* `forge_timely`: a call that makes its own certificate, or finds a young one, returns a valid one.
* `forgeCertificate_valid_iff`: runs of `forge_certificate`.
-/

namespace HexbufferProxy

open Rust

variable {Key : Type} {R : Rcgen Key} {clock : ℕ → ℤ}

/-! ## One certificate -/

/-- The span of a certificate, by the time of the call that makes it. -/
theorem generateLeaf_span (hR : R.Lawful) {ca : CertificationAuthority Key} {n : ℕ} {now : ℤ}
    {host : Str} {pair : Bytes × Bytes} (h : generateLeaf R ca n now host = some pair) :
    ∃ params, R.contents pair.1 = some params ∧ params.notBefore = now - notBeforeOffsetSecs ∧
      params.notAfter = now + lifespan := by
  obtain ⟨params, k, hparams, -, hsigned, -⟩ := generateLeaf_some h
  refine ⟨params, (hR.signedBy params k _ n pair.1 hsigned).2, ?_⟩
  unfold leafParams at hparams
  split at hparams
  · obtain rfl := Option.some.inj hparams
    refine ⟨rfl, ?_⟩
    show now - notBeforeOffsetSecs + ttlSecs = now + (ttlSecs - notBeforeOffsetSecs)
    omega
  · exact nomatch hparams

/-- **When a certificate is valid**: from five minutes before it was made on, for its lifespan. -/
theorem validAt_iff (hR : R.Lawful) {ca : CertificationAuthority Key} {n : ℕ} {now t : ℤ}
    {host : Str} {pair : Bytes × Bytes} (h : generateLeaf R ca n now host = some pair) :
    ValidAt R pair.1 t ↔ now - notBeforeOffsetSecs ≤ t ∧ t ≤ now + lifespan := by
  obtain ⟨params, hcontents, hbefore, hafter⟩ := generateLeaf_span hR h
  rw [← hbefore, ← hafter]
  constructor
  · rintro ⟨params', hcontents', hspan⟩
    obtain rfl : params = params' := Option.some.inj (hcontents.symm.trans hcontents')
    exact hspan
  · exact fun hspan => ⟨params, hcontents, hspan⟩

/-- A certificate is valid when it is made. -/
theorem validAt_made (hR : R.Lawful) {ca : CertificationAuthority Key} {n : ℕ} {now : ℤ}
    {host : Str} {pair : Bytes × Bytes} (h : generateLeaf R ca n now host = some pair) :
    ValidAt R pair.1 now := by
  rw [validAt_iff hR h]
  unfold lifespan ttlSecs notBeforeOffsetSecs
  omega

/-! ## What is cached -/

/-- What the cache has, a call has made, at the time `T` or before. -/
def CachesMade (R : Rcgen Key) (clock : ℕ → ℤ) (T : ℤ) (ca : CertificationAuthority Key) : Prop :=
  ∀ host pair, ca.certCache host = some pair →
    ∃ j, clock j ≤ T ∧ generateLeaf R ca j (clock j) host = some pair

/-- What a call has for its host it has made itself. -/
def HasMade (R : Rcgen Key) (clock : ℕ → ℤ) (i : ℕ) (m : Option Forge)
    (ca : CertificationAuthority Key) : Prop :=
  match m with
  | some (.insert host pair) => generateLeaf R ca i (clock i) host = some pair
  | _ => True

/-- An insertion changes nothing that certificates are made of. -/
theorem generateLeaf_step (n i : ℕ) (ca : CertificationAuthority Key) (l : Forge) (now : ℤ)
    (host : Str) : generateLeaf R (forgeStep R clock n ca l).1 i now host =
      generateLeaf R ca i now host := by
  obtain hsame | ⟨_, _, rfl, hins⟩ := forgeStep_cache R clock n ca l
  · rw [hsame]
  · rw [hins]
    rfl

theorem hasMade_stable {n j : ℕ} {ca : CertificationAuthority Key} {l : Forge}
    {m : Option Forge} (hm : HasMade R clock j m ca) :
    HasMade R clock j m (forgeStep R clock n ca l).1 := by
  cases m with
  | none => exact trivial
  | some m =>
    cases m with
    | insert host pair => exact (generateLeaf_step n j ca l (clock j) host).trans hm
    | lookup host => exact trivial
    | generate host => exact trivial
    | returned host pair => exact trivial
    | panicked msg => exact trivial

theorem hasMade_step {n : ℕ} {ca : CertificationAuthority Key} {l : Forge} :
    HasMade R clock n (some (forgeStep R clock n ca l).2) (forgeStep R clock n ca l).1 := by
  cases l with
  | lookup host =>
    simp only [forgeStep]
    split <;> exact trivial
  | generate host =>
    simp only [forgeStep]
    split
    · rename_i pair hpair
      exact hpair
    · exact trivial
  | insert host pair => exact trivial
  | returned host pair => exact trivial
  | panicked msg => exact trivial

/-- An insertion puts there what the call has made. -/
theorem cachesMade_step {T : ℤ} {n : ℕ} {ca : CertificationAuthority Key} {l : Forge}
    (hca : CachesMade R clock T ca) (hl : HasMade R clock n (some l) ca) (hn : clock n ≤ T) :
    CachesMade R clock T (forgeStep R clock n ca l).1 := by
  intro host pair hcached
  obtain hsame | ⟨host', pair', rfl, hins⟩ := forgeStep_cache R clock n ca l
  · rw [hsame] at hcached ⊢
    exact hca host pair hcached
  have hupdate : Function.update ca.certCache host' (some pair') host = some pair := by
    rw [hins] at hcached
    exact hcached
  by_cases hh : host = host'
  · subst hh
    rw [Function.update_self] at hupdate
    obtain rfl := Option.some.inj hupdate
    exact ⟨n, hn, (generateLeaf_step n n ca _ _ _).trans hl⟩
  · rw [Function.update_of_ne hh] at hupdate
    obtain ⟨j, hj, hmade⟩ := hca host pair hupdate
    exact ⟨j, hj, (generateLeaf_step n j ca _ _ _).trans hmade⟩

/-- In a run whose steps come no later than `T`, what is cached was made no later than `T`. -/
theorem forge_made (R : Rcgen Key) (clock : ℕ → ℤ) (T : ℤ) :
    Outline (forgeCertificate R clock) (fun n _ _ => clock n ≤ T) (CachesMade R clock T)
      (HasMade R clock) where
  start _ _ _ _ _ := trivial
  step _ _ _ hca hl hn := ⟨cachesMade_step hca hl hn, hasMade_step⟩
  stable _ _ _ _ _ _ _ _ hm _ := hasMade_stable hm

/-! ## What is returned -/

/-- What a call has returned is valid. -/
def HasValid (R : Rcgen Key) (clock : ℕ → ℤ) (i : ℕ) : Option Forge → Prop
  | some (.returned _ pair) => ValidAt R pair.1 (clock i)
  | _ => True

/-- While lookups find young pairs only, which were made before, calls return valid ones. -/
theorem forge_timely (clock : ℕ → ℤ) (hR : R.Lawful) :
    Outline (forgeCertificate R clock)
      (fun n ca l => FindsYoung R clock n ca l ∧ CachesMade R clock (clock n) ca)
      (fun _ => True) fun i m ca => HasMade R clock i m ca ∧ HasValid R clock i m where
  start _ _ _ _ _ := ⟨trivial, trivial⟩
  step n ca l _ hl hfinds := by
    refine ⟨trivial, hasMade_step, ?_⟩
    obtain ⟨hyoung, hpast⟩ := hfinds
    cases l with
    | lookup host =>
      simp only [forgeCertificate, forgeStep]
      split
      · -- the pair of a call before this one
        rename_i pair hcached
        obtain ⟨j, hj, hmade⟩ := hpast host pair hcached
        refine (validAt_iff hR hmade).2 ⟨?_, hyoung j pair hcached hmade⟩
        unfold notBeforeOffsetSecs
        omega
      · exact trivial
    | generate host =>
      simp only [forgeCertificate, forgeStep]
      split <;> exact trivial
    | insert host pair => exact validAt_made hR hl.1
    | returned host pair => exact hl.2
    | panicked msg => exact trivial
  stable _ _ _ _ _ _ _ _ hm _ := ⟨hasMade_stable hm.1, hm.2⟩

/-! ## Runs -/

/-- A run none of whose steps comes later than `T`. -/
theorem guarded_times (R : Rcgen Key) (ca : CertificationAuthority Key) {T : ℤ}
    {acts : List (Act Str)} (hacts : ∀ t ∈ stepTimes clock acts, t ≤ T) :
    Pool.Guarded (forgeCertificate R clock) (fun n _ _ => clock n ≤ T) ⟨ca, []⟩ acts := by
  rintro before a after rfl
  cases a with
  | start _ => exact trivial
  | step n =>
    intro _ _
    refine hacts (clock n) ?_
    exact List.mem_filterMap.2 ⟨.step n, List.mem_append_right _ List.mem_cons_self, rfl⟩

/-- The steps before one of a run in order come no later. -/
theorem steps_before {before after : List (Act Str)} {i : ℕ}
    (hacts : InOrder clock (before ++ .step i :: after)) {ca : CertificationAuthority Key} :
    Pool.Guarded (forgeCertificate R clock) (fun n _ _ => clock n ≤ clock i) ⟨ca, []⟩ before := by
  have htimes : stepTimes clock (before ++ .step i :: after) =
      stepTimes clock before ++ clock i :: stepTimes clock after := by
    unfold stepTimes
    rw [List.filterMap_append]
    rfl
  unfold InOrder at hacts
  rw [htimes, List.pairwise_append] at hacts
  exact guarded_times R ca fun t ht => hacts.2.2 t ht (clock i) List.mem_cons_self

/-- **Every certificate that a call returns is valid at the time of the call** exactly in the runs
in which no lookup finds a pair that was made too long ago. -/
theorem forgeCertificate_valid_iff (R : Rcgen Key) (hR : R.Lawful) (clock : ℕ → ℤ)
    (ca : CertificationAuthority Key) (hca : ∀ host, ca.certCache host = none)
    (acts : List (Act Str)) (hacts : InOrder clock acts) :
    AllValid R clock (Pool.run (forgeCertificate R clock) ⟨ca, []⟩ acts) ↔
      Pool.Guarded (forgeCertificate R clock) (FindsYoung R clock) ⟨ca, []⟩ acts := by
  constructor
  · rintro hvalid before a after rfl
    cases a with
    | start _ => exact trivial
    | step i =>
      intro l hl
      cases l with
      | lookup host =>
        intro j pair hcached hmade
        -- the call returns this pair at once, and so it is valid
        have hfound : (Pool.run (forgeCertificate R clock) ⟨ca, []⟩
            (before ++ .step i :: after)).calls[i]? = some (.returned host pair) := by
          rw [Pool.run_append, Pool.run_cons]
          refine Pool.run_ended (fun _ => rfl) after ?_
          have hlookup : (forgeCertificate R clock).step i
              (Pool.run (forgeCertificate R clock) ⟨ca, []⟩ before).shared (.lookup host) =
              ((Pool.run (forgeCertificate R clock) ⟨ca, []⟩ before).shared,
                .returned host pair) := by
            simp only [forgeCertificate, forgeStep] at hcached ⊢
            rw [hcached]
          rw [Pool.act_step hl, hlookup]
          exact List.getElem?_set_self (List.getElem?_eq_some_iff.1 hl).1
        exact ((validAt_iff hR hmade).1 (hvalid i host pair hfound)).2
      | generate host => exact trivial
      | insert host pair => exact trivial
      | returned host pair => exact trivial
      | panicked msg => exact trivial
  · intro hyoung i host pair hi
    have hempty : ∀ T, CachesMade R clock T ca := fun _ host pair h =>
      absurd ((hca host).symm.trans h) (Option.some_ne_none pair).symm
    have hguard : Pool.Guarded (forgeCertificate R clock)
        (fun n ca l => FindsYoung R clock n ca l ∧ CachesMade R clock (clock n) ca)
        ⟨ca, []⟩ acts := by
      rintro before a after rfl
      cases a with
      | start _ => exact trivial
      | step n =>
        intro l hl
        refine ⟨hyoung before (.step n) after rfl l hl, ?_⟩
        exact ((forge_made R clock (clock n)).run_init (hempty _) (fun _ => trivial) before
          (steps_before hacts)).shared
    have hholds := (forge_timely clock hR).run_init trivial (fun _ => ⟨trivial, trivial⟩) acts
      hguard
    have hcall := (hholds.calls i).2
    rw [hi] at hcall
    exact hcall

/-- A call for `example.com`, and another later. -/
def visits : List (Act Str) :=
  [.start "example.com".toList, .step 0, .step 0, .step 0, .start "example.com".toList, .step 1]

/-- The later call comes after this time. -/
def laterAt (t : ℤ) (n : ℕ) : ℤ := if n = 0 then 0 else t

/-- After a year, the certificate that is found is not valid. -/
theorem forgeCertificate_expired : ¬ ∀ (clock : ℕ → ℤ) (acts : List (Act Str)),
    InOrder clock acts →
      AllValid plainRcgen clock (Pool.run (forgeCertificate plainRcgen clock) ⟨plainCa, []⟩ acts) := by
  intro hall
  have hvalid := hall (laterAt 31536000) visits (by decide) 1 "example.com".toList ([1], [2])
    (by decide +kernel)
  obtain ⟨params, hcontents, -, hafter⟩ := hvalid
  obtain rfl : exampleParams = params := Option.some.inj hcontents
  exact absurd hafter (by decide)

/-- After an hour, it is. -/
theorem forgeCertificate_valid_hour : AllValid plainRcgen (laterAt 3600)
    (Pool.run (forgeCertificate plainRcgen (laterAt 3600)) ⟨plainCa, []⟩ visits) := by
  refine (forgeCertificate_valid_iff plainRcgen plainRcgen_lawful (laterAt 3600) plainCa
    (fun _ => rfl) visits (by decide)).2 ?_
  have hclock : ∀ n j, laterAt 3600 n ≤ laterAt 3600 j + lifespan := by
    intro n j
    unfold laterAt lifespan ttlSecs notBeforeOffsetSecs
    split <;> split <;> decide
  intro before a after _
  cases a with
  | start _ => exact trivial
  | step i =>
    intro l _
    cases l with
    | lookup host => exact fun j _ _ _ => hclock i j
    | generate host => exact trivial
    | insert host pair => exact trivial
    | returned host pair => exact trivial
    | panicked msg => exact trivial

end HexbufferProxy
