import HexbufferProxy.Proof.Authority

/-!
# The certificates of hosts

* `forge_leaves`: what is cached, inserted or returned is a certificate for its host with its own
  key, whatever the order of the calls.
* `forge_kept`: while calls insert only where the cache has nothing, what a call has returned is what
  the cache has.
* `forge_cached`: what the cache has, some call has returned. So an insertion over it makes the next
  call return another pair.
* `forgeCertificate_same`: runs of `forge_certificate`.
-/

namespace HexbufferProxy

open Rust

variable {Key : Type} {R : Rcgen Key} {clock : ℕ → ℤ}

/-- What `generateLeaf` makes. -/
theorem generateLeaf_some {ca : CertificationAuthority Key} {n : ℕ} {now : ℤ} {host : Str}
    {pair : Bytes × Bytes} (h : generateLeaf R ca n now host = some pair) :
    ∃ params k, leafParams R now host = some params ∧ R.generate n = some k ∧
      R.signedBy params k ⟨ca.caParams, ca.caKey⟩ n = some pair.1 ∧ pair.2 = R.serializeDer k := by
  unfold generateLeaf at h
  cases hp : leafParams R now host with
  | none => rw [hp] at h; exact nomatch h
  | some params =>
    cases hk : R.generate n with
    | none => rw [hp, hk] at h; exact nomatch h
    | some k =>
      cases hs : R.signedBy params k ⟨ca.caParams, ca.caKey⟩ n with
      | none =>
        have hnone : (R.signedBy params k ⟨ca.caParams, ca.caKey⟩ n).bind
            (fun der => some (der, R.serializeDer k)) = some pair := by
          rw [hp, hk] at h
          exact h
        rw [hs] at hnone
        exact nomatch hnone
      | some der =>
        have hsome : (R.signedBy params k ⟨ca.caParams, ca.caKey⟩ n).bind
            (fun der => some (der, R.serializeDer k)) = some pair := by
          rw [hp, hk] at h
          exact h
        rw [hs] at hsome
        obtain rfl := Option.some.inj hsome
        exact ⟨params, k, rfl, rfl, hs, rfl⟩

/-- The parameters name the host. -/
theorem leafParams_some {now : ℤ} {host : Str} {params : CertificateParams}
    (h : leafParams R now host = some params) :
    .dnsName host ∈ params.subjectAltNames ∧ params.distinguishedName = [(.commonName, host)] := by
  unfold leafParams at h
  by_cases hia5 : R.isIa5 host = true
  · rw [if_pos hia5] at h
    obtain rfl := Option.some.inj h
    exact ⟨List.mem_append_right _ List.mem_cons_self, rfl⟩
  · rw [if_neg hia5] at h
    exact nomatch h

theorem generateLeaf_leafFor (hR : R.Lawful) {ca : CertificationAuthority Key} {n : ℕ} {now : ℤ}
    {host : Str} {pair : Bytes × Bytes} (h : generateLeaf R ca n now host = some pair) :
    LeafFor R host pair := by
  obtain ⟨params, k, hparams, -, hsigned, hder⟩ := generateLeaf_some h
  obtain ⟨hcert, hcontents⟩ := hR.signedBy params k _ n pair.1 hsigned
  exact ⟨k, params, hcert, hder, hcontents, leafParams_some hparams⟩

/-- **What a step does to the cache**: nothing, or one insertion. -/
theorem forgeStep_cache (R : Rcgen Key) (clock : ℕ → ℤ) (n : ℕ) (ca : CertificationAuthority Key)
    (l : Forge) : (forgeStep R clock n ca l).1 = ca ∨
      ∃ host pair, l = .insert host pair ∧ forgeStep R clock n ca l =
        ({ ca with certCache := Function.update ca.certCache host (some pair) },
          .returned host pair) := by
  cases l with
  | lookup host =>
    left
    simp only [forgeStep]
    split <;> rfl
  | generate host =>
    left
    simp only [forgeStep]
    split <;> rfl
  | insert host pair => exact .inr ⟨host, pair, rfl, rfl⟩
  | returned host pair => exact .inl rfl
  | panicked msg => exact .inl rfl

/-! ## Certificates for their hosts -/

/-- What the cache has for a host is for this host. -/
def CachesLeaves (R : Rcgen Key) (ca : CertificationAuthority Key) : Prop :=
  ∀ host pair, ca.certCache host = some pair → LeafFor R host pair

/-- What a call has is for its host. -/
def HasLeaf (R : Rcgen Key) : Option Forge → Prop
  | some (.insert host pair) => LeafFor R host pair
  | some (.returned host pair) => LeafFor R host pair
  | _ => True

theorem forge_leaves (clock : ℕ → ℤ) (hR : R.Lawful) :
    Outline (forgeCertificate R clock) (fun _ _ _ => True) (CachesLeaves R)
      fun _ m _ => HasLeaf R m where
  start _ _ _ _ _ := trivial
  step n ca l hca hl _ := by
    refine ⟨?_, ?_⟩
    · -- the cache: an insertion puts there what the call has made
      obtain hsame | ⟨host, pair, rfl, hins⟩ := forgeStep_cache R clock n ca l
      · exact fun host pair h => hca host pair (hsame ▸ h)
      · intro host' pair' h
        have hupdate : Function.update ca.certCache host (some pair) host' = some pair' := by
          have hcache := congrArg (fun s => s.1.certCache host') hins
          exact hcache.symm.trans h
        by_cases hh : host' = host
        · subst hh
          rw [Function.update_self] at hupdate
          exact Option.some.inj hupdate ▸ hl
        · rw [Function.update_of_ne hh] at hupdate
          exact hca host' pair' hupdate
    · -- the call: what it finds is a leaf, and so is what it makes
      cases l with
      | lookup host =>
        simp only [forgeCertificate, forgeStep]
        split
        · rename_i pair hcached
          exact hca host pair hcached
        · exact trivial
      | generate host =>
        simp only [forgeCertificate, forgeStep]
        split
        · rename_i pair hpair
          exact generateLeaf_leafFor hR hpair
        · exact trivial
      | insert host pair => exact hl
      | returned host pair => exact hl
      | panicked msg => exact trivial
  stable _ _ _ _ _ _ _ _ hm _ := hm

/-! ## Calls that insert first -/

/-- What a call has returned is what the cache has. -/
def IsCached (m : Option Forge) (ca : CertificationAuthority Key) : Prop :=
  match m with
  | some (.returned host pair) => ca.certCache host = some pair
  | _ => True

theorem forge_kept (R : Rcgen Key) (clock : ℕ → ℤ) :
    Outline (forgeCertificate R clock) InsertsFirst (fun _ => True) fun _ m ca => IsCached m ca where
  start _ _ _ _ _ := trivial
  step n ca l _ hl _ := by
    refine ⟨trivial, ?_⟩
    cases l with
    | lookup host =>
      simp only [forgeCertificate, forgeStep]
      split
      · rename_i pair hcached
        exact hcached
      · exact trivial
    | generate host =>
      simp only [forgeCertificate, forgeStep]
      split <;> exact trivial
    | insert host pair => exact Function.update_self host (some pair) ca.certCache
    | returned host pair => exact hl
    | panicked msg => exact trivial
  stable n j ca l m _ _ _ hm hfirst := by
    obtain hsame | ⟨host, pair, rfl, hins⟩ := forgeStep_cache R clock n ca l
    · show IsCached m (forgeStep R clock n ca l).1
      rwa [hsame]
    show IsCached m (forgeStep R clock n ca (.insert host pair)).1
    rw [hins]
    have hnone : ca.certCache host = none := hfirst
    cases m with
    | none => exact trivial
    | some m =>
      cases m with
      | returned host' pair' =>
        have hcached : ca.certCache host' = some pair' := hm
        -- the host of the insertion is another one, for nothing was cached for it
        have hne : host' ≠ host := by
          rintro rfl
          rw [hnone] at hcached
          exact nomatch hcached
        exact (Function.update_of_ne hne _ _).trans hcached
      | lookup host' => exact trivial
      | generate host' => exact trivial
      | insert host' pair' => exact trivial
      | panicked msg => exact trivial

/-! ## All calls -/

/-- The key of call `i` is not cached. -/
def Unmade (R : Rcgen Key) (i : ℕ) (ca : CertificationAuthority Key) : Prop :=
  ∀ k, R.generate i = some k → ∀ host pair, ca.certCache host = some pair →
    pair.2 ≠ R.serializeDer k

/-- What keeps the pair of call `i` apart from those of the others. -/
def Differs (R : Rcgen Key) (i : ℕ) (m : Option Forge) (ca : CertificationAuthority Key) : Prop :=
  match m with
  | some (.insert _ pair) =>
    (∃ k, R.generate i = some k ∧ pair.2 = R.serializeDer k) ∧ Unmade R i ca
  | some (.returned _ _) => True
  | some (.panicked _) => True
  | _ => Unmade R i ca

theorem unmade_stable (hfresh : FreshLeaves R) {i j : ℕ} (hij : j ≠ i)
    {ca : CertificationAuthority Key} {l : Forge} (hl : Differs R i (some l) ca)
    (hm : Unmade R j ca) : Unmade R j (forgeStep R clock i ca l).1 := by
  intro k hk host' pair' hcached
  obtain hsame | ⟨host, pair, rfl, hins⟩ := forgeStep_cache R clock i ca l
  · exact hm k hk host' pair' (hsame ▸ hcached)
  have hupdate : Function.update ca.certCache host (some pair) host' = some pair' := by
    have hcache := congrArg (fun s => s.1.certCache host') hins
    exact hcache.symm.trans hcached
  by_cases hh : host' = host
  · subst hh
    rw [Function.update_self] at hupdate
    obtain ⟨⟨k', hk', hder⟩, -⟩ := hl
    rw [← Option.some.inj hupdate, hder]
    exact fun hsame => hij (hfresh j i k k' hk hk' hsame.symm)
  · rw [Function.update_of_ne hh] at hupdate
    exact hm k hk host' pair' hupdate

theorem forge_differs (clock : ℕ → ℤ) (hfresh : FreshLeaves R) :
    Outline (forgeCertificate R clock) (fun _ _ _ => True) (fun _ => True) (Differs R) where
  start _ _ _ _ h := h
  step n ca l _ hl _ := by
    refine ⟨trivial, ?_⟩
    cases l with
    | lookup host =>
      simp only [forgeCertificate, forgeStep]
      split
      · exact trivial
      · exact hl
    | generate host =>
      simp only [forgeCertificate, forgeStep]
      split
      · rename_i pair hpair
        obtain ⟨_, k, -, hk, -, hder⟩ := generateLeaf_some hpair
        exact ⟨⟨k, hk, hder⟩, hl⟩
      · exact trivial
    | insert host pair => exact trivial
    | returned host pair => exact trivial
    | panicked msg => exact trivial
  stable n j ca l m hij _ hl hm _ := by
    cases m with
    | none => exact unmade_stable hfresh hij hl hm
    | some m =>
      cases m with
      | lookup host => exact unmade_stable hfresh hij hl hm
      | generate host => exact unmade_stable hfresh hij hl hm
      | insert host pair => exact ⟨hm.1, unmade_stable hfresh hij hl hm.2⟩
      | returned host pair => exact trivial
      | panicked msg => exact trivial

/-- A call that has returned stays so. -/
theorem returned_act {p : Pool (CertificationAuthority Key) Forge} {i : ℕ} {host : Str}
    {pair : Bytes × Bytes} (h : p.calls[i]? = some (.returned host pair)) (a : Act Str) :
    (Pool.act (forgeCertificate R clock) p a).calls[i]? = some (.returned host pair) :=
  Pool.act_ended (fun _ => rfl) h a

/-- **What is cached, some call has returned.** -/
theorem forge_cached {ca : CertificationAuthority Key} (hca : ∀ host, ca.certCache host = none)
    (acts : List (Act Str)) {host : Str} {pair : Bytes × Bytes}
    (h : (Pool.run (forgeCertificate R clock) ⟨ca, []⟩ acts).shared.certCache host = some pair) :
    ∃ i : ℕ, (Pool.run (forgeCertificate R clock) ⟨ca, []⟩ acts).calls[i]? =
      some (.returned host pair) := by
  induction acts using List.reverseRecOn generalizing host pair with
  | nil => exact nomatch (hca host).symm.trans h
  | append_singleton acts a ih =>
    rw [Pool.run_concat] at h ⊢
    generalize Pool.run (forgeCertificate R clock) ⟨ca, []⟩ acts = p at h ih ⊢
    have hkeep : p.shared.certCache host = some pair →
        ∃ i : ℕ, (Pool.act (forgeCertificate R clock) p a).calls[i]? =
          some (.returned host pair) := by
      intro hp
      obtain ⟨i, hi⟩ := ih hp
      exact ⟨i, returned_act hi a⟩
    -- a pair stays returned; only an insertion puts a new one there
    cases a with
    | start host' => exact hkeep h
    | step i =>
      cases hi : p.calls[i]? with
      | none =>
        unfold Pool.act at h
        simp only [hi] at h
        exact hkeep h
      | some l =>
        have hact := Pool.act_step (M := forgeCertificate R clock) hi
        obtain hsame | ⟨host', pair', rfl, hins⟩ := forgeStep_cache R clock i p.shared l
        · rw [hact] at h
          exact hkeep (hsame ▸ h)
        have hupdate : Function.update p.shared.certCache host' (some pair') host = some pair := by
          rw [hact] at h
          have hcache := congrArg (fun s => s.1.certCache host) hins
          exact hcache.symm.trans h
        by_cases hh : host = host'
        · -- the call that inserts the pair returns it
          subst hh
          rw [Function.update_self] at hupdate
          refine ⟨i, ?_⟩
          rw [hact, ← Option.some.inj hupdate]
          exact (List.getElem?_set_self (List.getElem?_eq_some_iff.1 hi).1).trans
            (congrArg (fun s => some s.2) hins)
        · rw [Function.update_of_ne hh] at hupdate
          exact hkeep hupdate

/-! ## Runs -/

/-- A call that finds a pair returns it. -/
theorem forge_finds {ca : CertificationAuthority Key} (calls : List Forge) {host : Str}
    {pair : Bytes × Bytes} (h : ca.certCache host = some pair) :
    Pool.run (forgeCertificate R clock) ⟨ca, calls⟩ [.start host, .step calls.length] =
      ⟨ca, calls ++ [.returned host pair]⟩ := by
  have hlookup : (forgeCertificate R clock).step calls.length ca (.lookup host) =
      (ca, .returned host pair) := by
    simp only [forgeCertificate, forgeStep, h]
  have hstart : Pool.act (forgeCertificate R clock) ⟨ca, calls⟩ (.start host) =
      ⟨ca, calls ++ [.lookup host]⟩ := rfl
  rw [Pool.run_cons, hstart, Pool.run_cons, Pool.act_last hlookup]
  rfl

/-- An insertion over a pair leaves two that have been returned for the host. -/
theorem forge_overwrites (hfresh : FreshLeaves R) {ca : CertificationAuthority Key}
    (hca : ∀ host, ca.certCache host = none) (acts : List (Act Str)) (i : ℕ)
    (hi : ¬ Pool.Meets InsertsFirst (Pool.run (forgeCertificate R clock) ⟨ca, []⟩ acts)
      (.step i : Act Str)) :
    ∃ (j : ℕ) (host : Str) (old new : Bytes × Bytes), new ≠ old ∧
      (Pool.run (forgeCertificate R clock) ⟨ca, []⟩ (acts ++ [.step i])).calls[j]? =
        some (.returned host old) ∧
      (Pool.run (forgeCertificate R clock) ⟨ca, []⟩ (acts ++ [.step i])).shared.certCache host =
        some new := by
  have hnone : ∀ j, Differs R j none ca := fun _ _ _ host _ h => nomatch (hca host).symm.trans h
  have hholds := (forge_differs clock hfresh).run_init trivial hnone acts
    (Pool.guarded_true acts)
  obtain ⟨l, hl⟩ := not_forall.1 hi
  obtain ⟨hcall, hfirst⟩ := Classical.not_imp.1 hl
  have hdiffers := hholds.calls i
  rw [hcall] at hdiffers
  cases l with
  | insert host new =>
    -- the pair that is overwritten has been returned before
    obtain ⟨old, hold⟩ := Option.ne_none_iff_exists'.1 hfirst
    obtain ⟨j, hj⟩ := forge_cached hca acts hold
    obtain ⟨⟨k, hk, hder⟩, hunmade⟩ := hdiffers
    refine ⟨j, host, old, new, fun hsame => ?_, ?_, ?_⟩
    · exact hunmade k hk host old hold (hsame ▸ hder)
    · rw [Pool.run_concat]
      exact returned_act hj _
    · rw [Pool.run_concat, Pool.act_step hcall]
      exact Function.update_self host (some new)
        (Pool.run (forgeCertificate R clock) ⟨ca, []⟩ acts).shared.certCache
  | lookup host => exact absurd trivial hfirst
  | generate host => exact absurd trivial hfirst
  | returned host pair => exact absurd trivial hfirst
  | panicked msg => exact absurd trivial hfirst

/-- **Every pair that a call returns is a certificate for its host and the key in it; and in every
run in which calls insert only where the cache has nothing, later calls return the same pair.** Only
then: after any other insertion, the next call returns another pair than a call before it. -/
theorem forgeCertificate_same (R : Rcgen Key) (hR : R.Lawful) (clock : ℕ → ℤ)
    (ca : CertificationAuthority Key) (hca : ∀ host, ca.certCache host = none) :
    (∀ acts (i : ℕ) host pair,
      (Pool.run (forgeCertificate R clock) ⟨ca, []⟩ acts).calls[i]? =
        some (.returned host pair) → LeafFor R host pair) ∧
    (∀ acts, Pool.Guarded (forgeCertificate R clock) InsertsFirst ⟨ca, []⟩ acts →
      SamePair R clock ca acts) ∧
    (FreshLeaves R → ∀ acts i,
      ¬ Pool.Meets InsertsFirst (Pool.run (forgeCertificate R clock) ⟨ca, []⟩ acts)
        (.step i : Act Str) →
      ∃ more, ¬ SamePair R clock ca (acts ++ .step i :: more)) := by
  refine ⟨fun acts i host pair hi => ?_, fun acts hacts => ?_, fun hfresh acts i hi => ?_⟩
  · have hempty : CachesLeaves R ca := fun host _ h => nomatch (hca host).symm.trans h
    have hholds := (forge_leaves clock hR).run_init hempty (fun _ => trivial) acts
      (Pool.guarded_true acts)
    have hleaf := hholds.calls i
    rw [hi] at hleaf
    exact hleaf
  · rintro before after rfl i j host pair pair' hi - hj
    have hholds := (forge_kept R clock).run_init trivial (fun _ => trivial)
      (s := ca) (before ++ after) hacts
    -- both pairs are what the cache has at the end
    have hcached := hholds.calls j
    rw [hj] at hcached
    have hstill : (Pool.run (forgeCertificate R clock) ⟨ca, []⟩ (before ++ after)).calls[i]? =
        some (.returned host pair) := by
      rw [Pool.run_append]
      exact Pool.run_ended (fun _ => rfl) after hi
    have hkept := hholds.calls i
    rw [hstill] at hkept
    exact Option.some.inj (hcached.symm.trans hkept)
  · obtain ⟨j, host, old, new, hne, hj, hnew⟩ := forge_overwrites hfresh hca acts i hi
    refine ⟨[.start host, .step (Pool.run (forgeCertificate R clock) ⟨ca, []⟩
      (acts ++ [.step i])).calls.length], fun hsame => ?_⟩
    refine hne (hsame (acts ++ [.step i]) _ (List.append_cons _ _ _) j _ host old new hj le_rfl ?_)
    rw [List.append_cons, Pool.run_append, forge_finds _ hnew]
    exact List.getElem?_concat_length

/-- A CA that has just been made. -/
def plainCa : CertificationAuthority ℕ := newCa plainRcgen 1 ['C']

/-- Two calls look `example.com` up and find nothing; then both generate a pair and insert it. -/
def raced : List (Act Str) :=
  .start "example.com".toList :: .start "example.com".toList ::
    [.step 0, .step 1, .step 0, .step 1, .step 0, .step 1]

/-- The next call gets the pair of the second, after the first has returned another. -/
theorem forgeCertificate_raced :
    ¬ SamePair plainRcgen (fun _ => 0) plainCa
      (raced ++ [.start "example.com".toList, .step 2]) := by
  intro h
  have hsame := h raced [.start "example.com".toList, .step 2] rfl 0 2 "example.com".toList
    ([1], [2]) ([1, 1], [2, 2]) (by decide +kernel) (by decide +kernel) (by decide +kernel)
  exact absurd hsame (by decide)

/-- One call after the other; and the second insertion of `raced`. -/
theorem forgeCertificate_same_plain :
    LeafFor plainRcgen "example.com".toList ([1], [2]) ∧
    SamePair plainRcgen (fun _ => 0) plainCa
      [.start "example.com".toList, .step 0, .step 0, .step 0, .start "example.com".toList,
        .step 1] ∧
    ∃ more, ¬ SamePair plainRcgen (fun _ => 0) plainCa (raced.take 7 ++ .step 1 :: more) := by
  have hforge := forgeCertificate_same plainRcgen plainRcgen_lawful (fun _ => 0) plainCa
    fun _ => rfl
  refine ⟨hforge.1 raced 0 _ _ (by decide +kernel), hforge.2.1 _ ?_, hforge.2.2 ?_ _ 1 ?_⟩
  · refine .cons trivial (.cons ?_ (.cons ?_ (.cons ?_ (.cons trivial (.cons ?_
      Pool.guarded_nil)))))
    all_goals intro l hl
    all_goals obtain rfl := Option.some.inj hl
    all_goals first | exact trivial | rfl
  · intro i j k k' hi hj hder
    have hlen := congrArg List.length hder
    have hk : k = k' := by
      simpa only [plainRcgen, List.length_replicate] using hlen
    rw [← hk] at hj
    exact Nat.succ_injective (Option.some.inj (hi.trans hj.symm))
  · intro h
    have hfirst : some (([1] : Bytes), ([2] : Bytes)) = none := h _ rfl
    exact absurd hfirst (by decide)

end HexbufferProxy
