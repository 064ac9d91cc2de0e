import HexbufferProxy.Rust.Proc

/-!
# Two procedures that do the same

`Mirrors π v m' m R`: whatever `m'` does in a state, `m` does in what `π` makes of that state. They
fail alike or return results that `R` relates, the states that they leave correspond, and the events
of `m` are those of `m'`, read through `v`. The reading may drop an event and may replace it.

The rules follow the syntax of both sides at once: `mirrors_bind`.
-/

namespace HexbufferProxy.Rust.Proc

variable {ε ε' σ σ' φ α α' β β' : Type}

/-- The same failure, or results that `R` relates. -/
inductive SameOutcome (R : α' → α → Prop) : Except φ α' → Except φ α → Prop
  | error (e : φ) : SameOutcome R (.error e) (.error e)
  | ok {a' : α'} {a : α} (h : R a' a) : SameOutcome R (.ok a') (.ok a)

/-- Two runs that correspond. -/
structure SameRun (π : σ' → σ) (v : ε' → List ε) (R : α' → α → Prop) (r' : Ran ε' σ' φ α')
    (r : Ran ε σ φ α) : Prop where
  result : SameOutcome R r'.result r.result
  state : π r'.state = r.state
  events : r'.events.flatMap v = r.events

/-- **Every run of `m'` corresponds to the run of `m` from the corresponding state.** -/
def Mirrors (π : σ' → σ) (v : ε' → List ε) (m' : Proc ε' σ' φ α') (m : Proc ε σ φ α)
    (R : α' → α → Prop) : Prop := ∀ s, SameRun π v R (m' s) (m (π s))

variable {π : σ' → σ} {v : ε' → List ε} {m' : Proc ε' σ' φ α'} {m : Proc ε σ φ α}
  {f' : α' → Proc ε' σ' φ β'} {f : α → Proc ε σ φ β} {R R' : α' → α → Prop} {S : β' → β → Prop}

theorem SameOutcome.mono {x' : Except φ α'} {x : Except φ α} (h : SameOutcome R x' x)
    (hR : ∀ a' a, R a' a → R' a' a) : SameOutcome R' x' x := by
  cases h with
  | error e => exact .error e
  | ok h => exact .ok (hR _ _ h)

theorem SameOutcome.eq {x' x : Except φ α} (h : SameOutcome Eq x' x) : x' = x := by
  cases h with
  | error e => rfl
  | ok h => rw [h]

theorem Mirrors.mono (h : Mirrors π v m' m R) (hR : ∀ a' a, R a' a → R' a' a) :
    Mirrors π v m' m R' :=
  fun s => ⟨(h s).result.mono hR, (h s).state, (h s).events⟩

theorem mirrors_pure {a' : α'} {a : α} (h : R a' a) :
    Mirrors π v (pure a' : Proc ε' σ' φ α') (pure a : Proc ε σ φ α) R :=
  fun _ => ⟨.ok h, rfl, rfl⟩

theorem mirrors_fail (e : φ) :
    Mirrors π v (fail e : Proc ε' σ' φ α') (fail e : Proc ε σ φ α) R :=
  fun _ => ⟨.error e, rfl, rfl⟩

theorem mirrors_lift (x : Except φ α) :
    Mirrors π v (lift x : Proc ε' σ' φ α) (lift x : Proc ε σ φ α) Eq := by
  refine fun _ => ⟨?_, rfl, rfl⟩
  cases x with
  | error e => exact .error e
  | ok a => exact .ok rfl

theorem mirrors_emit {e' : ε'} {e : ε} (h : v e' = [e]) :
    Mirrors π v (emit e' : Proc ε' σ' φ Unit) (emit e : Proc ε σ φ Unit) Eq := by
  refine fun _ => ⟨.ok rfl, rfl, ?_⟩
  exact (List.flatMap_singleton v e').trans h

theorem mirrors_call {c' : σ' → α' × σ'} {c : σ → α × σ}
    (h : ∀ s, R (c' s).1 (c (π s)).1 ∧ π (c' s).2 = (c (π s)).2) :
    Mirrors π v (call c' : Proc ε' σ' φ α') (call c : Proc ε σ φ α) R :=
  fun s => ⟨.ok (h s).1, (h s).2, rfl⟩

/-- **Sequence.** -/
theorem mirrors_bind (hm : Mirrors π v m' m R) (hf : ∀ a' a, R a' a → Mirrors π v (f' a') (f a) S) :
    Mirrors π v (m' >>= f') (m >>= f) S := by
  intro s
  obtain ⟨hresult, hstate, hevents⟩ := hm s
  rcases hr' : (m' s).result with e | a'
  · rw [hr'] at hresult
    generalize hr : (m (π s)).result = r at hresult
    cases hresult with
    | error =>
      rw [bind_error hr', bind_error hr]
      exact ⟨.error e, hstate, hevents⟩
  · rw [hr'] at hresult
    generalize hr : (m (π s)).result = r at hresult
    cases hresult with
    | @ok _ a hR =>
      rw [bind_ok hr', bind_ok hr, ← hstate]
      obtain ⟨hresult, hstate, hevents'⟩ := hf a' a hR (m' s).state
      refine ⟨hresult, hstate, ?_⟩
      rw [List.flatMap_append, hevents, hevents']

/-- The first part of the left side alone: it returns, changes nothing that is seen, and does
nothing that is seen. -/
theorem mirrors_skip {ρ : Proc ε' σ' φ α'} {P : α' → Prop} {n : Proc ε σ φ β}
    (hρ : Mirrors π v ρ (pure () : Proc ε σ φ Unit) fun a' _ => P a')
    (hf : ∀ a', P a' → Mirrors π v (f' a') n S) : Mirrors π v (ρ >>= f') n S := by
  have h : Mirrors π v (ρ >>= f') ((pure () : Proc ε σ φ Unit) >>= fun _ => n) S :=
    mirrors_bind hρ fun a' _ ha' => hf a' ha'
  rwa [pure_bind] at h

end HexbufferProxy.Rust.Proc
