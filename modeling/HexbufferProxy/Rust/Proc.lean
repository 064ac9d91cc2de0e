import Mathlib

/-!
# Procedures with a trace

A `Proc` runs in a state, may end early with a failure, and says what it did in a
list of events. The events of a failed run are kept: what was done before the
failure has been done.

`Ensures p k m R Q` says of every run of `m` that at most `k` of its events satisfy `p`, that
all of them satisfy `Q`, and that its result satisfies `R`. The rules follow the syntax, so that
an early exit needs no case of its own:

* `ensures_bind`: a part without events that count goes first.
* `ensures_bind_last`: the events that count are all in the first part.

`Writes g m w R` says what the events of `m` amount to in every run that returns, under a reading
`g` of each event. Its rules put the parts together: `writes_bind`.

`Traces m T` relates all the events of a run to its outcome, failed runs included. It is for
properties that neither of the others can express.
-/

namespace HexbufferProxy.Rust

variable {ε σ φ α β : Type}

/-- What a run has ended with. -/
structure Ran (ε σ φ α : Type) where
  result : Except φ α
  state : σ
  events : List ε

/-- A procedure with events `ε`, state `σ`, failures `φ` and result `α`. -/
def Proc (ε σ φ α : Type) : Type := σ → Ran ε σ φ α

namespace Proc

def bind (m : Proc ε σ φ α) (f : α → Proc ε σ φ β) : Proc ε σ φ β := fun s =>
  match (m s).result with
  | .error e => ⟨.error e, (m s).state, (m s).events⟩
  | .ok a =>
    ⟨(f a (m s).state).result, (f a (m s).state).state, (m s).events ++ (f a (m s).state).events⟩

instance : Monad (Proc ε σ φ) where
  pure a := fun s => ⟨.ok a, s, []⟩
  bind := bind

/-- Do `e`. -/
def emit (e : ε) : Proc ε σ φ Unit := fun s => ⟨.ok (), s, [e]⟩

/-- End here, as `?` and a panic do. -/
def fail (e : φ) : Proc ε σ φ α := fun s => ⟨.error e, s, []⟩

/-- A pure computation that may fail. -/
def lift (x : Except φ α) : Proc ε σ φ α := fun s => ⟨x, s, []⟩

/-- A step of the state. -/
def call (f : σ → α × σ) : Proc ε σ φ α := fun s => ⟨.ok (f s).1, (f s).2, []⟩

variable {m : Proc ε σ φ α} {f : α → Proc ε σ φ β} {s : σ}

/-- A run whose first part ends well goes on in the state it leaves. -/
theorem bind_ok {a : α} (h : (m s).result = .ok a) : (m >>= f) s =
    ⟨(f a (m s).state).result, (f a (m s).state).state,
      (m s).events ++ (f a (m s).state).events⟩ := by
  show bind m f s = _
  unfold bind
  rw [h]

/-- A run whose first part fails ends there. -/
theorem bind_error {e : φ} (h : (m s).result = .error e) :
    (m >>= f) s = ⟨.error e, (m s).state, (m s).events⟩ := by
  show bind m f s = _
  unfold bind
  rw [h]

/-- What the first part has done stays done. -/
theorem mem_bind {e : ε} (h : e ∈ (m s).events) : e ∈ ((m >>= f) s).events := by
  rcases hr : (m s).result with x | a
  · rw [bind_error hr]
    exact h
  · rw [bind_ok hr]
    exact List.mem_append_left _ h

/-- A computation that succeeds, and a step of the state, leave nothing behind. -/
theorem lift_bind (a : α) (f : α → Proc ε σ φ β) : lift (.ok a) >>= f = f a := rfl

theorem call_bind (g : σ → α × σ) (f : α → Proc ε σ φ β) (s : σ) :
    (call g >>= f) s = f (g s).1 (g s).2 := rfl

instance : LawfulMonad (Proc ε σ φ) := LawfulMonad.mk' _
  (fun {α} m => by
    funext s
    show bind m _ s = m s
    rcases hm : m s with ⟨r | r, s', es⟩
    · unfold bind; rw [hm]
    · unfold bind; rw [hm]
      exact congrArg (Ran.mk _ _) (List.append_nil es))
  (fun _ _ => rfl)
  (fun {α β γ} m f g => by
    funext s
    show bind (bind m f) g s = bind m (fun a => bind (f a) g) s
    rcases hm : m s with ⟨r | a, s', es⟩
    · simp only [bind, hm]
    · rcases hf : f a s' with ⟨r | b, s'', es'⟩
      · simp only [bind, hm, hf]
      · simp only [bind, hm, hf, List.append_assoc])

/-- **In every run of `m`, at most `k` events satisfy `p`, every event satisfies `Q`, and every
result `R`.** -/
def Ensures (p : ε → Bool) (k : ℕ) (m : Proc ε σ φ α) (R : α → Prop) (Q : ε → Prop) : Prop :=
  ∀ s, (m s).events.countP p ≤ k ∧ (∀ e ∈ (m s).events, Q e) ∧
    ∀ a, (m s).result = .ok a → R a

variable {p : ε → Bool} {k j : ℕ} {R R' : α → Prop} {S : β → Prop} {Q Q' : ε → Prop}

theorem Ensures.mono (h : Ensures p j m R Q) (hjk : j ≤ k) (hR : ∀ a, R a → R' a)
    (hQ : ∀ e, Q e → Q' e) : Ensures p k m R' Q' := by
  intro s
  obtain ⟨h0, h1, h2⟩ := h s
  exact ⟨h0.trans hjk, fun e he => hQ e (h1 e he), fun a ha => hR a (h2 a ha)⟩

/-- What is left when nothing is counted. -/
theorem Ensures.uncounted (h : Ensures p k m R Q) : Ensures (fun _ => false) 0 m R Q := by
  intro s
  obtain ⟨-, h1, h2⟩ := h s
  refine ⟨?_, h1, h2⟩
  rw [List.countP_false]
  exact Nat.le_refl 0

theorem ensures_pure {a : α} (h : R a) : Ensures p k (pure a : Proc ε σ φ α) R Q := by
  intro s
  refine ⟨Nat.zero_le k, fun e he => absurd he List.not_mem_nil, ?_⟩
  intro b hb
  have hab : a = b := Except.ok.inj hb
  rwa [← hab]

theorem ensures_fail (e : φ) : Ensures p k (fail e : Proc ε σ φ α) R Q :=
  fun _ => ⟨Nat.zero_le k, fun _ he => absurd he List.not_mem_nil, fun _ hb => nomatch hb⟩

theorem ensures_lift {x : Except φ α} (h : ∀ a, x = .ok a → R a) :
    Ensures p k (lift x : Proc ε σ φ α) R Q :=
  fun _ => ⟨Nat.zero_le k, fun _ he => absurd he List.not_mem_nil, h⟩

theorem ensures_call {g : σ → α × σ} (h : ∀ s, R (g s).1) :
    Ensures p k (call g : Proc ε σ φ α) R Q := by
  intro s
  refine ⟨Nat.zero_le k, fun e he => absurd he List.not_mem_nil, ?_⟩
  intro b hb
  have hab : (g s).1 = b := Except.ok.inj hb
  rw [← hab]; exact h s

theorem ensures_emit {e : ε} (h : Q e) (hp : p e = false ∨ 0 < k) :
    Ensures p k (emit e : Proc ε σ φ Unit) (fun _ => True) Q := by
  intro s
  refine ⟨?_, ?_, fun _ _ => trivial⟩
  · have hle : [e].countP p ≤ 1 := List.countP_le_length
    rcases hp with hp | hk
    · have h0 : [e].countP p = 0 := by simp [hp]
      exact h0.trans_le (Nat.zero_le k)
    · exact hle.trans hk
  · intro e' he'
    have hee : e' = e := List.mem_singleton.1 he'
    rwa [hee]

/-- **Sequence**: the bounds add up, and what follows may use what the first part ensures. -/
theorem ensures_bind_add (hm : Ensures p j m R Q) (hf : ∀ a, R a → Ensures p k (f a) S Q) :
    Ensures p (j + k) (m >>= f) S Q := by
  intro s
  obtain ⟨h0, h1, h2⟩ := hm s
  rcases hr : (m s).result with e | a
  · rw [bind_error hr]
    exact ⟨h0.trans (Nat.le_add_right j k), h1, fun b hb => nomatch hb⟩
  · rw [bind_ok hr]
    obtain ⟨h3, h4, h5⟩ := hf a (h2 a hr) (m s).state
    refine ⟨?_, ?_, h5⟩
    · simp only [List.countP_append]; omega
    · intro e he
      rcases List.mem_append.1 he with he | he
      · exact h1 e he
      · exact h4 e he

theorem ensures_bind (hm : Ensures p 0 m R Q) (hf : ∀ a, R a → Ensures p k (f a) S Q) :
    Ensures p k (m >>= f) S Q :=
  (ensures_bind_add hm hf).mono (Nat.le_of_eq (Nat.zero_add k)) (fun _ h => h) (fun _ h => h)

theorem ensures_bind_last (hm : Ensures p k m R Q) (hf : ∀ a, R a → Ensures p 0 (f a) S Q) :
    Ensures p k (m >>= f) S Q := ensures_bind_add hm hf

/-- **In every run of `m` that returns, the events read `w`, and the result satisfies `R`.** -/
def Writes {γ : Type} (g : ε → List γ) (m : Proc ε σ φ α) (w : List γ) (R : α → Prop) : Prop :=
  ∀ s a, (m s).result = .ok a → (m s).events.flatMap g = w ∧ R a

section

variable {γ : Type} {g : ε → List γ} {v w : List γ}

theorem writes_pure {a : α} (h : R a) : Writes g (pure a : Proc ε σ φ α) [] R := by
  intro s b hb
  have hab : a = b := Except.ok.inj hb
  exact ⟨rfl, hab ▸ h⟩

theorem writes_fail (e : φ) : Writes g (fail e : Proc ε σ φ α) w R :=
  fun _ _ hb => nomatch hb

theorem writes_lift {x : Except φ α} (h : ∀ a, x = .ok a → R a) :
    Writes g (lift x : Proc ε σ φ α) [] R := fun _ a ha => ⟨rfl, h a ha⟩

theorem writes_call {f : σ → α × σ} (h : ∀ s, R (f s).1) :
    Writes g (call f : Proc ε σ φ α) [] R := by
  intro s a ha
  have hab : (f s).1 = a := Except.ok.inj ha
  exact ⟨rfl, hab ▸ h s⟩

theorem writes_emit (e : ε) : Writes g (emit e : Proc ε σ φ Unit) (g e) (fun _ => True) :=
  fun _ _ _ => ⟨List.flatMap_singleton g e, trivial⟩

/-- **Sequence**: what the second part writes comes behind what the first has written. -/
theorem writes_bind (hm : Writes g m v R) (hf : ∀ a, R a → Writes g (f a) w S) :
    Writes g (m >>= f) (v ++ w) S := by
  intro s b hb
  rcases hr : (m s).result with e | a
  · rw [bind_error hr] at hb
    exact nomatch hb
  · rw [bind_ok hr] at hb ⊢
    obtain ⟨h1, h2⟩ := hm s a hr
    obtain ⟨h3, h4⟩ := hf a h2 (m s).state b hb
    refine ⟨?_, h4⟩
    rw [List.flatMap_append, h1, h3]

end

/-- **In every run of `m`, the events and the outcome satisfy `T`.** -/
def Traces (m : Proc ε σ φ α) (T : List ε → Except φ α → Prop) : Prop :=
  ∀ s, T (m s).events (m s).result

section

variable {T T' : List ε → Except φ α → Prop} {V : List ε → Except φ β → Prop}

theorem Traces.mono (h : Traces m T) (hT : ∀ es r, T es r → T' es r) : Traces m T' :=
  fun s => hT _ _ (h s)

/-- What all the events of a run satisfy. -/
theorem Ensures.traces {p : ε → Bool} {k : ℕ} {Q : ε → Prop} (h : Ensures p k m R Q) :
    Traces m fun es _ => ∀ e ∈ es, Q e := fun s => (h s).2.1

/-- What a run that returns has written. -/
theorem Writes.traces {γ : Type} {g : ε → List γ} {w : List γ} (h : Writes g m w R) :
    Traces m fun es r => ∀ a, r = .ok a → es.flatMap g = w ∧ R a := h

theorem traces_pure {a : α} (h : T [] (.ok a)) : Traces (pure a : Proc ε σ φ α) T := fun _ => h

theorem traces_fail {e : φ} (h : T [] (.error e)) : Traces (fail e : Proc ε σ φ α) T := fun _ => h

theorem traces_lift {x : Except φ α} (h : T [] x) : Traces (lift x : Proc ε σ φ α) T := fun _ => h

theorem traces_call {g : σ → α × σ} (h : ∀ s, T [] (.ok (g s).1)) :
    Traces (call g : Proc ε σ φ α) T := h

theorem traces_emit {e : ε} {T : List ε → Except φ Unit → Prop} (h : T [e] (.ok ())) :
    Traces (emit e : Proc ε σ φ Unit) T := fun _ => h

/-- **Sequence**: the first part fails, or the second goes on where it has come to. -/
theorem traces_bind (hm : Traces m T) (herror : ∀ es e, T es (.error e) → V es (.error e))
    (hok : ∀ es a, T es (.ok a) → Traces (f a) fun es' r => V (es ++ es') r) :
    Traces (m >>= f) V := by
  intro s
  have h := hm s
  rcases hr : (m s).result with e | a
  · rw [bind_error hr]
    rw [hr] at h
    exact herror _ e h
  · rw [bind_ok hr]
    rw [hr] at h
    exact hok _ a h (m s).state

end

end Proc

end HexbufferProxy.Rust
