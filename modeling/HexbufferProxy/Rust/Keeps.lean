import HexbufferProxy.Rust.Proc

/-!
# What a procedure leaves as it is

`Keeps g m R` says of every run of `m` that the part `g` of the state is the same afterwards, also
when the run has failed, and that its result satisfies `R`.
-/

namespace HexbufferProxy.Rust.Proc

variable {ε σ φ α β γ : Type} {g : σ → γ} {m : Proc ε σ φ α} {f : α → Proc ε σ φ β}
  {R R' : α → Prop} {S : β → Prop}

/-- **Every run of `m` leaves `g` as it is, and its result satisfies `R`.** -/
def Keeps (g : σ → γ) (m : Proc ε σ φ α) (R : α → Prop) : Prop :=
  ∀ s, g (m s).state = g s ∧ ∀ a, (m s).result = .ok a → R a

theorem Keeps.mono (h : Keeps g m R) (hR : ∀ a, R a → R' a) : Keeps g m R' :=
  fun s => ⟨(h s).1, fun a ha => hR a ((h s).2 a ha)⟩

theorem keeps_pure {a : α} (h : R a) : Keeps g (pure a : Proc ε σ φ α) R := by
  refine fun s => ⟨rfl, fun b hb => ?_⟩
  obtain rfl : a = b := Except.ok.inj hb
  exact h

theorem keeps_emit (e : ε) : Keeps g (emit e : Proc ε σ φ Unit) fun _ => True :=
  fun _ => ⟨rfl, fun _ _ => trivial⟩

theorem keeps_fail (e : φ) : Keeps g (fail e : Proc ε σ φ α) R :=
  fun _ => ⟨rfl, fun _ hb => nomatch hb⟩

theorem keeps_lift (x : Except φ α) : Keeps g (lift x : Proc ε σ φ α) fun _ => True :=
  fun _ => ⟨rfl, fun _ _ => trivial⟩

theorem keeps_call {c : σ → α × σ} (h : ∀ s, g (c s).2 = g s) :
    Keeps g (call c : Proc ε σ φ α) fun _ => True := fun s => ⟨h s, fun _ _ => trivial⟩

/-- **Sequence.** -/
theorem keeps_bind (hm : Keeps g m R) (hf : ∀ a, R a → Keeps g (f a) S) :
    Keeps g (m >>= f) S := by
  intro s
  obtain ⟨hkept, hR⟩ := hm s
  rcases hr : (m s).result with e | a
  · rw [bind_error hr]
    exact ⟨hkept, fun b hb => nomatch hb⟩
  · rw [bind_ok hr]
    obtain ⟨hnext, hS⟩ := hf a (hR a hr) (m s).state
    exact ⟨hnext.trans hkept, hS⟩

end HexbufferProxy.Rust.Proc
