import Mathlib

/-!
# Machines that come to rest

In a machine some steps move, the others leave everything as it is. `Progress` says of the steps in
`A`, under the invariant `I`, that each one that moves makes a measure smaller. Then a run of moves
has an end (`Progress.length_add_le`), and from every state one leads to rest (`Progress.comes_to_rest`).
-/

namespace HexbufferProxy.Rust

variable {σ α : Type} {step : σ → α → σ} {I : σ → Prop} {A : α → Prop} {μ : σ → ℕ}

/-- Every step of the run moves. -/
def Moving (step : σ → α → σ) (s : σ) : List α → Prop
  | [] => True
  | a :: as => step s a ≠ s ∧ Moving step (step s a) as

/-- No step in `A` moves. -/
def AtRest (step : σ → α → σ) (A : α → Prop) (s : σ) : Prop := ∀ a, A a → step s a = s

/-- The steps in `A` keep `I`, and those that move make `μ` smaller. -/
structure Progress (step : σ → α → σ) (I : σ → Prop) (A : α → Prop) (μ : σ → ℕ) : Prop where
  keeps : ∀ s a, I s → A a → I (step s a)
  drops : ∀ s a, I s → A a → step s a = s ∨ μ (step s a) < μ s

namespace Progress

variable (P : Progress step I A μ)

include P

theorem run_keeps {as : List α} (hA : ∀ a ∈ as, A a) {s : σ} (hs : I s) : I (as.foldl step s) := by
  induction as generalizing s with
  | nil => exact hs
  | cons a as ih =>
    exact ih (fun b hb => hA b (List.mem_cons_of_mem a hb))
      (P.keeps s a hs (hA a List.mem_cons_self))

theorem measure_le {as : List α} (hA : ∀ a ∈ as, A a) {s : σ} (hs : I s) :
    μ (as.foldl step s) ≤ μ s := by
  induction as generalizing s with
  | nil => exact Nat.le_refl _
  | cons a as ih =>
    have ha := hA a List.mem_cons_self
    have hrest := ih (fun b hb => hA b (List.mem_cons_of_mem a hb)) (P.keeps s a hs ha)
    rw [List.foldl_cons]
    rcases P.drops s a hs ha with hstill | hdrop
    · rw [hstill] at hrest ⊢
      exact hrest
    · exact hrest.trans hdrop.le

/-- **A run of moves is no longer than what it takes off the measure.** -/
theorem length_add_le {as : List α} (hA : ∀ a ∈ as, A a) {s : σ} (hs : I s)
    (h : Moving step s as) : as.length + μ (as.foldl step s) ≤ μ s := by
  induction as generalizing s with
  | nil => exact (Nat.zero_add _).le
  | cons a as ih =>
    obtain ⟨hmove, hrest⟩ := h
    have ha := hA a List.mem_cons_self
    have hle := ih (fun b hb => hA b (List.mem_cons_of_mem a hb)) (P.keeps s a hs ha) hrest
    have hdrop := (P.drops s a hs ha).resolve_left hmove
    rw [List.length_cons, List.foldl_cons]
    omega

/-- **From every state a run of moves leads to rest.** The induction is on the measure. -/
theorem comes_to_rest {s : σ} (hs : I s) :
    ∃ as, (∀ a ∈ as, A a) ∧ Moving step s as ∧ AtRest step A (as.foldl step s) := by
  induction hm : μ s using Nat.strongRecOn generalizing s with
  | ind m ih =>
    by_cases hrest : AtRest step A s
    · exact ⟨[], fun a ha => absurd ha List.not_mem_nil, trivial, hrest⟩
    · obtain ⟨a, ha, hmove⟩ : ∃ a, A a ∧ step s a ≠ s := by
        unfold AtRest at hrest
        simpa only [not_forall, exists_prop] using hrest
      have hdrop := (P.drops s a hs ha).resolve_left hmove
      obtain ⟨as, hA, hmoving, hend⟩ := ih _ (hm ▸ hdrop) (P.keeps s a hs ha) rfl
      refine ⟨a :: as, ?_, ⟨hmove, hmoving⟩, hend⟩
      intro b hb
      rcases List.mem_cons.1 hb with rfl | hb
      · exact ha
      · exact hA b hb

end Progress

end HexbufferProxy.Rust
