import Mathlib

/-!
# Machines with an output

A step takes the state to the next one and puts something out. `runOf` is what becomes of a list of
actions, `outputs` what each of them has put out; `output_split` finds the step behind each part of the
output; `runOf_simulated` takes a simulation from steps to runs.
-/

namespace HexbufferProxy.Rust

variable {σ α ε : Type} {step : σ → α → σ × List ε}

/-- The state after these actions, and all the output. -/
def runOf (step : σ → α → σ × List ε) (s : σ) : List α → σ × List ε
  | [] => (s, [])
  | a :: as =>
    ((runOf step (step s a).1 as).1, (step s a).2 ++ (runOf step (step s a).1 as).2)

/-- The output of each action. -/
def outputs (step : σ → α → σ × List ε) (s : σ) : List α → List (List ε)
  | [] => []
  | a :: as => (step s a).2 :: outputs step (step s a).1 as

theorem runOf_cons (a : α) (as : List α) (s : σ) : runOf step s (a :: as) =
    ((runOf step (step s a).1 as).1, (step s a).2 ++ (runOf step (step s a).1 as).2) := rfl

theorem runOf_single (a : α) (s : σ) : runOf step s [a] = step s a :=
  Prod.ext rfl (List.append_nil _)

theorem runOf_append (as bs : List α) (s : σ) : runOf step s (as ++ bs) =
    ((runOf step (runOf step s as).1 bs).1,
      (runOf step s as).2 ++ (runOf step (runOf step s as).1 bs).2) := by
  induction as generalizing s with
  | nil => rfl
  | cons a as ih => rw [List.cons_append, runOf_cons, runOf_cons, ih, List.append_assoc]

/-- The last action of a run. -/
theorem runOf_concat (as : List α) (a : α) (s : σ) : runOf step s (as ++ [a]) =
    ((step (runOf step s as).1 a).1, (runOf step s as).2 ++ (step (runOf step s as).1 a).2) := by
  rw [runOf_append, runOf_cons]
  exact congrArg (fun out => (_, _ ++ out)) (List.append_nil _)

theorem flatten_outputs (as : List α) (s : σ) :
    (outputs step s as).flatten = (runOf step s as).2 := by
  induction as generalizing s with
  | nil => rfl
  | cons a as ih => exact congrArg _ (ih _)

/-- **What holds of the output of every step** holds of each one in a run. -/
theorem outputs_forall {Q : List ε → Prop} (h : ∀ s a, Q (step s a).2) (as : List α) (s : σ) :
    ∀ es ∈ outputs step s as, Q es := by
  induction as generalizing s with
  | nil => exact fun es hes => absurd hes List.not_mem_nil
  | cons a as ih =>
    intro es hes
    rcases List.mem_cons.1 hes with rfl | hes
    · exact h s a
    · exact ih _ es hes

/-- What is not in the first part of a list lies in the second. -/
theorem split_right {l r pre post : List ε} {e : ε} (h : l ++ r = pre ++ e :: post) (he : e ∉ l) :
    ∃ pre', pre = l ++ pre' ∧ r = pre' ++ e :: post := by
  rcases List.append_eq_append_iff.1 h with ⟨pre', hpre, hr⟩ | ⟨l', hl, hr⟩
  · exact ⟨pre', hpre, hr⟩
  · cases l' with
    | nil =>
      refine ⟨[], ?_, hr.symm⟩
      rw [hl, List.append_nil, List.append_nil]
    | cons e' l' =>
      obtain ⟨rfl, -⟩ := List.cons.inj hr
      refine absurd ?_ he
      rw [hl]
      exact List.mem_append_right _ List.mem_cons_self

/-- Between parts in which nothing satisfies `p`, there is one place for what does. -/
theorem split_once {p : ε → Bool} {l r : List ε} {e : ε} (hl : ∀ x ∈ l, p x = false)
    (hr : ∀ x ∈ r, p x = false) : (l ++ e :: r).countP p ≤ 1 ∧
      ∀ pre x post, l ++ e :: r = pre ++ x :: post → p x = true → pre = l ∧ x = e := by
  have hnone : ∀ {k : List ε}, (∀ x ∈ k, p x = false) → k.countP p = 0 := by
    intro k hk
    rw [List.countP_eq_zero]
    exact fun x hx => Bool.eq_false_iff.1 (hk x hx)
  refine ⟨?_, ?_⟩
  · rw [List.countP_append, List.countP_cons, hnone hl, hnone hr]
    split
    · exact Nat.le_refl 1
    · exact Nat.zero_le 1
  · intro pre x post h hx
    have hxl : x ∉ l := fun hmem => Bool.noConfusion ((hl x hmem).symm.trans hx)
    obtain ⟨pre', rfl, hrest⟩ := split_right h hxl
    cases pre' with
    | nil => exact ⟨List.append_nil l, (List.cons.inj hrest).1.symm⟩
    | cons y pre' =>
      have hxr : x ∈ r := by
        rw [(List.cons.inj hrest).2]
        exact List.mem_append_right _ List.mem_cons_self
      exact Bool.noConfusion ((hr x hxr).symm.trans hx)

/-- **The step behind an output**: where it stands in the run, and what it has put out before. -/
theorem output_split {as : List α} {s : σ} {pre post : List ε} {e : ε}
    (h : (runOf step s as).2 = pre ++ e :: post) :
    ∃ before a after p q, as = before ++ a :: after ∧
      (step (runOf step s before).1 a).2 = p ++ e :: q ∧
      pre = (runOf step s before).2 ++ p := by
  induction as generalizing s pre with
  | nil => exact absurd h.symm (List.append_ne_nil_of_right_ne_nil _ (List.cons_ne_nil e post))
  | cons a as ih =>
    have hsplit : (step s a).2 ++ (runOf step (step s a).1 as).2 = pre ++ e :: post := h
    have hlater : ∀ pre', pre = (step s a).2 ++ pre' →
        (runOf step (step s a).1 as).2 = pre' ++ e :: post → ∃ before b after p q,
          a :: as = before ++ b :: after ∧ (step (runOf step s before).1 b).2 = p ++ e :: q ∧
            pre = (runOf step s before).2 ++ p := by
      intro pre' hpre hrest
      obtain ⟨before, b, after, p, q, rfl, hb, hp⟩ := ih hrest
      refine ⟨a :: before, b, after, p, q, rfl, hb, ?_⟩
      rw [hpre, hp, ← List.append_assoc]
      rfl
    rcases List.append_eq_append_iff.1 hsplit with ⟨pre', hpre, hrest⟩ | ⟨p', hout, hrest⟩
    · exact hlater pre' hpre hrest
    · cases p' with
      | nil =>
        rw [List.append_nil] at hout
        exact hlater [] (by rw [hout, List.append_nil]) hrest.symm
      | cons e' q =>
        obtain ⟨rfl, -⟩ := List.cons.inj hrest
        exact ⟨[], a, as, pre, q, rfl, hout, rfl⟩

/-- **Simulation**: what each step does, some steps of another machine do, from a corresponding state
and with the same output. Then the machines correspond after every step of a run. -/
theorem runOf_simulated {τ β : Type} {step' : τ → β → τ × List ε} {R : σ → τ → Prop}
    {Q : α → List β → Prop}
    (h : ∀ s t a, R s t → ∃ bs, Q a bs ∧ R (step s a).1 (runOf step' t bs).1 ∧
      (runOf step' t bs).2 = (step s a).2) (as : List α) {s : σ} {t : τ} (hst : R s t) :
    ∃ parts, List.Forall₂ Q as parts ∧ ∀ k,
      R (runOf step s (as.take k)).1 (runOf step' t (parts.take k).flatten).1 ∧
        (runOf step' t (parts.take k).flatten).2 = (runOf step s (as.take k)).2 := by
  induction as generalizing s t with
  | nil =>
    refine ⟨[], .nil, fun k => ?_⟩
    rw [List.take_nil, List.take_nil]
    exact ⟨hst, rfl⟩
  | cons a as ih =>
    obtain ⟨bs, hQ, hR, hout⟩ := h s t a hst
    obtain ⟨parts, hparts, hrun⟩ := ih hR
    refine ⟨bs :: parts, .cons hQ hparts, fun k => ?_⟩
    cases k with
    | zero => exact ⟨hst, rfl⟩
    | succ k =>
      obtain ⟨hstate, houts⟩ := hrun k
      rw [List.take_succ_cons, List.take_succ_cons, List.flatten_cons, runOf_append, runOf_cons]
      refine ⟨hstate, ?_⟩
      dsimp only
      rw [hout, houts]

/-- **What an action adds at most**, all actions together add at most. -/
theorem countP_runOf {p : ε → Bool} {q : α → Bool}
    (h : ∀ s a, (step s a).2.countP p ≤ if q a then 1 else 0) (as : List α) (s : σ) :
    (runOf step s as).2.countP p ≤ as.countP q := by
  induction as generalizing s with
  | nil => exact Nat.le_refl 0
  | cons a as ih =>
    show ((step s a).2 ++ _).countP p ≤ _
    rw [List.countP_append, List.countP_cons, Nat.add_comm]
    exact Nat.add_le_add (ih _) (h s a)

end HexbufferProxy.Rust
