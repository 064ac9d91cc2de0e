import Mathlib

/-!
# Calls interleaved on shared state

Any number of calls of one function run on shared state, in one process or in many. A call takes
atomic steps; between two of them any other call may take its own, and a call that takes no further
step has been interrupted.

`Outline` is a proof about such runs: an invariant of the shared state, and what each call knows at
each of its steps, which the steps of the others leave true (`Outline.run`). The steps may be
subject to a guard: the conclusion is then about the runs all of whose steps meet it.
-/

namespace HexbufferProxy.Rust

variable {σ τ ι : Type}

/-- A function by its atomic steps. A call has a number, an argument `ι` to start with and a state
`τ` of its own. -/
structure Machine (σ τ ι : Type) where
  start : ι → τ
  step : ℕ → σ → τ → σ × τ

/-- The shared state, and the calls by number. -/
structure Pool (σ τ : Type) where
  shared : σ
  calls : List τ

/-- What happens next: a call starts, or takes its next step. -/
inductive Act (ι : Type) where
  | start (a : ι)
  | step (i : ℕ)

namespace Pool

variable (M : Machine σ τ ι)

def act (p : Pool σ τ) : Act ι → Pool σ τ
  | .start a => { p with calls := p.calls ++ [M.start a] }
  | .step i =>
    match p.calls[i]? with
    | none => p
    | some l => ⟨(M.step i p.shared l).1, p.calls.set i (M.step i p.shared l).2⟩

/-- The pool after these acts. -/
def run (p : Pool σ τ) (acts : List (Act ι)) : Pool σ τ := acts.foldl (act M) p

/-- The act is a step that meets the guard, or no step. -/
def Meets (G : ℕ → σ → τ → Prop) (p : Pool σ τ) : Act ι → Prop
  | .start _ => True
  | .step i => ∀ l, p.calls[i]? = some l → G i p.shared l

/-- **Every step of the run meets the guard** in the state before it. -/
def Guarded (G : ℕ → σ → τ → Prop) (p : Pool σ τ) (acts : List (Act ι)) : Prop :=
  ∀ before a after, acts = before ++ a :: after → Meets G (run M p before) a

variable {M} {G : ℕ → σ → τ → Prop} {p : Pool σ τ}

theorem run_append (as bs : List (Act ι)) : run M p (as ++ bs) = run M (run M p as) bs :=
  List.foldl_append

theorem run_concat (as : List (Act ι)) (a : Act ι) : run M p (as ++ [a]) = act M (run M p as) a :=
  run_append as [a]

theorem run_cons (a : Act ι) (as : List (Act ι)) : run M p (a :: as) = run M (act M p a) as := rfl

theorem act_step {i : ℕ} {l : τ} (h : p.calls[i]? = some l) : act M p (.step i) =
    ⟨(M.step i p.shared l).1, p.calls.set i (M.step i p.shared l).2⟩ := by
  unfold act
  simp only [h]

/-- A step changes the shared state, and one of the calls. -/
theorem act_split {i : ℕ} {l : τ} (h : p.calls[i]? = some l) : ∃ pre post,
    p.calls = pre ++ l :: post ∧ act M p (.step i) =
      ⟨(M.step i p.shared l).1, pre ++ (M.step i p.shared l).2 :: post⟩ := by
  obtain ⟨hi, rfl⟩ := List.getElem?_eq_some_iff.1 h
  refine ⟨p.calls.take i, p.calls.drop (i + 1), ?_, ?_⟩
  · rw [← List.drop_eq_getElem_cons hi, List.take_append_drop]
  · rw [act_step h, List.set_eq_take_append_cons_drop, if_pos hi]

/-- A step of the call that has started last. -/
theorem act_last {s s' : σ} {calls : List τ} {l l' : τ}
    (h : M.step calls.length s l = (s', l')) :
    act M ⟨s, calls ++ [l]⟩ (.step calls.length) = ⟨s', calls ++ [l']⟩ := by
  rw [act_step (List.getElem?_concat_length)]
  simp only [h, List.set_append_right _ _ le_rfl, Nat.sub_self, List.set_cons_zero]

/-- The call that has started last goes on alone. -/
theorem run_last (k : ℕ) (s : σ) (calls : List τ) (l : τ) :
    run M ⟨s, calls ++ [l]⟩ (List.replicate k (.step calls.length : Act ι)) =
      ⟨((fun q : σ × τ => M.step calls.length q.1 q.2)^[k] (s, l)).1,
        calls ++ [((fun q : σ × τ => M.step calls.length q.1 q.2)^[k] (s, l)).2]⟩ := by
  induction k generalizing s l with
  | zero => rfl
  | succ k ih =>
    rw [List.replicate_succ, run_cons, act_last rfl, ih]
    rfl

/-- The guard of a run is that of its beginning and of its last act. -/
theorem Guarded.concat {as : List (Act ι)} {a : Act ι} (h : Guarded M G p (as ++ [a])) :
    Guarded M G p as ∧ Meets G (run M p as) a := by
  refine ⟨fun before b after heq => ?_, h as a [] rfl⟩
  exact h before b (after ++ [a]) (by rw [heq, List.append_assoc, List.cons_append])

theorem guarded_nil : Guarded M G p [] := by
  intro before a after heq
  exact absurd heq.symm (List.append_ne_nil_of_right_ne_nil _ (List.cons_ne_nil a after))

theorem Guarded.cons {a : Act ι} {as : List (Act ι)} (ha : Meets G p a)
    (h : Guarded M G (act M p a) as) : Guarded M G p (a :: as) := by
  intro before b after heq
  cases before with
  | nil =>
    obtain ⟨rfl, -⟩ := List.cons.inj heq
    exact ha
  | cons c before =>
    obtain ⟨rfl, htail⟩ := List.cons.inj heq
    exact h before b after htail

/-- With no guard at all, every run is guarded. -/
theorem guarded_true (acts : List (Act ι)) : Guarded M (fun _ _ _ => True) p acts := by
  intro before a _ _
  cases a with
  | start _ => exact trivial
  | step _ => exact fun _ _ => trivial

/-- A call that has ended stays as it is. -/
theorem act_ended {i : ℕ} {l : τ} (hend : ∀ s, (M.step i s l).2 = l)
    (h : p.calls[i]? = some l) (a : Act ι) : (act M p a).calls[i]? = some l := by
  have hi : i < p.calls.length := (List.getElem?_eq_some_iff.1 h).1
  cases a with
  | start b => exact (List.getElem?_append_left hi).trans h
  | step j =>
    by_cases hij : j = i
    · subst hij
      rw [act_step h, hend]
      exact List.getElem?_set_self hi
    cases hj : p.calls[j]? with
    | none =>
      unfold act
      simp only [hj]
      exact h
    | some m =>
      rw [act_step hj]
      exact (List.getElem?_set_ne hij).trans h

theorem run_ended {i : ℕ} {l : τ} (hend : ∀ s, (M.step i s l).2 = l) (acts : List (Act ι))
    (h : p.calls[i]? = some l) : (run M p acts).calls[i]? = some l := by
  induction acts generalizing p with
  | nil => exact h
  | cons a acts ih => exact ih (act_ended hend h a)

end Pool

/-- **A proof outline**: `I` holds of the shared state, `A i (some l)` of call `i` in state `l` and
`A i none` before call `i` has started.

* `start`: a call knows enough to start.
* `step`: a step of a call keeps the invariant and takes the call to what it knows next.
* `stable`: what is known of a call survives the steps of the others. -/
structure Outline (M : Machine σ τ ι) (G : ℕ → σ → τ → Prop) (I : σ → Prop)
    (A : ℕ → Option τ → σ → Prop) : Prop where
  start : ∀ i a s, I s → A i none s → A i (some (M.start a)) s
  step : ∀ i s l, I s → A i (some l) s → G i s l →
    I (M.step i s l).1 ∧ A i (some (M.step i s l).2) (M.step i s l).1
  stable : ∀ i j s l m, j ≠ i → I s → A i (some l) s → A j m s → G i s l → A j m (M.step i s l).1

/-- The invariant holds, and every call is at a point of the outline. -/
structure Pool.Holds (I : σ → Prop) (A : ℕ → Option τ → σ → Prop) (p : Pool σ τ) : Prop where
  shared : I p.shared
  calls : ∀ i, A i p.calls[i]? p.shared

namespace Outline

open Pool

variable {M : Machine σ τ ι} {G : ℕ → σ → τ → Prop} {I : σ → Prop}
  {A : ℕ → Option τ → σ → Prop} {p : Pool σ τ}

/-- One act. -/
theorem act (O : Outline M G I A) (hp : p.Holds I A) (a : Act ι) (ha : Meets G p a) :
    (Pool.act M p a).Holds I A := by
  cases a with
  | start b =>
    refine ⟨hp.shared, fun i => ?_⟩
    show A i (p.calls ++ [M.start b])[i]? p.shared
    rcases lt_trichotomy i p.calls.length with hlt | heq | hgt
    · rw [List.getElem?_append_left hlt]
      exact hp.calls i
    · -- the call that starts
      have hnone := hp.calls i
      rw [heq, List.getElem?_eq_none le_rfl] at hnone
      rw [heq, List.getElem?_concat_length]
      exact O.start _ b p.shared hp.shared hnone
    · have hnone := hp.calls i
      rw [List.getElem?_eq_none hgt.le] at hnone
      rwa [List.getElem?_eq_none]
      rw [List.length_append]
      exact hgt
  | step i =>
    cases hi : p.calls[i]? with
    | none =>
      have hsame : Pool.act M p (.step i) = p := by
        unfold Pool.act
        simp only [hi]
      rw [hsame]
      exact hp
    | some l =>
      have hA : A i (some l) p.shared := hi ▸ hp.calls i
      have hG := ha l hi
      have hstep := O.step i p.shared l hp.shared hA hG
      rw [act_step hi]
      refine ⟨hstep.1, fun j => ?_⟩
      show A j (p.calls.set i (M.step i p.shared l).2)[j]? (M.step i p.shared l).1
      by_cases hij : i = j
      · -- the call that steps
        subst hij
        rw [List.getElem?_set_self (List.getElem?_eq_some_iff.1 hi).1]
        exact hstep.2
      · -- the others see what it has done
        rw [List.getElem?_set_ne hij]
        exact O.stable i j p.shared l _ (Ne.symm hij) hp.shared hA (hp.calls j) hG

/-- **The outline holds along every guarded run.** -/
theorem run (O : Outline M G I A) (hp : p.Holds I A) (acts : List (Act ι))
    (h : Guarded M G p acts) : (Pool.run M p acts).Holds I A := by
  induction acts using List.reverseRecOn with
  | nil => exact hp
  | append_singleton as a ih =>
    rw [run_concat]
    exact O.act (ih h.concat.1) a h.concat.2

/-- A run from its beginning, when no call has started. -/
theorem run_init (O : Outline M G I A) {s : σ} (hs : I s) (hA : ∀ i, A i none s)
    (acts : List (Act ι)) (h : Guarded M G ⟨s, []⟩ acts) :
    (Pool.run M ⟨s, []⟩ acts).Holds I A := by
  have h0 : Pool.Holds I A ⟨s, []⟩ := ⟨hs, fun i => by rw [List.getElem?_nil]; exact hA i⟩
  exact O.run h0 acts h

end Outline

end HexbufferProxy.Rust
