import HexbufferProxy.Rust.Proc

/-!
# Events that follow from the one before

A rule says what may come directly behind what. The events of a procedure are looked at behind the
last event of what has run before it: `follows_bind` puts two parts together.
-/

namespace HexbufferProxy.Rust

variable {ε σ φ α β : Type}

/-- The last event, behind an earlier one. -/
def lastAfter : Option ε → List ε → Option ε
  | last, [] => last
  | _, e :: es => lastAfter (some e) es

/-- **Every event follows from the one before**, in a list that comes behind `last`. -/
def Chained (rule : Option ε → ε → Prop) : Option ε → List ε → Prop
  | _, [] => True
  | last, e :: es => rule last e ∧ Chained rule (some e) es

variable {rule : Option ε → ε → Prop} {last : Option ε} {es : List ε}

theorem lastAfter_append (xs ys : List ε) :
    lastAfter last (xs ++ ys) = lastAfter (lastAfter last xs) ys := by
  induction xs generalizing last with
  | nil => rfl
  | cons x xs ih => exact ih

theorem lastAfter_some {x : ε} (h : lastAfter none es = some x) : ∃ pre, es = pre ++ [x] := by
  induction es using List.reverseRecOn with
  | nil => cases h
  | append_singleton pre y =>
    rw [lastAfter_append] at h
    obtain rfl : y = x := Option.some.inj h
    exact ⟨pre, rfl⟩

theorem chained_append {xs ys : List ε} : Chained rule last (xs ++ ys) ↔
    Chained rule last xs ∧ Chained rule (lastAfter last xs) ys := by
  induction xs generalizing last with
  | nil => exact (true_and _).to_iff.symm
  | cons x xs ih =>
    show (_ ∧ Chained rule (some x) (xs ++ ys)) ↔ (_ ∧ _) ∧ _
    rw [ih, and_assoc]
    rfl

/-- Events that may come anywhere. -/
theorem chained_free (h : ∀ e ∈ es, ∀ last, rule last e) : Chained rule last es := by
  induction es generalizing last with
  | nil => exact trivial
  | cons e es ih =>
    exact ⟨h e List.mem_cons_self last, ih fun x hx => h x (List.mem_cons_of_mem e hx)⟩

namespace Proc

variable {m : Proc ε σ φ α} {f : α → Proc ε σ φ β}

/-- **The events of every run of `m` follow from each other**, behind `last`. -/
def Follows (rule : Option ε → ε → Prop) (last : Option ε) (m : Proc ε σ φ α) : Prop :=
  ∀ s, Chained rule last (m s).events

theorem follows_pure (a : α) : Follows rule last (pure a : Proc ε σ φ α) := fun _ => trivial

theorem follows_fail (e : φ) : Follows rule last (fail e : Proc ε σ φ α) := fun _ => trivial

theorem follows_lift (x : Except φ α) : Follows rule last (lift x : Proc ε σ φ α) := fun _ => trivial

theorem follows_call (g : σ → α × σ) : Follows rule last (call g : Proc ε σ φ α) := fun _ => trivial

theorem follows_emit {e : ε} (h : rule last e) : Follows rule last (emit e : Proc ε σ φ Unit) :=
  fun _ => ⟨h, trivial⟩

/-- A part whose events may come anywhere. -/
theorem follows_free {p : ε → Bool} {k : ℕ} {R : α → Prop}
    (h : Ensures p k m R fun e => ∀ last, rule last e) : Follows rule last m :=
  fun s => chained_free (h s).2.1

/-- **Sequence**, where the second part goes on from what the first has come to. -/
theorem follows_bind_result (hm : Follows rule last m)
    (hf : ∀ s a, (m s).result = .ok a →
      Chained rule (lastAfter last (m s).events) (f a (m s).state).events) :
    Follows rule last (m >>= f) := by
  intro s
  rcases hr : (m s).result with e | a
  · rw [bind_error hr]
    exact hm s
  · rw [bind_ok hr]
    exact chained_append.2 ⟨hm s, hf s a hr⟩

/-- **Sequence.** -/
theorem follows_bind (hm : Follows rule last m) (hf : ∀ a last, Follows rule last (f a)) :
    Follows rule last (m >>= f) :=
  follows_bind_result hm fun _ a _ => hf a _ _

end Proc

end HexbufferProxy.Rust
