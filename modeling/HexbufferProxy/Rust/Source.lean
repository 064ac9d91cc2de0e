import HexbufferProxy.Rust.Text

/-!
# Byte streams that arrive in segments

A `Source` is the receiving side of a connection: the segments still to come, and
how the stream ends. A read returns at most the buffer's size of the first segment;
it returns nothing only at the end of the stream (or into an empty buffer).

`fill stop` is the loop

    while !stop(buf) { n = read(chunk)?; if n == 0 { break } buf.extend(chunk[..n]) }

For a `stop` that more bytes cannot undo, what the loop ends with is a question
about the whole stream, not about its segments:

* `fill_full`: if the whole stream makes it stop, it stops at the first boundary between
  reads where its condition holds.
* `fill_cases`: otherwise it takes everything, and ends as the stream ends.
-/

namespace HexbufferProxy.Rust

structure IoError where
  kind : String
deriving DecidableEq, Repr

/-- One network segment. -/
abbrev Segment := {bs : Bytes // bs ≠ []}

/-- What a connection still delivers: segments, then EOF or an error. -/
structure Source where
  segments : List Segment
  failure : Option IoError

namespace Source

/-- All bytes still to come. -/
def bytes (s : Source) : Bytes := s.segments.flatMap Subtype.val

/-- `stream.read(&mut chunk)` into a buffer of `n` bytes. -/
def read (n : ℕ) (s : Source) : Except IoError Bytes × Source :=
  if n = 0 then (.ok [], s)
  else
    match s.segments with
    | [] => (match s.failure with | none => .ok [] | some e => .error e, s)
    | seg :: rest =>
      if h : seg.1.length ≤ n then (.ok seg.1, { s with segments := rest })
      else (.ok (seg.1.take n),
        { s with segments := ⟨seg.1.drop n, by simp; omega⟩ :: rest })

/-- How the fill loop ends: with its condition met, or at the end of the stream. -/
inductive Filled where
  | full (buf : Bytes)
  | eof (buf : Bytes)
deriving DecidableEq, Repr

/-- The buffer the loop ends with. -/
def Filled.buf : Filled → Bytes
  | .full buf => buf
  | .eof buf => buf

def fillFuel (stop : Bytes → Bool) (n : ℕ) :
    ℕ → Bytes → Source → Except IoError Filled × Source
  | 0, buf, s => (.ok (.eof buf), s)
  | k + 1, buf, s =>
    if stop buf then (.ok (.full buf), s)
    else
      match s.read n with
      | (.error e, s') => (.error e, s')
      | (.ok got, s') =>
        if got = [] then (.ok (.eof buf), s') else fillFuel stop n k (buf ++ got) s'

/-- The loop `while !stop(buf)`. Every round reads at least one byte, so the bytes
still to come bound the number of rounds. -/
def fill (stop : Bytes → Bool) (n : ℕ) (buf : Bytes) (s : Source) :
    Except IoError Filled × Source :=
  fillFuel stop n (s.bytes.length + 1) buf s

/-- Some reads into a buffer of `n` bytes take `got` and leave the stream at the
second source. -/
inductive Reads (n : ℕ) : Source → Bytes → Source → Prop
  | refl (s : Source) : Reads n s [] s
  | step {s s' s'' : Source} {got more : Bytes} (hr : s.read n = (.ok got, s'))
      (hne : got ≠ []) (h : Reads n s' more s'') : Reads n s (got ++ more) s''

/-- A boundary between two reads falls after `k` bytes. -/
def CutAt (n k : ℕ) (s : Source) : Prop := ∃ got s', Reads n s got s' ∧ got.length = k

variable {n : ℕ} {s s' s'' : Source} {got more buf : Bytes} {stop : Bytes → Bool}

/-- **A read takes bytes from the front of the stream** and leaves its end alone. -/
theorem read_ok (h : s.read n = (.ok got, s')) :
    s.bytes = got ++ s'.bytes ∧ s'.failure = s.failure ∧ got.length ≤ n := by
  unfold read at h
  split at h
  · simp at h; obtain ⟨rfl, rfl⟩ := h; simp
  · split at h
    · split at h <;> simp at h
      obtain ⟨rfl, rfl⟩ := h; simp
    · rename_i seg rest hseg
      split at h <;> simp only [Prod.mk.injEq, Except.ok.injEq] at h <;> obtain ⟨rfl, rfl⟩ := h
      · rename_i hle
        exact ⟨by simp [bytes, hseg], rfl, hle⟩
      · refine ⟨?_, rfl, by simp⟩
        simp only [bytes, hseg, List.flatMap_cons]
        rw [← List.append_assoc, List.take_append_drop]

/-- A read into a real buffer returns nothing only at the end of the stream. -/
theorem read_nil (hn : n ≠ 0) (h : s.read n = (.ok [], s')) :
    s.bytes = [] ∧ s.failure = none ∧ s' = s := by
  unfold read at h
  rw [if_neg hn] at h
  split at h
  · rename_i hseg
    split at h <;> simp at h
    rename_i hf
    exact ⟨by simp [bytes, hseg], hf, h.symm⟩
  · rename_i seg rest hseg
    have hpos := List.length_pos_iff.2 seg.2
    split at h
    · simp only [Prod.mk.injEq, Except.ok.injEq] at h
      exact absurd h.1 seg.2
    · simp only [Prod.mk.injEq, Except.ok.injEq, List.take_eq_nil_iff] at h
      rcases h.1 with h0 | h0
      · exact absurd h0 hn
      · exact absurd h0 seg.2

/-- A read fails only at the end of a stream that ends in failure. -/
theorem read_error {e : IoError} (h : s.read n = (.error e, s')) :
    s.bytes = [] ∧ s.failure = some e := by
  unfold read at h
  split at h
  · simp at h
  · split at h
    · rename_i hseg
      split at h <;> simp at h
      rename_i e' hf
      exact ⟨by simp [bytes, hseg], by rw [hf, h.1]⟩
    · split at h <;> simp at h

theorem reads_bytes (h : Reads n s got s') :
    s.bytes = got ++ s'.bytes ∧ s'.failure = s.failure := by
  induction h with
  | refl s => exact ⟨rfl, rfl⟩
  | step hr hne h ih =>
    obtain ⟨hb, hf, -⟩ := read_ok hr
    exact ⟨by rw [hb, ih.1, List.append_assoc], ih.2.trans hf⟩

/-- How the loop ends, whatever its fuel was, if it was enough. -/
theorem fillFuel_cases (hn : n ≠ 0) : ∀ (k : ℕ) (buf : Bytes) (s : Source),
    s.bytes.length < k →
    (∃ got s', fillFuel stop n k buf s = (.ok (.full (buf ++ got)), s') ∧ Reads n s got s' ∧
        stop (buf ++ got) = true ∧
        ∀ pre post s₁, Reads n s pre s₁ → post ≠ [] → got = pre ++ post →
          stop (buf ++ pre) = false) ∨
      (∃ s', fillFuel stop n k buf s = (.ok (.eof (buf ++ s.bytes)), s') ∧ s'.bytes = [] ∧
        s.failure = none ∧ s'.failure = none ∧ stop (buf ++ s.bytes) = false) ∨
      (∃ e s', fillFuel stop n k buf s = (.error e, s') ∧ s.failure = some e ∧
        stop (buf ++ s.bytes) = false) := by
  -- by induction on the fuel: each round that goes on takes a byte off the stream
  intro k
  induction k with
  | zero => intro buf s hk; omega
  | succ k ih =>
    intro buf s hk
    unfold fillFuel
    by_cases hstop : stop buf = true
    · refine Or.inl ⟨[], s, by simp [hstop], Reads.refl s, by simpa using hstop, ?_⟩
      intro pre post s₁ _ hp h
      exact absurd (List.append_eq_nil_iff.1 h.symm).2 hp
    rw [if_neg hstop]
    have hs : stop buf = false := by simpa using hstop
    rcases hr : s.read n with ⟨r, s'⟩
    cases r with
    | error e =>
      obtain ⟨hb, hf⟩ := read_error hr
      exact Or.inr (Or.inr ⟨e, s', rfl, hf, by rw [hb, List.append_nil]; exact hs⟩)
    | ok got =>
      by_cases hg : got = []
      · subst hg
        obtain ⟨hb, hf, rfl⟩ := read_nil hn hr
        exact Or.inr (Or.inl ⟨s', by simp [hb], hb, hf, hf, by rw [hb, List.append_nil]; exact hs⟩)
      obtain ⟨hb, hf, -⟩ := read_ok hr
      have hlt : s'.bytes.length < k := by
        have := List.length_pos_iff.2 hg
        rw [hb, List.length_append] at hk; omega
      simp only [hg, if_false]
      rw [hb, ← List.append_assoc, ← hf]
      rcases ih (buf ++ got) s' hlt with ⟨more, t, h1, h2, h3, h4⟩ | h | h
      · refine Or.inl ⟨got ++ more, t, by rw [h1, List.append_assoc], Reads.step hr hg h2,
          by rw [← List.append_assoc]; exact h3, ?_⟩
        intro pre post s₁ hpre hpost hsplit
        -- a shorter part of what was read is nothing, or begins with this read
        cases hpre with
        | refl => rw [List.append_nil]; exact hs
        | step hr' hne' hrest =>
          rename_i got' more'
          have e : (Except.ok got, s') = (Except.ok got', _) := hr.symm.trans hr'
          simp only [Prod.mk.injEq, Except.ok.injEq] at e
          obtain ⟨rfl, rfl⟩ := e
          rw [List.append_assoc] at hsplit
          have := h4 more' post s₁ hrest hpost (List.append_cancel_left hsplit)
          rw [← List.append_assoc]; exact this
      · exact Or.inr (Or.inl h)
      · exact Or.inr (Or.inr h)

/-- More bytes cannot undo the loop's condition. -/
def Stable (stop : Bytes → Bool) : Prop := ∀ a b, stop a = true → stop (a ++ b) = true

/-- **The loop stops when the whole stream makes it stop**: it has read a prefix, by
whole reads, up to the first boundary where its condition holds. -/
theorem fill_full (hn : n ≠ 0) (h : stop (buf ++ s.bytes) = true) :
    ∃ got s', fill stop n buf s = (.ok (.full (buf ++ got)), s') ∧ Reads n s got s' ∧
      stop (buf ++ got) = true ∧
      ∀ pre post s₁, Reads n s pre s₁ → post ≠ [] → got = pre ++ post →
        stop (buf ++ pre) = false := by
  rcases fillFuel_cases hn (s.bytes.length + 1) buf s (Nat.lt_succ_self _) with
    h' | ⟨s', -, -, -, -, hs⟩ | ⟨e, s', -, -, hs⟩
  · exact h'
  · rw [hs] at h; exact absurd h (by simp)
  · rw [hs] at h; exact absurd h (by simp)

theorem fill_not_full (hn : n ≠ 0) (hst : Stable stop)
    (h : stop (buf ++ s.bytes) = false) :
    (∃ s', fill stop n buf s = (.ok (.eof (buf ++ s.bytes)), s') ∧ s'.bytes = [] ∧
        s.failure = none ∧ s'.failure = none) ∨
      (∃ e s', fill stop n buf s = (.error e, s') ∧ s.failure = some e) := by
  rcases fillFuel_cases hn (s.bytes.length + 1) buf s (Nat.lt_succ_self _) with
    ⟨got, s', -, hr, hs, -⟩ | ⟨s', h1, h2, h3, h4, -⟩ | ⟨e, s', h1, h2, -⟩
  · have := hst _ s'.bytes hs
    rw [List.append_assoc, ← (reads_bytes hr).1, h] at this
    exact absurd this (by simp)
  · exact Or.inl ⟨s', h1, h2, h3, h4⟩
  · exact Or.inr ⟨e, s', h1, h2⟩

/-- **The three ways the loop ends**, read off the whole stream. -/
theorem fill_cases (hn : n ≠ 0) (hst : Stable stop) (buf : Bytes) (s : Source) :
    (stop (buf ++ s.bytes) = true ∧ ∃ got s', fill stop n buf s = (.ok (.full (buf ++ got)), s') ∧
        stop (buf ++ got) = true ∧ s.bytes = got ++ s'.bytes ∧ s'.failure = s.failure) ∨
      (stop (buf ++ s.bytes) = false ∧ s.failure = none ∧
        ∃ s', fill stop n buf s = (.ok (.eof (buf ++ s.bytes)), s') ∧ s'.bytes = [] ∧
          s'.failure = none) ∨
      (stop (buf ++ s.bytes) = false ∧
        ∃ e s', s.failure = some e ∧ fill stop n buf s = (.error e, s')) := by
  cases h : stop (buf ++ s.bytes) with
  | true =>
    obtain ⟨got, s', h1, h2, h3, -⟩ := fill_full hn h
    exact Or.inl ⟨rfl, got, s', h1, h3, (reads_bytes h2).1, (reads_bytes h2).2⟩
  | false =>
    rcases fill_not_full hn hst h with ⟨s', h1, h2, h3, h4⟩ | ⟨e, s', h1, h2⟩
    · exact Or.inr (Or.inl ⟨rfl, h3, s', h1, h2, h4⟩)
    · exact Or.inr (Or.inr ⟨rfl, e, s', h2, h1⟩)

end Source

end HexbufferProxy.Rust
