import HexbufferProxy.Proof.Deliver
import HexbufferProxy.Proof.Validity
import HexbufferProxy.Spec.Boundary

/-!
# The two ends of a head

* `lines_afterLines`: the lines of the text are the lines of the bytes.
* `unread_cases`: the header loop leaves what is behind the first empty line.
* `fieldLines_front`, `bodyAfterHead_suffix`: no byte is in a field line and in the body.
* `unread_eq_body_iff`: but there are bytes in neither, unless the first empty line and the line
  before it end in CRLF.
-/

namespace HexbufferProxy

open Rust

/-! ## Lines of bytes -/

/-- A byte that completes no character leaves one open. -/
theorem push_open {q : Option Pending} {b : ℕ} (h : (push q b).1 = []) : (push q b).2 ≠ none := by
  have hlead : (lead b).1 = [] → (lead b).2 ≠ none := by
    unfold lead
    split_ifs <;> simp
  cases q with
  | none => exact hlead h
  | some p =>
    unfold push at h ⊢
    simp only at h ⊢
    split_ifs at h ⊢
    simp at h ⊢

theorem lossyFrom_ne (q : Option Pending) (bs : Bytes) (h : q ≠ none ∨ bs ≠ []) :
    lossyFrom q bs ≠ [] := by
  induction bs generalizing q with
  | nil =>
    cases q with
    | none => exact absurd rfl (h.resolve_right fun hne => hne rfl)
    | some p => exact List.cons_ne_nil _ _
  | cons b bs ih =>
    unfold lossyFrom
    rw [Ne, List.append_eq_nil_iff, not_and]
    intro hout
    exact ih _ (Or.inl (push_open hout))

theorem lossy_eq_nil {bs : Bytes} : fromUtf8Lossy bs = [] ↔ bs = [] := by
  refine ⟨fun h => ?_, fun h => by rw [h]; rfl⟩
  by_contra hne
  exact lossyFrom_ne none bs (Or.inr hne) h

/-- The empty lines: with LF behind them, or CRLF. -/
theorem stripCr_lossy {m : Bytes} : stripCr (fromUtf8Lossy m) = [] ↔ m = [] ∨ m = [13] := by
  constructor
  · intro h
    unfold stripCr at h
    split at h
    · rename_i hlast
      right
      obtain ⟨x, hx⟩ : ∃ x, fromUtf8Lossy m = x ++ ['\r'] :=
        ⟨_, (List.dropLast_append_getLast? _ hlast).symm⟩
      rw [hx, List.dropLast_concat] at h
      rw [h, List.nil_append] at hx
      have hcr : '\r' ∈ fromUtf8Lossy m := by rw [hx]; exact List.mem_singleton_self _
      obtain ⟨b, hb, he⟩ := mem_lossy_ascii hcr (by decide) (by decide)
      obtain rfl : b = 13 := UInt8.toNat_inj.1 he
      obtain ⟨u, v, rfl⟩ := List.append_of_mem hb
      rw [lossy_append_ascii (by decide), lossy_cons_ascii (by decide)] at hx
      have hlen := congrArg List.length hx
      simp only [List.length_append, List.length_cons, List.length_nil] at hlen
      have hu : u = [] := lossy_eq_nil.1 (List.length_eq_zero_iff.1 (by omega))
      have hv : v = [] := lossy_eq_nil.1 (List.length_eq_zero_iff.1 (by omega))
      rw [hu, hv]
      rfl
    · exact Or.inl (lossy_eq_nil.1 h)
  · rintro (rfl | rfl) <;> decide

theorem lossy_no_lf {m : Bytes} (hm : (10 : UInt8) ∉ m) : '\n' ∉ fromUtf8Lossy m := by
  intro h
  obtain ⟨b, hb, he⟩ := mem_lossy_ascii h (by decide) (by decide)
  obtain rfl : b = 10 := UInt8.toNat_inj.1 he
  exact hm hb

theorem lines_lossy {m : Bytes} (hm : (10 : UInt8) ∉ m) (r : Bytes) :
    lines (fromUtf8Lossy (m ++ 10 :: r)) =
      stripCr (fromUtf8Lossy m) :: lines (fromUtf8Lossy r) := by
  rw [lossy_append_ascii (by decide), lossy_cons_ascii (by decide)]
  exact lines_lf (lossy_no_lf hm) _

/-- Some bytes are a line and what follows it, or a line that never ends. -/
theorem line_cases (r : Bytes) :
    (10 : UInt8) ∉ r ∨ ∃ m r', r = m ++ 10 :: r' ∧ (10 : UInt8) ∉ m := by
  by_cases h : (10 : UInt8) ∈ r
  · obtain ⟨m, r', hr, hm⟩ := List.eq_append_cons_of_mem h
    exact Or.inr ⟨m, r', hr, hm⟩
  · exact Or.inl h

theorem afterLines_line {m : Bytes} (hm : (10 : UInt8) ∉ m) (n : ℕ) (r : Bytes) :
    afterLines (n + 1) (m ++ 10 :: r) = afterLines n r := by
  have hdrop : (m ++ 10 :: r).dropWhile (· ≠ 10) = 10 :: r := by
    rw [List.dropWhile_append_of_pos]
    · rfl
    · intro b hb
      simp only [ne_eq, decide_eq_true_eq]
      rintro rfl
      exact hm hb
  rw [afterLines, hdrop, List.tail_cons]

theorem afterLines_nil (n : ℕ) : afterLines n [] = [] := by
  induction n with
  | zero => rfl
  | succ n ih => exact ih

theorem afterLines_last {r : Bytes} (hr : (10 : UInt8) ∉ r) (n : ℕ) :
    afterLines (n + 1) r = [] := by
  have hdrop : r.dropWhile (· ≠ 10) = [] := by
    rw [List.dropWhile_eq_nil_iff]
    intro b hb
    simp only [ne_eq, decide_eq_true_eq]
    rintro rfl
    exact hr hb
  rw [afterLines, hdrop]
  exact afterLines_nil n

/-- **The text has the lines of the bytes**: the iterator stands where `afterLines` says. -/
theorem lines_afterLines (n : ℕ) (raw : Bytes) :
    (lines (fromUtf8Lossy raw)).drop n = lines (fromUtf8Lossy (afterLines n raw)) := by
  induction n generalizing raw with
  | zero => rfl
  | succ n ih =>
    rcases line_cases raw with h | ⟨m, r, rfl, hm⟩
    · rw [afterLines_last h, List.drop_eq_nil_of_le]
      · rfl
      · exact (lines_length_le (lossy_no_lf h)).trans (by omega)
    · rw [afterLines_line hm, lines_lossy hm, List.drop_succ_cons, ih]

/-! ## The first empty line -/

theorem endsInEmptyLine_last {p : Bytes} (h : EndsInEmptyLine p) : p.getLast? = some 10 := by
  rcases h with ⟨t, rfl⟩ | ⟨t, rfl⟩ <;> simp

/-- A line behind an LF ends a head only if it is empty. -/
theorem empty_of_endsInEmptyLine {q m : Bytes} (hm : (10 : UInt8) ∉ m)
    (h : EndsInEmptyLine (q ++ [10] ++ (m ++ [10]))) : m = [] ∨ m = [13] := by
  have hlast : ∀ {t a : Bytes}, t ++ [10] = q ++ [10] ++ a → (10 : UInt8) ∉ a → a = [] := by
    intro t a heq ha
    rcases a.eq_nil_or_concat' with rfl | ⟨a', x, rfl⟩
    · rfl
    · rw [← List.append_assoc] at heq
      have hx := (List.append_inj' heq rfl).2
      simp only [List.cons.injEq, and_true] at hx
      exact absurd (List.mem_append_right a' (by rw [hx]; exact List.mem_singleton_self x)) ha
  rcases h with ⟨t, ht⟩ | ⟨t, ht⟩
  · left
    have ht' : t ++ [10] ++ [10] = q ++ [10] ++ m ++ [10] := by simpa using ht
    exact hlast (List.append_inj' ht' rfl).1 hm
  · have ht' : t ++ [10] ++ [13] ++ [10] = q ++ [10] ++ m ++ [10] := by simpa using ht
    have hcr := (List.append_inj' ht' rfl).1
    rcases m.eq_nil_or_concat' with rfl | ⟨m', x, rfl⟩
    · exact Or.inl rfl
    · right
      rw [← List.append_assoc] at hcr
      obtain ⟨hinit, hx⟩ := List.append_inj' hcr rfl
      have hm' := hlast hinit fun hmem => hm (List.mem_append_left _ hmem)
      rw [hm', ← hx]
      rfl

/-- One more line with its end: it is empty, or the empty line was before it. -/
theorem endsInEmptyLine_line {q m p : Bytes} (hm : (10 : UInt8) ∉ m)
    (hp : p <+: q ++ [10] ++ (m ++ [10])) (h : EndsInEmptyLine p) :
    p <+: q ++ [10] ∨ p = q ++ [10] ++ (m ++ [10]) ∧ (m = [] ∨ m = [13]) := by
  rcases prefix_append_cases hp with ⟨hp', -⟩ | ⟨t, rfl, ht⟩
  · exact Or.inl hp'
  rcases List.prefix_concat_iff.1 ht with rfl | htm
  · exact Or.inr ⟨rfl, empty_of_endsInEmptyLine hm h⟩
  · left
    rcases t.eq_nil_or_concat' with rfl | ⟨t', x, rfl⟩
    · rw [List.append_nil]
    · -- the last byte of a part of the line is no LF
      have hlast := endsInEmptyLine_last h
      rw [← List.append_assoc, List.getLast?_concat] at hlast
      rw [Option.some.inj hlast] at htm
      exact absurd (htm.subset (List.mem_append_right t' (List.mem_singleton_self 10))) hm

/-- An empty line is a second one. -/
theorem endsInEmptyLine_count {p : Bytes} (h : EndsInEmptyLine p) : 2 ≤ p.count 10 := by
  rcases h with h | h
  · exact h.sublist.count_le 10
  · exact h.sublist.count_le 10

theorem no_endsInEmptyLine {l p : Bytes} (hl : (10 : UInt8) ∉ l) (hp : p <+: l ++ [10]) :
    ¬ EndsInEmptyLine p := by
  intro h
  have hcount := (endsInEmptyLine_count h).trans (hp.sublist.count_le 10)
  rw [List.count_append, List.count_eq_zero_of_not_mem hl] at hcount
  exact absurd hcount (by decide)

/-- What the header loop leaves of the bytes behind the first line. -/
def behind (r : Bytes) : Bytes :=
  afterLines (((lines (fromUtf8Lossy r)).takeWhile (· ≠ [])).length + 1) r

theorem behind_line {m : Bytes} (hm : (10 : UInt8) ∉ m) (r : Bytes) :
    behind (m ++ 10 :: r) = if m = [] ∨ m = [13] then r else behind r := by
  unfold behind
  rw [lines_lossy hm, afterLines_line hm]
  by_cases h : m = [] ∨ m = [13]
  · rw [if_pos h, List.takeWhile_cons_of_neg (by simpa using stripCr_lossy.2 h)]
    rfl
  · rw [if_neg h, List.takeWhile_cons_of_pos (by simpa using fun hs => h (stripCr_lossy.1 hs)),
      List.length_cons]

/-- The induction is on the lines behind `q`, which holds no empty line yet. -/
theorem behind_cases (q r : Bytes) (hq : ∀ p, p <+: q ++ [10] → ¬ EndsInEmptyLine p) :
    (∃ head, q ++ [10] ++ r = head ++ behind r ∧ IsHead head) ∨
      (∀ p, p <+: q ++ [10] ++ r → ¬ EndsInEmptyLine p) ∧ behind r = [] := by
  induction hlen : r.length using Nat.strong_induction_on generalizing q r with
  | _ n ih =>
    rcases line_cases r with hr | ⟨m, r', rfl, hm⟩
    · right
      refine ⟨fun p hp h => ?_, afterLines_last hr _⟩
      have hlong : p <+: q ++ [10] ++ (r ++ [10]) := hp.trans ⟨[10], by simp⟩
      rcases endsInEmptyLine_line hr hlong h with hp' | ⟨rfl, -⟩
      · exact hq p hp' h
      · have hle := hp.length_le
        simp only [List.length_append, List.length_cons, List.length_nil] at hle
        omega
    · have hsplit : q ++ [10] ++ (m ++ 10 :: r') = q ++ [10] ++ (m ++ [10]) ++ r' := by simp
      rw [behind_line hm, hsplit]
      by_cases hempty : m = [] ∨ m = [13]
      · -- the loop stops behind this line
        rw [if_pos hempty]
        refine Or.inl ⟨_, rfl, ?_, ?_⟩
        · rcases hempty with rfl | rfl
          · exact Or.inl ⟨q, by simp⟩
          · exact Or.inr ⟨q, by simp⟩
        · intro p hp h
          rcases endsInEmptyLine_line hm hp h with hp' | ⟨rfl, -⟩
          · exact absurd h (hq p hp')
          · rfl
      · rw [if_neg hempty]
        have hq' : ∀ p, p <+: q ++ [10] ++ m ++ [10] → ¬ EndsInEmptyLine p := by
          intro p hp h
          rw [List.append_assoc] at hp
          rcases endsInEmptyLine_line hm hp h with hp' | ⟨-, hcases⟩
          · exact hq p hp' h
          · exact hempty hcases
        have hlt : r'.length < n := by
          rw [← hlen, List.length_append, List.length_cons]
          omega
        have hih := ih _ hlt (q ++ [10] ++ m) r' hq' rfl
        rwa [List.append_assoc (q ++ [10]) m [10]] at hih

/-- **What the header loop leaves** is what is behind the head, if the head ends. -/
theorem unread_cases (raw : Bytes) : (∃ head, raw = head ++ unread raw ∧ IsHead head) ∨
    (∀ p, p <+: raw → ¬ EndsInEmptyLine p) ∧ unread raw = [] := by
  rcases line_cases raw with h | ⟨l, r, rfl, hl⟩
  · right
    refine ⟨fun p hp => no_endsInEmptyLine h (hp.trans (List.prefix_append _ _)), ?_⟩
    exact afterLines_last h _
  · have hunread : unread (l ++ 10 :: r) = behind r := by
      unfold unread behind fieldLines
      rw [afterLines_line hl, lines_lossy hl]
      rfl
    have hcases := behind_cases l r fun p hp => no_endsInEmptyLine hl hp
    have hsplit : l ++ [10] ++ r = l ++ 10 :: r := by simp
    rwa [hsplit, ← hunread] at hcases

/-! ## Where the body starts -/

theorem endsInEmptyLine_crlf {p : Bytes} (h : crlfcrlf <:+ p) : EndsInEmptyLine p := by
  obtain ⟨t, rfl⟩ := h
  exact Or.inr ⟨t ++ [13], by simp [crlfcrlf]⟩

/-- The first match is not behind any other. -/
theorem position_le {pat bs : Bytes} (hpat : pat ≠ []) {i : ℕ} (h : pat <+: bs.drop i) :
    ∃ j, position pat bs = some j ∧ j ≤ i := by
  induction bs generalizing i with
  | nil =>
    rw [List.drop_nil, List.prefix_nil] at h
    exact absurd h hpat
  | cons b bs ih =>
    unfold position
    by_cases hp : pat.isPrefixOf (b :: bs) = true
    · rw [if_pos hp]
      exact ⟨0, rfl, Nat.zero_le i⟩
    · rw [if_neg hp]
      cases i with
      | zero => exact absurd (List.isPrefixOf_iff_prefix.2 h) hp
      | succ i =>
        obtain ⟨j, hj, hle⟩ := ih h
        exact ⟨j + 1, by rw [hj]; rfl, Nat.succ_le_succ hle⟩

/-- **What becomes the body** is what is behind the first CRLFCRLF, if there is one. -/
theorem body_cases (raw : Bytes) : (∃ head, raw = head ++ bodyAfterHead raw ∧
    crlfcrlf <:+ head ∧ ∀ p, p <+: raw → crlfcrlf <:+ p → head.length ≤ p.length) ∨
      (∀ p, p <+: raw → ¬ crlfcrlf <:+ p) ∧ bodyAfterHead raw = [] := by
  have hfound : ∀ p, p <+: raw → crlfcrlf <:+ p →
      ∃ j, position crlfcrlf raw = some j ∧ j + 4 ≤ p.length := by
    rintro p ⟨rest, rfl⟩ ⟨t, rfl⟩
    have hat : crlfcrlf <+: (t ++ crlfcrlf ++ rest).drop t.length := by
      rw [List.append_assoc, List.drop_left]
      exact List.prefix_append _ _
    obtain ⟨j, hj, hle⟩ := position_le (by decide) hat
    refine ⟨j, hj, ?_⟩
    rw [List.length_append]
    exact Nat.add_le_add_right hle 4
  cases hpos : position crlfcrlf raw with
  | none =>
    right
    refine ⟨fun p hp h => ?_, by unfold bodyAfterHead; rw [hpos]⟩
    obtain ⟨j, hj, -⟩ := hfound p hp h
    rw [hpos] at hj
    exact nomatch hj
  | some i =>
    left
    obtain ⟨rest, hrest⟩ := position_starts hpos
    have hraw : raw = raw.take i ++ crlfcrlf ++ rest := by
      rw [List.append_assoc, hrest, List.take_append_drop]
    have hlen : (raw.take i ++ crlfcrlf).length = i + 4 := by
      rw [List.length_append, List.length_take, Nat.min_eq_left (position_lt hpos).le]
      rfl
    have hbody : bodyAfterHead raw = rest := by
      unfold bodyAfterHead
      rw [hpos]
      simp only
      rw [hraw, ← hlen, List.drop_left]
    refine ⟨_, by rw [hbody]; exact hraw, List.suffix_append _ _, fun p hp h => ?_⟩
    obtain ⟨j, hj, hle⟩ := hfound p hp h
    rw [hpos] at hj
    rw [hlen, Option.some.inj hj]
    exact hle

/-- A head is the shortest of all that end in an empty line. -/
theorem head_inside {raw head p : Bytes} (hh : head <+: raw) (h : IsHead head) (hp : p <+: raw)
    (he : EndsInEmptyLine p) : head <+: p := by
  rcases List.prefix_or_prefix_of_prefix hh hp with hle | hle
  · exact hle
  · rw [h.first p hle he]

/-- **No byte is read as a field line and taken for the body.** -/
theorem bodyAfterHead_suffix (raw : Bytes) : bodyAfterHead raw <:+ unread raw := by
  rcases body_cases raw with ⟨b, hb, hcrlf, -⟩ | ⟨-, hnil⟩
  · have hpre : b <+: raw := ⟨_, hb.symm⟩
    rcases unread_cases raw with ⟨head, hraw, hh⟩ | ⟨hno, -⟩
    · obtain ⟨t, rfl⟩ := head_inside ⟨_, hraw.symm⟩ hh hpre (endsInEmptyLine_crlf hcrlf)
      have hrest : head ++ unread raw = head ++ (t ++ bodyAfterHead raw) := by
        rw [← hraw, ← List.append_assoc, ← hb]
      exact ⟨t, (List.append_cancel_left hrest).symm⟩
    · exact absurd (endsInEmptyLine_crlf hcrlf) (hno b hpre)
  · rw [hnil]
    exact List.nil_suffix

theorem lines_front (x r : Bytes) : lines (fromUtf8Lossy (x ++ 10 :: r)) =
    lines (fromUtf8Lossy (x ++ [10])) ++ lines (fromUtf8Lossy r) := by
  induction hlen : x.length using Nat.strong_induction_on generalizing x with
  | _ n ih =>
    rcases line_cases x with hx | ⟨m, x', rfl, hm⟩
    · rw [lines_lossy hx, lines_lossy hx]
      rfl
    · have hlt : x'.length < n := by
        rw [← hlen, List.length_append, List.length_cons]
        omega
      rw [List.append_assoc, List.append_assoc, List.cons_append, List.cons_append,
        lines_lossy hm, lines_lossy hm, ih _ hlt x' rfl, List.cons_append]

/-- A head has an empty line behind its first. -/
theorem empty_mem_lines {head : Bytes} (h : EndsInEmptyLine head) :
    [] ∈ (lines (fromUtf8Lossy head)).tail := by
  have hmem : ∀ t e : Bytes, e = [] ∨ e = [13] →
      [] ∈ (lines (fromUtf8Lossy (t ++ 10 :: (e ++ [10])))).tail := by
    intro t e he
    have hno : (10 : UInt8) ∉ e := by rcases he with rfl | rfl <;> decide
    have hlast : lines (fromUtf8Lossy (e ++ [10])) = [[]] := by
      rw [lines_lossy hno, stripCr_lossy.2 he]
      rfl
    obtain ⟨l, ls, hl⟩ : ∃ l ls, lines (fromUtf8Lossy (t ++ [10])) = l :: ls := by
      rcases line_cases t with ht | ⟨m, t', rfl, hm⟩
      · exact ⟨_, _, lines_lossy ht []⟩
      · rw [List.append_assoc, List.cons_append]
        exact ⟨_, _, lines_lossy hm _⟩
    rw [lines_front, hlast, hl]
    exact List.mem_append_right ls (List.mem_singleton_self _)
  rcases h with ⟨t, rfl⟩ | ⟨t, rfl⟩
  · exact hmem t [] (Or.inl rfl)
  · exact hmem t [13] (Or.inr rfl)

/-- **The field lines are those in front of what the loop leaves.** -/
theorem fieldLines_front {raw front : Bytes} (h : raw = front ++ unread raw) :
    fieldLines front = fieldLines raw := by
  rcases unread_cases raw with ⟨head, hraw, hh⟩ | ⟨-, hnil⟩
  · rw [List.append_cancel_right (h.symm.trans hraw)] at *
    obtain ⟨x, hx⟩ : ∃ x, head = x ++ [10] :=
      ⟨_, (List.dropLast_append_getLast? _ (endsInEmptyLine_last hh.ends)).symm⟩
    have hlines : lines (fromUtf8Lossy raw) =
        lines (fromUtf8Lossy head) ++ lines (fromUtf8Lossy (unread raw)) := by
      rw [hx] at hraw ⊢
      rw [← lines_front]
      conv_lhs => rw [hraw]
      rw [List.append_assoc]
      rfl
    have hempty := empty_mem_lines hh.ends
    unfold fieldLines
    rw [hlines]
    cases hl : lines (fromUtf8Lossy head) with
    | nil => rw [hl] at hempty; exact absurd hempty List.not_mem_nil
    | cons l ls =>
      rw [hl] at hempty
      -- the loop never gets past the empty line of the head
      rw [List.cons_append, List.tail_cons, List.tail_cons, List.takeWhile_append, if_neg]
      intro hlen
      have hall := (List.takeWhile_prefix _).eq_of_length hlen
      have hne := List.mem_takeWhile_imp (hall.symm ▸ hempty)
      simp at hne
  · rw [hnil, List.append_nil] at h
    rw [h]

/-- **The header loop stops where the body starts** exactly when the head, if something follows it,
ends in CRLFCRLF. -/
theorem unread_eq_body_iff (raw : Bytes) :
    unread raw = bodyAfterHead raw ↔ HeadEndsInCrlf raw := by
  constructor
  · intro heq head rest hraw hh
    have hpre : head <+: raw := ⟨rest, hraw.symm⟩
    -- both ends are those of this head
    have hrest : unread raw = rest := by
      rcases unread_cases raw with ⟨h', hraw', hh'⟩ | ⟨hno, -⟩
      · have hsame : head = h' := hh'.first head
          (head_inside hpre hh ⟨_, hraw'.symm⟩ hh'.ends) hh.ends
        rw [← hsame] at hraw'
        exact List.append_cancel_left (hraw'.symm.trans hraw)
      · exact absurd hh.ends (hno head hpre)
    rcases body_cases raw with ⟨b, hb, hcrlf, -⟩ | ⟨-, hnil⟩
    · right
      rw [← heq, hrest] at hb
      rw [List.append_cancel_right (hraw.symm.trans hb)]
      exact hcrlf
    · left
      rw [← hrest, heq, hnil]
  · intro hcond
    rcases unread_cases raw with ⟨head, hraw, hh⟩ | ⟨hno, hunread⟩
    · have hpre : head <+: raw := ⟨_, hraw.symm⟩
      rcases hcond head _ hraw hh with hnil | hcrlf
      · -- nothing is left, and the body is no more than that
        have hsuffix := bodyAfterHead_suffix raw
        rw [hnil, List.suffix_nil] at hsuffix
        rw [hnil, hsuffix]
      · rcases body_cases raw with ⟨b, hb, hbcrlf, hmin⟩ | ⟨hno, -⟩
        · have hle := head_inside hpre hh ⟨_, hb.symm⟩ (endsInEmptyLine_crlf hbcrlf)
          have hsame := hle.eq_of_length_le (hmin head hpre hcrlf)
          rw [← hsame] at hb
          exact List.append_cancel_left (hraw.symm.trans hb)
        · exact absurd hcrlf (hno head hpre)
    · rcases body_cases raw with ⟨b, hb, hcrlf, -⟩ | ⟨-, hnil⟩
      · exact absurd (endsInEmptyLine_crlf hcrlf) (hno b ⟨_, hb.symm⟩)
      · rw [hunread, hnil]

/-- A head of bare LF: the body behind it is lost. -/
theorem unread_bare : ¬ ∀ raw : Bytes, unread raw = bodyAfterHead raw := by
  intro h
  exact absurd (h (lit "POST / HTTP/1.1\nHost: a\n\nbody")) (by decide +kernel)

end HexbufferProxy
