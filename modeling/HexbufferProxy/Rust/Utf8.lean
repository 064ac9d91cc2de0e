import HexbufferProxy.Rust.Text

/-!
# UTF-8, decoded with replacement

`fromUtf8Lossy` is `String::from_utf8_lossy`: every maximal prefix of a character
that is not completed is replaced by one U+FFFD. It runs as a machine that takes
one byte at a time, so that a text can be cut anywhere an ASCII byte follows.

* `lossy_cons_ascii`: an ASCII byte decodes to itself.
* `lossy_append_ascii`: an ASCII byte starts afresh, whatever stands before it.
* `mem_lossy_ascii`: an ASCII character of the text was one of the bytes.
* `lossy_encode`: decoding what was encoded gives the text back.
-/

namespace HexbufferProxy.Rust

/-- U+FFFD. -/
def replacement : Char := Char.ofNat 0xFFFD

/-- A character whose first bytes have been read: the bits so far, how many bytes are
still owed, and the range of the next one, which holds no ASCII byte. -/
structure Pending where
  acc : ℕ
  owed : ℕ
  lo : ℕ
  hi : ℕ
  lo_ge : 0x80 ≤ lo

/-- The byte `b` between characters. -/
def lead (b : ℕ) : Str × Option Pending :=
  if b < 0x80 then ([Char.ofNat b], none)
  else if 0xC2 ≤ b ∧ b ≤ 0xDF then ([], some ⟨b - 0xC0, 1, 0x80, 0xBF, by decide⟩)
  else if b = 0xE0 then ([], some ⟨0, 2, 0xA0, 0xBF, by decide⟩)
  else if b = 0xED then ([], some ⟨0xD, 2, 0x80, 0x9F, by decide⟩)
  else if 0xE1 ≤ b ∧ b ≤ 0xEF then ([], some ⟨b - 0xE0, 2, 0x80, 0xBF, by decide⟩)
  else if b = 0xF0 then ([], some ⟨0, 3, 0x90, 0xBF, by decide⟩)
  else if b = 0xF4 then ([], some ⟨4, 3, 0x80, 0x8F, by decide⟩)
  else if 0xF1 ≤ b ∧ b ≤ 0xF3 then ([], some ⟨b - 0xF0, 3, 0x80, 0xBF, by decide⟩)
  else ([replacement], none)

/-- One byte: the characters it completes, and the character it leaves open. -/
def push (q : Option Pending) (b : ℕ) : Str × Option Pending :=
  match q with
  | none => lead b
  | some p =>
    if p.lo ≤ b ∧ b ≤ p.hi then
      if p.owed ≤ 1 then ([Char.ofNat (p.acc * 64 + (b - 0x80))], none)
      else ([], some ⟨p.acc * 64 + (b - 0x80), p.owed - 1, 0x80, 0xBF, by decide⟩)
    else (replacement :: (lead b).1, (lead b).2)

def lossyFrom (q : Option Pending) : Bytes → Str
  | [] => if q.isSome then [replacement] else []
  | b :: bs => (push q b.toNat).1 ++ lossyFrom (push q b.toNat).2 bs

/-- `String::from_utf8_lossy`. -/
def fromUtf8Lossy (bs : Bytes) : Str := lossyFrom none bs

/-- `str::as_bytes`. -/
def encode (s : Str) : Bytes := s.flatMap String.utf8EncodeChar

/-- A byte string literal. -/
def lit (s : String) : Bytes := encode s.toList

@[simp] theorem encode_nil : encode [] = [] := rfl

@[simp] theorem encode_cons (c : Char) (s : Str) :
    encode (c :: s) = String.utf8EncodeChar c ++ encode s := rfl

@[simp] theorem encode_append (s t : Str) : encode (s ++ t) = encode s ++ encode t := by
  simp [encode]

@[simp] theorem fromUtf8Lossy_nil : fromUtf8Lossy [] = [] := rfl

theorem lossy_cons_ascii {b : UInt8} (hb : b.toNat < 128) (bs : Bytes) :
    fromUtf8Lossy (b :: bs) = Char.ofNat b.toNat :: fromUtf8Lossy bs := by
  have h : lead b.toNat = ([Char.ofNat b.toNat], none) := by unfold lead; rw [if_pos hb]
  simp [fromUtf8Lossy, lossyFrom, push, h]

theorem lossyFrom_append_ascii {b : UInt8} (hb : b.toNat < 128) (q : Option Pending)
    (a bs : Bytes) :
    lossyFrom q (a ++ b :: bs) = lossyFrom q a ++ fromUtf8Lossy (b :: bs) := by
  induction a generalizing q with
  | nil =>
    cases q with
    | none => rfl
    | some p =>
      -- the open character is replaced, and the byte read as from the start
      have hlo := p.lo_ge
      have hn : ¬ (p.lo ≤ b.toNat ∧ b.toNat ≤ p.hi) := by omega
      simp [fromUtf8Lossy, lossyFrom, push, hn]
  | cons x a ih =>
    simp only [List.cons_append, lossyFrom, List.append_assoc]
    rw [ih]

/-- **An ASCII byte starts afresh**, whatever stands before it. -/
theorem lossy_append_ascii {b : UInt8} (hb : b.toNat < 128) (a bs : Bytes) :
    fromUtf8Lossy (a ++ b :: bs) = fromUtf8Lossy a ++ fromUtf8Lossy (b :: bs) :=
  lossyFrom_append_ascii hb none a bs

/-- What an open character has fixed already puts it beyond ASCII. -/
def Pending.Wide (p : Pending) : Prop := 128 ≤ (p.acc * 64 + (p.lo - 0x80)) * 64 ^ (p.owed - 1)

theorem lead_wide {b : ℕ} {p : Pending} (h : (lead b).2 = some p) : p.Wide := by
  unfold lead at h
  split_ifs at h <;> simp only [Option.some.injEq] at h <;> subst h <;> unfold Pending.Wide <;>
    simp only [Nat.add_one_sub_one] <;> omega

theorem char_ofNat_wide {n : ℕ} (hn : 128 ≤ n) :
    (Char.ofNat n).toNat = 0 ∨ 128 ≤ (Char.ofNat n).toNat := by
  by_cases h : n.isValidChar
  · right
    rw [Char.toNat_ofNat, if_pos h]; exact hn
  · left
    rw [Char.toNat_ofNat, if_neg h]

/-- One byte completes no ASCII character but itself, and what it leaves open is wide. -/
theorem push_wide {q : Option Pending} (hq : ∀ p, q = some p → p.Wide) (b : ℕ) :
    (∀ c ∈ (push q b).1, c.toNat = 0 ∨ c.toNat = b ∨ 128 ≤ c.toNat) ∧
      ∀ p, (push q b).2 = some p → p.Wide := by
  have hlead : ∀ c ∈ (lead b).1, c.toNat = 0 ∨ c.toNat = b ∨ 128 ≤ c.toNat := by
    intro c hc
    unfold lead at hc
    split_ifs at hc with h0 <;> simp only [List.mem_singleton, List.not_mem_nil] at hc <;> subst hc
    · right; left
      rw [Char.toNat_ofNat, if_pos (Or.inl (by omega))]
    · right; right; decide
  cases q with
  | none => exact ⟨hlead, fun p hp => lead_wide hp⟩
  | some p =>
    have hp := hq p rfl
    unfold Pending.Wide at hp
    unfold push
    by_cases hr : p.lo ≤ b ∧ b ≤ p.hi
    · have hlo := p.lo_ge
      simp only [hr, and_self, if_true]
      by_cases howed : p.owed ≤ 1
      · -- the last byte: the character is at least what was fixed before
        rw [if_pos howed]
        refine ⟨?_, fun p' hp' => absurd hp' (by simp)⟩
        intro c hc
        rw [List.mem_singleton] at hc
        have hw : 128 ≤ p.acc * 64 + (b - 0x80) := by
          rw [show p.owed - 1 = 0 by omega] at hp
          omega
        rcases char_ofNat_wide hw with h | h
        · left; rw [hc]; exact h
        · right; right; rw [hc]; exact h
      · -- more bytes are owed: the bits so far move up by six places
        rw [if_neg howed]
        refine ⟨fun c hc => absurd hc List.not_mem_nil, ?_⟩
        intro p' hp'
        rw [Option.some.injEq] at hp'
        subst hp'
        obtain ⟨k, hk⟩ : ∃ k, p.owed = k + 2 := ⟨p.owed - 2, by omega⟩
        rw [hk, show k + 2 - 1 = k + 1 from rfl, Nat.pow_succ, ← Nat.mul_assoc,
          Nat.mul_right_comm] at hp
        unfold Pending.Wide
        simp only [hk, Nat.sub_self, Nat.add_zero, show k + 2 - 1 - 1 = k from rfl]
        refine hp.trans (Nat.mul_le_mul_right _ (Nat.mul_le_mul_right _ ?_))
        omega
    · -- the sequence breaks off, and the byte starts anew
      simp only [hr, if_false]
      refine ⟨?_, fun p' hp' => lead_wide hp'⟩
      intro c hc
      rcases List.mem_cons.1 hc with rfl | hc
      · right; right; decide
      · exact hlead c hc

/-- **Every ASCII character of a decoded text is one of its bytes.** -/
theorem mem_lossy_ascii {bs : Bytes} {c : Char} (hc : c ∈ fromUtf8Lossy bs) (h0 : c.toNat ≠ 0)
    (h128 : c.toNat < 128) : ∃ b ∈ bs, b.toNat = c.toNat := by
  have key : ∀ (bs : Bytes) (q : Option Pending), (∀ p, q = some p → p.Wide) →
      c ∈ lossyFrom q bs → ∃ b ∈ bs, b.toNat = c.toNat := by
    intro bs
    induction bs with
    | nil =>
      intro q hq hm
      cases q with
      | none => exact absurd hm List.not_mem_nil
      | some p =>
        have hrep : c = replacement := List.mem_singleton.1 hm
        rw [hrep] at h128
        exact absurd h128 (by decide)
    | cons b bs ih =>
      intro q hq hm
      obtain ⟨h1, h2⟩ := push_wide hq b.toNat
      rcases List.mem_append.1 hm with hm | hm
      · rcases h1 c hm with h | h | h
        · exact absurd h h0
        · exact ⟨b, List.mem_cons_self, h.symm⟩
        · omega
      · obtain ⟨b', hb', he⟩ := ih _ h2 hm
        exact ⟨b', List.mem_cons_of_mem b hb', he⟩
  exact key bs none (fun p hp => absurd hp (by simp)) hc

theorem char_ofNat_toNat (c : Char) : Char.ofNat c.toNat = c := by simp

theorem lossy_encodeChar (c : Char) (bs : Bytes) :
    fromUtf8Lossy (String.utf8EncodeChar c ++ bs) = c :: fromUtf8Lossy bs := by
  have hv : c.toNat < 0xD800 ∨ (0xDFFF < c.toNat ∧ c.toNat < 0x110000) := c.valid
  have hc : ∀ n, n = c.toNat → Char.ofNat n = c := fun n h => by rw [h, char_ofNat_toNat]
  have hN : c.val.toNat = c.toNat := rfl
  simp only [String.utf8EncodeChar, hN]
  set n := c.toNat with hn
  unfold fromUtf8Lossy
  split_ifs with h1 h2 h3
  · have hb : (UInt8.ofNat n).toNat = n := by simp; omega
    simp only [List.cons_append, List.nil_append, lossyFrom, hb, push, lead]
    rw [if_pos (by omega)]
    simp only [List.cons_append, List.nil_append, List.cons.injEq, and_true]
    exact hc _ rfl
  · have e0 : (UInt8.ofNat (n / 64 % 32 + 192)).toNat = n / 64 + 192 := by simp; omega
    have e1 : (UInt8.ofNat (n % 64 + 128)).toNat = n % 64 + 128 := by simp; omega
    simp only [List.cons_append, List.nil_append, lossyFrom, e0, e1, push, lead]
    rw [if_neg (by omega), if_pos (by omega)]
    simp only [le_refl, if_true]
    rw [if_pos (by omega)]
    simp only [List.nil_append, List.cons_append, List.cons.injEq, and_true]
    exact hc _ (by omega)
  · have e0 : (UInt8.ofNat (n / 4096 % 16 + 224)).toNat = n / 4096 + 224 := by simp; omega
    have e1 : (UInt8.ofNat (n / 64 % 64 + 128)).toNat = n / 64 % 64 + 128 := by simp; omega
    have e2 : (UInt8.ofNat (n % 64 + 128)).toNat = n % 64 + 128 := by simp; omega
    -- whatever range the lead byte gives the next one, the next byte is in it
    obtain ⟨lo, hi, hge, hl, hr⟩ : ∃ lo hi hge,
        lead (n / 4096 + 224) = ([], some ⟨n / 4096, 2, lo, hi, hge⟩) ∧
          lo ≤ n / 64 % 64 + 128 ∧ n / 64 % 64 + 128 ≤ hi := by
      unfold lead
      rw [if_neg (by omega), if_neg (by omega)]
      split_ifs with g1 g2 g3
      · exact ⟨0xA0, 0xBF, by decide, by rw [show n / 4096 = 0 by omega], by omega, by omega⟩
      · exact ⟨0x80, 0x9F, by decide, by rw [show n / 4096 = 13 by omega], by omega, by omega⟩
      · exact ⟨0x80, 0xBF, by decide, by rw [Nat.add_sub_cancel], by omega, by omega⟩
      all_goals omega
    simp only [List.cons_append, List.nil_append, lossyFrom, e0, e1, e2, push, hl]
    rw [if_pos hr, if_neg (by omega)]
    simp only [List.nil_append]
    rw [if_pos (by omega), if_pos (by omega)]
    simp only [List.cons_append, List.nil_append, List.cons.injEq, and_true]
    exact hc _ (by omega)
  · have e0 : (UInt8.ofNat (n / 262144 % 8 + 240)).toNat = n / 262144 + 240 := by simp; omega
    have e1 : (UInt8.ofNat (n / 4096 % 64 + 128)).toNat = n / 4096 % 64 + 128 := by simp; omega
    have e2 : (UInt8.ofNat (n / 64 % 64 + 128)).toNat = n / 64 % 64 + 128 := by simp; omega
    have e3 : (UInt8.ofNat (n % 64 + 128)).toNat = n % 64 + 128 := by simp; omega
    obtain ⟨lo, hi, hge, hl, hr⟩ : ∃ lo hi hge,
        lead (n / 262144 + 240) = ([], some ⟨n / 262144, 3, lo, hi, hge⟩) ∧
          lo ≤ n / 4096 % 64 + 128 ∧ n / 4096 % 64 + 128 ≤ hi := by
      unfold lead
      rw [if_neg (by omega), if_neg (by omega), if_neg (by omega), if_neg (by omega),
        if_neg (by omega)]
      split_ifs with g1 g2 g3
      · exact ⟨0x90, 0xBF, by decide, by rw [show n / 262144 = 0 by omega], by omega, by omega⟩
      · exact ⟨0x80, 0x8F, by decide, by rw [show n / 262144 = 4 by omega], by omega, by omega⟩
      · exact ⟨0x80, 0xBF, by decide, by rw [Nat.add_sub_cancel], by omega, by omega⟩
      all_goals omega
    simp only [List.cons_append, List.nil_append, lossyFrom, e0, e1, e2, e3, push, hl]
    rw [if_pos hr, if_neg (by omega)]
    simp only [List.nil_append]
    rw [if_pos (by omega), if_neg (by omega)]
    simp only [List.nil_append]
    rw [if_pos (by omega), if_pos (by omega)]
    simp only [List.cons_append, List.nil_append, List.cons.injEq, and_true]
    exact hc _ (by omega)

/-- **Decoding what was encoded gives the text back.** -/
theorem lossy_encode (s : Str) (bs : Bytes) :
    fromUtf8Lossy (encode s ++ bs) = s ++ fromUtf8Lossy bs := by
  induction s with
  | nil => rfl
  | cons c s ih =>
    rw [encode_cons, List.append_assoc, lossy_encodeChar, ih]; rfl

theorem lossy_encode_self (s : Str) : fromUtf8Lossy (encode s) = s := by
  have h := lossy_encode s []
  rwa [List.append_nil, fromUtf8Lossy_nil, List.append_nil] at h

theorem encode_injective {s t : Str} (h : encode s = encode t) : s = t := by
  rw [← lossy_encode_self s, ← lossy_encode_self t, h]

end HexbufferProxy.Rust
