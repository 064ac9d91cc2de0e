import Mathlib

/-!
# Strings of the Rust standard library

A byte string is a list of bytes and a string a list of characters. The methods
below follow the documented behaviour of the standard library: `str::lines`,
`str::trim`, `str::split_whitespace`, `str::split_once`, `from_str_radix`, and so
on, with Unicode white space.

* `lines_crlf`: a line that ends in CRLF is one line of the text.
* `splitWhitespace_cons`: a word before white space is one token.
* `trim_append`: trimming takes white space off both ends and nothing else.
* `fromStrRadix_eq`: a number written in digits parses to its value.
-/

namespace HexbufferProxy.Rust

abbrev Bytes := List UInt8

abbrev Str := List Char

/-- `Char` is a finite type: a test of a text goes through the text, not the type. -/
instance (priority := 2000) decidableAllMem {α : Type} (p : α → Prop) [DecidablePred p]
    (s : List α) : Decidable (∀ c ∈ s, p c) := List.decidableBAll p s

/-- The Unicode data that `str::to_lowercase` reads. Only its effect on ASCII text
is fixed here: the context that decides about a final sigma changes no ASCII letter. -/
structure Unicode where
  toLowercase : Str → Str
  ascii : ∀ s : Str, (∀ c ∈ s, c.toNat < 128) → toLowercase s = s.map Char.toLower
  ascii_starts : ∀ s t : Str, (∀ c ∈ s, c.toNat < 128) →
    s.map Char.toLower <+: toLowercase (s ++ t)

/-- The table that knows ASCII only. -/
def Unicode.basic : Unicode :=
  ⟨fun s => s.map Char.toLower, fun _ _ => rfl, fun s t _ => by
    rw [List.map_append]
    exact List.prefix_append _ _⟩

/-! ### White space -/

/-- `char::is_whitespace`: the characters with the `White_Space` property. -/
def isWhitespace (c : Char) : Bool :=
  (9 ≤ c.toNat && c.toNat ≤ 13) || c.toNat == 32 || c.toNat == 0x85 || c.toNat == 0xA0 ||
    c.toNat == 0x1680 || (0x2000 ≤ c.toNat && c.toNat ≤ 0x200A) || c.toNat == 0x2028 ||
    c.toNat == 0x2029 || c.toNat == 0x202F || c.toNat == 0x205F || c.toNat == 0x3000

def trimStart (s : Str) : Str := s.dropWhile isWhitespace

def trimEnd (s : Str) : Str := s.rdropWhile isWhitespace

/-- `str::trim`. -/
def trim (s : Str) : Str := trimEnd (trimStart s)

theorem trimStart_append {w : Str} (hw : ∀ c ∈ w, isWhitespace c = true) (s : Str) :
    trimStart (w ++ s) = trimStart s := by
  induction w with
  | nil => rfl
  | cons c w ih =>
    have hc := hw c List.mem_cons_self
    simp only [trimStart, List.cons_append, List.dropWhile_cons, hc, if_true]
    exact ih fun x hx => hw x (List.mem_cons_of_mem _ hx)

theorem trimEnd_append {w : Str} (hw : ∀ c ∈ w, isWhitespace c = true) (s : Str) :
    trimEnd (s ++ w) = trimEnd s := by
  have hrev : ∀ c ∈ w.reverse, isWhitespace c = true := fun c hc => hw c (List.mem_reverse.1 hc)
  have h := trimStart_append hrev s.reverse
  unfold trimStart at h
  unfold trimEnd List.rdropWhile
  rw [List.reverse_append, h]

theorem trimStart_of_head {s : Str} (h : ∀ c, s.head? = some c → isWhitespace c = false) :
    trimStart s = s := by
  cases s with
  | nil => rfl
  | cons c s => simp [trimStart, h c rfl]

theorem trimEnd_of_last {s : Str} (h : ∀ c, s.getLast? = some c → isWhitespace c = false) :
    trimEnd s = s := by
  have hh : ∀ c, s.reverse.head? = some c → isWhitespace c = false := by
    intro c hc; rw [List.head?_reverse] at hc; exact h c hc
  have h' := trimStart_of_head hh
  unfold trimStart at h'
  unfold trimEnd List.rdropWhile
  rw [h', List.reverse_reverse]

/-- **White space around a text does not matter to trimming.** -/
theorem trim_around {w w' : Str} (hw : ∀ c ∈ w, isWhitespace c = true)
    (hw' : ∀ c ∈ w', isWhitespace c = true) (s : Str) : trim (w ++ s ++ w') = trim s := by
  unfold trim
  rw [List.append_assoc, trimStart_append hw]
  unfold trimStart
  rw [List.dropWhile_append]
  split
  · -- `s` is all white space
    rename_i hs
    rw [List.isEmpty_iff] at hs
    have hnil : w'.dropWhile isWhitespace = [] := List.dropWhile_eq_nil_iff.2 hw'
    rw [hs, hnil]
  · exact trimEnd_append hw' _

/-- **Trimming takes the white space around `s` and nothing else**, when `s` neither
starts nor ends with white space. -/
theorem trim_append {w w' s : Str} (hw : ∀ c ∈ w, isWhitespace c = true)
    (hw' : ∀ c ∈ w', isWhitespace c = true)
    (hs : ∀ c, s.head? = some c → isWhitespace c = false)
    (hs' : ∀ c, s.getLast? = some c → isWhitespace c = false) : trim (w ++ s ++ w') = s := by
  rw [trim_around hw hw']
  unfold trim
  rw [trimStart_of_head hs, trimEnd_of_last hs']

theorem trim_trim (s : Str) : trim (trim s) = trim s := by
  have hhead : ∀ c, (trimEnd (trimStart s)).head? = some c → isWhitespace c = false := by
    intro c hc
    have hpre : trimEnd (trimStart s) <+: trimStart s := List.rdropWhile_prefix _ _
    obtain ⟨t, ht⟩ := hpre
    have hc' : (trimStart s).head? = some c := by
      rw [← ht, List.head?_append, hc]; rfl
    have hnot := List.head?_dropWhile_not isWhitespace s
    unfold trimStart at hc'
    rw [hc'] at hnot
    simpa using hnot
  have hlast : ∀ c, (trimEnd (trimStart s)).getLast? = some c → isWhitespace c = false := by
    intro c hc
    have hnot := List.head?_dropWhile_not isWhitespace (trimStart s).reverse
    unfold trimEnd List.rdropWhile at hc
    rw [List.getLast?_reverse] at hc
    rw [hc] at hnot
    simpa using hnot
  unfold trim
  rw [trimStart_of_head hhead, trimEnd_of_last hlast]

/-! ### Lines and tokens -/

/-- A line that ended in LF, without the CR before it. -/
def stripCr (s : Str) : Str := if s.getLast? = some '\r' then s.dropLast else s

def linesFrom (line : Str) : Str → List Str
  | [] => if line = [] then [] else [line]
  | c :: cs => if c = '\n' then stripCr line :: linesFrom [] cs else linesFrom (line ++ [c]) cs

/-- `str::lines`: lines end in LF or CRLF, and the last one may lack its end. -/
def lines (s : Str) : List Str := linesFrom [] s

theorem linesFrom_append {l : Str} (hl : '\n' ∉ l) (line r : Str) :
    linesFrom line (l ++ r) = linesFrom (line ++ l) r := by
  induction l generalizing line with
  | nil => simp
  | cons c l ih =>
    have hc : c ≠ '\n' := fun h => hl (h ▸ List.mem_cons_self)
    have ht : '\n' ∉ l := fun h => hl (List.mem_cons_of_mem _ h)
    simp only [List.cons_append, linesFrom, if_neg hc]
    rw [ih ht]; simp

theorem lines_lf {l : Str} (hl : '\n' ∉ l) (r : Str) :
    lines (l ++ '\n' :: r) = stripCr l :: lines r := by
  unfold lines
  rw [linesFrom_append hl, List.nil_append]
  simp [linesFrom]

/-- **A line that ends in CRLF is one line of the text.** -/
theorem lines_crlf {l : Str} (hl : '\n' ∉ l) (r : Str) :
    lines (l ++ '\r' :: '\n' :: r) = l :: lines r := by
  have h : '\n' ∉ l ++ ['\r'] := by simp [hl]
  have := lines_lf h r
  rw [List.append_assoc] at this
  simpa [stripCr] using this

theorem lines_flatMap {ls : List Str} (hls : ∀ l ∈ ls, '\n' ∉ l) (r : Str) :
    lines (ls.flatMap (· ++ ['\r', '\n']) ++ r) = ls ++ lines r := by
  induction ls with
  | nil => rfl
  | cons l ls ih =>
    rw [List.flatMap_cons, List.append_assoc, List.append_assoc]
    show lines (l ++ '\r' :: '\n' :: (ls.flatMap (· ++ ['\r', '\n']) ++ r)) = _
    rw [lines_crlf (hls l List.mem_cons_self),
      ih fun x hx => hls x (List.mem_cons_of_mem l hx)]
    rfl

theorem lines_last {l : Str} (hl : '\n' ∉ l) (hne : l ≠ []) : lines l = [l] := by
  have := linesFrom_append hl [] []
  rw [List.append_nil, List.nil_append] at this
  unfold lines; rw [this]; simp [linesFrom, hne]

def wordsFrom (word : Str) : Str → List Str
  | [] => if word = [] then [] else [word]
  | c :: cs =>
    if isWhitespace c then
      if word = [] then wordsFrom [] cs else word :: wordsFrom [] cs
    else wordsFrom (word ++ [c]) cs

/-- `str::split_whitespace`. -/
def splitWhitespace (s : Str) : List Str := wordsFrom [] s

/-- A text without LF is one line at most. -/
theorem lines_length_le {s : Str} (hs : '\n' ∉ s) : (lines s).length ≤ 1 := by
  by_cases hne : s = []
  · rw [hne]; decide
  · rw [lines_last hs hne]; rfl

theorem wordsFrom_append {t : Str} (ht : ∀ c ∈ t, isWhitespace c = false) (word r : Str) :
    wordsFrom word (t ++ r) = wordsFrom (word ++ t) r := by
  induction t generalizing word with
  | nil => simp
  | cons c t ih =>
    have hc := ht c List.mem_cons_self
    simp only [List.cons_append, wordsFrom, hc, Bool.false_eq_true, if_false]
    rw [ih fun x hx => ht x (List.mem_cons_of_mem _ hx)]; simp

/-- **A word before white space is one token.** -/
theorem splitWhitespace_cons {t : Str} (ht : ∀ c ∈ t, isWhitespace c = false) (hne : t ≠ [])
    {w : Char} (hw : isWhitespace w = true) (r : Str) :
    splitWhitespace (t ++ w :: r) = t :: splitWhitespace r := by
  unfold splitWhitespace
  rw [wordsFrom_append ht, List.nil_append]
  simp [wordsFrom, hw, hne]

theorem splitWhitespace_last {t : Str} (ht : ∀ c ∈ t, isWhitespace c = false) (hne : t ≠ []) :
    splitWhitespace t = [t] := by
  have := wordsFrom_append ht [] []
  rw [List.append_nil, List.nil_append] at this
  unfold splitWhitespace; rw [this]; simp [wordsFrom, hne]

/-- `str::split_once`. -/
def splitOnce (d : Char) : Str → Option (Str × Str)
  | [] => none
  | c :: cs => if c = d then some ([], cs) else (splitOnce d cs).map fun p => (c :: p.1, p.2)

theorem splitOnce_append {d : Char} {a : Str} (ha : d ∉ a) (b : Str) :
    splitOnce d (a ++ d :: b) = some (a, b) := by
  induction a with
  | nil => simp [splitOnce]
  | cons c a ih =>
    have hc : c ≠ d := fun h => ha (h ▸ List.mem_cons_self)
    simp [splitOnce, hc, ih fun h => ha (List.mem_cons_of_mem _ h)]

theorem splitOnce_none {d : Char} {a : Str} (ha : d ∉ a) : splitOnce d a = none := by
  induction a with
  | nil => rfl
  | cons c a ih =>
    have hc : c ≠ d := fun h => ha (h ▸ List.mem_cons_self)
    simp [splitOnce, hc, ih fun h => ha (List.mem_cons_of_mem _ h)]

theorem splitOnce_eq {d : Char} {s a b : Str} (h : splitOnce d s = some (a, b)) :
    s = a ++ d :: b ∧ d ∉ a := by
  induction s generalizing a b with
  | nil => exact nomatch h
  | cons c s ih =>
    unfold splitOnce at h
    split at h
    · rename_i hc
      simp only [Option.some.injEq, Prod.mk.injEq] at h
      rw [← h.1, ← h.2, hc]
      exact ⟨rfl, List.not_mem_nil⟩
    · rename_i hc
      obtain ⟨q, hq, he⟩ := Option.map_eq_some_iff.1 h
      simp only [Prod.mk.injEq] at he
      obtain ⟨hs, hd⟩ := ih hq
      rw [← he.1, ← he.2, List.mem_cons, not_or]
      exact ⟨by rw [hs]; rfl, fun heq => hc heq.symm, hd⟩

theorem not_mem_of_splitOnce {d : Char} {s : Str} (h : splitOnce d s = none) : d ∉ s := by
  induction s with
  | nil => exact List.not_mem_nil
  | cons c s ih =>
    unfold splitOnce at h
    split at h
    · exact nomatch h
    · rename_i hc
      rw [Option.map_eq_none_iff] at h
      rw [List.mem_cons, not_or]
      exact ⟨fun heq => hc heq.symm, ih h⟩

/-- `str::rsplit_once`. -/
def rsplitOnce (d : Char) (s : Str) : Option (Str × Str) :=
  (splitOnce d s.reverse).map fun p => (p.2.reverse, p.1.reverse)

theorem rsplitOnce_append {d : Char} {b : Str} (hb : d ∉ b) (a : Str) :
    rsplitOnce d (a ++ d :: b) = some (a, b) := by
  have hrev : (a ++ d :: b).reverse = b.reverse ++ d :: a.reverse := by simp
  have hb' : d ∉ b.reverse := fun h => hb (List.mem_reverse.1 h)
  unfold rsplitOnce
  rw [hrev, splitOnce_append hb']
  simp

theorem rsplitOnce_none {d : Char} {a : Str} (ha : d ∉ a) : rsplitOnce d a = none := by
  have ha' : d ∉ a.reverse := fun h => ha (List.mem_reverse.1 h)
  unfold rsplitOnce
  rw [splitOnce_none ha']
  rfl

theorem not_mem_of_rsplitOnce {d : Char} {s : Str} (h : rsplitOnce d s = none) : d ∉ s := by
  intro hm
  have hrev : splitOnce d s.reverse = none := Option.map_eq_none_iff.1 h
  exact not_mem_of_splitOnce hrev (List.mem_reverse.2 hm)

theorem rsplitOnce_eq {d : Char} {s a b : Str} (h : rsplitOnce d s = some (a, b)) :
    s = a ++ d :: b ∧ d ∉ b := by
  obtain ⟨⟨x, y⟩, hp, he⟩ := Option.map_eq_some_iff.1 h
  simp only [Prod.mk.injEq] at he
  obtain ⟨hs, hd⟩ := splitOnce_eq hp
  have hrev := congrArg List.reverse hs
  rw [List.reverse_reverse] at hrev
  rw [← he.1, ← he.2, List.mem_reverse]
  exact ⟨by rw [hrev]; simp, hd⟩

/-- The first piece of `str::split`, which is never empty-handed. -/
def splitFirst (d : Char) (s : Str) : Str := s.takeWhile (· ≠ d)

/-- The second piece of `str::split`, if there is one. -/
def splitSecond (d : Char) (s : Str) : Option Str :=
  (splitOnce d s).map fun p => splitFirst d p.2

theorem splitFirst_append {d : Char} {a : Str} (ha : d ∉ a) (b : Str) :
    splitFirst d (a ++ d :: b) = a := by
  induction a with
  | nil => simp [splitFirst]
  | cons c a ih =>
    have hc : c ≠ d := fun h => ha (h ▸ List.mem_cons_self)
    have := ih fun h => ha (List.mem_cons_of_mem _ h)
    unfold splitFirst at this ⊢
    simp [hc]; simpa using this

theorem splitFirst_self {d : Char} {a : Str} (ha : d ∉ a) : splitFirst d a = a := by
  unfold splitFirst
  rw [List.takeWhile_eq_self_iff]
  intro c hc
  simp only [ne_eq, decide_eq_true_eq]
  rintro rfl; exact ha hc

/-- `str::contains`. -/
def contains (needle s : Str) : Bool := decide (needle <:+: s)

/-- `str::starts_with`. -/
def startsWith (pre s : Str) : Bool := pre.isPrefixOf s

/-! ### Numbers -/

/-- `char::to_digit`. -/
def toDigit (radix : ℕ) (c : Char) : Option ℕ :=
  let v := if '0' ≤ c ∧ c ≤ '9' then c.toNat - 48
    else if 'a' ≤ c ∧ c ≤ 'z' then c.toNat - 87
    else if 'A' ≤ c ∧ c ≤ 'Z' then c.toNat - 55
    else radix
  if v < radix then some v else none

def digits (radix : ℕ) (acc : ℕ) : Str → Option ℕ
  | [] => some acc
  | c :: cs => (toDigit radix c).bind fun v => digits radix (acc * radix + v) cs

/-- `from_str_radix` of an unsigned type with values below `bound`: an optional `+`,
then at least one digit. -/
def fromStrRadix (radix bound : ℕ) (s : Str) : Option ℕ :=
  let ds := if s.head? = some '+' then s.tail else s
  if ds = [] then none
  else (digits radix 0 ds).bind fun n => if n < bound then some n else none

/-- The value of a digit list, most significant first. -/
def valueOf (radix : ℕ) (ds : List ℕ) : ℕ := ds.foldl (fun acc d => acc * radix + d) 0

theorem digits_eq {radix : ℕ} {s : Str} {ds : List ℕ}
    (h : s.map (toDigit radix) = ds.map some) (acc : ℕ) :
    digits radix acc s = some (ds.foldl (fun acc d => acc * radix + d) acc) := by
  induction s generalizing ds acc with
  | nil =>
    cases ds with
    | nil => rfl
    | cons d ds => simp at h
  | cons c s ih =>
    cases ds with
    | nil => simp at h
    | cons d ds =>
      simp only [List.map_cons, List.cons.injEq] at h
      simp only [digits, h.1, Option.bind_some, List.foldl_cons]
      exact ih h.2 _

/-- **A number written in digits parses to its value**, if that is in range. -/
theorem fromStrRadix_eq {radix bound : ℕ} {s : Str} {ds : List ℕ} (hne : s ≠ [])
    (hplus : s.head? ≠ some '+') (h : s.map (toDigit radix) = ds.map some) :
    fromStrRadix radix bound s =
      if valueOf radix ds < bound then some (valueOf radix ds) else none := by
  unfold fromStrRadix
  simp only [hplus, if_false, hne]
  rw [digits_eq h]
  rfl

/-! ### Searching bytes -/

/-- `slice.windows(n).position(|w| w == pat)` for a pattern of `n` bytes. -/
def position (pat : Bytes) : Bytes → Option ℕ
  | [] => none
  | b :: bs => if pat.isPrefixOf (b :: bs) then some 0 else (position pat bs).map (· + 1)

theorem position_lt {pat bs : Bytes} {i : ℕ} (h : position pat bs = some i) : i < bs.length := by
  induction bs generalizing i with
  | nil => simp [position] at h
  | cons b bs ih =>
    unfold position at h
    split at h
    · simp at h; subst h; simp
    · obtain ⟨j, hj, rfl⟩ := Option.map_eq_some_iff.1 h
      have := ih hj
      simp only [List.length_cons]; omega

theorem position_starts {pat bs : Bytes} {i : ℕ} (h : position pat bs = some i) :
    pat <+: bs.drop i := by
  induction bs generalizing i with
  | nil => simp [position] at h
  | cons b bs ih =>
    unfold position at h
    split at h
    · rename_i hp
      simp at h; subst h; exact List.isPrefixOf_iff_prefix.1 hp
    · obtain ⟨j, hj, rfl⟩ := Option.map_eq_some_iff.1 h
      exact ih hj

/-- **A found pattern stays where it is** when more bytes arrive. -/
theorem position_append {pat bs : Bytes} {i : ℕ} (h : position pat bs = some i) (more : Bytes) :
    position pat (bs ++ more) = some i := by
  induction bs generalizing i with
  | nil => simp [position] at h
  | cons b bs ih =>
    unfold position at h
    split at h
    · rename_i hp
      rw [List.isPrefixOf_iff_prefix] at hp
      have hp' : pat.isPrefixOf (b :: (bs ++ more)) = true :=
        List.isPrefixOf_iff_prefix.2 (hp.trans (List.prefix_append (b :: bs) more))
      simp only [List.cons_append, position, hp', if_true]; exact h
    · rename_i hp
      obtain ⟨j, hj, rfl⟩ := Option.map_eq_some_iff.1 h
      have hj' := position_starts hj
      have hlen := position_lt hj
      by_cases hq : pat.isPrefixOf (b :: (bs ++ more)) = true
      · -- a match at the front would lie inside the old bytes
        exfalso
        apply hp
        rw [List.isPrefixOf_iff_prefix] at hq ⊢
        have hl : pat.length ≤ (b :: bs).length := by
          have := hj'.length_le
          simp only [List.length_drop, List.length_cons] at this ⊢; omega
        exact List.prefix_of_prefix_length_le hq (List.prefix_append (b :: bs) more) hl
      · simp only [List.cons_append, position, hq]
        rw [ih hj]; rfl

/-- A pattern is found in what ends with its first occurrence. -/
theorem position_take {pat bs : Bytes} (hpat : pat ≠ []) {i : ℕ} (h : position pat bs = some i) :
    position pat (bs.take (i + pat.length)) = some i := by
  obtain ⟨k, hk⟩ := Nat.exists_eq_succ_of_ne_zero (List.length_pos_iff.2 hpat).ne'
  induction bs generalizing i with
  | nil => simp [position] at h
  | cons b bs ih =>
    unfold position at h
    split at h
    · rename_i hp
      rw [List.isPrefixOf_iff_prefix] at hp
      have h0 : i = 0 := (Option.some.inj h).symm
      have hp' : pat <+: (b :: bs).take pat.length :=
        List.prefix_take_iff.2 ⟨hp, Nat.le_refl _⟩
      rw [h0, Nat.zero_add, hk, List.take_succ_cons] at *
      rw [position, if_pos (List.isPrefixOf_iff_prefix.2 hp')]
    · rename_i hp
      obtain ⟨j, hj, rfl⟩ := Option.map_eq_some_iff.1 h
      have hp' : ¬ pat.isPrefixOf (b :: bs.take (j + pat.length)) = true := by
        rw [List.isPrefixOf_iff_prefix] at hp ⊢
        exact fun hq => hp (hq.trans ((List.prefix_cons_inj b).2 (List.take_prefix _ _)))
      rw [Nat.add_right_comm, List.take_succ_cons, position, if_neg hp', ih hj]
      rfl

/-- The first of its kind is in one place only. -/
theorem first_unique {α : Type} {p : α → Bool} {pre pre' post post' : List α} {e e' : α}
    (h : pre ++ e :: post = pre' ++ e' :: post') (hpre : ∀ x ∈ pre, p x = false)
    (hpre' : ∀ x ∈ pre', p x = false) (he : p e = true) (he' : p e' = true) :
    pre = pre' ∧ e = e' ∧ post = post' := by
  induction pre generalizing pre' with
  | nil =>
    cases pre' with
    | nil => exact ⟨rfl, List.cons.inj h⟩
    | cons y pre' =>
      have hy : e = y := (List.cons.inj h).1
      have hfalse : p y = false := hpre' y List.mem_cons_self
      rw [← hy, he] at hfalse
      exact absurd hfalse.symm Bool.false_ne_true
  | cons x pre ih =>
    cases pre' with
    | nil =>
      have hx : x = e' := (List.cons.inj h).1
      have hfalse : p x = false := hpre x List.mem_cons_self
      rw [hx, he'] at hfalse
      exact absurd hfalse.symm Bool.false_ne_true
    | cons y pre' =>
      obtain ⟨hxy, hrest⟩ := List.cons.inj h
      obtain ⟨h1, h2⟩ := ih hrest (fun z hz => hpre z (List.mem_cons_of_mem x hz))
        (fun z hz => hpre' z (List.mem_cons_of_mem y hz))
      exact ⟨by rw [hxy, h1], h2⟩

end HexbufferProxy.Rust
