import HexbufferProxy.Spec.Reader
import HexbufferProxy.Spec.Validity

/-!
# Two readings of the framing fields

`get_content_length` and `is_chunked` scan the lines of a head for the name and its colon, in any
case, at the start of a line. The header loop takes the name in front of the first colon, without
the white space around it, of the lines up to the empty one. Where do the two find the same length,
and the same coding?
-/

namespace HexbufferProxy

open Rust

/-- The lower-case elements of the fields with this name. -/
def listed (m : HeaderMap) (n : HeaderName) : List Str :=
  (elements ((m.values n).map fun v => fromUtf8Lossy v.1)).map (·.map Char.toLower)

/-- **The scanners agree with the parsed header map.** -/
structure ScannersAgree (U : Unicode) (head : Bytes) (m : HeaderMap) : Prop where
  length : ∀ n, getContentLength U (fromUtf8Lossy head) = some n ↔
    ∃ v, m.get contentLengthName = some v ∧ decimal (fromUtf8Lossy v.1) = some n
  coding : isChunked U (fromUtf8Lossy head) = true ↔
    "chunked".toList ∈ listed m transferEncodingName

/-! ## What the lines say -/

/-- The name of a field line in lower case, and what is behind its colon. -/
def splitField (l : Str) : Option (Str × Str) :=
  (splitOnce ':' l).map fun p => ((trim p.1).map Char.toLower, p.2)

/-- The fields of a head. -/
def headFields (head : Bytes) : List (Str × Str) := (fieldLines head).filterMap splitField

/-- The first field with this name. -/
def firstField (head : Bytes) (n : HeaderName) : Option (Str × Str) :=
  (headFields head).find? fun f => f.1 = n.1

/-- The line begins with the name, in any case, and a colon. -/
def Begins (U : Unicode) (n : HeaderName) (l : Str) : Prop :=
  n.1 ++ [':'] <+: U.toLowercase l

instance (U : Unicode) (n : HeaderName) (l : Str) : Decidable (Begins U n l) :=
  inferInstanceAs (Decidable (_ <+: _))

/-- The first line of all that begins so, the first line of the head included, and those behind an
empty line. -/
def firstLine (U : Unicode) (head : Bytes) (n : HeaderName) : Option Str :=
  (lines (fromUtf8Lossy head)).find? fun l => Begins U n l

/-! ### Length -/

/-- The digits of a number, with white space around them, and a plus sign before them or not. -/
def Denotes (t : Str) (n : ℕ) : Prop :=
  ∃ ds, (trim t = ds ∨ trim t = '+' :: ds) ∧ decimal ds = some n

/-- No number of 64 bits. -/
def NoSize (t : Str) : Prop := ∀ n, Denotes t n → usizeBound ≤ n

/-- The text stands between the first colon of a line and the second, or the end. -/
def BehindColon (l t : Str) : Prop :=
  ∃ a b, l = a ++ ':' :: b ∧ ':' ∉ a ∧ ':' ∉ t ∧ (b = t ∨ ∃ c, b = t ++ ':' :: c)

/-- What is behind the colon is read one way only: a number is below 2^64 and has no sign, and no
number stands in front of a second colon. -/
structure PlainValue (v : Str) : Prop where
  small : ∀ n, decimal (trim v) = some n → n < usizeBound
  unsigned : ∀ ds n, trim v = '+' :: ds → decimal ds = some n → usizeBound ≤ n
  whole : ∀ a b, v = a ++ ':' :: b → ':' ∉ a → NoSize a

/-- A line and the value of a field on another line come to the same: one number of 64 bits, which
the line may have with a sign, or no number at all. -/
def SameLength (l v : Str) : Prop :=
  (∃ n < usizeBound, decimal (trim v) = some n ∧ ∃ t, BehindColon l t ∧ Denotes t n) ∨
    decimal (trim v) = none ∧ ∀ t, BehindColon l t → NoSize t

/-- **The line that the scanner finds and the field that the header map holds give the same
length.** They are one and the same, with a plain value; or they come to the same on two lines, or
there is no number in the one that there is. -/
def LengthAgrees (U : Unicode) (head : Bytes) : Prop :=
  match firstLine U head contentLengthName, firstField head contentLengthName with
  | none, none => True
  | none, some f => decimal (trim f.2) = none
  | some l, none => ∀ t, BehindColon l t → NoSize t
  | some l, some f => if splitField l = some f then PlainValue f.2 else SameLength l f.2

/-! ### Coding -/

/-- The line, as a field, lists the coding `chunked`. -/
def ListsChunked (l : Str) : Prop :=
  ∃ v, splitField l = some (transferEncodingName.1, v) ∧
    "chunked".toList ∈ (elements [trim v]).map (·.map Char.toLower)

section

variable (U : Unicode) (head : Bytes)

/-- A field lists the coding, and its line begins with the name and the colon. -/
def PlainCoding : Prop :=
  ∃ l ∈ fieldLines head, ListsChunked l ∧ Begins U transferEncodingName l

/-- A field lists the coding, on a line that does not begin so: it has white space beside the
name. -/
def SpacedCoding : Prop :=
  ∃ l ∈ fieldLines head, ListsChunked l ∧ ¬ Begins U transferEncodingName l

/-- A line that begins so has the letters, and is no field that lists the coding: they are no element
by themselves, or the line is the first, or behind an empty one. -/
def StrayCoding : Prop :=
  ∃ l ∈ lines (fromUtf8Lossy head), Begins U transferEncodingName l ∧
    "chunked".toList <:+: U.toLowercase l ∧ (l ∉ fieldLines head ∨ ¬ ListsChunked l)

/-- **The scanner finds the coding where the header map has it**: on a plain line; or not there, and
on a spaced line as on a stray one. -/
def CodingAgrees : Prop := PlainCoding U head ∨ (SpacedCoding U head ↔ StrayCoding U head)

end

/-- Lower-casing a text lower-cases what is ASCII in it where it stands. -/
def LowersInPlace (U : Unicode) : Prop :=
  ∀ a s b : Str, (∀ c ∈ s, c.toNat < 128) → s.map Char.toLower <:+: U.toLowercase (a ++ s ++ b)

end HexbufferProxy
