import HexbufferProxy.Spec.Wire

/-!
# What the builder accepts

The parsers put the words of the first line and the fields of the header lines into a builder,
which checks them. `RequestAccepted` and `ResponseAccepted` say of the bytes of a message what it
finds there.
-/

namespace HexbufferProxy

open Rust

/-- The call returns, with a value or an error. -/
def Returns {α : Type} (r : Except Fault α) : Prop := ∀ msg, r ≠ .error (.panic msg)

/-- The words of the first line. -/
def firstWords (raw : Bytes) : List Str :=
  splitWhitespace ((lines (fromUtf8Lossy raw)).head?.getD [])

def methodWord (raw : Bytes) : Str := (firstWords raw)[0]?.getD "GET".toList

def targetWord (raw : Bytes) : Str := (firstWords raw)[1]?.getD "/".toList

def statusWord (raw : Bytes) : Str := (firstWords raw)[1]?.getD "200".toList

/-- The lines the header loop takes: those behind the first, up to an empty one. -/
def fieldLines (raw : Bytes) : List Str :=
  (lines (fromUtf8Lossy raw)).tail.takeWhile (· ≠ [])

def IsToken (s : Str) : Prop := s ≠ [] ∧ ∀ c ∈ s, isTchar c = true

/-- A control character, but for the tab. -/
def IsControl (c : Char) : Prop := c.toNat < 32 ∧ c.toNat ≠ 9 ∨ c.toNat = 127

/-- A line without a colon, or one with a token before the first colon and no control character
behind it, white space around the two aside. -/
def IsFieldLine (l : Str) : Prop := ∀ name value, l = name ++ ':' :: value → ':' ∉ name →
  IsToken (trim name) ∧ ∀ c ∈ trim value, ¬ IsControl c

structure RequestAccepted (http : HttpCrate) (raw : Bytes) : Prop where
  method : IsToken (methodWord raw)
  target : (http.parseUri (targetWord raw)).isSome
  fields : ∀ l ∈ fieldLines raw, IsFieldLine l

/-- A status that is a number of 16 bits has three digits; any other is refused before. -/
structure ResponseAccepted (raw : Bytes) : Prop where
  status : ∀ n, fromStrRadix 10 65536 (statusWord raw) = some n → 100 ≤ n ∧ n < 1000
  fields : (fromStrRadix 10 65536 (statusWord raw)).isSome → ∀ l ∈ fieldLines raw, IsFieldLine l

end HexbufferProxy
