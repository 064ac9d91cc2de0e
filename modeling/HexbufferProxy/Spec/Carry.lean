import HexbufferProxy.Spec.Wire

/-!
# Fields that pass through the parser

A head comes in with its field lines, is parsed into a header map and written out again. The values
of each name should be the same, in the same order, but for the blanks around them.
-/

namespace HexbufferProxy

open Rust

/-- A space or a tab. -/
def isBlank (b : UInt8) : Bool := b = 32 || b = 9

/-- A value without the blanks around it, as bytes. -/
def stripBlanks (v : Bytes) : Bytes := (v.dropWhile isBlank).rdropWhile isBlank

/-- The values of the field lines with this name, in order. -/
def rawValues (fs : List WireField) (n : HeaderName) : List Bytes :=
  (fs.filter fun f => f.name.map Char.toLower = n.1).map fun f => stripBlanks f.raw

/-- A head whose first line is made of any bytes. -/
def rawHead (first : Bytes) (fs : List WireField) : Bytes :=
  first ++ ([13, 10] ++ (fs.map WireField.bytes).flatMap (· ++ [13, 10]) ++ [13, 10])

/-- **The bytes `out`, which begin with the line `first`, have the values of the fields `fs`.** -/
def CarriesFields (first : Str) (out : Bytes) (fs : List WireField) : Prop :=
  ∃ fs' body, out = headBytes first fs' ++ body ∧ ∀ n, rawValues fs' n = rawValues fs n

/-- The value is UTF-8, and has no other white space around it than blanks. -/
def WireField.IsText (f : WireField) : Prop := ∃ t, stripBlanks f.raw = encode t ∧ trim t = t

end HexbufferProxy
