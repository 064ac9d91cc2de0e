import HexbufferProxy.Spec.Forward

/-!
# A message head as bytes

What the two parsers read: a first line, field lines with any token for a name and any bytes of a
value behind the colon, and an empty line. `headBytes` is the general form; the serializers write
a special case of it (`wireFields`).
-/

namespace HexbufferProxy

open Rust

/-- A field line on the wire. -/
structure WireField where
  name : Str
  raw : Bytes
  name_ne : name ≠ []
  name_token : name.all isTchar = true
  raw_ok : raw.all isValueByte = true

namespace WireField

def bytes (f : WireField) : Bytes := encode f.name ++ 58 :: f.raw

/-- The line as the parsers see it. -/
def line (f : WireField) : Str := f.name ++ ':' :: fromUtf8Lossy f.raw

/-- What the parsers take for the value. -/
def value (f : WireField) : Str := trim (fromUtf8Lossy f.raw)

end WireField

/-- A head: its first line, its fields, and the empty line. -/
def headBytes (first : Str) (fs : List WireField) : Bytes :=
  encode first ++ ([13, 10] ++ (fs.map WireField.bytes).flatMap (· ++ [13, 10]) ++ [13, 10])

/-- A text that fits in the first line. -/
def IsFirstLine (s : Str) : Prop := '\r' ∉ s ∧ '\n' ∉ s

theorem nameChar_tchar {s : Str} (h : s.all isNameChar = true) : s.all isTchar = true := by
  rw [List.all_eq_true] at h ⊢
  intro c hc
  have := h c hc
  unfold isNameChar at this
  rw [Bool.and_eq_true] at this
  exact this.1

/-- The fields that the serializers write for a header map. -/
def wireFields (m : HeaderMap) : List WireField :=
  m.map fun p => ⟨p.1.1, 32 :: p.2.1, p.1.2.1, nameChar_tchar p.1.2.2, by
    rw [List.all_cons, p.2.2]; decide⟩

/-- A value that is the encoding of a text with no white space around it. -/
def HeaderValue.IsText (v : HeaderValue) : Prop := ∃ t, v.1 = encode t ∧ trim t = t

/-- Two header maps hold the same values for each name, in the same order. -/
def SameHeaders (m m' : HeaderMap) : Prop := ∀ n, HeaderMap.values m n = HeaderMap.values m' n

/-- A text without white space. -/
def IsWord (s : Str) : Prop := s ≠ [] ∧ ∀ c ∈ s, isWhitespace c = false

instance (s : Str) : Decidable (IsWord s) := inferInstanceAs (Decidable (_ ∧ ∀ c ∈ s, _))

/-- The first line of a request. -/
def requestLine (m : Method) (target : Str) : Str :=
  m.1 ++ ' ' :: (target ++ " HTTP/1.1".toList)

/-- **A request that survives the wire**: its body is full, its values are text, and its target is
one word. -/
structure Request.IsWire (r : Request) : Prop where
  body : ∃ bs, r.body = .full bs
  values : ∀ p ∈ r.headers, p.2.IsText
  uri_word : IsWord r.uri.display

/-- A response that survives the wire. -/
structure Response.IsWire (r : Response) : Prop where
  body : ∃ bs, r.body = .full bs
  values : ∀ p ∈ r.headers, p.2.IsText

/-- The same request, up to the order of fields with different names. -/
structure SameRequest (r r' : Request) : Prop where
  method : r.method = r'.method
  uri : r.uri = r'.uri
  headers : SameHeaders r.headers r'.headers
  body : r.body = r'.body

structure SameResponse (r r' : Response) : Prop where
  status : r.status = r'.status
  headers : SameHeaders r.headers r'.headers
  body : r.body = r'.body

end HexbufferProxy
