import HexbufferProxy.Spec.Framing

/-!
# Well-formed responses on the wire

A response head as the grammar has it: a status line, field lines whose name stands right
before its colon, and an empty line. A chunked body is a list of chunks, a last chunk and
anything behind it. `HasBody` is the message framing of RFC 9112: which bytes after a head
are its body, and what they say.
-/

namespace HexbufferProxy

open Rust

/-- ASCII text that can stand in a line. -/
def LineText (s : Str) : Prop := ∀ c ∈ s, c.toNat < 128 ∧ c ≠ '\r' ∧ c ≠ '\n'

instance (s : Str) : Decidable (LineText s) := inferInstanceAs (Decidable (∀ c ∈ s, _))

/-- Spaces and tabs. -/
def IsOws (s : Str) : Prop := ∀ c ∈ s, c = ' ' ∨ c = '\t'

instance (s : Str) : Decidable (IsOws s) := inferInstanceAs (Decidable (∀ c ∈ s, _))

def crlf : Str := ['\r', '\n']

/-- A digit, in either case for radix 16. -/
def digitChar (upper : Bool) (d : ℕ) : Char :=
  if d < 10 then Char.ofNat (48 + d) else Char.ofNat ((if upper then 55 else 87) + d)

/-- There are decimal digits. -/
instance neZero_ten : NeZero 10 := ⟨by decide⟩

/-- Digits, each with its case. -/
abbrev Digits (radix : ℕ) := List (Fin radix × Bool)

namespace Digits

variable {radix : ℕ}

def text (ds : Digits radix) : Str := ds.map fun p => digitChar p.2 p.1

def value (ds : Digits radix) : ℕ := valueOf radix (ds.map fun p => (p.1 : ℕ))

end Digits

/-- A field line: `name:value`. -/
structure Field where
  name : Str
  value : Str
  name_text : LineText name
  value_text : LineText value
  name_colon : ':' ∉ name

namespace Field

def line (f : Field) : Str := f.name ++ ':' :: f.value

/-- Field names are compared without case. -/
def isNamed (f : Field) (name : Str) : Bool := f.name.map Char.toLower = name

end Field

/-- `v` is the decimal number `n`. -/
def IsDecimal (v : Str) (n : ℕ) : Prop :=
  ∃ (w : Str) (ds : Digits 10) (w' : Str), v = w ++ ds.text ++ w' ∧ IsOws w ∧ IsOws w' ∧
    ds ≠ [] ∧ ds.value = n

/-- `v` is a list of codings whose last is `chunked`, in any case. -/
def EndsInChunked (v : Str) : Prop :=
  ∃ codings w coding w' : Str, v = codings ++ w ++ coding ++ w' ∧ IsOws w ∧ IsOws w' ∧
    (codings = [] ∨ codings.getLast? = some ',') ∧ coding.map Char.toLower = "chunked".toList

/-- The head of a response. -/
structure ResponseHead where
  version : Str
  status : Digits 10
  reason : Str
  fields : List Field
  version_text : ∀ c ∈ version, 32 < c.toNat ∧ c.toNat < 127
  status_ne : status ≠ []
  reason_text : LineText reason
  reason_space : reason = [] ∨ reason.head? = some ' '
  lengths_le : (fields.filter (·.isNamed "content-length".toList)).length ≤ 1
  lengths_ok : ∀ f ∈ fields, f.isNamed "content-length".toList = true →
    ∃ n, IsDecimal f.value n ∧ n < usizeBound
  codings_le : (fields.filter (·.isNamed "transfer-encoding".toList)).length ≤ 1
  codings_ok : ∀ f ∈ fields, f.isNamed "transfer-encoding".toList = true →
    EndsInChunked f.value

namespace ResponseHead

def statusLine (h : ResponseHead) : Str :=
  "HTTP/".toList ++ h.version ++ ' ' :: (h.status.text ++ h.reason)

def text (h : ResponseHead) : Str :=
  h.statusLine ++ crlf ++ h.fields.flatMap (fun f => f.line ++ crlf) ++ crlf

def bytes (h : ResponseHead) : Bytes := encode h.text

/-- Responses with these codes have no body. -/
def bodyless (h : ResponseHead) : Prop :=
  h.status.value = 101 ∨ h.status.value = 204 ∨ h.status.value = 304

instance (h : ResponseHead) : Decidable h.bodyless := inferInstanceAs (Decidable (_ ∨ _))

end ResponseHead

/-- A chunk extension: empty, or `;` and anything up to the end of the line. -/
def IsExt (e : Bytes) : Prop := 10 ∉ e ∧ (e = [] ∨ e.head? = some 59)

instance (e : Bytes) : Decidable (IsExt e) := inferInstanceAs (Decidable (_ ∧ _))

/-- A chunk with data. Its size is at most what the reader can add two to. -/
structure Chunk where
  size : Digits 16
  ext : Bytes
  data : Bytes
  ext_ok : IsExt ext
  size_ne : size ≠ []
  data_ne : data ≠ []
  size_eq : size.value = data.length
  size_lt : data.length < usizeBound - 2

def Chunk.bytes (c : Chunk) : Bytes :=
  encode c.size.text ++ c.ext ++ [13, 10] ++ c.data ++ [13, 10]

/-- A chunked body: chunks, a chunk of size zero, and what follows it. -/
structure ChunkedBody where
  chunks : List Chunk
  last : Digits 16
  ext : Bytes
  trailer : Bytes
  last_ne : last ≠ []
  last_zero : last.value = 0
  ext_ok : IsExt ext

namespace ChunkedBody

def bytes (b : ChunkedBody) : Bytes :=
  b.chunks.flatMap Chunk.bytes ++
    (encode b.last.text ++ b.ext ++ [13, 10] ++ b.trailer)

def data (b : ChunkedBody) : Bytes := b.chunks.flatMap Chunk.data

end ChunkedBody

/-- **The body of a response**: `body` is what the bytes `tail` after the head `h` say, on a
stream that ends as `ending` has it. Transfer-Encoding goes before Content-Length. -/
inductive HasBody (h : ResponseHead) (ending : Option IoError) : Bytes → Bytes → Prop
  | bodyless (tail : Bytes) (hs : h.bodyless) : HasBody h ending tail []
  | chunked (b : ChunkedBody) (hs : ¬ h.bodyless)
      (hf : ∃ f ∈ h.fields, f.isNamed "transfer-encoding".toList = true) :
      HasBody h ending b.bytes b.data
  | length (tail : Bytes) (n : ℕ) (f : Field) (hs : ¬ h.bodyless)
      (hte : ∀ g ∈ h.fields, g.isNamed "transfer-encoding".toList = false)
      (hf : f ∈ h.fields) (hname : f.isNamed "content-length".toList = true)
      (hn : IsDecimal f.value n) (hle : n ≤ tail.length) : HasBody h ending tail (tail.take n)
  | close (tail : Bytes) (hs : ¬ h.bodyless)
      (hte : ∀ g ∈ h.fields, g.isNamed "transfer-encoding".toList = false)
      (hcl : ∀ g ∈ h.fields, g.isNamed "content-length".toList = false)
      (heof : ending = none) : HasBody h ending tail tail

end HexbufferProxy
