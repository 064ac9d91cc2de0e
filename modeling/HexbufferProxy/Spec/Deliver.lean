import HexbufferProxy.Spec.Wire

/-!
# What a client means by a request

Its method, its target, its fields and its body; and the bytes that say so on the wire. The
handlers should be given that request, however the network cuts the bytes.
-/

namespace HexbufferProxy

open Rust

/-- A field: its name in any case, and its value with blanks around it. -/
structure RequestField where
  name : Str
  before : Bytes
  value : HeaderValue
  after : Bytes
  name_ne : name ≠ []
  name_token : name.all isTchar = true
  before_blank : ∀ b ∈ before, b = 32 ∨ b = 9
  after_blank : ∀ b ∈ after, b = 32 ∨ b = 9

namespace RequestField

theorem raw_ok (f : RequestField) :
    (f.before ++ f.value.1 ++ f.after).all isValueByte = true := by
  have hblank : ∀ b : UInt8, b = 32 ∨ b = 9 → isValueByte b = true := by
    rintro b (rfl | rfl) <;> decide
  rw [List.all_append, List.all_append, f.value.2, List.all_eq_true.2 fun b hb =>
    hblank b (f.before_blank b hb), List.all_eq_true.2 fun b hb => hblank b (f.after_blank b hb)]
  rfl

def wire (f : RequestField) : WireField :=
  ⟨f.name, f.before ++ f.value.1 ++ f.after, f.name_ne, f.name_token, f.raw_ok⟩

end RequestField

/-- A plain HTTP/1.1 request with a Host field, to a target that is a URI. -/
structure PlainRequest (http : HttpCrate) where
  method : Method
  target : Str
  uri : Uri
  fields : List RequestField
  body : Bytes
  target_word : IsWord target
  target_uri : http.parseUri target = some uri
  host_given : ∃ f ∈ fields, f.name.map Char.toLower = hostName.1
  host_text : ∀ f ∈ fields, f.name.map Char.toLower = hostName.1 →
    (HeaderValue.toStr f.value).isSome = true

namespace PlainRequest

variable {http : HttpCrate} (m : PlainRequest http)

/-- The head on the wire. -/
def head : Bytes := headBytes (requestLine m.method m.target) (m.fields.map RequestField.wire)

def bytes : Bytes := m.head ++ m.body

/-- `r` is this request: its method, its target, all its fields and the whole body. -/
structure Is (r : Request) : Prop where
  method : r.method = m.method
  uri : r.uri = m.uri
  headers : ∀ n, HeaderMap.values r.headers n =
    (m.fields.filter fun f => f.name.map Char.toLower = n.1).map RequestField.value
  body : r.body = .full m.body

/-- The first handler is given this request, on the plain path. -/
def Reaches (es : List Event) : Prop :=
  ∃ ctx r d, Event.request 0 ctx r d ∈ es ∧ ctx.isHttps = false ∧ m.Is r

/-- **These bytes are enough**: they are the whole request; or the request has no body and they
break off inside the value of its last field, or behind it, and read as this value so far. -/
def Arrives (first : Bytes) : Prop :=
  first = m.bytes ∨ m.body = [] ∧ ∃ init last rest, m.fields = init ++ [last] ∧
    first = encode (requestLine m.method m.target) ++ [13, 10] ++
      (init.map fun f => f.wire.bytes).flatMap (· ++ [13, 10]) ++ encode last.name ++ 58 :: rest ∧
    rest <+: last.wire.raw ++ [13, 10, 13, 10] ∧ encode (trim (fromUtf8Lossy rest)) = last.value.1

end PlainRequest

end HexbufferProxy
