import HexbufferProxy.Model.Decoder
import HexbufferProxy.Spec.Forward

/-!
# Content codings

A sender applies codings one after the other and lists them in this order, on one or more
Content-Encoding lines. What is to come out again is the body it began with.
-/

namespace HexbufferProxy

open Rust

/-- The codings a sender may apply. -/
inductive Coding where
  | gzip
  | xGzip
  | deflate
  | br
  | zstd
  | identity
deriving DecidableEq

def Coding.name : Coding → Str
  | gzip => "gzip".toList
  | xGzip => "x-gzip".toList
  | deflate => "deflate".toList
  | br => "br".toList
  | zstd => "zstd".toList
  | identity => "identity".toList

/-- A coding in a list, between spaces. -/
structure Listed where
  coding : Coding
  before : ℕ
  behind : ℕ

def Listed.text (l : Listed) : Bytes :=
  List.replicate l.before 32 ++ encode l.coding.name ++ List.replicate l.behind 32

/-- A line that lists codings, with commas between them. -/
def lineText (ls : List Listed) : Bytes := [44].intercalate (ls.map Listed.text)

/-- **The Content-Encoding of `m` lists the codings `cs`**, in this order, over one or more lines of
at least one coding each. -/
def Lists (m : HeaderMap) (cs : List Coding) : Prop :=
  ∃ lines : List (List Listed), (∀ ls ∈ lines, ls ≠ []) ∧
    (m.values contentEncoding).map Subtype.val = lines.map lineText ∧
    lines.flatten.map Listed.coding = cs

/-- The body with the codings applied to it by `encode_body`, the first in the list first. -/
def applyCodings (C : Codecs) : List Coding → Body → Except ProxyError Body
  | [], body => .ok body
  | .identity :: cs, body => applyCodings C cs body
  | c :: cs, body =>
    match encodeBody C body c.name none with
    | .ok body => applyCodings C cs body
    | .error e => .error e

/-- A decoder undoes what its encoder has done. -/
def Codec.Inverts (c : Codec) : Prop :=
  ∀ b out, c.encode b = .ok out → c.decode ⟨out, none⟩ = ⟨b, none⟩

/-- **Each codec's streaming decoder inverts its encoder**, and `zstd` makes its decoders. -/
structure Codecs.Invert (C : Codecs) : Prop where
  gz : C.gz.Inverts
  zlib : C.zlib.Inverts
  brotli : C.brotli.Inverts
  zstd : C.zstd.Inverts
  zstdDecoder : ∀ b out, C.zstd.encode b = .ok out → C.zstdDecoder ⟨out, none⟩ = .ok ()

/-- The body arrives as these bytes, at once or in frames. -/
def Body.Carries (body : Body) (bs : Bytes) : Prop :=
  body = .full bs ∨
    ∃ frames : List Frame, body = .streaming (frames.map .ok) ∧ frames.flatMap Frame.payload = bs

/-- The headers of a decoded message: without the two that tell of the encoded body. -/
structure Stripped (m m' : HeaderMap) : Prop where
  encoding : m'.values contentEncoding = []
  length : m'.values contentLength = []
  others : ∀ n, n ≠ contentEncoding → n ≠ contentLength → m'.values n = m.values n

end HexbufferProxy
