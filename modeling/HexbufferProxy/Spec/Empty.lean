import HexbufferProxy.Spec.Spellings

/-!
# Messages without a body

The response to a HEAD and a 304 say of the body how it would be encoded, and have none. So may a
request. There is nothing to decode then, and nothing that may fail.
-/

namespace HexbufferProxy

open Rust

/-- Where there is nothing to decode, a decoder makes nothing; and it passes on a failure. -/
structure Codec.OfNothing (c : Codec) : Prop where
  empty : (c.decode ⟨[], none⟩).bytes = []
  failing : ∀ e, ∃ e', c.decode ⟨[], some e⟩ = ⟨[], some e'⟩

/-- What is relied on of the codecs where a body is empty. -/
structure Codecs.OfNothing (C : Codecs) : Prop where
  gz : C.gz.OfNothing
  zlib : C.zlib.OfNothing
  brotli : C.brotli.OfNothing
  zstd : C.zstd.OfNothing
  /-- `gzip` wants its header. -/
  gz_fails : (C.gz.decode ⟨[], none⟩).failure ≠ none

variable (C : Codecs)

/-- The decoder for a coding takes nothing for an encoding of nothing. -/
def TakesNothing : Coding → Prop
  | .gzip => False
  | .xGzip => False
  | .deflate => C.zlib.decode ⟨[], none⟩ = ⟨[], none⟩
  | .br => C.brotli.decode ⟨[], none⟩ = ⟨[], none⟩
  | .zstd => C.zstdDecoder ⟨[], none⟩ = .ok () ∧ C.zstd.decode ⟨[], none⟩ = ⟨[], none⟩
  | .identity => True

/-- **The request is decoded, its body stays empty**, and the handler makes no error of it. -/
def StaysEmpty (req : Request) : Prop :=
  (∃ q, decodeRequest C req = .ok q ∧ q.body.Carries []) ∧
  ∀ (ω : Type) (ctx : HttpContext) (s : World ω), ∃ q,
    ((DecodeHandler C).handleRequest ctx req s).result = .ok (.ok (.request q), ctx)

/-- The same of a response. -/
def ResponseStaysEmpty (res : Response) : Prop :=
  (∃ q, decodeResponse C res = .ok q ∧ q.body.Carries []) ∧
  ∀ (ω : Type) (ctx : HttpContext) (s : World ω), ∃ q,
    ((DecodeHandler C).handleResponse ctx res s).result = .ok (.ok q, ctx)

end HexbufferProxy
