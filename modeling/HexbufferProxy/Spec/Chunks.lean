import HexbufferProxy.Spec.Complete

/-!
# The rounds of the chunk loop

`chunkRound` tells from the bytes how a round of `read_chunked_body` ends. `InLoop` follows the
loop itself: the buffer and the stream at the top of each round.
-/

namespace HexbufferProxy

open Rust

/-- How a round of the chunk loop ends. -/
inductive ChunkRound where
  /-- There is no size line, or no whole chunk. -/
  | short
  | invalid (text : Str)
  | last
  | overflow
  /-- A chunk, and what stands behind it. -/
  | chunk (data rest : Bytes)
deriving DecidableEq

/-- The round that begins at the front of `w`. -/
def chunkRound (w : Bytes) : ChunkRound :=
  if hasLf w then
    match fromStrRadix 16 usizeBound (chunkSizeText w) with
    | none => .invalid (chunkSizeText w)
    | some 0 => .last
    | some size =>
      if usizeBound ≤ size + 2 then .overflow
      else if size + 2 ≤ (afterSizeLine w).length then
        .chunk ((afterSizeLine w).take size) ((afterSizeLine w).drop (size + 2))
      else .short
  else .short

/-- The rounds come to a size to which no 2 can be added. -/
inductive Overflows : Bytes → Prop
  | here {w : Bytes} (h : chunkRound w = .overflow) : Overflows w
  | later {w data rest : Bytes} (h : chunkRound w = .chunk data rest) (hrest : Overflows rest) :
      Overflows w

section

variable (U : Unicode) (n : ℕ) (s : Source)

/-- **The loop of `read_chunked_body` is at the top of a round**, with `buf` and what is left of
the stream, in a run of `read_full_response` on `s`. -/
inductive InLoop : Bytes → Source → Prop
  | start {r : Source.Filled} {t : Source} (h : s.fill hasHeadEnd n [] = (.ok r, t))
      (hs : isNoBodyStatus (fromUtf8Lossy (r.buf.take (headerEnd r.buf))) = false)
      (hc : isChunked U (fromUtf8Lossy (r.buf.take (headerEnd r.buf))) = true) :
      InLoop (r.buf.drop (headerEnd r.buf)) t
  | next {buf line data : Bytes} {size : ℕ} {t t' t'' : Source} (h : InLoop buf t)
      (hline : t.fill hasLf n buf = (.ok (.full line), t'))
      (hsize : fromStrRadix 16 usizeBound (chunkSizeText line) = some size) (hpos : size ≠ 0)
      (hfits : size + 2 < usizeBound)
      (hdata : t'.fill (fun b => decide (size + 2 ≤ b.length)) n (afterSizeLine line) =
        (.ok (.full data), t'')) : InLoop (data.drop (size + 2)) t''

/-- **`read_full_response` ends in order**: with a result or an error; and in every round of the
chunk loop the sum fits, the slice and the drains lie in the buffer, and bytes are taken off the
stream. However many rounds the loop is given beyond the bytes there are, it ends the same. -/
structure Total : Prop where
  returns : ∀ msg, (readFullResponse U s n).1 ≠ .error (.panic msg)
  sum : ∀ buf t line t' size, InLoop U n s buf t → t.fill hasLf n buf = (.ok (.full line), t') →
    fromStrRadix 16 usizeBound (chunkSizeText line) = some size → size + 2 < usizeBound
  slices : ∀ buf t line t' size data t'', InLoop U n s buf t →
    t.fill hasLf n buf = (.ok (.full line), t') →
    t'.fill (fun b => decide (size + 2 ≤ b.length)) n (afterSizeLine line) =
      (.ok (.full data), t'') →
    line.idxOf 10 < line.length ∧ size ≤ data.length ∧ size + 2 ≤ data.length
  consumes : ∀ buf t line t' size data t'', InLoop U n s buf t →
    t.fill hasLf n buf = (.ok (.full line), t') →
    t'.fill (fun b => decide (size + 2 ≤ b.length)) n (afterSizeLine line) =
      (.ok (.full data), t'') →
    (data.drop (size + 2)).length + t''.bytes.length < buf.length + t.bytes.length
  ends : ∀ buf t k, InLoop U n s buf t → buf.length + t.bytes.length < k → ∀ body,
    (readChunks n k body buf t).1 = (readChunks n (buf.length + t.bytes.length + 1) body buf t).1

/-- The response is chunked, and its chunks come to a size of `usize::MAX - 1` or
`usize::MAX`. -/
def HugeChunk (w : Bytes) : Prop :=
  ∃ i, position crlfcrlf w = some i ∧ isNoBodyStatus (fromUtf8Lossy (w.take (i + 4))) = false ∧
    isChunked U (fromUtf8Lossy (w.take (i + 4))) = true ∧ Overflows (w.drop (i + 4))

end

end HexbufferProxy
