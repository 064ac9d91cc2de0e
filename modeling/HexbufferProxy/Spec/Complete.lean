import HexbufferProxy.Model.Read

/-!
# When a response is complete

A stream may end anywhere. A response on it is complete when its head is there up to the empty
line, and its body up to the end that its own framing gives it. The framing is read off the head
as the reader does it.
-/

namespace HexbufferProxy

open Rust

/-- What stands behind the chunk-size line at the front of `w`. -/
def afterSizeLine (w : Bytes) : Bytes := w.drop (w.idxOf 10 + 1)

/-- The size in the line at the front of `w`, if the line is there and has one. -/
def frontSize (w : Bytes) : Option ℕ :=
  if hasLf w then fromStrRadix 16 usizeBound (chunkSizeText w) else none

/-- The chunks at the front of `w` hold these data, and a chunk of size zero follows them. -/
inductive Dechunks : Bytes → Bytes → Prop
  | last (w : Bytes) (hsize : frontSize w = some 0) : Dechunks w []
  | chunk (w : Bytes) (size : ℕ) (data : Bytes) (hsize : frontSize w = some size) (hpos : 0 < size)
      (hlen : size + 2 ≤ (afterSizeLine w).length)
      (h : Dechunks ((afterSizeLine w).drop (size + 2)) data) :
      Dechunks w ((afterSizeLine w).take size ++ data)

/-- The chunks at the front of `w` break off: in a size line, or in a chunk or the line end behind
it. -/
inductive ChunksBreak : Bytes → Prop
  | line (w : Bytes) (h : hasLf w = false) : ChunksBreak w
  | data (w : Bytes) (size : ℕ) (hsize : frontSize w = some size) (hpos : 0 < size)
      (hfits : size + 2 < usizeBound) (hlen : (afterSizeLine w).length < size + 2) : ChunksBreak w
  | later (w : Bytes) (size : ℕ) (hsize : frontSize w = some size) (hpos : 0 < size)
      (hfits : size + 2 < usizeBound) (hlen : size + 2 ≤ (afterSizeLine w).length)
      (h : ChunksBreak ((afterSizeLine w).drop (size + 2))) : ChunksBreak w

section

variable (U : Unicode)

/-- The head gives no framing: no coding, no length, and a status that has a body. -/
def hasNoFraming (headers : Str) : Bool :=
  !isNoBodyStatus headers && !isChunked U headers && (getContentLength U headers).isNone

/-- **The body that `tail` holds in full**, by the framing that the head gives it. -/
inductive FramedBody (headers : Str) : Bytes → Bytes → Prop
  | bodyless (tail : Bytes) (hs : isNoBodyStatus headers = true) : FramedBody headers tail []
  | chunked (tail body : Bytes) (hs : isNoBodyStatus headers = false)
      (hc : isChunked U headers = true) (h : Dechunks tail body) : FramedBody headers tail body
  | length (tail : Bytes) (len : ℕ) (hs : isNoBodyStatus headers = false)
      (hc : isChunked U headers = false) (hl : getContentLength U headers = some len)
      (hle : len ≤ tail.length) : FramedBody headers tail (tail.take len)
  | close (tail : Bytes) (h : hasNoFraming U headers = true) : FramedBody headers tail tail

/-- The body breaks off in front of its end. -/
def BodyBreaks (headers : Str) (tail : Bytes) : Prop :=
  isNoBodyStatus headers = false ∧
    if isChunked U headers then ChunksBreak tail
    else ∃ len, getContentLength U headers = some len ∧ tail.length < len

/-- **`out` is the complete response at the front of `w`**: its head, up to and with the empty line,
and its whole body. -/
def Complete (w out : Bytes) : Prop :=
  ∃ i body, position crlfcrlf w = some i ∧
    FramedBody U (fromUtf8Lossy (w.take (i + 4))) (w.drop (i + 4)) body ∧
    out = w.take (i + 4) ++ body

/-- **The stream does not end early**, for a reader with a buffer of `n` bytes. A head that does not
start with `HTTP/` and gives no framing passes for a request's: nothing may come behind the read
that completes it. -/
structure EndsLate (n : ℕ) (s : Source) : Prop where
  buffer : n ≠ 0
  head : ∃ i, position crlfcrlf s.bytes = some i
  body : ∀ i, position crlfcrlf s.bytes = some i →
    ¬ BodyBreaks U (fromUtf8Lossy (s.bytes.take (i + 4))) (s.bytes.drop (i + 4))
  request : ∀ i, position crlfcrlf s.bytes = some i →
    isRequest (fromUtf8Lossy (s.bytes.take (i + 4))) = true →
    hasNoFraming U (fromUtf8Lossy (s.bytes.take (i + 4))) = true →
    ∀ pre post s', s.Reads n pre s' → s.bytes = pre ++ post → post ≠ [] → hasHeadEnd pre = false

end

end HexbufferProxy
