import HexbufferProxy.Model.Read

/-!
# The response a byte string stands for

What `read_full_response` is meant to compute, as a function of all the bytes the upstream
sends and of how the stream ends, with no segments and no buffer. `Proof.Read` proves that the
reader computes exactly this, however the bytes are cut.
-/

namespace HexbufferProxy

open Rust

/-- What a reader that needs more bytes than there are returns: what it has, or the
error the stream ends in. -/
def atEnd (ending : Option IoError) (got : Bytes) : Except Fault Bytes :=
  match ending with
  | none => .ok got
  | some e => .error (.error (.io e))

/-- The chunks of `w`, after `body`. -/
def dechunkFrom (ending : Option IoError) : ℕ → Bytes → Bytes → Except Fault Bytes
  | 0, body, _ => .ok body
  | k + 1, body, w =>
    if hasLf w then
      match fromStrRadix 16 usizeBound (chunkSizeText w) with
      | none => .error (.error (.msg ("invalid chunk size: " ++ String.ofList (chunkSizeText w))))
      | some 0 => .ok body
      | some chunkSize =>
        let rest := w.drop (w.idxOf 10 + 1)
        if usizeBound ≤ chunkSize + 2 then .error (.panic "attempt to add with overflow")
        else if chunkSize + 2 ≤ rest.length then
          dechunkFrom ending k (body ++ rest.take chunkSize) (rest.drop (chunkSize + 2))
        else atEnd ending body
    else atEnd ending body

/-- The data of a chunked body. -/
def dechunk (ending : Option IoError) (w : Bytes) : Except Fault Bytes :=
  dechunkFrom ending (w.length + 1) [] w

/-- The body that `tail` holds after `headers`. -/
def wholeBody (U : Unicode) (ending : Option IoError) (headers : Str) (tail : Bytes) :
    Except Fault Bytes :=
  if isNoBodyStatus headers then .ok []
  else if isChunked U headers then dechunk ending tail
  else
    match getContentLength U headers with
    | some len => if len ≤ tail.length then .ok (tail.take len) else atEnd ending tail
    | none => atEnd ending tail

/-- **The response that the bytes `w` stand for**: the head, and the body without its
framing. -/
def wholeResponse (U : Unicode) (ending : Option IoError) (w : Bytes) : Except Fault Bytes :=
  match position crlfcrlf w with
  | none => atEnd ending w
  | some i =>
    (wholeBody U ending (fromUtf8Lossy (w.take (i + 4))) (w.drop (i + 4))).map
      (w.take (i + 4) ++ ·)

end HexbufferProxy
