import HexbufferProxy.Model.Message

/-!
# Reading a response from a stream (`proxy.rs`)

`read_full_response` and the functions it calls. Every loop that reads is a
`Source.fill`. The functions return what the caller gets and the stream they leave behind:
the bytes they have read past the end of the response are in neither.

Arithmetic on `usize` is checked: a sum that does not fit panics.
-/

namespace HexbufferProxy

open Rust

/-- `usize::MAX + 1` on a 64-bit target. -/
def usizeBound : ℕ := 2 ^ 64

section

variable (U : Unicode)

/-- `is_chunked`. -/
def isChunked (headers : Str) : Bool :=
  (lines headers).any fun l =>
    startsWith "transfer-encoding:".toList (U.toLowercase l) &&
      contains "chunked".toList (U.toLowercase l)

/-- `get_content_length`. -/
def getContentLength (headers : Str) : Option ℕ :=
  ((lines headers).find? fun l => startsWith "content-length:".toList (U.toLowercase l)).bind
    fun l => (splitSecond ':' l).bind fun v => fromStrRadix 10 usizeBound (trim v)

/-- `is_no_body_status`. -/
def isNoBodyStatus (headers : Str) : Bool :=
  match ((lines headers).head?.bind fun l => (splitWhitespace l)[1]?).bind
      (fromStrRadix 10 65536) with
  | some code => code = 101 || code = 204 || code = 304
  | none => false

/-- `is_request`. -/
def isRequest (headers : Str) : Bool :=
  match (lines headers).head? with
  | some l => !startsWith "HTTP/".toList l
  | none => true

/-- `buf.contains(&b'\n')`. -/
def hasLf (buf : Bytes) : Bool := buf.contains 10

/-- The header loop's condition. -/
def hasHeadEnd (buf : Bytes) : Bool := (position crlfcrlf buf).isSome

/-- The text of the chunk size in front of the first LF. -/
def chunkSizeText (buf : Bytes) : Str :=
  splitFirst ';' (trim (fromUtf8Lossy (buf.take (buf.idxOf 10))))

/-- The loop of `read_chunked_body`. Every round takes a line and a chunk off `buf`, so
the bytes in `buf` and in the stream bound the number of rounds. -/
def readChunks (bufSize : ℕ) : ℕ → Bytes → Bytes → Source → Except Fault Bytes × Source
  | 0, body, _, s => (.ok body, s)
  | k + 1, body, buf, s =>
    match s.fill hasLf bufSize buf with
    | (.error e, s) => (.error (.error (.io e)), s)
    | (.ok (.eof _), s) => (.ok body, s)
    | (.ok (.full buf), s) =>
      match fromStrRadix 16 usizeBound (chunkSizeText buf) with
      | none =>
        (.error (.error (.msg ("invalid chunk size: " ++ String.ofList (chunkSizeText buf)))), s)
      | some 0 => (.ok body, s)
      | some chunkSize =>
        let rest := buf.drop (buf.idxOf 10 + 1)
        if usizeBound ≤ chunkSize + 2 then (.error (.panic "attempt to add with overflow"), s)
        else
          match s.fill (fun b => decide (chunkSize + 2 ≤ b.length)) bufSize rest with
          | (.error e, s) => (.error (.error (.io e)), s)
          | (.ok (.eof _), s) => (.ok body, s)
          | (.ok (.full buf), s) =>
            readChunks bufSize k (body ++ buf.take chunkSize) (buf.drop (chunkSize + 2)) s

/-- `read_chunked_body`. -/
def readChunkedBody (s : Source) (initial : Bytes) (bufSize : ℕ) : Except Fault Bytes × Source :=
  readChunks bufSize (initial.length + s.bytes.length + 1) [] initial s

/-- `read_exact`. -/
def readExact (s : Source) (initial : Bytes) (contentLength bufSize : ℕ) :
    Except Fault Bytes × Source :=
  match s.fill (fun b => decide (contentLength ≤ b.length)) bufSize initial with
  | (.error e, s) => (.error (.error (.io e)), s)
  | (.ok r, s) => (.ok (r.buf.take contentLength), s)

/-- `read_until_close`. -/
def readUntilClose (s : Source) (initial : Bytes) (bufSize : ℕ) : Except Fault Bytes × Source :=
  match s.fill (fun _ => false) bufSize initial with
  | (.error e, s) => (.error (.error (.io e)), s)
  | (.ok r, s) => (.ok r.buf, s)

/-- `read_http_body`. -/
def readHttpBody (s : Source) (headers : Str) (initial : Bytes) (bufSize : ℕ) :
    Except Fault Bytes × Source :=
  if isNoBodyStatus headers then (.ok [], s)
  else if isRequest headers && !isChunked U headers && (getContentLength U headers).isNone then
    (.ok initial, s)
  else if isChunked U headers then readChunkedBody s initial bufSize
  else
    match getContentLength U headers with
    | some len => readExact s initial len bufSize
    | none => readUntilClose s initial bufSize

/-- Where the head of `full` ends: after the first CRLFCRLF, or at its end. -/
def headerEnd (full : Bytes) : ℕ :=
  match position crlfcrlf full with
  | some i => i + 4
  | none => full.length

/-- `read_full_response`. -/
def readFullResponse (s : Source) (bufSize : ℕ) : Except Fault Bytes × Source :=
  match s.fill hasHeadEnd bufSize [] with
  | (.error e, s) => (.error (.error (.io e)), s)
  | (.ok r, s) =>
    let full := r.buf
    let head := full.take (headerEnd full)
    match readHttpBody U s (fromUtf8Lossy head) (full.drop (headerEnd full)) bufSize with
    | (.error e, s) => (.error e, s)
    | (.ok body, s) => (.ok (head ++ body), s)

end

end HexbufferProxy
