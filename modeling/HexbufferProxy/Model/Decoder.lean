import HexbufferProxy.Model.Handler

/-!
# Decoding bodies (`decoder.rs`)

`decode_request` and `decode_response` undo the codings that Content-Encoding lists: each coding
named there wraps one more streaming decoder around the reader of the body, and the outermost is
read to its end. `encode_body` applies one coding. The codecs themselves are other crates'.
-/

namespace HexbufferProxy

open Rust

/-- What a reader yields until it ends, and how it ends. -/
structure Reader where
  bytes : Bytes
  failure : Option IoError
deriving DecidableEq

/-- `read_to_end`. -/
def Reader.readToEnd (r : Reader) : Except IoError Bytes :=
  match r.failure with
  | none => .ok r.bytes
  | some e => .error e

/-- An encoder that is written to and finished, and a decoder that is wrapped around a reader. -/
structure Codec where
  encode : Bytes → Except IoError Bytes
  decode : Reader → Reader

/-- What the decoder uses of `flate2`, `brotli` and `zstd`. -/
structure Codecs where
  gz : Codec
  zlib : Codec
  brotli : Codec
  zstd : Codec
  /-- `zstd::stream::write::Encoder::new`. -/
  zstdEncoder : Except IoError Unit
  /-- `zstd::stream::read::Decoder::new`, around a reader. -/
  zstdDecoder : Reader → Except IoError Unit

def contentEncoding : HeaderName := ⟨"content-encoding".toList, by decide⟩

def contentLength : HeaderName := ⟨"content-length".toList, by decide⟩

namespace HeaderMap

/-- `HeaderMap::contains_key`. -/
def containsKey (m : HeaderMap) (n : HeaderName) : Bool := !(values m n).isEmpty

/-- `HeaderMap::remove`: all values of a name. The values of the others stay; the crate promises
no order between names. -/
def remove (m : HeaderMap) (n : HeaderName) : HeaderMap := m.filter fun p => p.1 ≠ n

end HeaderMap

/-- The data of all frames, unless one of them is an error. -/
def collectFrames : List (Except String Frame) → Except ProxyError Bytes
  | [] => .ok []
  | .ok (.data bs) :: fs => (collectFrames fs).map (bs ++ ·)
  | .ok (.trailers _) :: fs => collectFrames fs
  | .error e :: _ => .error (.protocol e)

/-- `Body::into_bytes`. -/
def Body.intoBytes : Body → Except ProxyError Bytes
  | .full bs => .ok bs
  | .streaming fs => collectFrames fs

/-- `trim_ascii`: without the spaces at both ends, unless there is nothing else. -/
def trimAscii (bs : Bytes) : Bytes :=
  let start := (bs.findIdx? (· != 32)).getD 0
  let stop := ((bs.reverse.findIdx? (· != 32)).map (bs.length - ·)).getD bs.length
  (bs.take stop).drop start

/-- `encodings`: the codings listed, innermost first. -/
def encodings (m : HeaderMap) : List Bytes :=
  (m.values contentEncoding).reverse.flatMap fun v => (v.1.splitOn 44).reverse.map trimAscii

/-- `should_decode`. -/
def shouldDecode (m : HeaderMap) : Bool :=
  m.containsKey contentEncoding &&
    match m.get contentLength with
    | some v => v.1 != lit "0"
    | none => true

section

variable (C : Codecs)

/-- `pick_decoder`. -/
def pickDecoder (encoding : Bytes) (r : Reader) : Except ProxyError Reader :=
  if encoding = lit "gzip" ∨ encoding = lit "x-gzip" then .ok (C.gz.decode r)
  else if encoding = lit "deflate" then .ok (C.zlib.decode r)
  else if encoding = lit "br" then .ok (C.brotli.decode r)
  else if encoding = lit "zstd" then
    match C.zstdDecoder r with
    | .ok () => .ok (C.zstd.decode r)
    | .error e => .error (.protocol ("zstd decoder init failed: " ++ e.kind))
  else .error (.protocol
    ("unsupported content-encoding: " ++ String.ofList (fromUtf8Lossy encoding)))

/-- The loop of `decode_body`. -/
def nestDecoders : List Bytes → Reader → Except ProxyError Reader
  | [], r => .ok r
  | encoding :: encs, r =>
    if encoding = lit "identity" then nestDecoders encs r
    else
      match pickDecoder C encoding r with
      | .ok r => nestDecoders encs r
      | .error e => .error e

/-- `decode_body`. -/
def decodeBody (encs : List Bytes) (body : Body) : Except ProxyError Body := do
  let bytes ← body.intoBytes
  let reader ← nestDecoders C encs ⟨bytes, none⟩
  let buf ← reader.readToEnd.mapError fun e => .io e.kind
  .ok (.full buf)

/-- `strip_encoding_headers_req` and `strip_encoding_headers_res`. -/
def stripEncodingHeaders (m : HeaderMap) : HeaderMap :=
  (m.remove contentEncoding).remove contentLength

/-- What requests and responses share: their headers and their body, decoded. -/
def decodeParts (m : HeaderMap) (body : Body) : Except ProxyError (HeaderMap × Body) :=
  if shouldDecode m then
    (decodeBody C (encodings m) body).map fun body => (stripEncodingHeaders m, body)
  else .ok (m, body)

/-- `decode_request`. -/
def decodeRequest (req : Request) : Except ProxyError Request :=
  (decodeParts C req.headers req.body).map fun p => { req with headers := p.1, body := p.2 }

/-- `decode_response`. -/
def decodeResponse (res : Response) : Except ProxyError Response :=
  (decodeParts C res.headers res.body).map fun p => { res with headers := p.1, body := p.2 }

/-- `DecodeHandler`. -/
def DecodeHandler {ω : Type} : HttpHandler ω where
  handleRequest ctx req := pure ((decodeRequest C req).map .request, ctx)
  handleResponse ctx res := pure (decodeResponse C res, ctx)
  shouldInterceptTls _ := pure true

/-- What a codec makes of a body. -/
def Codec.encodeBody (c : Codec) (bytes : Bytes) : Except ProxyError Body :=
  match c.encode bytes with
  | .ok out => .ok (.full out)
  | .error e => .error (.io e.kind)

/-- `encode_body`. The character set is not looked at. -/
def encodeBody (body : Body) (encoding : Str) (_charset : Option Str) : Except ProxyError Body :=
  match body with
  | .streaming _ => .error (.protocol "encode_body requires a buffered body (Body::Full)")
  | .full bytes =>
    if encoding = "gzip".toList ∨ encoding = "x-gzip".toList then C.gz.encodeBody bytes
    else if encoding = "deflate".toList then C.zlib.encodeBody bytes
    else if encoding = "br".toList then C.brotli.encodeBody bytes
    else if encoding = "zstd".toList then
      match C.zstdEncoder with
      | .ok () => C.zstd.encodeBody bytes
      | .error e => .error (.protocol ("zstd encoder init: " ++ e.kind))
    else .error (.protocol
      ("unsupported encoding for re-compression: " ++ String.ofList encoding))

end

end HexbufferProxy
