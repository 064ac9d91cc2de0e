import HexbufferProxy.Model.Http

/-!
# Parsing and serializing messages (`proxy.rs`)

`parse_raw_request` and `parse_raw_response` read the head as text, line by line, and take
what follows the first CRLFCRLF as the body. The builder of the `http` crate collects
errors until `body()`, whose `unwrap` panics on them.
-/

namespace HexbufferProxy

open Rust

/-- `b"\r\n\r\n"`. -/
def crlfcrlf : Bytes := [13, 10, 13, 10]

/-- The header loop of both parsers: trimmed keys and values up to the first empty line.
Lines without a colon are passed over. -/
def headerFields : List Str → List (Str × Str)
  | [] => []
  | l :: ls =>
    if l = [] then []
    else
      match splitOnce ':' l with
      | some (key, value) => (trim key, trim value) :: headerFields ls
      | none => headerFields ls

/-- `builder.header(key, value)` for each field, in order. -/
def buildHeaders (m : HeaderMap) : List (Str × Str) → Option HeaderMap
  | [] => some m
  | (key, value) :: fs =>
    match HeaderName.parse key, HeaderValue.parse value with
    | some n, some v => buildHeaders (m.append n v) fs
    | _, _ => none

/-- The bytes after the first CRLFCRLF, if there is one. -/
def bodyAfterHead (raw : Bytes) : Bytes :=
  match position crlfcrlf raw with
  | some pos => raw.drop (pos + 4)
  | none => []

/-- `called Result::unwrap() on an Err value`, from the builder. -/
def builderPanic : Fault := .panic "called `Result::unwrap()` on an `Err` value"

/-- `parse_raw_request`. -/
def parseRawRequest (http : HttpCrate) (raw : Bytes) : Except Fault Request :=
  let ls := lines (fromUtf8Lossy raw)
  let reqLine := ls.head?.getD []
  let parts := splitWhitespace reqLine
  let method := parts[0]?.getD "GET".toList
  let uri := parts[1]?.getD "/".toList
  match Method.parse method, http.parseUri uri, buildHeaders [] (headerFields ls.tail) with
  | some m, some u, some h => .ok ⟨m, u, h, .full (bodyAfterHead raw)⟩
  | _, _, _ => .error builderPanic

/-- `parse_raw_response`. -/
def parseRawResponse (raw : Bytes) : Except Fault Response :=
  let ls := lines (fromUtf8Lossy raw)
  let statusLine := ls.head?.getD "HTTP/1.1 200 OK".toList
  let parts := splitWhitespace statusLine
  match fromStrRadix 10 65536 (parts[1]?.getD "200".toList) with
  | none => .error (.error .parseInt)
  | some status =>
    match StatusCode.parse status, buildHeaders [] (headerFields ls.tail) with
    | some s, some h => .ok ⟨s, h, .full (bodyAfterHead raw)⟩
    | _, _ => .error builderPanic

/-- The header lines both serializers write, and the empty line. -/
def serializeHeaders (m : HeaderMap) : Bytes :=
  m.flatMap (fun p => encode p.1.1 ++ [58, 32] ++ p.2.1 ++ [13, 10]) ++ [13, 10]

/-- The bytes of a `Body::Full`; a streaming body has none here. -/
def Body.fullBytes : Body → Bytes
  | .full bs => bs
  | .streaming _ => []

/-- `serialize_request`. -/
def serializeRequest (req : Request) : Bytes :=
  encode req.method.1 ++ [32] ++ encode req.uri.display ++ lit " HTTP/1.1\r\n" ++
    serializeHeaders req.headers ++ req.body.fullBytes

/-- A number as `{}` prints it. -/
def displayNat (n : ℕ) : Str := (Nat.toDigits 10 n)

/-- `serialize_response_head`. -/
def serializeResponseHead (http : HttpCrate) (res : Response) : Bytes :=
  lit "HTTP/1.1 " ++ encode (displayNat res.status.1) ++ [32] ++
    encode ((http.canonicalReason res.status.1).getD "OK".toList) ++ [13, 10] ++
    serializeHeaders res.headers

/-- `serialize_response`. -/
def serializeResponse (http : HttpCrate) (res : Response) : Bytes :=
  serializeResponseHead http res ++ res.body.fullBytes

end HexbufferProxy
