import HexbufferProxy.Spec.Status
import HexbufferProxy.Spec.Wire

/-!
# How a message is framed

Where a body ends is up to the header fields of its message: Transfer-Encoding goes before
Content-Length, and where there is neither, a response runs up to the end of the connection and a
request has no body. An HTTP/1.1 client reads a response by these rules (`ReadsReply`), and a
request ends by them (`RequestBody`).
-/

namespace HexbufferProxy

open Rust

/-- A value without the blanks around it. -/
def strip (s : Str) : Str :=
  (s.dropWhile fun c => decide (c = ' ' ∨ c = '\t')).rdropWhile fun c => decide (c = ' ' ∨ c = '\t')

/-- The values of the fields with this name, in order. -/
def fieldValues (fs : List WireField) (n : HeaderName) : List Str :=
  (fs.filter fun f => f.name.map Char.toLower = n.1).map fun f => fromUtf8Lossy f.raw

/-- The elements of a list of values, each of which may be a list itself. -/
def elements (vs : List Str) : List Str :=
  vs.flatMap fun v => ((v.splitOn ',').map strip).filter (· ≠ [])

/-- A decimal number: digits only. -/
def decimal (s : Str) : Option ℕ :=
  if s ≠ [] ∧ s.all Char.isDigit = true then some (valueOf 10 (s.map fun c => c.toNat - 48))
  else none

inductive Framing where
  /-- The last coding is `chunked`. -/
  | chunked
  /-- There are codings, and the last one is another. -/
  | coded
  | length (n : ℕ)
  /-- The lengths are no numbers, or differ. -/
  | invalid
  | unframed
deriving DecidableEq

/-- **The framing that header fields declare.** -/
def framing (fs : List WireField) : Framing :=
  if fieldValues fs transferEncodingName ≠ [] then
    if (elements (fieldValues fs transferEncodingName)).getLast?.map (·.map Char.toLower) =
      some "chunked".toList then .chunked else .coded
  else if fieldValues fs contentLengthName ≠ [] then
    match (elements (fieldValues fs contentLengthName)).map decimal with
    | some n :: ns => if ∀ m ∈ ns, m = some n then .length n else .invalid
    | _ => .invalid
  else .unframed

/-- A chunked body that ends with its trailer section: field lines and an empty line. -/
def ChunkedBody.Ends (b : ChunkedBody) : Prop :=
  ∃ fs : List WireField, b.trailer = (fs.map WireField.bytes).flatMap (· ++ [13, 10]) ++ [13, 10]

/-- Responses with these codes have no body, whatever their fields say. -/
def Bodyless (code : ℕ) : Prop := code < 200 ∨ code = 204 ∨ code = 304

instance (code : ℕ) : Decidable (Bodyless code) := inferInstanceAs (Decidable (_ ∨ _))

/-- **The body of a response whose connection ends behind `tail`.** -/
inductive ReplyBody (code : ℕ) : Framing → Bytes → Bytes → Prop
  | bodyless (fr : Framing) (h : Bodyless code) : ReplyBody code fr [] []
  | chunked (b : ChunkedBody) (h : ¬ Bodyless code) (he : b.Ends) :
      ReplyBody code .chunked b.bytes b.data
  | coded (b : Bytes) (h : ¬ Bodyless code) : ReplyBody code .coded b b
  | length (b : Bytes) (h : ¬ Bodyless code) : ReplyBody code (.length b.length) b b
  | close (b : Bytes) (h : ¬ Bodyless code) : ReplyBody code .unframed b b

/-- **The body of a request**, which ends where its framing says. -/
inductive RequestBody : Framing → Bytes → Bytes → Prop
  | chunked (b : ChunkedBody) (he : b.Ends) : RequestBody .chunked b.bytes b.data
  | length (b : Bytes) : RequestBody (.length b.length) b b
  | none : RequestBody .unframed [] []

/-- A response head: a status line, field lines and the empty line. -/
def replyHead (l : StatusLine) (fs : List WireField) : Bytes :=
  l.bytes ++ ([13, 10] ++ (fs.map WireField.bytes).flatMap (· ++ [13, 10]) ++ [13, 10])

/-- **A client reads all of `bytes` as one response** with this code and this body, and nothing is
missing or left over. -/
def ReadsReply (bytes : Bytes) (code : ℕ) (body : Bytes) : Prop :=
  ∃ l fs tail, bytes = replyHead l fs ++ tail ∧ l.code.value = code ∧
    ReplyBody code (framing fs) tail body

/-- A body that is sent as it is fits this framing. -/
def FitsFraming (code : ℕ) (fr : Framing) (body : Bytes) : Prop :=
  if Bodyless code then body = []
  else
    match fr with
    | .chunked | .invalid => False
    | .coded | .unframed => True
    | .length n => body.length = n

instance (code : ℕ) (fr : Framing) (body : Bytes) : Decidable (FitsFraming code fr body) :=
  match fr with
  | .chunked | .invalid => inferInstanceAs (Decidable (if Bodyless code then body = [] else False))
  | .coded | .unframed => inferInstanceAs (Decidable (if Bodyless code then body = [] else True))
  | .length n => inferInstanceAs (Decidable (if Bodyless code then body = [] else body.length = n))

/-- **One complete request at the front of a buffer**: `wire` is its body as it was sent, `body` what
it says, and `rest` whatever follows. -/
structure BufferedRequest where
  method : Method
  target : Str
  fields : List WireField
  wire : Bytes
  body : Bytes
  rest : Bytes
  target_word : IsWord target
  framed : RequestBody (framing fields) wire body

def BufferedRequest.bytes (m : BufferedRequest) : Bytes :=
  headBytes (requestLine m.method m.target) m.fields ++ (m.wire ++ m.rest)

end HexbufferProxy
