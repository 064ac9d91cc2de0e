import HexbufferProxy.Model.Flow

/-!
# What a client receives of a response

The client sees bytes and the end of the stream. What it takes for the body is up to the
header fields it has been sent.
-/

namespace HexbufferProxy

open Rust

variable {ω : Type}

/-- The bytes that an event writes to the client. -/
def Event.written : Event → Bytes
  | toClient bs => bs
  | _ => []

/-- All that has been written to the client. -/
def clientBytes (es : List Event) : Bytes := es.flatMap Event.written

def Frame.payload : Frame → Bytes
  | data bs => bs
  | trailers _ => []

/-- The data of a body: for a streaming body, the data frames put together. -/
def Body.data : Body → Bytes
  | full bs => bs
  | streaming frames => frames.flatMap fun f => (f.toOption.map Frame.payload).getD []

/-- A user's handler that returns every response as it came. -/
def UserHandler.Keeping (u : UserHandler ω) : Prop :=
  ∀ ctx res w, (u.handleResponse ctx res w).1.1 = .ok res

/-- Responses with these statuses have a body, if an empty one. -/
def StatusCode.AllowsBody (s : StatusCode) : Prop := s.1 ≠ 101 ∧ s.1 ≠ 204 ∧ s.1 ≠ 304

instance (s : StatusCode) : Decidable s.AllowsBody := inferInstanceAs (Decidable (_ ∧ _))

def transferEncodingName : HeaderName := ⟨"transfer-encoding".toList, by decide⟩

theorem contentLengthName_token :
    "content-length".toList ≠ [] ∧ "content-length".toList.all isNameChar = true := by decide

def contentLengthName : HeaderName := ⟨"content-length".toList, contentLengthName_token⟩

/-- The host of the examples. -/
def exampleHost : HeaderValue := ⟨lit "a.example", by decide⟩

def exampleLength : HeaderValue := ⟨lit "5", by decide⟩

def websocketValue : HeaderValue := ⟨lit "websocket", by decide⟩

def upgradeValue : HeaderValue := ⟨lit "upgrade", by decide⟩

/-- The line of a field, as text. -/
def headerLine (p : HeaderName × HeaderValue) : Str := p.1.1 ++ ':' :: ' ' :: fromUtf8Lossy p.2.1

/-- A Transfer-Encoding field speaks of `chunked`. -/
def declaresChunked (U : Unicode) (m : HeaderMap) : Bool :=
  m.any fun p => decide (p.1 = transferEncodingName) &&
    contains "chunked".toList (U.toLowercase (headerLine p))

/-- The number in the first Content-Length field. -/
def declaredLength (m : HeaderMap) : Option ℕ :=
  (HeaderMap.get m contentLengthName).bind fun v =>
    fromStrRadix 10 usizeBound (trim (splitFirst ':' (fromUtf8Lossy v.1)))

/-- **The fields fit a body that is sent as it is**, with no coding, up to the end of the
stream. -/
def FitsPlainBody (U : Unicode) (m : HeaderMap) (data : Bytes) : Prop :=
  data = [] ∨ declaresChunked U m = false ∧ ∀ n, declaredLength m = some n → data.length ≤ n

end HexbufferProxy
