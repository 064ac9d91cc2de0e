import HexbufferProxy.Spec.Carry
import HexbufferProxy.Spec.Codings

/-!
# Spellings of a list of codings

HTTP lets a sender write a list in many ways: names in letters of either case, blanks around the
elements, elements with nothing in them. They all say the same; the plainest is that of `Lists`.
-/

namespace HexbufferProxy

open Rust

/-- `u8::to_ascii_lowercase`. -/
def lowerByte (b : UInt8) : UInt8 := if 65 ≤ b ∧ b ≤ 90 then b + 32 else b

/-- An element of a list: a coding, or none, in letters of either case and with blanks around it. -/
structure Element where
  coding : Option Coding
  word : Bytes
  before : Bytes
  behind : Bytes
  word_eq : word.map lowerByte = coding.elim [] fun c => encode c.name
  before_blank : ∀ b ∈ before, isBlank b = true
  behind_blank : ∀ b ∈ behind, isBlank b = true

namespace Element

def text (e : Element) : Bytes := e.before ++ e.word ++ e.behind

/-- **A coding in small letters, between spaces.** -/
def Plain (e : Element) : Prop :=
  ∃ c, e.coding = some c ∧ e.word = encode c.name ∧ 9 ∉ e.before ∧ 9 ∉ e.behind

end Element

/-- A line of such elements. -/
def elementsText (es : List Element) : Bytes := [44].intercalate (es.map Element.text)

/-- **The Content-Encoding of `m` is `lines`, a list of the codings `cs`.** -/
structure Spells (m : HeaderMap) (lines : List (List Element)) (cs : List Coding) : Prop where
  ne_nil : ∀ es ∈ lines, es ≠ []
  values : (m.values contentEncoding).map Subtype.val = lines.map elementsText
  codings : lines.flatten.filterMap Element.coding = cs

/-- Every element is plain. -/
def AllPlain (lines : List (List Element)) : Prop := ∀ e ∈ lines.flatten, e.Plain

/-- The same fields, but for Content-Encoding. -/
def SameButEncoding (m m' : HeaderMap) : Prop := ∀ n, n ≠ contentEncoding → m'.values n = m.values n

/-- The first Content-Length is `0`. -/
def LengthZero (m : HeaderMap) : Prop := ∃ v, m.get contentLength = some v ∧ v.1 = lit "0"

/-- **The two results are the same**, but for a Content-Encoding that both keep. -/
def Alike {α β : Type} (headers : α → HeaderMap) (rest : α → β) :
    Except ProxyError α → Except ProxyError α → Prop
  | .ok a, .ok b => rest a = rest b ∧ SameButEncoding (headers a) (headers b)
  | .error e, .error e' => e = e'
  | _, _ => False

/-- A request without its headers. -/
def Request.bare (req : Request) : Request := { req with headers := [] }

/-- A response without its headers. -/
def Response.bare (res : Response) : Response := { res with headers := [] }

section

variable (C : Codecs)

/-- **The request is decoded as it would be with its codings in the plainest spelling.** -/
def DecodesAsPlain (req : Request) (cs : List Coding) : Prop :=
  ∀ m, Lists m cs → SameButEncoding req.headers m →
    Alike Request.headers Request.bare (decodeRequest C req)
      (decodeRequest C { req with headers := m })

/-- The same of a response. -/
def DecodesResponseAsPlain (res : Response) (cs : List Coding) : Prop :=
  ∀ m, Lists m cs → SameButEncoding res.headers m →
    Alike Response.headers Response.bare (decodeResponse C res)
      (decodeResponse C { res with headers := m })

end

/-- The body breaks off. -/
def Body.Fails (body : Body) : Prop := ∃ e, body.intoBytes = .error e

end HexbufferProxy
