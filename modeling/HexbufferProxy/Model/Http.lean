import HexbufferProxy.Rust.Source
import HexbufferProxy.Rust.Utf8

/-!
# The HTTP types

The proxy is written over the types of the `http` crate. Its methods, header names and
header values are validated strings, and are subtypes here. Its URI parser and its table of
reason phrases are not part of the repository: they are parameters (`HttpCrate`), with the
documented facts the proxy relies on.
-/

namespace HexbufferProxy

open Rust

/-- A token character of RFC 9110. -/
def isTchar (c : Char) : Bool := c.isAlphanum || "!#$%&'*+-.^_`|~".toList.contains c

/-- `http::Method`: a token. -/
abbrev Method := {s : Str // s ≠ [] ∧ s.all isTchar = true}

def Method.parse (s : Str) : Option Method :=
  if h : s ≠ [] ∧ s.all isTchar = true then some ⟨s, h⟩ else none

/-- `Method::GET`. -/
def Method.get : Method := ⟨"GET".toList, by decide⟩

/-- `Method::POST`. -/
def Method.post : Method := ⟨"POST".toList, by decide⟩

/-- A lower-case token character. -/
def isNameChar (c : Char) : Bool := isTchar c && !c.isUpper

/-- `http::HeaderName`: a lower-case token. -/
abbrev HeaderName := {s : Str // s ≠ [] ∧ s.all isNameChar = true}

/-- `HeaderName::from_bytes` lowers the case of a token and refuses anything else. -/
def HeaderName.parse (s : Str) : Option HeaderName :=
  if h : s.map Char.toLower ≠ [] ∧ (s.map Char.toLower).all isNameChar = true then
    some ⟨s.map Char.toLower, h⟩
  else none

/-- No control byte but tab. -/
def isValueByte (b : UInt8) : Bool := (32 ≤ b.toNat && b.toNat != 127) || b.toNat == 9

/-- `http::HeaderValue`. -/
abbrev HeaderValue := {bs : Bytes // bs.all isValueByte = true}

/-- `HeaderValue::from_str`. -/
def HeaderValue.parse (s : Str) : Option HeaderValue :=
  if h : (encode s).all isValueByte = true then some ⟨encode s, h⟩ else none

/-- `HeaderValue::to_str`: only visible ASCII and tab have a text. -/
def HeaderValue.toStr (v : HeaderValue) : Option Str :=
  if v.1.all (fun b => (32 ≤ b.toNat && b.toNat < 127) || b.toNat == 9) then
    some (v.1.map fun b => Char.ofNat b.toNat)
  else none

/-- `http::HeaderMap`: a multimap that keeps the values of a name together. -/
abbrev HeaderMap := List (HeaderName × HeaderValue)

namespace HeaderMap

/-- `HeaderMap::append`: after the values the name already has. -/
def append : HeaderMap → HeaderName → HeaderValue → HeaderMap
  | [], n, v => [(n, v)]
  | p :: m, n, v =>
    if p.1 = n ∧ n ∉ m.map Prod.fst then p :: (n, v) :: m else p :: append m n v

/-- `HeaderMap::get_all`. -/
def values (m : HeaderMap) (n : HeaderName) : List HeaderValue :=
  (m.filter fun p => p.1 = n).map Prod.snd

/-- `HeaderMap::get`: the first value. -/
def get (m : HeaderMap) (n : HeaderName) : Option HeaderValue := (values m n).head?

theorem values_append (m : HeaderMap) (n k : HeaderName) (v : HeaderValue) :
    values (append m n v) k = values m k ++ if n = k then [v] else [] := by
  induction m with
  | nil => by_cases h : n = k <;> simp [append, values, h]
  | cons p m ih =>
    unfold append
    by_cases hc : p.1 = n ∧ n ∉ m.map Prod.fst
    · rw [if_pos hc]
      obtain ⟨hp, hm⟩ := hc
      by_cases hk : n = k
      · -- the name has no further value behind `p`
        have hnil : m.filter (fun q => decide (q.1 = k)) = [] := by
          rw [List.filter_eq_nil_iff]
          intro q hq; simp only [decide_eq_true_eq]; intro hqk
          exact hm (List.mem_map.2 ⟨q, hq, hqk.trans hk.symm⟩)
        simp [values, hp, hk, hnil]
      · simp [values, List.filter_cons, hk]
    · rw [if_neg hc]
      have : values (p :: append m n v) k =
          (if p.1 = k then [p.2] else []) ++ values (append m n v) k := by
        by_cases hp : p.1 = k <;> simp [values, hp]
      rw [this, ih]
      by_cases hp : p.1 = k <;> simp [values, hp]

end HeaderMap

/-- A path and query behind an authority: empty, or from the first `/` or `?` on. -/
abbrev PathAndQuery := {s : Str // s = [] ∨ s.head? = some '/' ∨ s.head? = some '?'}

/-- `PathAndQuery::slash`. -/
def PathAndQuery.slash : PathAndQuery := ⟨['/'], by decide⟩

/-- `http::Uri`, by the form of the request target it stands for. -/
inductive Uri where
  | absolute (scheme authority : Str) (pathAndQuery : PathAndQuery)
  | authority (a : Str)
  | origin (pathAndQuery : PathAndQuery)
  | asterisk
deriving DecidableEq

namespace Uri

def scheme : Uri → Option Str
  | absolute s _ _ => some s
  | _ => none

/-- A URI with its scheme set, by `Uri::into_parts` and `Uri::from_parts`: a scheme needs an
authority and a path. -/
def withScheme (s : Str) : Uri → Option Uri
  | absolute _ a pq => some (absolute s a pq)
  | _ => none

/-- The path and query as `Display` writes them: a missing path reads `/`. -/
def displayPath (pq : PathAndQuery) : Str :=
  if pq.1.head? = some '/' then pq.1 else '/' :: pq.1

/-- `Display` for `Uri`. -/
def display : Uri → Str
  | absolute s a pq => s ++ "://".toList ++ a ++ displayPath pq
  | authority a => a
  | origin pq => displayPath pq
  | asterisk => ['*']

/-- `Uri::path_and_query`, as text. -/
def pathAndQuery : Uri → Option Str
  | absolute _ _ pq => some (if pq.1 = [] then ['/'] else pq.1)
  | authority _ => none
  | origin pq => some (if pq.1 = [] then ['/'] else pq.1)
  | asterisk => some ['*']

/-- An authority without its user information. -/
def hostPort (a : Str) : Str := ((rsplitOnce '@' a).map Prod.snd).getD a

/-- `Authority::host`: what follows the user information, without the port. -/
def authorityHost (a : Str) : Str :=
  if (hostPort a).head? = some '[' then
    match splitOnce ']' (hostPort a) with
    | some (h, _) => h ++ [']']
    | none => hostPort a
  else splitFirst ':' (hostPort a)

/-- `Authority::port_u16`. -/
def authorityPort (a : Str) : Option ℕ :=
  let afterHost := (hostPort a).drop (authorityHost a).length
  if afterHost.head? = some ':' then fromStrRadix 10 65536 afterHost.tail else none

/-- `Uri::host`. -/
def host : Uri → Option Str
  | absolute _ a _ => some (authorityHost a)
  | authority a => some (authorityHost a)
  | _ => none

end Uri

/-- `/`, `?` and `#` end the authority of a URI. -/
def endsAuthority (c : Char) : Bool := c = '/' || c = '?' || c = '#'

/-- What the proxy uses of the `http` crate's tables and parsers. -/
structure HttpCrate where
  /-- `str::parse::<Uri>`. -/
  parseUri : Str → Option Uri
  /-- The generic syntax of RFC 3986: the authority of `scheme://...` runs up to the
  first `/`, `?` or `#`. -/
  parseUri_absolute : ∀ (scheme a rest : Str) (u : Uri),
    scheme ≠ [] → (∀ c ∈ scheme, c.isLower = true) → (∀ c ∈ a, endsAuthority c = false) →
    (∀ c, rest.head? = some c → endsAuthority c = true) →
    parseUri (scheme ++ "://".toList ++ a ++ rest) = some u → ∃ pq, u = .absolute scheme a pq
  /-- `StatusCode::canonical_reason`. -/
  canonicalReason : ℕ → Option Str
  /-- Reason phrases are visible ASCII and spaces. -/
  canonicalReason_text : ∀ n r, canonicalReason n = some r →
    ∀ c ∈ r, 32 ≤ c.toNat ∧ c.toNat < 127

namespace HttpCrate

/-- The path and query of a target, without its fragment. -/
def pathOf (s : Str) : PathAndQuery :=
  if h : s.takeWhile (· ≠ '#') = [] ∨ (s.takeWhile (· ≠ '#')).head? = some '/' ∨
      (s.takeWhile (· ≠ '#')).head? = some '?' then ⟨s.takeWhile (· ≠ '#'), h⟩
  else ⟨[], Or.inl rfl⟩

/-- The four forms of a target, told apart as the `http` crate does, with no test of their
characters. -/
def parseTarget (s : Str) : Option Uri :=
  if s = [] then none
  else if s = ['*'] then some .asterisk
  else if s.head? = some '/' then some (.origin (pathOf s))
  else
    match splitOnce ':' s with
    | some (scheme, '/' :: '/' :: r) =>
      some (.absolute scheme (r.takeWhile fun c => !endsAuthority c)
        (pathOf (r.dropWhile fun c => !endsAuthority c)))
    | _ => some (.authority s)

theorem parseTarget_absolute (scheme a rest : Str) (u : Uri) (hne : scheme ≠ [])
    (hs : ∀ c ∈ scheme, c.isLower = true) (ha : ∀ c ∈ a, endsAuthority c = false)
    (hr : ∀ c, rest.head? = some c → endsAuthority c = true)
    (h : parseTarget (scheme ++ "://".toList ++ a ++ rest) = some u) :
    ∃ pq, u = .absolute scheme a pq := by
  obtain ⟨c, cs, rfl⟩ := List.exists_cons_of_ne_nil hne
  have hc : c.isLower = true := hs c List.mem_cons_self
  have hslash : c ≠ '/' := by rintro rfl; exact absurd hc (by decide)
  have hcolon : ':' ∉ c :: cs := fun hm => absurd (hs ':' hm) (by decide)
  have hsplit : splitOnce ':' (c :: cs ++ "://".toList ++ a ++ rest) =
      some (c :: cs, '/' :: '/' :: (a ++ rest)) := by
    have := splitOnce_append hcolon ('/' :: '/' :: (a ++ rest))
    simpa using this
  have hauth : (a ++ rest).takeWhile (fun c => !endsAuthority c) = a := by
    have hrest : rest.takeWhile (fun c => !endsAuthority c) = [] := by
      rcases rest with _ | ⟨d, ds⟩
      · rfl
      · simp [hr d rfl]
    rw [List.takeWhile_append_of_pos (by intro d hd; simp [ha d hd]), hrest, List.append_nil]
  unfold parseTarget at h
  rw [if_neg (by simp), if_neg (by simp), if_neg (by simpa using hslash), hsplit] at h
  simp only [Option.some.injEq, hauth] at h
  exact ⟨_, h.symm⟩

/-- The codes that occur in the proxy's own responses and their neighbours. -/
def reason : ℕ → Option Str
  | 101 => some "Switching Protocols".toList
  | 200 => some "OK".toList
  | 204 => some "No Content".toList
  | 304 => some "Not Modified".toList
  | 400 => some "Bad Request".toList
  | 404 => some "Not Found".toList
  | 502 => some "Bad Gateway".toList
  | _ => none

theorem reason_text (n : ℕ) (r : Str) (h : reason n = some r) :
    ∀ c ∈ r, 32 ≤ c.toNat ∧ c.toNat < 127 := by
  unfold reason at h
  split at h <;> simp only [Option.some.injEq, reduceCtorEq] at h <;> subst h <;> decide

/-- A crate to run the proxy with. -/
def basic : HttpCrate := ⟨parseTarget, parseTarget_absolute, reason, reason_text⟩

end HttpCrate

/-- `http::StatusCode`. -/
abbrev StatusCode := {n : ℕ // 100 ≤ n ∧ n < 1000}

def StatusCode.parse (n : ℕ) : Option StatusCode :=
  if h : 100 ≤ n ∧ n < 1000 then some ⟨n, h⟩ else none

/-- A frame of a streaming body. -/
inductive Frame where
  | data (bs : Bytes)
  | trailers (m : HeaderMap)

/-- `Body`: fully buffered, or the frames that will arrive, one of which may be an
error. -/
inductive Body where
  | full (bs : Bytes)
  | streaming (frames : List (Except String Frame))

structure Request where
  method : Method
  uri : Uri
  headers : HeaderMap
  body : Body

structure Response where
  status : StatusCode
  headers : HeaderMap
  body : Body

/-- `ProxyError`. -/
inductive ProxyError where
  | io (message : String)
  | tls (message : String)
  | hyper (message : String)
  | http (message : String)
  | cert (message : String)
  | connection (message : String)
  | protocol (message : String)

/-- What an `anyhow::Error` of the proxy holds. -/
inductive AnyError where
  | io (e : IoError)
  | proxy (e : ProxyError)
  | parseInt
  | upstream (message : String)
  | msg (message : String)

/-- A function that does not return a value returns an error or panics. -/
inductive Fault where
  | error (e : AnyError)
  | panic (message : String)

end HexbufferProxy
