import HexbufferProxy.Proof.Deliver
import HexbufferProxy.Proof.Host
import HexbufferProxy.Proof.Reader

/-!
# The body that handlers are given

`parse_raw_request` takes everything behind the head for the body. `handleHttp_body_iff` says for
which buffers that is the body of the request in front.
-/

namespace HexbufferProxy

open Rust Rust.Proc

variable {ω : Type}

namespace BufferedRequest

/-- What is parsed is the body as it was sent, and all that follows it. -/
theorem parsed_body (m : BufferedRequest) {http : HttpCrate} {r : Request}
    (h : parseRawRequest http m.bytes = .ok r) : r.body = .full (m.wire ++ m.rest) := by
  rw [(parseRawRequest_ok h).2.2]
  unfold bytes
  rw [bodyAfterHead_headBytes (requestLine_line m.method m.target_word)]

/-- **That is the body** exactly when nothing had to be taken off, and nothing follows. -/
theorem whole_iff (m : BufferedRequest) :
    m.wire ++ m.rest = m.body ↔ framing m.fields ≠ .chunked ∧ m.rest = [] := by
  obtain ⟨method, target, fields, wire, body, rest, hword, hframed⟩ := m
  dsimp only at hframed ⊢
  generalize framing fields = fr at hframed ⊢
  cases hframed with
  | chunked b he =>
    refine ⟨?_, fun h => absurd rfl h.1⟩
    intro h
    -- a chunked body is longer than what it says
    have hlt := b.data_lt
    rw [← h, List.length_append] at hlt
    omega
  | length =>
    refine ⟨?_, ?_⟩
    · intro h
      exact ⟨Framing.noConfusion, List.append_right_eq_self.1 h⟩
    · rintro ⟨-, rfl⟩
      exact List.append_nil wire
  | none =>
    refine ⟨?_, ?_⟩
    · intro h
      exact ⟨Framing.noConfusion, h⟩
    · rintro ⟨-, rfl⟩
      rfl

end BufferedRequest

theorem absoluteRequest_body {env : Env ω} {scheme host : Str} {req q : Request}
    (h : absoluteRequest env scheme host req = some q) : q.body = req.body := by
  unfold absoluteRequest at h
  split at h
  · rw [← Option.some.inj h]
  · obtain ⟨u, -, rfl⟩ := Option.map_eq_some_iff.1 h
    rfl

/-- A request is sent on with the body that it has been parsed with, if no handler changes it. -/
theorem handleHttp_sends {env : Env ω} {users : List (UserHandler ω)} {b : Body} {raw : Bytes}
    (hkeep : ∀ u ∈ users, u.Respects fun _ q => q.body = b)
    (hparse : ∀ r, parseRawRequest env.http raw = .ok r → r.body = b)
    (ws : Option (WebSocketHandler ω)) (client : Source) (addr : SocketAddr) (n : ℕ) (x : World ω)
    {q : Request} (h : Event.sendRequest q ∈
      (handleHttp env (proxyHandler env.enabled users) ws client addr n raw x).events) :
    q.body = b := by
  have htransfer : ∀ e : Event, e.isTransfer = true → ∀ q, e = .sendRequest q → q.body = b := by
    rintro e he q rfl
    exact absurd he Bool.false_ne_true
  have hens : Ensures Event.isContact 1
      (handleHttp env (proxyHandler env.enabled users) ws client addr n raw) (fun _ => True)
      (fun e => ∀ q, e = .sendRequest q → q.body = b) := by
    apply ensures_handleHttp htransfer (fun _ _ r => ∀ q, r.1 = .ok (.request q) → q.body = b)
    · intro request host id hr _
      rw [proxyHandler_request]
      refine (stack_respects users 0 ⟨id, host, addr, false⟩ request hkeep (hparse request hr)).mono
        (Nat.le_refl 0) (fun _ h => h) ?_
      rintro _ ⟨_, _, _, _, rfl, -⟩ q hq
      exact nomatch hq
    · rintro request host (q | res) ctx _ _ hgood
      · refine ensures_answerHttp htransfer ?_ ?_ ?_ ?_
        · exact ensures_handleResponse env.enabled users fun _ _ _ q hq => nomatch hq
        · exact fun _ q hq => nomatch hq
        · exact fun _ _ _ q hq => nomatch hq
        · intro _ q' hq' q'' hq''
          rw [← Event.sendRequest.inj hq'', absoluteRequest_body hq']
          exact hgood q rfl
      · exact (ensures_answerHttp_response htransfer _ _ _ _ _ _ _ _).mono (Nat.zero_le 1)
          (fun _ h => h) (fun _ h => h)
  exact (hens x).2.1 _ h q rfl

/-- **The handlers are given the body of the request in front**, and it is what is sent on, exactly
when it is not chunked and nothing follows it in the buffer. -/
theorem handleHttp_body_iff (env : Env ω) (users : List (UserHandler ω))
    (ws : Option (WebSocketHandler ω)) (client : Source) (addr : SocketAddr) (n : ℕ) (x : World ω)
    (m : BufferedRequest) :
    (∀ r, parseRawRequest env.http m.bytes = .ok r →
      (r.body = .full m.body ↔ framing m.fields ≠ .chunked ∧ m.rest = [])) ∧
    (∀ ctx r d, Event.request 0 ctx r d ∈
        (handleHttp env (proxyHandler env.enabled users) ws client addr n m.bytes x).events →
      (r.body = .full m.body ↔ framing m.fields ≠ .chunked ∧ m.rest = [])) ∧
    ((∀ b, ∀ u ∈ users, u.Respects fun _ q => q.body = b) → ∀ q, Event.sendRequest q ∈
        (handleHttp env (proxyHandler env.enabled users) ws client addr n m.bytes x).events →
      (q.body = .full m.body ↔ framing m.fields ≠ .chunked ∧ m.rest = [])) := by
  have hiff : ∀ r : Request, r.body = .full (m.wire ++ m.rest) →
      (r.body = .full m.body ↔ framing m.fields ≠ .chunked ∧ m.rest = []) := by
    intro r hr
    rw [hr, ← m.whole_iff]
    exact ⟨Body.full.inj, congrArg Body.full⟩
  refine ⟨?_, ?_, ?_⟩
  · exact fun r hr => hiff r (m.parsed_body hr)
  · exact fun ctx r d h => hiff r (m.parsed_body (handleHttp_calls h).1)
  · intro hkeep q h
    exact hiff q (handleHttp_sends (hkeep _) (fun r hr => m.parsed_body hr) ws client addr n x h)

/-! ## A second request in the buffer -/

/-- `GET /` with a Host field, and what follows it. -/
theorem hostWord_ne : "Host".toList ≠ [] := by decide

theorem hostWord_token : "Host".toList.all isTchar = true := by decide

def bufferedGet (rest : Bytes) : BufferedRequest where
  method := .get
  target := ['/']
  fields := [⟨"Host".toList, lit " a.example", hostWord_ne, hostWord_token, by decide⟩]
  wire := []
  body := []
  rest := rest
  target_word := examplePost.target_word
  framed := RequestBody.none

/-- A pipelined request is taken for the body of the one in front of it. -/
theorem parseRawRequest_pipelined :
    ¬ ∀ (http : HttpCrate) (m : BufferedRequest) (r : Request),
      parseRawRequest http m.bytes = .ok r → r.body = .full m.body := by
  intro hall
  have hparse : ∃ r, parseRawRequest HttpCrate.basic
      (bufferedGet (lit "GET /2 HTTP/1.1\r\nHost: b.example\r\n\r\n")).bytes = .ok r := ⟨_, rfl⟩
  obtain ⟨r, hr⟩ := hparse
  have hempty := hall _ _ r hr
  rw [BufferedRequest.parsed_body _ hr] at hempty
  exact absurd (Body.full.inj hempty) (by decide +kernel)

theorem handleHttp_body_alone : ∃ r, parseRawRequest hostEnv.http (bufferedGet []).bytes = .ok r ∧
    (r.body = .full [] ↔ framing (bufferedGet []).fields ≠ .chunked ∧ ([] : Bytes) = []) := by
  have hparse : ∃ r, parseRawRequest hostEnv.http (bufferedGet []).bytes = .ok r := ⟨_, rfl⟩
  obtain ⟨r, hr⟩ := hparse
  exact ⟨r, hr, (handleHttp_body_iff hostEnv [] none ⟨[], none⟩ ⟨"127.0.0.1", 0⟩ 4096 ⟨(), 0⟩
    (bufferedGet [])).1 r hr⟩

end HexbufferProxy
