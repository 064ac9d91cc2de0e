import HexbufferProxy.Proof.Flow
import HexbufferProxy.Spec.Connect

/-!
# CONNECT and the first read

`handle_client` takes the bytes of its first read for the whole head, and leaves the rest of the
stream to the tunnel.

* `connectTarget_head`: from the complete head it reads the right target.
* `handleClient_opens_iff`: the tunnel gets the client's bytes exactly when the first read has
  returned the head, no less and no more.
-/

namespace HexbufferProxy

open Rust Rust.Proc

namespace ConnectHead

variable (h : ConnectHead)

theorem lines_bytes (d : Bytes) :
    lines (fromUtf8Lossy (h.bytes ++ d)) = h.requestLine :: lines (fromUtf8Lossy (h.fields ++ d)) := by
  have hline : '\n' ∉ h.requestLine := by
    unfold requestLine
    intro hm
    rcases List.mem_append.1 hm with hm | hm
    · rcases List.mem_append.1 hm with hm | hm
      · exact absurd hm (by decide)
      · exact absurd (h.target_word _ hm) (by decide)
    · rcases List.mem_cons.1 hm with hm | hm
      · exact absurd hm (by decide)
      · exact h.version_line hm
  have hbytes : h.bytes ++ d = encode (h.requestLine ++ ['\r', '\n']) ++ (h.fields ++ d) := by
    unfold bytes
    rw [encode_append, List.append_assoc, List.append_assoc, List.append_assoc]
    rfl
  rw [hbytes, lossy_encode, List.append_assoc]
  exact lines_crlf hline _

theorem splitWhitespace_requestLine :
    ∃ rest, splitWhitespace h.requestLine = "CONNECT".toList :: h.target :: rest := by
  have hsplit : h.requestLine = "CONNECT".toList ++ ' ' :: (h.target ++ ' ' :: h.version) := by
    unfold requestLine
    rw [List.append_assoc]
    rfl
  refine ⟨splitWhitespace h.version, ?_⟩
  rw [hsplit, splitWhitespace_cons (by decide) (by decide) (by decide),
    splitWhitespace_cons h.target_word h.target_ne (by decide)]

/-- **The target is read off the head.** -/
theorem connectTarget_head : connectTarget h.bytes = some h.endpoint := by
  obtain ⟨rest, hw⟩ := h.splitWhitespace_requestLine
  have hl := h.lines_bytes []
  rw [List.append_nil] at hl
  unfold connectTarget
  rw [hl]
  simp only [List.head?_cons, Option.bind_some, hw, List.getElem?_cons_succ,
    List.getElem?_cons_zero, Option.map_some]
  rfl

theorem bytes_connect : (lit "CONNECT").isPrefixOf h.bytes = true := by
  rw [List.isPrefixOf_iff_prefix]
  unfold bytes requestLine lit
  rw [encode_append, encode_append, List.append_assoc, List.append_assoc]
  exact (List.prefix_append (encode "CONNECT".toList) (encode [' '] ++ _))

end ConnectHead

variable {ω : Type} {env : Env ω} {handler : HttpHandler ω} {ws : Option (WebSocketHandler ω)}

/-! ## Which events hand the client over -/

/-- The client's stream goes to a tunnel, or to TLS. -/
def Event.isTunnel : Event → Bool
  | tunnel .. | tlsAccept .. => true
  | _ => false

variable {ω : Type} {env : Env ω} {users : List (UserHandler ω)}
  {ws : Option (WebSocketHandler ω)}

/-- The plain path opens no tunnel. -/
theorem handleHttp_notTunnel (env : Env ω) (users : List (UserHandler ω))
    (ws : Option (WebSocketHandler ω)) (client : Source) (addr : SocketAddr) (n : ℕ)
    (bytes : Bytes) (s : World ω) :
    ∀ e ∈ (handleHttp env (proxyHandler env.enabled users) ws client addr n bytes s).events,
      e.isTunnel = false := by
  have hkey : Ensures Event.isContact 1
      (handleHttp env (proxyHandler env.enabled users) ws client addr n bytes) (fun _ => True)
      (fun e => e.isTunnel = false) := by
    apply handleHttp_events
    · intro e he
      cases e <;> first | rfl | exact absurd he.symm Bool.false_ne_true
    · intro _ _
      rfl
  exact (hkey s).2.1

/-- **`handle_https` hands on the client it was given**, to a tunnel for the target it was
given. -/
theorem handleHttps_enters (client : Source) (target : Str) (addr : SocketAddr) (s : World ω) :
    EntersTunnel target client.bytes
      (handleHttps env (proxyHandler env.enabled users) ws client target addr s).events := by
  have hkey : Ensures (fun _ => false) 0
      (handleHttps env (proxyHandler env.enabled users) ws client target addr) (fun _ => True)
      (fun e => e.isTunnel = false ∨ (∃ server, e = .tunnel target client server) ∨
        e = .tlsAccept (targetHost target) client) := by
    apply ensures_handleHttps
    · intro e he
      cases e <;> first | exact Or.inl rfl | exact absurd he Bool.false_ne_true
    · refine (proxyHandler_intercept env.enabled users _).mono (Nat.le_refl 0) (fun _ h => h) ?_
      intro e he
      cases e <;> first | exact Or.inl rfl | exact absurd he Bool.false_ne_true
    · exact Or.inl rfl
    · exact fun server => Or.inr (Or.inl ⟨server, rfl⟩)
    · exact Or.inr (Or.inr rfl)
    · intro cert w reqs _ req _
      apply serveRequest_events
      intro e he
      cases e <;> first | exact Or.inl rfl | exact absurd he.symm Bool.false_ne_true
  obtain ⟨-, hev, -⟩ := hkey s
  refine ⟨?_, ?_⟩
  · intro t c srv hm
    rcases hev _ hm with h | ⟨server, h⟩ | h
    · exact absurd h (by simp [Event.isTunnel])
    · simp only [Event.tunnel.injEq] at h
      exact ⟨h.1, by rw [h.2.1]⟩
    · exact nomatch h
  · intro host c hm
    rcases hev _ hm with h | ⟨server, h⟩ | h
    · exact absurd h (by simp [Event.isTunnel])
    · exact nomatch h
    · simp only [Event.tlsAccept.injEq] at h
      exact ⟨h.1, by rw [h.2]⟩

/-! ## The first read -/

/-- A proxy that tunnels everything. -/
def tunnelEnv : Env Unit := Env.basic (fun _ => false) ⟨[], none⟩ badGateway []

/-- A disabled proxy hands every client of `handle_https` to a tunnel. -/
theorem tunnelEnv_tunnels (client : Source) (target : Str) (addr : SocketAddr) :
    (handleHttps tunnelEnv (proxyHandler tunnelEnv.enabled []) none client target addr
      ⟨(), 0⟩).events = [.toClient established, .connect target, .tunnel target client ⟨[], none⟩] :=
  rfl

variable (h : ConnectHead) {d : Bytes} {client : Source}

/-- The tunnel gets its bytes if the first read has returned the head. -/
theorem opensTunnel_of_read (hs : client.bytes = h.bytes ++ d) {behind : Source}
    (hread : client.read 4096 = (.ok h.bytes, behind)) : OpensTunnel h d client := by
  intro ω env users ws peer bufSize
  have hbehind : behind.bytes = d := by
    obtain ⟨hb, -, -⟩ := Source.read_ok hread
    rw [hs] at hb
    exact (List.append_cancel_left hb).symm
  have hrun : handleClient env (proxyHandler env.enabled users) ws peer client bufSize =
      handleHttps env (proxyHandler env.enabled users) ws behind h.endpoint
        (peer.getD ⟨"127.0.0.1", 0⟩) := by
    unfold handleClient
    rw [hread]
    simp only [h.bytes_connect, if_true, h.connectTarget_head]
  refine ⟨⟨behind, hrun⟩, ?_⟩
  intro s
  rw [hrun, ← hbehind]
  exact handleHttps_enters behind h.endpoint _ s

/-- Where the tunnel gets its bytes, the first read has returned the head. -/
theorem read_of_opensTunnel (hs : client.bytes = h.bytes ++ d) (hopen : OpensTunnel h d client) :
    ∃ behind, client.read 4096 = (.ok h.bytes, behind) := by
  obtain ⟨⟨c, hrun⟩, henters⟩ := hopen Unit tunnelEnv [] none none 1
  have hevents := tunnelEnv_tunnels c h.endpoint ⟨"127.0.0.1", 0⟩
  have hmem : Event.tunnel h.endpoint c ⟨[], none⟩ ∈
      (handleClient tunnelEnv (proxyHandler tunnelEnv.enabled []) none none client 1
        ⟨(), 0⟩).events := by
    rw [hrun]
    show _ ∈ (handleHttps tunnelEnv (proxyHandler tunnelEnv.enabled []) none c h.endpoint
      ⟨"127.0.0.1", 0⟩ ⟨(), 0⟩).events
    rw [hevents]
    simp
  unfold handleClient at hmem henters
  rcases hread : client.read 4096 with ⟨r, behind⟩
  rw [hread] at hmem henters
  rcases r with e | buffer
  · -- the read has failed: nothing happens
    exact absurd hmem List.not_mem_nil
  simp only at hmem henters
  rcases hp : (lit "CONNECT").isPrefixOf buffer with _ | _
  · -- the request goes down the plain path, which has no tunnel
    rw [hp, if_neg Bool.false_ne_true] at hmem
    have hplain := handleHttp_notTunnel tunnelEnv [] none behind ⟨"127.0.0.1", 0⟩ 1 buffer ⟨(), 0⟩
    exact absurd (hplain _ hmem) (by simp [Event.isTunnel])
  · rw [hp, if_pos rfl] at hmem henters
    rcases ht : connectTarget buffer with _ | target
    · rw [ht] at hmem
      exact absurd hmem List.not_mem_nil
    · rw [ht] at hmem henters
      -- what enters this tunnel is all that the first read has left
      have hin := tunnelEnv_tunnels behind target ⟨"127.0.0.1", 0⟩
      have hbehind := ((henters ⟨(), 0⟩).1 target behind ⟨[], none⟩ (by
        show _ ∈ (handleHttps tunnelEnv (proxyHandler tunnelEnv.enabled []) none behind target
          ⟨"127.0.0.1", 0⟩ ⟨(), 0⟩).events
        rw [hin]
        simp)).2
      obtain ⟨hb, -, -⟩ := Source.read_ok hread
      rw [hs, hbehind] at hb
      exact ⟨behind, by rw [List.append_cancel_right hb]⟩

/-- **The tunnel gets the client's bytes exactly when the first read has returned the head**, no
less of it, and nothing behind it. -/
theorem handleClient_opens_iff (hs : client.bytes = h.bytes ++ d) :
    OpensTunnel h d client ↔ ∃ behind, client.read 4096 = (.ok h.bytes, behind) := by
  constructor
  · exact read_of_opensTunnel h hs
  · rintro ⟨behind, hread⟩
    exact opensTunnel_of_read h hs hread

/-- `CONNECT a.example:443 HTTP/1.1`, with one header. -/
def exampleConnect : ConnectHead where
  target := "a.example:443".toList
  version := "HTTP/1.1".toList
  fields := lit "Host: a.example\r\n\r\n"
  target_ne := by decide
  target_word := by decide
  version_line := by decide
  complete := by decide

/-- A client that starts the tunnel in the segment of its head, and one that waits. -/
def earlyData : Source := ⟨[⟨exampleConnect.bytes ++ lit "hello", by decide⟩], none⟩

def lateData : Source :=
  ⟨[⟨exampleConnect.bytes, by decide⟩, ⟨lit "hello", by decide⟩], none⟩

/-- Early data is lost. -/
theorem handleClient_early_data :
    ¬ ∀ (h : ConnectHead) (d : Bytes) (client : Source), client.bytes = h.bytes ++ d →
      OpensTunnel h d client := by
  intro hall
  have hopen := hall exampleConnect (lit "hello") earlyData (by decide)
  obtain ⟨behind, hread⟩ := read_of_opensTunnel exampleConnect (by decide) hopen
  have hfst : (earlyData.read 4096).1 = .ok exampleConnect.bytes := by rw [hread]
  exact absurd hfst (by decide)

theorem handleClient_opens_late :
    OpensTunnel exampleConnect (lit "hello") lateData ↔
      ∃ behind, lateData.read 4096 = (.ok exampleConnect.bytes, behind) :=
  handleClient_opens_iff exampleConnect (by decide)

end HexbufferProxy
