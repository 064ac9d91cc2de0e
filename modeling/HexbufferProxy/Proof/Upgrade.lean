import HexbufferProxy.Proof.Flow
import HexbufferProxy.Proof.Read
import HexbufferProxy.Spec.Upgrade

/-!
# The switch to another protocol

The reader of the 101 response stops at the first boundary between reads at which the head is
complete, and returns the head alone; what else it has read is gone.

* `readFullResponse_switching`: what the reader leaves is everything behind the head exactly when
  a boundary falls right there.
* `handleHttp_relays_iff`: so for the relay that `handle_http` starts.
-/

namespace HexbufferProxy

open Rust Rust.Proc Rust.Source

variable {U : Unicode} {n : ℕ} {s : Source} {w : Bytes}

/-- The head of a 101 has no body, whatever follows. -/
theorem SwitchingHead.noBody (h : SwitchingHead) :
    isNoBodyStatus (fromUtf8Lossy h.bytes) = true := by
  unfold isNoBodyStatus
  rw [h.code]
  decide

/-- The reader stops with the head and a part of what follows. -/
theorem fill_switching (hn : n ≠ 0) (h : SwitchingHead) (hs : s.bytes = h.bytes ++ w) :
    ∃ extra s', s.fill hasHeadEnd n [] = (.ok (.full (h.bytes ++ extra)), s') ∧
      headerEnd (h.bytes ++ extra) = h.bytes.length ∧ w = extra ++ s'.bytes ∧
      (extra = [] ↔ s.CutAt n h.bytes.length) := by
  obtain ⟨i, hi, hlen⟩ := h.complete
  have hpos : ∀ more, position crlfcrlf (h.bytes ++ more) = some i :=
    fun more => position_append hi more
  have hstop : hasHeadEnd ([] ++ s.bytes) = true := by
    unfold hasHeadEnd
    rw [List.nil_append, hs, hpos]; rfl
  obtain ⟨got, s', hfill, hreads, hgot, hfirst⟩ := fill_full hn hstop
  rw [List.nil_append] at hfill hgot
  obtain ⟨hbytes, -⟩ := reads_bytes hreads
  -- the head lies in what has been read
  obtain ⟨j, hj⟩ := Option.isSome_iff_exists.1 hgot
  have hij : j = i := by
    have h1 := position_append hj s'.bytes
    rw [← hbytes, hs, hpos] at h1
    exact (Option.some.inj h1).symm
  have hle : h.bytes.length ≤ got.length := by
    have h1 := (position_starts hj).length_le
    have h2 := position_lt hj
    simp only [crlfcrlf, List.length_cons, List.length_nil, List.length_drop] at h1
    omega
  obtain ⟨extra, hextra⟩ : h.bytes <+: got := by
    refine List.prefix_of_prefix_length_le (List.prefix_append h.bytes w) ?_ hle
    rw [← hs, hbytes]
    exact List.prefix_append _ _
  have hw : w = extra ++ s'.bytes := by
    have h1 := hs.symm.trans hbytes
    rw [← hextra, List.append_assoc] at h1
    exact List.append_cancel_left h1
  refine ⟨extra, s', by rw [hextra]; exact hfill, ?_, hw, ?_⟩
  · unfold headerEnd
    rw [hpos]
    exact hlen
  · constructor
    · intro h0
      refine ⟨got, s', hreads, ?_⟩
      rw [← hextra, h0, List.append_nil]
    · rintro ⟨pre, s₁, hpre, hplen⟩
      by_contra hne
      -- an earlier boundary, with the whole head in front of it, would have stopped the reader
      have hhead : pre = h.bytes := by
        have h1 := (reads_bytes hpre).1
        rw [hs] at h1
        exact (List.append_inj_left h1 hplen.symm).symm
      have hbefore := hfirst pre extra s₁ hpre hne (by rw [hhead]; exact hextra.symm)
      rw [List.nil_append, hhead] at hbefore
      unfold hasHeadEnd at hbefore
      rw [hi] at hbefore
      exact absurd hbefore (by simp)

/-- **The reader of a 101 response returns its head**, and leaves the bytes behind it to the next
reader exactly when a boundary between reads falls right behind the head. -/
theorem readFullResponse_switching (hn : n ≠ 0) (h : SwitchingHead)
    (hs : s.bytes = h.bytes ++ w) :
    (readFullResponse U s n).1 = .ok h.bytes ∧
      ((readFullResponse U s n).2.bytes = w ↔ s.CutAt n h.bytes.length) := by
  obtain ⟨extra, s', hfill, hend, hw, hcut⟩ := fill_switching hn h hs
  have hread : readFullResponse U s n = (.ok h.bytes, s') := by
    unfold readFullResponse readHttpBody
    rw [hfill]
    simp only [Filled.buf, hend, List.take_left, h.noBody, if_true, List.append_nil]
  rw [hread]
  refine ⟨rfl, ?_⟩
  rw [← hcut]
  constructor
  · intro hb
    rw [hw] at hb
    exact List.self_eq_append_left.1 hb
  · intro he
    rw [hw, he, List.nil_append]

/-! ## In `handle_http` -/

variable {ω : Type} {env : Env ω} {users : List (UserHandler ω)}
  {ws : Option (WebSocketHandler ω)}

/-- **The relay gets the upstream's bytes exactly when a read has ended right behind the 101
head.** -/
theorem handleHttp_relays_iff (env : Env ω) (users : List (UserHandler ω))
    (ws : Option (WebSocketHandler ω)) (hn : n ≠ 0) (h : SwitchingHead)
    (hstream : ∀ x, env.serverStream x = s) (hs : s.bytes = h.bytes ++ w) (client : Source)
    (addr : SocketAddr) (bytes : Bytes) (x : World ω) :
    ∀ got ∈ relayed
      (handleHttp env (proxyHandler env.enabled users) ws client addr n bytes x).events,
      got = w ↔ s.CutAt n h.bytes.length := by
  have hkey : Ensures Event.isContact 1
      (handleHttp env (proxyHandler env.enabled users) ws client addr n bytes) (fun _ => True)
      (fun e => ∀ framed ctx c server, e = .relay framed ctx c server →
        (server.bytes = w ↔ s.CutAt n h.bytes.length)) := by
    apply handleHttp_events
    · rintro e he framed ctx c server rfl
      exact absurd he.symm Bool.false_ne_true
    · intro x ctx framed ctx' c server he
      simp only [Event.relay.injEq] at he
      rw [← he.2.2.2, hstream]
      exact (readFullResponse_switching hn h hs).2
  intro got hgot
  obtain ⟨e, he, hrelay⟩ := List.mem_filterMap.1 hgot
  have hev := (hkey x).2.1 e he
  cases e with
  | relay framed ctx c server =>
    rw [← Option.some.inj hrelay]
    exact hev framed ctx c server rfl
  | _ => exact absurd hrelay (by simp)

/-- `HTTP/1.1 101 Switching Protocols`, with no fields. -/
def exampleSwitch : SwitchingHead where
  bytes := lit "HTTP/1.1 101 Switching Protocols\r\n\r\n"
  complete := ⟨_, rfl, rfl⟩
  code := by decide

/-- An upstream that speaks in the segment of its head, and one that waits. -/
def earlyServer : Source := ⟨[⟨exampleSwitch.bytes ++ lit "hi", by decide⟩], none⟩

def lateServer : Source := ⟨[⟨exampleSwitch.bytes, by decide⟩, ⟨lit "hi", by decide⟩], none⟩

def exampleUpgrade : Bytes :=
  lit "GET /ws HTTP/1.1\r\nHost: a.example\r\nUpgrade: websocket\r\nConnection: upgrade\r\n\r\n"

def upgradeEnv (server : Source) : Env Unit := Env.basic (fun _ => true) server badGateway []

/-- What the relay gets of an upstream, for a proxy without handlers. -/
def relayedFrom (server : Source) : List Bytes :=
  relayed (handleHttp (upgradeEnv server) (proxyHandler (fun _ => true) []) none
    ⟨[], none⟩ ⟨"127.0.0.1", 0⟩ 4096 exampleUpgrade ⟨(), 0⟩).events

/-- What an upstream says in the segment of its head is lost. -/
theorem handleHttp_early_server :
    ¬ ∀ (env : Env Unit) (users : List (UserHandler Unit)) (ws : Option (WebSocketHandler Unit))
      (n : ℕ) (h : SwitchingHead) (s : Source) (w : Bytes) (client : Source) (addr : SocketAddr)
      (bytes : Bytes) (x : World Unit), n ≠ 0 → (∀ x, env.serverStream x = s) →
      s.bytes = h.bytes ++ w → ∀ got ∈ relayed
        (handleHttp env (proxyHandler env.enabled users) ws client addr n bytes x).events,
        got = w := by
  intro hall
  have hlost : relayedFrom earlyServer = [[]] := by decide +kernel
  have hmem : ([] : Bytes) ∈ relayedFrom earlyServer := by
    rw [hlost]
    exact List.mem_singleton_self _
  have h := hall (upgradeEnv earlyServer) [] none 4096 exampleSwitch earlyServer
    (lit "hi") ⟨[], none⟩ ⟨"127.0.0.1", 0⟩ exampleUpgrade ⟨(), 0⟩ (by decide) (fun _ => rfl)
    (by decide) [] hmem
  exact absurd h (by decide)

theorem handleHttp_relays_late : relayedFrom lateServer = [lit "hi"] ∧
    lateServer.CutAt 4096 exampleSwitch.bytes.length := by
  have hkept : relayedFrom lateServer = [lit "hi"] := by decide +kernel
  have hmem : lit "hi" ∈ relayedFrom lateServer := by rw [hkept]; exact List.mem_singleton_self _
  exact ⟨hkept, (handleHttp_relays_iff (upgradeEnv lateServer) [] none (by decide) exampleSwitch
    (fun _ => rfl) (by decide) ⟨[], none⟩ ⟨"127.0.0.1", 0⟩ exampleUpgrade ⟨(), 0⟩ _ hmem).1 rfl⟩

end HexbufferProxy
