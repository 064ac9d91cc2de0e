import HexbufferProxy.Model.Tunnel

/-!
# What a tunnel delivers

* `carries_step`: no step loses, repeats or reorders a byte of either direction.
* `relayWebsocket_delivers`: a tunnel that waits for both directions delivers everything.
* `passthrough_delivers_iff`: one that ends with the first direction delivers everything exactly
  when the other one has nothing left at that moment.
-/

namespace HexbufferProxy

open Rust

/-- The other direction. -/
def Direction.flip : Direction → Direction
  | .clientToServer => .serverToClient
  | .serverToClient => .clientToServer

/-- The bytes of a pipe are those its sender had in the beginning. -/
structure Pipe.Carries (p : Pipe) (bs : Bytes) : Prop where
  bytes : p.received ++ p.rest = bs
  fin : p.fin = true → p.unsent = []
  done : p.done = true → p.rest = []

namespace Pipe

variable {p : Pipe} {bs : Bytes}

theorem Carries.start (bs : Bytes) : (Pipe.start bs).Carries bs := by
  refine ⟨rfl, ?_, ?_⟩
  · intro h; exact absurd h Bool.false_ne_true
  · intro h; exact absurd h Bool.false_ne_true

theorem rest_nil : p.rest = [] ↔ p.buf = [] ∧ p.arrived = [] ∧ p.unsent = [] := by
  unfold rest
  rw [List.append_eq_nil_iff, List.append_eq_nil_iff, and_assoc]

theorem Carries.send (h : p.Carries bs) (k : ℕ) : (p.send k).Carries bs := by
  have hrest : (p.send k).rest = p.rest := by
    simp only [rest, Pipe.send, List.append_assoc, List.take_append_drop]
  refine ⟨?_, ?_, ?_⟩
  · rw [hrest]; exact h.bytes
  · intro hf
    show p.unsent.drop k = []
    rw [h.fin hf, List.drop_nil]
  · intro hd
    rw [hrest]; exact h.done hd

theorem Carries.halfClose (h : p.Carries bs) : p.halfClose.Carries bs := by
  unfold Pipe.halfClose
  split
  · rename_i hu
    exact ⟨h.bytes, fun _ => hu, h.done⟩
  · exact h

theorem Carries.read (h : p.Carries bs) (k : ℕ) : (p.read k).Carries bs := by
  have hrest : (p.read k).rest = p.rest := by
    simp only [rest, Pipe.read]
    rw [List.append_assoc p.buf, List.take_append_drop]
  refine ⟨?_, h.fin, ?_⟩
  · rw [hrest]; exact h.bytes
  · intro hd
    rw [hrest]; exact h.done hd

theorem Carries.write (h : p.Carries bs) (k : ℕ) : (p.write k).Carries bs := by
  refine ⟨?_, h.fin, ?_⟩
  · rw [← h.bytes]
    simp only [rest, Pipe.write, List.append_assoc]
    rw [← List.append_assoc (p.buf.take k), List.take_append_drop]
  · intro hd
    obtain ⟨h1, h2, h3⟩ := rest_nil.1 (h.done hd)
    refine rest_nil.2 ⟨?_, h2, h3⟩
    show p.buf.drop k = []
    rw [h1, List.drop_nil]

/-- A copy loop returns only with everything delivered. -/
theorem Carries.rest_of_eof (h : p.Carries bs) (heof : p.atEof = true) : p.rest = [] := by
  unfold atEof at heof
  simp only [Bool.and_eq_true, List.isEmpty_iff] at heof
  obtain ⟨⟨hf, ha⟩, hb⟩ := heof
  exact rest_nil.2 ⟨hb, ha, h.fin hf⟩

theorem Carries.finish (h : p.Carries bs) (heof : p.atEof = true) : p.finish.Carries bs :=
  ⟨h.bytes, h.fin, fun _ => h.rest_of_eof heof⟩

theorem Carries.received_iff (h : p.Carries bs) : p.received = bs ↔ p.rest = [] := by
  rw [← h.bytes]
  constructor
  · intro hr
    exact List.append_right_eq_self.1 hr.symm
  · intro hr
    rw [hr, List.append_nil]

end Pipe

namespace Tunnel

variable {t : Tunnel} {total : Direction → Bytes} {ends : (Direction → Bool) → Bool}

/-- Both directions carry what they began with. -/
def Carries (t : Tunnel) (total : Direction → Bytes) : Prop := ∀ d, (t.pipe d).Carries (total d)

theorem carries_onPipe (h : t.Carries total) {d : Direction} {f : Pipe → Pipe}
    (hf : (f (t.pipe d)).Carries (total d)) : (t.onPipe d f).Carries total := by
  intro d'
  unfold onPipe
  by_cases hd : d' = d
  · subst hd
    simpa using hf
  · simpa [hd] using h d'

/-- **No step loses a byte**, whichever the tunnel. -/
theorem carries_step (h : t.Carries total) (e : TunnelStep) :
    (step ends t e).Carries total := by
  unfold step
  rcases hs : t.status with _ | _ | _
  case ended => exact h
  case failed => exact h
  case running =>
    cases e with
    | send d k => exact carries_onPipe h ((h d).send k)
    | halfClose d => exact carries_onPipe h (h d).halfClose
    | read d k => exact carries_onPipe h ((h d).read k)
    | write d k => exact carries_onPipe h ((h d).write k)
    | eof d =>
      simp only
      split
      · rename_i heof
        have hnext : (t.onPipe d Pipe.finish).Carries total :=
          carries_onPipe h ((h d).finish heof)
        split
        · exact hnext
        · exact hnext
      · exact h
    | fail => exact h

theorem carries_steps (ends : (Direction → Bool) → Bool) (h : t.Carries total)
    (es : List TunnelStep) : (es.foldl (step ends) t).Carries total := by
  induction es generalizing t with
  | nil => exact h
  | cons e es ih => exact ih (carries_step h e)

/-- A tunnel that is over stays as it is. -/
theorem steps_over (h : t.status ≠ .running) (es : List TunnelStep) :
    es.foldl (step ends) t = t := by
  induction es with
  | nil => rfl
  | cons e es ih =>
    have he : step ends t e = t := by
      unfold step
      rcases hs : t.status with _ | _ | _
      · exact absurd hs h
      · rfl
      · rfl
    rw [List.foldl_cons, he, ih]

/-- **What a step does to the status**: a copy loop that returns may end the tunnel, an error
fails it, and nothing else concerns it. -/
theorem step_cases (ends : (Direction → Bool) → Bool) (hr : t.status = .running)
    (e : TunnelStep) :
    (∃ d, e = .eof d ∧ (t.pipe d).atEof = true ∧ step ends t e =
      (if ends fun d' => ((t.onPipe d Pipe.finish).pipe d').done then
        { t.onPipe d Pipe.finish with status := .ended } else t.onPipe d Pipe.finish)) ∨
    ((step ends t e).status = .running ∧ ∀ d, e = .eof d → (t.pipe d).atEof = false) ∨
    ((step ends t e).status = .failed ∧ ∀ d, e ≠ .eof d) := by
  unfold step
  rw [hr]
  cases e with
  | eof d =>
    rcases heof : (t.pipe d).atEof with _ | _
    · refine Or.inr (Or.inl ⟨?_, ?_⟩)
      · simp only [heof]
        exact hr
      · intro d' hd
        rw [← TunnelStep.eof.inj hd]; exact heof
    · refine Or.inl ⟨d, rfl, heof, ?_⟩
      simp only [heof, if_true]
  | fail => exact Or.inr (Or.inr ⟨rfl, fun d => nofun⟩)
  | send d k => exact Or.inr (Or.inl ⟨hr, fun d => nofun⟩)
  | halfClose d => exact Or.inr (Or.inl ⟨hr, fun d => nofun⟩)
  | read d k => exact Or.inr (Or.inl ⟨hr, fun d => nofun⟩)
  | write d k => exact Or.inr (Or.inl ⟨hr, fun d => nofun⟩)

/-- A tunnel ends only when its loops have returned. -/
theorem steps_ended (hr : t.status = .running) (es : List TunnelStep)
    (he : (es.foldl (step ends) t).status = .ended) :
    ends (fun d => ((es.foldl (step ends) t).pipe d).done) = true := by
  induction es generalizing t with
  | nil => rw [List.foldl_nil, hr] at he; exact absurd he (by decide)
  | cons e es ih =>
    rw [List.foldl_cons] at he ⊢
    rcases step_cases ends hr e with ⟨d, rfl, -, hstep⟩ | ⟨hs, -⟩ | ⟨hs, -⟩
    · split at hstep
      · rename_i hends
        have hs : (step ends t (.eof d)).status = .ended := by rw [hstep]
        rw [steps_over (by rw [hs]; decide), hstep]
        exact hends
      · refine ih ?_ he
        rw [hstep]; exact hr
    · exact ih hs he
    · rw [steps_over (by rw [hs]; decide), hs] at he
      exact absurd he (by decide)

end Tunnel

/-- The bytes of the two directions of `Tunnel.start a b`. -/
def totals (a b : Bytes) : Direction → Bytes
  | .clientToServer => a
  | .serverToClient => b

theorem carries_start (a b : Bytes) : (Tunnel.start a b).Carries (totals a b) := by
  intro d
  cases d with
  | clientToServer => exact Pipe.Carries.start a
  | serverToClient => exact Pipe.Carries.start b

/-- **A tunnel that waits for both directions delivers everything.** -/
theorem relayWebsocket_delivers (a b : Bytes) (es : List TunnelStep)
    (he : (es.foldl relayWebsocket (Tunnel.start a b)).status = .ended) :
    ((es.foldl relayWebsocket (Tunnel.start a b)).pipe .clientToServer).received = a ∧
      ((es.foldl relayWebsocket (Tunnel.start a b)).pipe .serverToClient).received = b := by
  have hc := Tunnel.carries_steps (fun done => done .clientToServer && done .serverToClient)
    (carries_start a b) es
  have hover := Tunnel.steps_ended rfl es he
  simp only [Bool.and_eq_true] at hover
  exact ⟨(hc _).received_iff.2 ((hc _).done hover.1), (hc _).received_iff.2 ((hc _).done hover.2)⟩

/-- Whenever a copy loop returns and ends the tunnel, the other direction has nothing left: its
sender has sent all it has, and all of that has been copied. -/
def DrainedAtEof (t : Tunnel) : List TunnelStep → Prop
  | [] => True
  | e :: es =>
    (t.status = .running → ∀ d, e = .eof d → (t.pipe d).atEof = true →
      (t.pipe d.flip).rest = []) ∧ DrainedAtEof (passthrough t e) es

theorem drainedAtEof_over {t : Tunnel} (h : t.status ≠ .running) (es : List TunnelStep) :
    DrainedAtEof t es := by
  induction es with
  | nil => trivial
  | cons e es ih =>
    have he : passthrough t e = t := Tunnel.steps_over h [e]
    refine ⟨fun hr => absurd hr h, ?_⟩
    rw [he]; exact ih

theorem passthrough_steps {t : Tunnel} {total : Direction → Bytes} (hc : t.Carries total)
    (hr : t.status = .running) (es : List TunnelStep)
    (he : (es.foldl passthrough t).status = .ended) :
    (∀ d, ((es.foldl passthrough t).pipe d).received = total d) ↔ DrainedAtEof t es := by
  induction es generalizing t with
  | nil => rw [List.foldl_nil, hr] at he; exact absurd he (by decide)
  | cons e es ih =>
    rw [List.foldl_cons] at he ⊢
    have hnext : (passthrough t e).Carries total := Tunnel.carries_step hc e
    rcases Tunnel.step_cases (fun done => done .clientToServer || done .serverToClient) hr e with
      ⟨d, rfl, heof, hstep⟩ | ⟨hs, hno⟩ | ⟨hs, hno⟩
    · -- the first loop that returns ends the tunnel
      have hends : ((((t.onPipe d Pipe.finish).pipe .clientToServer).done ||
          ((t.onPipe d Pipe.finish).pipe .serverToClient).done) : Bool) = true := by
        cases d <;> simp [Tunnel.onPipe, Pipe.finish]
      have hlast : passthrough t (.eof d) = { t.onPipe d Pipe.finish with status := .ended } :=
        hstep.trans (if_pos hends)
      have hstop : (passthrough t (.eof d)).status ≠ .running := by
        rw [hlast]; exact fun h => TunnelStatus.noConfusion h
      have hrecv : ∀ d', ((passthrough t (.eof d)).pipe d').received = (t.pipe d').received := by
        intro d'
        rw [hlast]
        by_cases hd : d' = d
        · subst hd
          simp [Tunnel.onPipe, Pipe.finish]
        · simp [Tunnel.onPipe, hd]
      have hover : es.foldl passthrough (passthrough t (.eof d)) = passthrough t (.eof d) :=
        Tunnel.steps_over hstop es
      rw [hover]
      constructor
      · intro h
        refine ⟨?_, drainedAtEof_over hstop es⟩
        intro _ d' hd' _
        rw [← TunnelStep.eof.inj hd']
        rw [← (hc d.flip).received_iff, ← hrecv]
        exact h d.flip
      · intro h d'
        rw [hrecv, (hc d').received_iff]
        by_cases hd : d' = d
        · rw [hd]; exact (hc d).rest_of_eof heof
        · have hflip : d' = d.flip := by
            cases d <;> cases d' <;> first | rfl | exact absurd rfl hd
          rw [hflip]; exact h.1 hr d rfl heof
    · -- no end of stream yet
      rw [ih hnext hs he]
      constructor
      · intro h
        refine ⟨?_, h⟩
        intro _ d hd heof
        rw [hno d hd] at heof; exact absurd heof Bool.false_ne_true
      · exact fun h => h.2
    · -- a tunnel that has failed does not end
      have hover : es.foldl passthrough (passthrough t e) = passthrough t e :=
        Tunnel.steps_over (by rw [show (passthrough t e).status = .failed from hs]; decide) es
      rw [hover, show (passthrough t e).status = .failed from hs] at he
      exact absurd he (by decide)

/-- **A tunnel that ends with the first direction delivers everything exactly when the other one
has nothing left at that moment.** -/
theorem passthrough_delivers_iff (a b : Bytes) (es : List TunnelStep)
    (he : (es.foldl passthrough (Tunnel.start a b)).status = .ended) :
    (((es.foldl passthrough (Tunnel.start a b)).pipe .clientToServer).received = a ∧
      ((es.foldl passthrough (Tunnel.start a b)).pipe .serverToClient).received = b) ↔
      DrainedAtEof (Tunnel.start a b) es := by
  rw [← passthrough_steps (carries_start a b) rfl es he]
  constructor
  · rintro ⟨h1, h2⟩ d
    cases d with
    | clientToServer => exact h1
    | serverToClient => exact h2
  · intro h
    exact ⟨h .clientToServer, h .serverToClient⟩

/-- A client that sends its request and closes its side, and a server that has not answered. -/
def earlyClose : List TunnelStep :=
  [.send .clientToServer 3, .halfClose .clientToServer, .read .clientToServer 3,
    .write .clientToServer 3, .eof .clientToServer, .send .serverToClient 5]

/-- The same client, with a server that answers first. -/
def lateClose : List TunnelStep :=
  [.send .clientToServer 3, .read .clientToServer 3, .write .clientToServer 3,
    .send .serverToClient 5, .read .serverToClient 5, .write .serverToClient 5,
    .halfClose .clientToServer, .eof .clientToServer]

/-- The tunnel does not keep its promise to a client that closes its side first. -/
theorem passthrough_early_close :
    ¬ ∀ (a b : Bytes) (es : List TunnelStep),
      (es.foldl passthrough (Tunnel.start a b)).status = .ended →
      ((es.foldl passthrough (Tunnel.start a b)).pipe .clientToServer).received = a ∧
        ((es.foldl passthrough (Tunnel.start a b)).pipe .serverToClient).received = b := by
  intro h
  have hlost := (h (lit "GET") (lit "reply") earlyClose (by decide)).2
  exact absurd hlost (by decide)

theorem passthrough_late_close :
    (((lateClose.foldl passthrough (Tunnel.start (lit "GET") (lit "reply"))).pipe
        .clientToServer).received = lit "GET" ∧
      ((lateClose.foldl passthrough (Tunnel.start (lit "GET") (lit "reply"))).pipe
        .serverToClient).received = lit "reply") ↔
      DrainedAtEof (Tunnel.start (lit "GET") (lit "reply")) lateClose :=
  passthrough_delivers_iff (lit "GET") (lit "reply") lateClose (by decide)

end HexbufferProxy
