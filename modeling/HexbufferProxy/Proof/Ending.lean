import HexbufferProxy.Proof.Closing
import HexbufferProxy.Proof.Tunnel
import HexbufferProxy.Spec.Ending

/-!
# Tunnels and relays come to their end

* `tunnel_progress`: every step that moves a tunnel uses up one of its moves.
* `atRest_ended`: a tunnel in which nothing can move is over.
* `tunnels_complete`: so `relay_websocket` delivers everything, unless a stream fails.
* `relay_leaves`: a relay leaves its loop after as many rounds as there are items, and calls
  `on_close` once.
-/

namespace HexbufferProxy

open Rust

/-! ## One direction -/

/-- Bytes that are taken off: none, or some are gone. -/
theorem take_moves (bs : Bytes) (k : ℕ) : bs.take k = [] ∧ bs.drop k = bs ∨
    0 < (bs.take k).length ∧ (bs.take k).length + (bs.drop k).length = bs.length := by
  have happ := List.take_append_drop k bs
  by_cases h : bs.take k = []
  · refine .inl ⟨h, ?_⟩
    rwa [h, List.nil_append] at happ
  · refine .inr ⟨List.length_pos_iff.2 h, ?_⟩
    rw [← List.length_append, happ]

namespace Pipe

variable (p : Pipe)

theorem send_moves (k : ℕ) : p.send k = p ∨ (p.send k).left < p.left := by
  unfold left send
  rcases take_moves p.unsent k with ⟨htake, hdrop⟩ | ⟨hpos, hlen⟩
  · rw [htake, hdrop, List.append_nil]
    exact .inl rfl
  · right
    simp only [List.length_append]
    omega

theorem halfClose_moves : p.halfClose = p ∨ p.halfClose.left < p.left := by
  unfold halfClose
  split
  · cases hfin : p.fin with
    | true =>
      refine .inl ?_
      rw [← hfin]
    | false =>
      refine .inr ?_
      unfold left
      rw [hfin]
      simp only [if_true, if_false, Bool.false_eq_true]
      omega
  · exact .inl rfl

theorem read_moves (k : ℕ) : p.read k = p ∨ (p.read k).left < p.left := by
  unfold left read
  dsimp only
  rcases take_moves p.arrived (min k (copyBufSize - p.buf.length)) with ⟨htake, hdrop⟩ | ⟨hpos, hlen⟩
  · rw [htake, hdrop, List.append_nil]
    exact .inl rfl
  · right
    rw [List.length_append]
    omega

theorem write_moves (k : ℕ) : p.write k = p ∨ (p.write k).left < p.left := by
  unfold left write
  rcases take_moves p.buf k with ⟨htake, hdrop⟩ | ⟨hpos, hlen⟩
  · rw [htake, hdrop, List.append_nil]
    exact .inl rfl
  · right
    dsimp only
    omega

theorem finish_moves : p.finish = p ∨ p.finish.left < p.left := by
  cases hdone : p.done with
  | true =>
    refine .inl ?_
    unfold finish
    rw [← hdone]
  | false =>
    refine .inr ?_
    unfold left finish
    rw [hdone]
    simp only [if_true, if_false, Bool.false_eq_true]
    omega

/-- **A direction in which nothing moves has returned.** -/
theorem done_of_still (hsend : p.send 1 = p) (hclose : p.halfClose = p) (hread : p.read 1 = p)
    (hwrite : p.write 1 = p) (heof : p.atEof = true → p.finish = p) : p.done = true := by
  have hunsent : p.unsent = [] := by
    have h := congrArg (fun q : Pipe => q.unsent.length) hsend
    have hlen : (p.unsent.drop 1).length = p.unsent.length := h
    rw [List.length_drop] at hlen
    exact List.length_eq_zero_iff.1 (by omega)
  have hfin : p.fin = true := by
    unfold halfClose at hclose
    rw [if_pos hunsent] at hclose
    exact (congrArg Pipe.fin hclose).symm
  have hbuf : p.buf = [] := by
    have h := congrArg (fun q : Pipe => q.buf.length) hwrite
    have hlen : (p.buf.drop 1).length = p.buf.length := h
    rw [List.length_drop] at hlen
    exact List.length_eq_zero_iff.1 (by omega)
  have harrived : p.arrived = [] := by
    have h := congrArg (fun q : Pipe => q.arrived.length) hread
    have hlen : (p.arrived.drop (min 1 (copyBufSize - p.buf.length))).length = p.arrived.length := h
    rw [hbuf, List.length_drop] at hlen
    have hone : min 1 (copyBufSize - ([] : Bytes).length) = 1 := rfl
    rw [hone] at hlen
    exact List.length_eq_zero_iff.1 (by omega)
  have hend : p.atEof = true := by
    unfold atEof
    rw [hfin, harrived, hbuf]
    rfl
  exact (congrArg Pipe.done (heof hend)).symm

end Pipe

/-! ## Tunnels -/

namespace Tunnel

variable {ends : (Direction → Bool) → Bool} {t : Tunnel}

theorem onPipe_self {d : Direction} {f : Pipe → Pipe} (h : f (t.pipe d) = t.pipe d) :
    t.onPipe d f = t := by
  unfold onPipe
  rw [h, Function.update_eq_self]

theorem onPipe_left {d : Direction} {f : Pipe → Pipe} (h : (f (t.pipe d)).left < (t.pipe d).left) :
    (t.onPipe d f).left < t.left := by
  cases d with
  | clientToServer => exact Nat.add_lt_add_right h _
  | serverToClient => exact Nat.add_lt_add_left h _

theorem onPipe_moves {d : Direction} {f : Pipe → Pipe}
    (h : f (t.pipe d) = t.pipe d ∨ (f (t.pipe d)).left < (t.pipe d).left) :
    t.onPipe d f = t ∨ (t.onPipe d f).left < t.left :=
  h.imp onPipe_self onPipe_left

theorem onPipe_done {d : Direction} {f : Pipe → Pipe} (h : (f (t.pipe d)).done = (t.pipe d).done) :
    (fun d' => ((t.onPipe d f).pipe d').done) = fun d' => (t.pipe d').done := by
  funext d'
  unfold onPipe
  by_cases hd : d' = d
  · subst hd
    simpa using h
  · simp [hd]

/-- A step of a running tunnel, but for an I/O error. -/
theorem step_running (hr : t.status = .running) (hongoing : t.Ongoing ends) {e : TunnelStep}
    (he : e ≠ .fail) : (step ends t e).Ongoing ends ∧
      (step ends t e = t ∨ (step ends t e).left < t.left) := by
  have hplain : ∀ d f, (f (t.pipe d)).done = (t.pipe d).done →
      (f (t.pipe d) = t.pipe d ∨ (f (t.pipe d)).left < (t.pipe d).left) →
      (t.onPipe d f).Ongoing ends ∧ (t.onPipe d f = t ∨ (t.onPipe d f).left < t.left) := by
    intro d f hdone hmoves
    refine ⟨⟨hongoing.1, fun h => ?_⟩, onPipe_moves hmoves⟩
    rw [onPipe_done hdone]
    exact hongoing.2 h
  unfold step
  rw [hr]
  cases e with
  | send d k => exact hplain d _ rfl ((t.pipe d).send_moves k)
  | halfClose d =>
    refine hplain d _ ?_ (t.pipe d).halfClose_moves
    unfold Pipe.halfClose
    split
    · rfl
    · rfl
  | read d k => exact hplain d _ rfl ((t.pipe d).read_moves k)
  | write d k => exact hplain d _ rfl ((t.pipe d).write_moves k)
  | fail => exact absurd rfl he
  | eof d =>
    dsimp only
    split
    · -- the copy loop returns
      rcases (t.pipe d).finish_moves with hstill | hdrop
      · rw [onPipe_self hstill, if_neg (by rw [hongoing.2 hr]; exact Bool.false_ne_true)]
        exact ⟨hongoing, .inl rfl⟩
      · split
        · refine ⟨⟨fun h => TunnelStatus.noConfusion h, fun h => TunnelStatus.noConfusion h⟩, ?_⟩
          exact .inr (onPipe_left hdrop)
        · rename_i hends
          exact ⟨⟨hongoing.1, fun _ => Bool.eq_false_of_not_eq_true hends⟩,
            .inr (onPipe_left hdrop)⟩
    · exact ⟨hongoing, .inl rfl⟩

/-- **Every step that moves a tunnel uses up one of its moves**, unless a stream fails. -/
theorem tunnel_progress (ends : (Direction → Bool) → Bool) :
    Progress (step ends) (Ongoing ends) (· ≠ .fail) left := by
  have hover : ∀ t : Tunnel, t.status ≠ .running → ∀ e, step ends t e = t :=
    fun t h e => steps_over h [e]
  refine ⟨fun t e hongoing he => ?_, fun t e hongoing he => ?_⟩
  · by_cases hr : t.status = .running
    · exact (step_running hr hongoing he).1
    · rwa [hover t hr]
  · by_cases hr : t.status = .running
    · exact (step_running hr hongoing he).2
    · exact .inl (hover t hr e)

/-- **A tunnel in which nothing can move is over.** -/
theorem atRest_ended (hall : ends (fun _ => true) = true) (hongoing : t.Ongoing ends)
    (h : AtRest (step ends) (· ≠ .fail) t) : t.status = .ended := by
  rcases hs : t.status with _ | _ | _
  case ended => rfl
  case failed => exact absurd hs hongoing.1
  case running =>
    have hpipe : ∀ d f, t.onPipe d f = t → f (t.pipe d) = t.pipe d := by
      intro d f heq
      have hd := congrArg (fun u : Tunnel => u.pipe d) heq
      unfold onPipe at hd
      simpa using hd
    have hstep : ∀ e, e ≠ .fail → step ends t e = t := h
    unfold step at hstep
    rw [hs] at hstep
    have hdone : ∀ d, (t.pipe d).done = true := by
      intro d
      apply Pipe.done_of_still
      · exact hpipe d _ (hstep (.send d 1) TunnelStep.noConfusion)
      · exact hpipe d _ (hstep (.halfClose d) TunnelStep.noConfusion)
      · exact hpipe d _ (hstep (.read d 1) TunnelStep.noConfusion)
      · exact hpipe d _ (hstep (.write d 1) TunnelStep.noConfusion)
      · intro heof
        have heq := hstep (.eof d) TunnelStep.noConfusion
        dsimp only at heq
        rw [if_pos heof] at heq
        refine hpipe d _ ?_
        split at heq
        · exact TunnelStatus.noConfusion ((congrArg Tunnel.status heq).trans hs)
        · exact heq
    have hends := hongoing.2 hs
    rw [show (fun d => (t.pipe d).done) = fun _ => true from funext hdone, hall] at hends
    exact Bool.noConfusion hends

theorem ongoing_start (hnone : ends (fun _ => false) = false) (a b : Bytes) :
    (start a b).Ongoing ends := by
  refine ⟨fun h => TunnelStatus.noConfusion h, fun _ => ?_⟩
  have hdone : (fun d => ((start a b).pipe d).done) = fun _ => false := by
    funext d
    cases d with
    | clientToServer => rfl
    | serverToClient => rfl
  rw [hdone]
  exact hnone

theorem left_start (a b : Bytes) : (start a b).left = 3 * (a.length + b.length) + 4 := by
  show 3 * a.length + 2 * 0 + 0 + 1 + 1 + (3 * b.length + 2 * 0 + 0 + 1 + 1) = _
  omega

/-- A tunnel without failures has a bounded number of moves, is over when nothing can move, and can
always be brought to its end. -/
theorem comes_to_end (ends : (Direction → Bool) → Bool) (hnone : ends (fun _ => false) = false)
    (hall : ends (fun _ => true) = true) (a b : Bytes) {es : List TunnelStep}
    (hes : ∀ e ∈ es, e ≠ .fail) :
    (Moving (step ends) (start a b) es → es.length ≤ 3 * (a.length + b.length) + 4) ∧
      (AtRest (step ends) (· ≠ .fail) (es.foldl (step ends) (start a b)) →
        (es.foldl (step ends) (start a b)).status = .ended) ∧
      ∃ more : List TunnelStep, (∀ e ∈ more, e ≠ .fail) ∧
        more.length ≤ 3 * (a.length + b.length) + 4 ∧
        ((es ++ more).foldl (step ends) (start a b)).status = .ended := by
  have P := tunnel_progress ends
  have hstart := ongoing_start hnone a b
  have hongoing := P.run_keeps hes hstart
  refine ⟨fun h => ?_, atRest_ended hall hongoing, ?_⟩
  · exact (Nat.le_of_add_right_le (P.length_add_le hes hstart h)).trans_eq (left_start a b)
  · obtain ⟨more, hmore, hmoving, hrest⟩ := P.comes_to_rest hongoing
    refine ⟨more, hmore, ?_, ?_⟩
    · exact (Nat.le_of_add_right_le (P.length_add_le hmore hongoing hmoving)).trans
        ((P.measure_le hes hstart).trans_eq (left_start a b))
    · rw [List.foldl_append]
      exact atRest_ended hall (P.run_keeps hmore hongoing) hrest

end Tunnel

/-- When one of the copy loops of a tunnel to a target has returned, its direction is complete. -/
theorem passthrough_one {a b : Bytes} {es : List TunnelStep}
    (h : (es.foldl passthrough (Tunnel.start a b)).status = .ended) :
    ∃ d, ((es.foldl passthrough (Tunnel.start a b)).pipe d).received = totals a b d := by
  have hc := Tunnel.carries_steps (fun done => done .clientToServer || done .serverToClient)
    (carries_start a b) es
  have hover := Tunnel.steps_ended rfl es h
  simp only [Bool.or_eq_true] at hover
  rcases hover with hdone | hdone
  · exact ⟨_, (hc _).received_iff.2 ((hc _).done hdone)⟩
  · exact ⟨_, (hc _).received_iff.2 ((hc _).done hdone)⟩

theorem relayWebsocket_both {a b : Bytes} {es : List TunnelStep}
    (h : (es.foldl relayWebsocket (Tunnel.start a b)).status = .ended) (d : Direction) :
    ((es.foldl relayWebsocket (Tunnel.start a b)).pipe d).received = totals a b d := by
  obtain ⟨hclient, hserver⟩ := relayWebsocket_delivers a b es h
  cases d with
  | clientToServer => exact hclient
  | serverToClient => exact hserver

/-- **A tunnel comes to its end, if no stream fails**, whatever the order of its steps. It moves no
more than three times for each byte and four times more; where nothing can move any more it has
ended; and from every state that it reaches it can go on until it has ended. Then `relay_websocket`
has delivered all bytes of both directions, and the tunnel of `handle_https` those of one. -/
theorem tunnels_complete (a b : Bytes) (es : List TunnelStep) (hes : ∀ e ∈ es, e ≠ .fail) :
    ((Moving relayWebsocket (Tunnel.start a b) es → es.length ≤ 3 * (a.length + b.length) + 4) ∧
      (AtRest relayWebsocket (· ≠ .fail) (es.foldl relayWebsocket (Tunnel.start a b)) →
        (es.foldl relayWebsocket (Tunnel.start a b)).status = .ended ∧
        ∀ d, ((es.foldl relayWebsocket (Tunnel.start a b)).pipe d).received = totals a b d) ∧
      ∃ more : List TunnelStep, (∀ e ∈ more, e ≠ .fail) ∧
        more.length ≤ 3 * (a.length + b.length) + 4 ∧
        ((es ++ more).foldl relayWebsocket (Tunnel.start a b)).status = .ended ∧
        ∀ d, (((es ++ more).foldl relayWebsocket (Tunnel.start a b)).pipe d).received =
          totals a b d) ∧
    (Moving passthrough (Tunnel.start a b) es → es.length ≤ 3 * (a.length + b.length) + 4) ∧
      (AtRest passthrough (· ≠ .fail) (es.foldl passthrough (Tunnel.start a b)) →
        (es.foldl passthrough (Tunnel.start a b)).status = .ended ∧
        ∃ d, ((es.foldl passthrough (Tunnel.start a b)).pipe d).received = totals a b d) ∧
      ∃ more : List TunnelStep, (∀ e ∈ more, e ≠ .fail) ∧
        more.length ≤ 3 * (a.length + b.length) + 4 ∧
        ((es ++ more).foldl passthrough (Tunnel.start a b)).status = .ended ∧
        ∃ d, (((es ++ more).foldl passthrough (Tunnel.start a b)).pipe d).received =
          totals a b d := by
  obtain ⟨hlen, hrest, more, hmore, hle, hended⟩ := Tunnel.comes_to_end
    (fun done => done .clientToServer && done .serverToClient) rfl rfl a b hes
  obtain ⟨hlen', hrest', more', hmore', hle', hended'⟩ := Tunnel.comes_to_end
    (fun done => done .clientToServer || done .serverToClient) rfl rfl a b hes
  refine ⟨⟨hlen, fun h => ?_, more, hmore, hle, hended, relayWebsocket_both hended⟩, hlen',
    fun h => ?_, more', hmore', hle', hended', passthrough_one hended'⟩
  · exact ⟨hrest h, relayWebsocket_both (hrest h)⟩
  · exact ⟨hrest' h, passthrough_one (hrest' h)⟩

/-- A tunnel that has begun with its client's close still has all of the server's bytes ahead. -/
theorem tunnels_complete_early : ∃ more : List TunnelStep, (∀ e ∈ more, e ≠ .fail) ∧
    more.length ≤ 3 * ((lit "GET").length + (lit "reply").length) + 4 ∧
    ((earlyClose ++ more).foldl relayWebsocket
      (Tunnel.start (lit "GET") (lit "reply"))).status = .ended ∧
    ∀ d, (((earlyClose ++ more).foldl relayWebsocket
      (Tunnel.start (lit "GET") (lit "reply"))).pipe d).received =
        totals (lit "GET") (lit "reply") d :=
  (tunnels_complete (lit "GET") (lit "reply") earlyClose (by decide)).1.2.2

/-! ## Relays -/

section

variable {ω : Type} {frame : HttpContext → Message → Direction → ω →
  (Option Message × HttpContext) × ω} {leave : Relay ω → Relay ω}

/-- What is still pending when the first item of a direction is taken. -/
theorem pending_taken {r : Relay ω} {d : Direction} {i : Item} {rest : List Item}
    (h : r.pending d = i :: rest) :
    (Function.update r.pending d rest .clientToServer).length +
      (Function.update r.pending d rest .serverToClient).length + 1 =
        (r.pending .clientToServer).length + (r.pending .serverToClient).length := by
  have hlen : (r.pending d).length = rest.length + 1 := by rw [h, List.length_cons]
  cases d with
  | clientToServer =>
    rw [Function.update_self, Function.update_of_ne (by decide)]
    omega
  | serverToClient =>
    rw [Function.update_self, Function.update_of_ne (by decide)]
    omega

theorem accounts_leave (hl : Leaves leave) {items : Direction → List Item} {r : Relay ω}
    (hlog : Callback.close ∉ r.log)
    (hasked : ∀ d, (r.log.filterMap (Callback.askedIn d)).map .ok <+: items d) :
    (leave r).Accounts items where
  inLoop h := Bool.noConfusion ((hl.running r).symm.trans h)
  behind _ := ⟨r.log, hl.log r, hlog, hasked⟩

/-- The handler is asked about the first message of a side. -/
theorem onFrame_asked {items : Direction → List Item} {r : Relay ω} {t : Direction × Bool}
    {msg : Message} {rest : List Item} (hp : r.pending t.1 = .ok msg :: rest)
    (h : ∀ d, items d = (r.log.filterMap (Callback.askedIn d)).map .ok ++ r.pending d)
    (d : Direction) :
    items d = ((Relay.onFrame frame r t.1 t.2 msg rest).log.filterMap (Callback.askedIn d)).map .ok ++
      (Relay.onFrame frame r t.1 t.2 msg rest).pending d := by
  unfold Relay.onFrame
  dsimp only
  rw [List.filterMap_append, List.map_append, h d, List.append_assoc]
  by_cases hd : t.1 = d
  · subst hd
    simp [Callback.askedIn, hp]
  · have hother : ¬ d = t.1 := fun heq => hd heq.symm
    simp [Callback.askedIn, hd, hother]

/-- One round. -/
theorem turn_accounts (hl : Leaves leave) {items : Direction → List Item} {r : Relay ω}
    (h : r.Accounts items) (t : Direction × Bool) :
    (Relay.turn frame leave r t).Accounts items := by
  unfold Relay.turn
  cases hr : r.running with
  | false =>
    rw [if_neg Bool.false_ne_true]
    exact h
  | true =>
    obtain ⟨hlog, hasked⟩ := h.inLoop hr
    have hsofar : ∀ d, (r.log.filterMap (Callback.askedIn d)).map .ok <+: items d :=
      fun d => ⟨_, (hasked d).symm⟩
    rw [if_pos rfl]
    split
    · rename_i msg rest hp
      have hlog' : Callback.close ∉ (Relay.onFrame frame r t.1 t.2 msg rest).log := by
        intro hmem
        rcases List.mem_append.1 hmem with hmem | hmem
        · exact hlog hmem
        · cases List.mem_singleton.1 hmem
      have hasked' := @onFrame_asked ω frame items r t msg rest hp hasked
      dsimp only
      split
      · exact accounts_leave hl hlog' fun d => ⟨_, (hasked' d).symm⟩
      · exact ⟨fun _ => ⟨hlog', hasked'⟩, fun h => Bool.noConfusion (hr.symm.trans h)⟩
    · exact accounts_leave hl hlog hsofar
    · exact accounts_leave hl hlog hsofar

/-- Every round in the loop takes an item, or is the last. -/
theorem turn_left (hl : ∀ r, (leave r).running = false) {r : Relay ω} (hr : r.running = true)
    (t : Direction × Bool) : (Relay.turn frame leave r t).left < r.left := by
  have hleave : ∀ r' : Relay ω, (leave r').left < r.left := by
    intro r'
    unfold Relay.left
    rw [hl, hr, if_pos rfl, if_neg Bool.false_ne_true]
    omega
  unfold Relay.turn
  rw [if_pos hr]
  split
  · rename_i msg rest hp
    dsimp only
    split
    · exact hleave _
    · have htaken := pending_taken hp
      have hstill : (Relay.onFrame frame r t.1 t.2 msg rest).running = true := hr
      unfold Relay.left
      rw [if_pos hstill, if_pos hr]
      show (Function.update r.pending t.1 rest .clientToServer).length +
        (Function.update r.pending t.1 rest .serverToClient).length + 1 < _
      omega
  · exact hleave _
  · exact hleave _

theorem relay_progress (hl : ∀ r, (leave r).running = false) :
    Progress (Relay.turn frame leave) (fun _ => True) (fun _ => True) Relay.left := by
  refine ⟨fun _ _ _ _ => trivial, fun r t _ _ => ?_⟩
  cases hr : r.running with
  | false => exact .inl (turns_stopped hr [t])
  | true => exact .inr (turn_left hl hr t)

/-- A relay that is still in its loop has moved in every round. -/
theorem moving_of_running (hl : ∀ r, (leave r).running = false) {r : Relay ω}
    {ts : List (Direction × Bool)} (h : (ts.foldl (Relay.turn frame leave) r).running = true) :
    Moving (Relay.turn frame leave) r ts := by
  induction ts generalizing r with
  | nil => trivial
  | cons t ts ih =>
    refine ⟨fun heq => ?_, ih h⟩
    cases hr : r.running with
    | false =>
      rw [turns_stopped hr] at h
      exact Bool.noConfusion (hr.symm.trans h)
    | true =>
      have hless : (Relay.turn frame leave r t).left < r.left := turn_left hl hr t
      rw [heq] at hless
      exact Nat.lt_irrefl _ hless

/-- **A relay leaves its loop** when it has had more rounds than there are items. -/
theorem turns_leave (hl : ∀ r, (leave r).running = false) (ext : ω) (ctx : HttpContext)
    {client server : List Item} {ts : List (Direction × Bool)}
    (h : client.length + server.length < ts.length) :
    (ts.foldl (Relay.turn frame leave) (Relay.start ext ctx client server)).running = false := by
  cases hr : (ts.foldl (Relay.turn frame leave) (Relay.start ext ctx client server)).running with
  | false => rfl
  | true =>
    have hle : ts.length +
        (ts.foldl (Relay.turn frame leave) (Relay.start ext ctx client server)).left ≤
          (Relay.start ext ctx client server).left :=
      (relay_progress hl).length_add_le (fun _ _ => trivial) trivial (moving_of_running hl hr)
    have hleft : (Relay.start ext ctx client server).left = client.length + server.length + 1 := rfl
    have hpos : 0 < (ts.foldl (Relay.turn frame leave) (Relay.start ext ctx client server)).left := by
      unfold Relay.left
      rw [if_pos hr]
      exact Nat.succ_pos _
    omega

theorem turns_account (hl : Leaves leave) (ext : ω) (ctx : HttpContext) (client server : List Item)
    (ts : List (Direction × Bool)) :
    (ts.foldl (Relay.turn frame leave) (Relay.start ext ctx client server)).Accounts
      (Relay.start ext ctx client server).pending := by
  have hrun : ∀ (ts : List (Direction × Bool)) (r : Relay ω),
      r.Accounts (Relay.start ext ctx client server).pending →
      (ts.foldl (Relay.turn frame leave) r).Accounts (Relay.start ext ctx client server).pending := by
    intro ts
    induction ts with
    | nil => exact fun _ h => h
    | cons t ts ih => exact fun r h => ih _ (turn_accounts hl h t)
  exact hrun ts _ ⟨fun _ => ⟨List.not_mem_nil, fun _ => rfl⟩, fun h => Bool.noConfusion h⟩

end

/-- **A relay comes to its end**, whichever side `select!` picks, and whether sends succeed or not.
It has left its loop after more rounds than its streams have items. `on_close` is called once, when
it leaves, and nothing after it; `on_frame` is called for the messages of each side as they come, at
most once for each, and not at all behind the loop. -/
theorem relay_leaves {ω : Type} (ws : WebSocketHandler ω) (ext : ω) (ctx : HttpContext)
    (client server : List Item) (ts : List (Direction × Bool)) :
    let start := Relay.start ext ctx client server
    (client.length + server.length < ts.length →
      (ts.foldl (relayFramed ws) start).running = false ∧
      (ts.foldl (relayUpgraded ws) start).running = false ∧
      (ts.foldl relayRawUpgraded start).running = false) ∧
    (ts.foldl (relayFramed ws) start).Accounts start.pending ∧
    (ts.foldl (relayUpgraded ws) start).Accounts start.pending := by
  have hupgraded : ∀ ws : WebSocketHandler ω, client.length + server.length < ts.length →
      (ts.foldl (relayUpgraded ws) (Relay.start ext ctx client server)).running = false :=
    fun ws h => turns_leave (fun _ => rfl) ext ctx h
  refine ⟨fun h => ⟨?_, hupgraded ws h, ?_⟩, ?_, ?_⟩
  · exact turns_leave (fun _ => rfl) ext ctx h
  · have hws : (NoopWebSocketHandler : WebSocketHandler ω).Unchanging := fun _ _ _ _ => rfl
    rw [← ((raw_staySame hws).runs (start_same ext ext ctx ctx client server) ts).running]
    exact hupgraded NoopWebSocketHandler h
  · exact turns_account (leaves_framed ws) ext ctx client server ts
  · exact turns_account (leaves_onClose ws) ext ctx client server ts

end HexbufferProxy
