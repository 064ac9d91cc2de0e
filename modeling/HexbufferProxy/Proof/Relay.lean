import HexbufferProxy.Spec.Relay

/-!
# Relays keep to the order of their messages

* `turn_relayed`: one round of the loop, in which the send succeeds.
* `turns_relayed`: whole runs of `relay_framed` and `relay_upgraded`.
-/

namespace HexbufferProxy

variable {ω : Type}
  {frame : HttpContext → Message → Direction → ω → (Option Message × HttpContext) × ω}

theorem along_append (d : Direction) (xs ys : List Transit) :
    along d (xs ++ ys) = along d xs ++ along d ys := by
  unfold along
  rw [List.filter_append, List.map_append]

theorem callbacks_append (s : HttpContext × ω) (xs ys : List Transit) :
    callbacks frame s (xs ++ ys) =
      callbacks frame s xs ++ callbacks frame (xs.foldl (after frame) s) ys := by
  induction xs generalizing s with
  | nil => rfl
  | cons x xs ih =>
    simp only [List.cons_append, callbacks, List.foldl_cons]
    rw [ih]

/-! ## One round -/

/-- The part of `Relayed` that holds inside the loop, also right after a Close. -/
structure Looping
    (frame : HttpContext → Message → Direction → ω → (Option Message × HttpContext) × ω)
    (r₀ r : Relay ω) (order : List Transit) : Prop where
  running : r.running = true
  consumed : ∀ d, r₀.pending d = (along d order).map .ok ++ r.pending d
  asked : r.log = callbacks frame (r₀.ctx, r₀.ext) order
  forwarded : ∀ d,
    r.sent d = (callbacks frame (r₀.ctx, r₀.ext) order).filterMap (Callback.forwarded d)
  threaded : (r.ctx, r.ext) = order.foldl (after frame) (r₀.ctx, r₀.ext)

/-- What stands behind the loop of a relay with a handler. -/
structure Leaves (leave : Relay ω → Relay ω) : Prop where
  running : ∀ r, (leave r).running = false
  pending : ∀ r, (leave r).pending = r.pending
  sent : ∀ r, (leave r).sent = r.sent
  log : ∀ r, (leave r).log = r.log ++ [.close]

variable {leave : Relay ω → Relay ω} {r₀ r : Relay ω} {order : List Transit}

theorem Relayed.looping (h : Relayed frame r₀ r order) (hr : r.running = true) :
    Looping frame r₀ r order := by
  refine ⟨hr, ?_, ?_, h.forwarded, h.threaded hr⟩
  · intro d
    obtain ⟨last, hp, hlast | ⟨hr', -⟩⟩ := h.consumed d
    · rw [hp, hlast, List.append_nil]
    · rw [hr] at hr'; exact absurd hr' (by simp)
  · have := h.asked
    rw [hr, if_pos rfl, List.append_nil] at this
    exact this

theorem Looping.relayed (h : Looping frame r₀ r order) (hopen : ∀ x ∈ order, x.2.isClose = false) :
    Relayed frame r₀ r order := by
  refine ⟨?_, ?_, h.forwarded, fun _ => h.threaded, ?_, fun _ => hopen, ?_⟩
  · intro d
    exact ⟨[], by rw [List.append_nil]; exact h.consumed d, Or.inl rfl⟩
  · rw [h.running, if_pos rfl, List.append_nil]; exact h.asked
  · exact fun x hx => hopen x (List.dropLast_subset _ hx)
  · intro hr
    rw [h.running] at hr; exact absurd hr (by simp)

/-- `on_frame` is asked, and its answer is sent. -/
theorem Looping.onFrame (h : Looping frame r₀ r order) {d : Direction} {msg : Message}
    {rest : List Item} (hp : r.pending d = .ok msg :: rest) :
    Looping frame r₀ (Relay.onFrame frame r d true msg rest) (order ++ [(d, msg)]) := by
  set a := frame r.ctx msg d r.ext with ha
  have hstate : order.foldl (after frame) (r₀.ctx, r₀.ext) = (r.ctx, r.ext) := h.threaded.symm
  have hcalls : callbacks frame (r₀.ctx, r₀.ext) (order ++ [(d, msg)]) =
      callbacks frame (r₀.ctx, r₀.ext) order ++ [.frame d msg a.1.1] := by
    rw [callbacks_append, hstate]
    rfl
  refine ⟨h.running, ?_, ?_, ?_, ?_⟩
  · intro d'
    rw [along_append, List.map_append, h.consumed d']
    by_cases hd : d' = d
    · subst hd
      simp [Relay.onFrame, along, hp]
    · have hd' : ¬ d = d' := fun hx => hd hx.symm
      simp [Relay.onFrame, along, hd, hd']
  · rw [hcalls, ← h.asked]
    rfl
  · intro d'
    rw [hcalls, List.filterMap_append, ← h.forwarded d']
    by_cases hd : d' = d
    · subst hd
      rcases hout : a.1.1 with _ | m
      · simp [Relay.onFrame, Callback.forwarded, ← ha, hout]
      · simp [Relay.onFrame, Callback.forwarded, ← ha, hout]
    · have hd' : ¬ d = d' := fun hx => hd hx.symm
      simp [Relay.onFrame, Callback.forwarded, hd, hd']
  · rw [List.foldl_append, hstate]
    rfl

/-- The loop is left: a side has ended or failed, or a Close is the last message. -/
theorem Looping.left (h : Looping frame r₀ r order) (hl : Leaves leave) (d : Direction)
    (last : List Item) {r' : Relay ω} (hlog : r'.log = r.log) (hsent : r'.sent = r.sent)
    (hp : r.pending d = last ++ r'.pending d) (hother : ∀ d', d' ≠ d → r'.pending d' = r.pending d')
    (hlast : last = [] ∨ ∃ e, last = [.error e])
    (hopen : ∀ x ∈ order.dropLast, x.2.isClose = false)
    (hend : (∃ x, order.getLast? = some x ∧ x.2.isClose = true) ∨ r.pending d = [] ∨
      ∃ e rest, r.pending d = .error e :: rest) :
    Relayed frame r₀ (leave r') order := by
  have hstop := hl.running r'
  refine ⟨?_, ?_, ?_, ?_, hopen, ?_, ?_⟩
  · intro d'
    rw [hl.pending]
    by_cases hd : d' = d
    · subst hd
      refine ⟨last, by rw [h.consumed d', hp, List.append_assoc], ?_⟩
      rcases hlast with hlast | hlast
      · exact Or.inl hlast
      · exact Or.inr ⟨hstop, hlast⟩
    · refine ⟨[], ?_, Or.inl rfl⟩
      rw [List.append_nil, hother d' hd]; exact h.consumed d'
  · rw [hl.log, hstop, if_neg Bool.false_ne_true, ← h.asked, hlog]
  · intro d'
    rw [hl.sent, ← h.forwarded d', hsent]
  · intro hx
    rw [hstop] at hx; exact absurd hx Bool.false_ne_true
  · intro hx
    rw [hstop] at hx; exact absurd hx Bool.false_ne_true
  · intro _
    rcases hend with hend | hend | ⟨e, rest, hend⟩
    · exact Or.inl hend
    · exact Or.inr ⟨d, Or.inl (by rw [h.consumed d, hend, List.append_nil])⟩
    · exact Or.inr ⟨d, Or.inr ⟨e, rest, by rw [h.consumed d, hend]⟩⟩

/-- **A round in which the send succeeds** consumes at most one message, and tells the handler
and the other side about it. -/
theorem turn_relayed (hl : Leaves leave) (h : Relayed frame r₀ r order) (d : Direction) :
    ∃ more, Relayed frame r₀ (Relay.turn frame leave r (d, true)) (order ++ more) := by
  rcases hr : r.running with _ | _
  · refine ⟨[], ?_⟩
    unfold Relay.turn
    rw [hr, List.append_nil]; exact h
  have hloop := h.looping hr
  have hopen := h.close_ends hr
  unfold Relay.turn
  rw [hr, if_pos rfl]
  rcases hp : r.pending d with _ | ⟨e | msg, rest⟩
  · -- the side has ended
    refine ⟨[], ?_⟩
    rw [List.append_nil]
    exact hloop.left hl d [] rfl rfl rfl (fun _ _ => rfl) (Or.inl rfl) h.close_last
      (Or.inr (Or.inl hp))
  · -- the side has failed
    refine ⟨[], ?_⟩
    rw [List.append_nil]
    refine hloop.left hl d [.error e] rfl rfl ?_ ?_ (Or.inr ⟨e, rfl⟩) h.close_last
      (Or.inr (Or.inr ⟨e, rest, hp⟩))
    · simp [hp]
    · intro d' hd
      simp [hd]
  · -- a message: the loop goes on unless it is a Close
    refine ⟨[(d, msg)], ?_⟩
    have hnext := hloop.onFrame hp
    simp only
    rcases hc : msg.isClose with _ | _
    · rw [if_neg Bool.false_ne_true]
      refine hnext.relayed ?_
      intro x hx
      rcases List.mem_append.1 hx with hx | hx
      · exact hopen x hx
      · rw [List.mem_singleton] at hx; rw [hx]; exact hc
    · rw [if_pos rfl]
      refine hnext.left hl d [] rfl rfl rfl (fun _ _ => rfl) (Or.inl rfl) ?_ ?_
      · rw [List.dropLast_concat]; exact hopen
      · exact Or.inl ⟨(d, msg), by rw [List.getLast?_concat], hc⟩

/-! ## Whole runs -/

/-- A relay that has left its loop does nothing more. -/
theorem turns_stopped (h : r.running = false) (ts : List (Direction × Bool)) :
    ts.foldl (Relay.turn frame leave) r = r := by
  induction ts with
  | nil => rfl
  | cons t ts ih =>
    have ht : Relay.turn frame leave r t = r := by
      unfold Relay.turn
      rw [h]; rfl
    rw [List.foldl_cons, ht, ih]

/-- **A round in the loop takes the first item** of the side that is picked. -/
theorem turn_pending (hl : ∀ r, (leave r).pending = r.pending) {t : Direction × Bool} {item : Item}
    {rest : List Item} (hr : r.running = true) (hp : r.pending t.1 = item :: rest) :
    (Relay.turn frame leave r t).pending = Function.update r.pending t.1 rest := by
  unfold Relay.turn
  rw [if_pos hr, hp]
  cases item with
  | error e => exact hl _
  | ok msg =>
    dsimp only
    split
    · exact hl _
    · rfl

/-- The loop goes on only after a message that is not a Close. -/
theorem turn_running (hl : ∀ r, (leave r).running = false) {t : Direction × Bool}
    (h : (Relay.turn frame leave r t).running = true) :
    ∃ msg rest, r.pending t.1 = .ok msg :: rest ∧ msg.isClose = false := by
  unfold Relay.turn at h
  rcases hr : r.running with _ | _
  · rw [hr, if_neg Bool.false_ne_true] at h
    rw [hr] at h; exact absurd h Bool.false_ne_true
  rw [hr, if_pos rfl] at h
  rcases hp : r.pending t.1 with _ | ⟨e | msg, rest⟩
  · rw [hp] at h
    exact absurd (h.symm.trans (hl r)) (by simp)
  · rw [hp] at h
    exact absurd (h.symm.trans (hl _)) (by simp)
  · rw [hp] at h
    rcases hc : msg.isClose with _ | _
    · exact ⟨msg, rest, rfl, hc⟩
    · simp only [hc, if_true] at h
      exact absurd (h.symm.trans (hl _)) (by simp)

theorem turns_relayed (hl : Leaves leave) (ts : List (Direction × Bool))
    (hok : ∀ t ∈ ts, t.2 = true) (h : Relayed frame r₀ r order) :
    ∃ more, Relayed frame r₀ (ts.foldl (Relay.turn frame leave) r) (order ++ more) := by
  induction ts generalizing r order with
  | nil => exact ⟨[], by rw [List.append_nil]; exact h⟩
  | cons t ts ih =>
    obtain ⟨d, ok⟩ := t
    have hd : ok = true := hok (d, ok) List.mem_cons_self
    subst hd
    obtain ⟨first, hfirst⟩ := turn_relayed hl h d
    obtain ⟨more, hmore⟩ := ih (fun t ht => hok t (List.mem_cons_of_mem _ ht)) hfirst
    refine ⟨first ++ more, ?_⟩
    rw [List.foldl_cons, ← List.append_assoc]
    exact hmore

theorem start_relayed (frame : HttpContext → Message → Direction → ω →
    (Option Message × HttpContext) × ω) (ext : ω) (ctx : HttpContext) (client server : List Item) :
    Relayed frame (Relay.start ext ctx client server) (Relay.start ext ctx client server) [] := by
  refine Looping.relayed ⟨rfl, ?_, rfl, fun _ => rfl, rfl⟩ fun _ hx => absurd hx List.not_mem_nil
  intro d
  rfl

theorem leaves_onClose (ws : WebSocketHandler ω) : Leaves (Relay.onClose ws) :=
  ⟨fun _ => rfl, fun _ => rfl, fun _ => rfl, fun _ => rfl⟩

theorem leaves_framed (ws : WebSocketHandler ω) :
    Leaves fun r => { Relay.onClose ws r with clientClosed := true } :=
  ⟨fun _ => rfl, fun _ => rfl, fun _ => rfl, fun _ => rfl⟩

theorem keepsOrder (ws : WebSocketHandler ω) (hl : Leaves leave) (ext : ω) (ctx : HttpContext)
    (client server : List Item) (ts : List (Direction × Bool)) (hok : ∀ t ∈ ts, t.2 = true) :
    KeepsOrder ws (Relay.turn ws.onFrame leave) (Relay.start ext ctx client server) ts := by
  refine ⟨?_, ?_, ?_, ?_⟩
  · obtain ⟨order, h⟩ := turns_relayed hl ts hok (start_relayed ws.onFrame ext ctx client server)
    exact ⟨order, h⟩
  · intro hr more
    rw [List.foldl_append]
    exact turns_stopped hr more
  · exact fun t item rest hr hp => turn_pending hl.pending hr hp
  · intro t ht
    exact turn_running hl.running ht

/-- **Relays keep to the order of their messages.** After every round of `relay_framed` and of
`relay_upgraded`, whatever the handler does and whichever sides `select!` has picked: each side's
messages have been consumed in order and gone through the handler once; what it returned, and
nothing else, has been sent on in the same direction; a Close, the end or the failure of a side
ends the loop, after which nothing is consumed; and the handler is told of the end once, last. -/
theorem relay_keepsOrder (ws : WebSocketHandler ω) (ext : ω) (ctx : HttpContext)
    (client server : List Item) (ts : List (Direction × Bool)) (hok : ∀ t ∈ ts, t.2 = true) :
    KeepsOrder ws (relayFramed ws) (Relay.start ext ctx client server) ts ∧
      KeepsOrder ws (relayUpgraded ws) (Relay.start ext ctx client server) ts :=
  ⟨keepsOrder ws (leaves_framed ws) ext ctx client server ts hok,
    keepsOrder ws (leaves_onClose ws) ext ctx client server ts hok⟩

/-- A handler that counts its frames and drops every binary one. -/
def countingHandler : WebSocketHandler ℕ where
  onUpgrade ctx req n := ((req, ctx), n)
  onFrame ctx msg _ n :=
    match msg with
    | .binary _ => ((none, ctx), n + 1)
    | _ => ((some msg, ctx), n + 1)
  onClose ctx n := (ctx, n)

def someContext : HttpContext := ⟨1, "a.example".toList, ⟨"127.0.0.1", 5000⟩, false⟩

/-- Both sides speak, one frame is dropped, and the client closes. -/
theorem relay_keepsOrder_counting :
    KeepsOrder countingHandler (relayFramed countingHandler)
        (Relay.start 0 someContext [.ok (.text ['a']), .ok (.close none)]
          [.ok (.binary [1]), .ok (.text ['b'])])
        [(.clientToServer, true), (.serverToClient, true), (.clientToServer, true),
          (.serverToClient, true)] ∧
      KeepsOrder countingHandler (relayUpgraded countingHandler)
        (Relay.start 0 someContext [.ok (.text ['a']), .ok (.close none)]
          [.ok (.binary [1]), .ok (.text ['b'])])
        [(.clientToServer, true), (.serverToClient, true), (.clientToServer, true),
          (.serverToClient, true)] :=
  relay_keepsOrder countingHandler 0 someContext _ _ _ (by decide)

end HexbufferProxy
