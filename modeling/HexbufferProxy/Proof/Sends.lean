import HexbufferProxy.Proof.Closing
import HexbufferProxy.Spec.Sends

/-!
# What is lost when a send fails

* `turn_takes`: what a round adds to what is sent.
* `Halted.turns`: a sender from whom nothing can be taken any more.
* `turns_heed`: a run in which sends fail only where nothing follows.
* `turn_ignores`: a send that fails earlier, and the round that takes the next message.
* `relay_heeds`: the three relays.
-/

namespace HexbufferProxy

variable {ω : Type}
  {frame : HttpContext → Message → Direction → ω → (Option Message × HttpContext) × ω}
  {leave : Relay ω → Relay ω} {r : Relay ω} {t : Direction × Bool} {d : Direction}

/-! ## One round -/

/-- A round that takes nothing has nothing to send. -/
theorem toSend_takesNot (h : ¬ Takes r t) : toSend frame r t = none := by
  unfold toSend
  split
  · rename_i hr hp
    exact absurd ⟨hr, _, _, hp⟩ h
  · rfl

/-- What a round does that takes nothing: it may end the loop. -/
theorem turn_takesNot (frame : HttpContext → Message → Direction → ω →
      (Option Message × HttpContext) × ω) (hl : Stops leave) (h : ¬ Takes r t) (d : Direction) :
    (Relay.turn frame leave r t).running = false ∧
      (Relay.turn frame leave r t).sent d = r.sent d := by
  unfold Relay.turn
  by_cases hr : r.running = true
  · rw [if_pos hr]
    cases hp : r.pending t.1 with
    | nil => exact ⟨hl.running r, congrFun (hl.sent r) d⟩
    | cons item rest =>
      cases item with
      | error e => exact ⟨hl.running _, congrFun (hl.sent _) d⟩
      | ok msg => exact absurd ⟨hr, msg, rest, hp⟩ h
  · rw [if_neg hr]
    exact ⟨Bool.eq_false_of_not_eq_true hr, rfl⟩

/-- What a round does that takes a message. -/
theorem turn_takes (frame : HttpContext → Message → Direction → ω →
      (Option Message × HttpContext) × ω) (leave : Relay ω → Relay ω)
    (hr : r.running = true) {msg : Message} {rest : List Item}
    (hp : r.pending t.1 = .ok msg :: rest) :
    ∃ r', r'.running = true ∧
      Relay.turn frame leave r t = (if msg.isClose then leave r' else r') ∧
      r'.pending = Function.update r.pending t.1 rest ∧
      ∀ d, r'.sent d = r.sent d ++
        if t.1 = d ∧ t.2 = true then (toSend frame r t).toList else [] := by
  have hsend : toSend frame r t = (frame r.ctx msg t.1 r.ext).1.1 := by
    unfold toSend
    rw [hr, hp]
  refine ⟨Relay.onFrame frame r t.1 t.2 msg rest, hr, ?_, rfl, fun d => ?_⟩
  · unfold Relay.turn
    rw [if_pos hr, hp]
  · show Function.update r.sent t.1 (r.sent t.1 ++
      if t.2 then (frame r.ctx msg t.1 r.ext).1.1.toList else []) d = _
    rw [hsend]
    by_cases hd : d = t.1
    · subst hd
      simp
    · rw [Function.update_of_ne hd, if_neg fun h => hd h.1.symm, List.append_nil]

/-! ## Senders that are done -/

/-- Nothing more can be taken of what goes in direction `d`. -/
def Halted (d : Direction) (r : Relay ω) : Prop :=
  r.running = false ∨ StreamEnded (r.pending d)

theorem Halted.takesNot (h : Halted t.1 r) : ¬ Takes r t := by
  rintro ⟨hr, msg, rest, hp⟩
  rcases h with hstop | hend
  · rw [hr] at hstop
    exact Bool.false_ne_true hstop.symm
  · rw [hp] at hend
    exact hend

/-- The other sender changes nothing of it. -/
theorem Halted.turn (hl : Stops leave) (h : Halted d r) (t : Direction × Bool) :
    Halted d (Relay.turn frame leave r t) := by
  by_cases ht : Takes r t
  · obtain ⟨hr, msg, rest, hp⟩ := ht
    obtain ⟨r', -, hturn, hpending, -⟩ := turn_takes frame leave hr hp
    rw [hturn]
    have hd : d ≠ t.1 := by
      rintro rfl
      exact h.takesNot ⟨hr, msg, rest, hp⟩
    by_cases hclose : msg.isClose = true
    · rw [if_pos hclose]
      exact .inl (hl.running r')
    · rw [if_neg hclose]
      refine .inr ?_
      rw [hpending, Function.update_of_ne hd]
      refine h.resolve_left fun hstop => ?_
      rw [hr] at hstop
      exact Bool.false_ne_true hstop.symm
  · exact .inl (turn_takesNot frame hl ht d).1

theorem Halted.turns (hl : Stops leave) (h : Halted d r) (ts : List (Direction × Bool)) :
    Halted d (ts.foldl (Relay.turn frame leave) r) := by
  induction ts generalizing r with
  | nil => exact h
  | cons t ts ih => exact ih (h.turn hl t)

/-- A send fails for a message that the round takes. -/
theorem SendFails.takes (h : SendFails frame r t) : Takes r t := by
  obtain ⟨-, hsome⟩ := h
  unfold toSend at hsome
  split at hsome
  · rename_i hr hp
    exact ⟨hr, _, _, hp⟩
  · exact nomatch hsome

/-- After a send that fails as it may, the sender is done. -/
theorem FailsLast.halted (hl : Stops leave) (h : FailsLast frame r t)
    (hfails : SendFails frame r t) : Halted t.1 (Relay.turn frame leave r t) := by
  obtain ⟨hr, msg, rest, hp⟩ := hfails.takes
  obtain ⟨r', -, hturn, hpending, -⟩ := turn_takes frame leave hr hp
  rw [hturn]
  by_cases hclose : msg.isClose = true
  · rw [if_pos hclose]
    exact .inl (hl.running r')
  · rw [if_neg hclose]
    refine .inr ?_
    rw [hpending, Function.update_self]
    exact (h hfails msg rest hp).resolve_left hclose

/-! ## Runs -/

/-- One more round. -/
theorem accepted_concat (round : Relay ω → Direction × Bool → Relay ω) (d : Direction) (r : Relay ω)
    (ts : List (Direction × Bool)) (t : Direction × Bool) :
    accepted frame round d r (ts ++ [t]) = accepted frame round d r ts ++
      if t.1 = d then (toSend frame (ts.foldl round r) t).toList else [] := by
  induction ts generalizing r with
  | nil => exact List.append_nil _
  | cons u ts ih =>
    rw [List.cons_append, accepted, accepted, ih, List.append_assoc]
    rfl

/-- The messages `msgs` have been accepted in direction `d`: as many have been sent, or one less when
the sender is done. -/
def Balanced (d : Direction) (msgs : List Message) (r : Relay ω) : Prop :=
  msgs.length = (r.sent d).length ∨
    msgs.length = (r.sent d).length + 1 ∧ Halted d r

theorem Balanced.turn {msgs : List Message} (hl : Stops leave) (h : Balanced d msgs r)
    (hlast : FailsLast frame r t) :
    Balanced d (msgs ++ if t.1 = d then (toSend frame r t).toList else [])
      (Relay.turn frame leave r t) := by
  by_cases ht : Takes r t
  · obtain ⟨hr, msg, rest, hp⟩ := ht
    obtain ⟨r', -, hturn, -, hsent⟩ := turn_takes frame leave hr hp
    have hsent' : (Relay.turn frame leave r t).sent d = r.sent d ++
        if t.1 = d ∧ t.2 = true then (toSend frame r t).toList else [] := by
      rw [hturn, ← hsent d]
      split
      · exact congrFun (hl.sent r') d
      · rfl
    by_cases hd : t.1 = d
    · subst hd
      -- the sender is not done yet, and so nothing of it has been lost before
      have heven : msgs.length = (r.sent t.1).length :=
        h.resolve_right fun hdone => hdone.2.takesNot ⟨hr, msg, rest, hp⟩
      by_cases hfails : SendFails frame r t
      · refine .inr ⟨?_, hlast.halted hl hfails⟩
        obtain ⟨out, hout⟩ := Option.isSome_iff_exists.1 hfails.2
        rw [hsent', hfails.1, hout]
        simp [heven]
      · refine .inl ?_
        rw [hsent', List.length_append, List.length_append, heven]
        by_cases hok : t.2 = true
        · simp [hok]
        · have hnone : toSend frame r t = none := by
            rw [← Option.not_isSome_iff_eq_none]
            exact fun hsome => hfails ⟨Bool.eq_false_of_not_eq_true hok, hsome⟩
          simp [hnone]
    · have hother : ¬ (t.1 = d ∧ t.2 = true) := fun hboth => hd hboth.1
      unfold Balanced
      rw [hsent', if_neg hd, if_neg hother, List.append_nil, List.append_nil]
      exact h.imp_right fun hdone => ⟨hdone.1, hdone.2.turn hl t⟩
  · obtain ⟨hstop, hsent⟩ := turn_takesNot frame hl ht d
    have hnone : (if t.1 = d then (toSend frame r t).toList else []) = [] := by
      rw [toSend_takesNot ht]
      exact ite_self _
    unfold Balanced
    rw [hnone, List.append_nil, hsent]
    exact h.imp_right fun hdone => ⟨hdone.1, .inl hstop⟩

/-- **Where sends fail only for what is the last of its stream**, the relay heeds them. -/
theorem turns_heed (hl : Stops leave) {r : Relay ω} (hr : ∀ d, r.sent d = [])
    (ts : List (Direction × Bool)) (hts : FailsLastIn frame (Relay.turn frame leave) r ts) :
    Heeds frame (Relay.turn frame leave) r ts := by
  constructor
  · rintro before t between u after rfl hfails hu
    have hhalted := (hts before t _ rfl).halted hl hfails
    rw [List.foldl_append, List.foldl_cons]
    refine Halted.takesNot ?_
    rw [hu]
    exact hhalted.turns hl between
  · intro d
    have hbalanced : Balanced d (accepted frame (Relay.turn frame leave) d r ts)
        (ts.foldl (Relay.turn frame leave) r) := by
      induction ts using List.reverseRecOn with
      | nil =>
        refine .inl ?_
        rw [List.foldl_nil, hr]
        rfl
      | append_singleton ts t ih =>
        rw [List.foldl_append, accepted_concat]
        refine (ih fun before u after heq => ?_).turn hl (hts ts t [] rfl)
        refine hts before u (after ++ [t]) ?_
        rw [heq, List.append_assoc, List.cons_append]
    rcases hbalanced with heven | ⟨hone, -⟩
    · exact heven.trans_le (Nat.le_succ _)
    · exact hone.le

/-- A stream that has not ended goes on with a message. -/
theorem streamEnded_or (items : List Item) :
    StreamEnded items ∨ ∃ msg rest, items = .ok msg :: rest := by
  cases items with
  | nil => exact .inl trivial
  | cons item rest =>
    cases item with
    | error e => exact .inl trivial
    | ok msg => exact .inr ⟨msg, rest, rfl⟩

/-- **A send that fails where more follows**: the next round may take it. -/
theorem turn_ignores {r : Relay ω} (ts : List (Direction × Bool)) (t : Direction × Bool)
    (ht : ¬ FailsLast frame (ts.foldl (Relay.turn frame leave) r) t) (ok : Bool) :
    ¬ Heeds frame (Relay.turn frame leave) r (ts ++ [t, (t.1, ok)]) := by
  intro hheeds
  obtain ⟨hfails, hmore⟩ := Classical.not_imp.1 ht
  refine hmore fun msg rest hp => ?_
  by_contra hlast
  refine hheeds.stops ts t [] (t.1, ok) [] rfl hfails rfl ?_
  obtain ⟨r', hr', hturn, hpending, -⟩ := turn_takes frame leave hfails.takes.1 hp
  rw [if_neg fun hclose => hlast (.inl hclose)] at hturn
  obtain ⟨msg', rest', hrest⟩ := (streamEnded_or rest).resolve_left fun hend => hlast (.inr hend)
  rw [List.foldl_append, List.foldl_cons, List.foldl_nil, hturn]
  refine ⟨hr', msg', rest', ?_⟩
  rw [hpending, Function.update_self, hrest]

/-! ## A relay without a handler -/

section

variable {ω' : Type} {frame' : HttpContext → Message → Direction → ω' →
    (Option Message × HttpContext) × ω'}
  {round : Relay ω → Direction × Bool → Relay ω} {round' : Relay ω' → Direction × Bool → Relay ω'}
  {r' : Relay ω'}

theorem SameToPeers.takes_iff (h : SameToPeers r r') : Takes r t ↔ Takes r' t := by
  unfold Takes
  rw [h.running, h.pending]

theorem SameToPeers.toSend_eq (hframe : ∀ ctx msg d w, (frame ctx msg d w).1.1 = some msg)
    (hframe' : ∀ ctx msg d w, (frame' ctx msg d w).1.1 = some msg) (h : SameToPeers r r') :
    toSend frame r t = toSend frame' r' t := by
  unfold toSend
  rw [h.running, h.pending]
  split
  · rw [hframe, hframe']
  · rfl

theorem StaySame.accepted_eq (hframe : ∀ ctx msg d w, (frame ctx msg d w).1.1 = some msg)
    (hframe' : ∀ ctx msg d w, (frame' ctx msg d w).1.1 = some msg)
    (hround : StaySame round round') (h : SameToPeers r r') (ts : List (Direction × Bool)) :
    accepted frame round d r ts = accepted frame' round' d r' ts := by
  induction ts generalizing r r' with
  | nil => rfl
  | cons t ts ih =>
    unfold accepted
    rw [h.toSend_eq hframe hframe', ih (hround r r' t h)]

/-- Where no handler changes anything, a relay heeds its sends if one does that is the same to both
peers. -/
theorem StaySame.heedsLast (hframe : ∀ ctx msg d w, (frame ctx msg d w).1.1 = some msg)
    (hframe' : ∀ ctx msg d w, (frame' ctx msg d w).1.1 = some msg)
    (hround : StaySame round round') (h : SameToPeers r r') (hheeds : HeedsLast frame round r) :
    HeedsLast frame' round' r' := by
  have hfails : ∀ (ts : List (Direction × Bool)) t,
      SendFails frame' (ts.foldl round' r') t ↔ SendFails frame (ts.foldl round r) t := by
    intro ts t
    unfold SendFails
    rw [(hround.runs h ts).toSend_eq hframe hframe']
  have hlast : ∀ (ts : List (Direction × Bool)) t,
      FailsLast frame' (ts.foldl round' r') t ↔ FailsLast frame (ts.foldl round r) t := by
    intro ts t
    unfold FailsLast
    rw [hfails, (hround.runs h ts).pending]
  have hrun : ∀ ts, Heeds frame' round' r' ts ↔ Heeds frame round r ts := by
    intro ts
    constructor
    · rintro ⟨hstops, hdelivers⟩
      refine ⟨fun before t between u after heq hf hu => ?_, fun d => ?_⟩
      · rw [(hround.runs h _).takes_iff]
        exact hstops before t between u after heq ((hfails before t).2 hf) hu
      · rw [hround.accepted_eq hframe hframe' h, (hround.runs h ts).sent]
        exact hdelivers d
    · rintro ⟨hstops, hdelivers⟩
      refine ⟨fun before t between u after heq hf hu => ?_, fun d => ?_⟩
      · rw [← (hround.runs h _).takes_iff]
        exact hstops before t between u after heq ((hfails before t).1 hf) hu
      · rw [← hround.accepted_eq hframe hframe' h, ← (hround.runs h ts).sent]
        exact hdelivers d
  refine ⟨fun ts hts => (hrun ts).2 (hheeds.heeds ts fun before t after heq => ?_),
    fun ts t ok ht => ?_⟩
  · exact (hlast before t).1 (hts before t after heq)
  · rw [hrun]
    exact hheeds.ignores ts t ok fun hf => ht ((hlast ts t).2 hf)

end

/-- **The relays heed the sends that fail where nothing follows, and no others**:
`relay_framed`, `relay_upgraded` and `relay_raw_upgraded`, for every handler, all messages, orders of
rounds and failures. -/
theorem relay_heeds (ws : WebSocketHandler ω) (ext : ω) (ctx : HttpContext)
    (client server : List Item) :
    HeedsLast ws.onFrame (relayFramed ws) (Relay.start ext ctx client server) ∧
    HeedsLast ws.onFrame (relayUpgraded ws) (Relay.start ext ctx client server) ∧
    HeedsLast passOn relayRawUpgraded (Relay.start ext ctx client server) := by
  have hupgraded : ∀ ws : WebSocketHandler ω,
      HeedsLast ws.onFrame (relayUpgraded ws) (Relay.start ext ctx client server) := by
    intro ws
    refine ⟨?_, ?_⟩
    · exact turns_heed (leaves_onClose ws).stops fun _ => rfl
    · exact fun ts t ok ht => turn_ignores ts t ht ok
  refine ⟨⟨?_, ?_⟩, hupgraded ws, ?_⟩
  · exact turns_heed (leaves_framed ws).stops fun _ => rfl
  · exact fun ts t ok ht => turn_ignores ts t ht ok
  · have hws : (NoopWebSocketHandler : WebSocketHandler ω).Unchanging := fun _ _ _ _ => rfl
    exact (raw_staySame hws).heedsLast hws (fun _ _ _ _ => rfl)
      (start_same ext ext ctx ctx client server) (hupgraded _)

/-- The client has two messages, the server one. -/
def talking : Relay Unit :=
  Relay.start () someContext [.ok (.text ['a']), .ok (.text ['b'])] [.ok (.text ['c'])]

/-- The server can no longer be reached. -/
theorem relay_swallows :
    ¬ Heeds NoopWebSocketHandler.onFrame (relayFramed NoopWebSocketHandler) talking
      [(.clientToServer, false), (.clientToServer, false)] ∧
    ¬ Heeds NoopWebSocketHandler.onFrame (relayUpgraded NoopWebSocketHandler) talking
      [(.clientToServer, false), (.clientToServer, false)] ∧
    ¬ Heeds passOn relayRawUpgraded talking
      [(.clientToServer, false), (.clientToServer, false)] := by
  refine ⟨fun h => ?_, fun h => ?_, fun h => ?_⟩
  · exact absurd (h.delivers .clientToServer) (by decide)
  · exact absurd (h.delivers .clientToServer) (by decide)
  · exact absurd (h.delivers .clientToServer) (by decide)

/-- The last message of the client cannot be sent; that of the server still can. -/
theorem relay_heeds_noop :
    Heeds NoopWebSocketHandler.onFrame (relayFramed NoopWebSocketHandler) talking
      [(.clientToServer, true), (.clientToServer, false), (.serverToClient, true)] := by
  refine (relay_heeds NoopWebSocketHandler () someContext _ _).1.heeds _ ?_
  intro before t after heq hfails msg rest hp
  match before, heq with
  | [], heq =>
    obtain ⟨rfl, -⟩ := List.cons.inj heq
    exact absurd hfails.1 (by decide)
  | [_], heq =>
    obtain ⟨rfl, hrest⟩ := List.cons.inj heq
    obtain ⟨rfl, -⟩ := List.cons.inj hrest
    have hlast : rest = [] := (List.cons.inj hp).2.symm
    rw [hlast]
    exact .inr trivial
  | [_, _], heq =>
    obtain ⟨-, hrest⟩ := List.cons.inj heq
    obtain ⟨-, hlast⟩ := List.cons.inj hrest
    obtain ⟨rfl, -⟩ := List.cons.inj hlast
    exact absurd hfails.1 (by decide)
  | _ :: _ :: _ :: before, heq =>
    have hlen := congrArg List.length heq
    simp at hlen

end HexbufferProxy
