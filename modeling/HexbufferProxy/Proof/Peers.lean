import HexbufferProxy.Proof.Closing
import HexbufferProxy.Spec.Peers

/-!
# What the two peers of a relay see

* `relay_same`: `relay_upgraded` with a handler that returns every frame unchanged delivers what
  `relay_raw_upgraded` delivers.
* `sent_close_iff`: a peer has been sent a Close when one has been forwarded.
* `relay_closes_peer_iff`: what the three relays do for a peer that is still open.
-/

namespace HexbufferProxy

variable {ω ω' : Type}
  {frame : HttpContext → Message → Direction → ω → (Option Message × HttpContext) × ω}
  {leave : Relay ω → Relay ω} {r : Relay ω} {r' : Relay ω'}

/-! ## Two relays side by side -/

section

variable {round : Relay ω → Direction × Bool → Relay ω}
  {round' : Relay ω' → Direction × Bool → Relay ω'}

namespace StaySame

/-- The same rounds deliver the same. -/
theorem deliveries_eq (hround : StaySame round round') (h : SameToPeers r r') :
    deliveries round r = deliveries round' r' := by
  ext p
  unfold deliveries
  refine exists_congr fun ts => ?_
  rw [(hround.runs h ts).running, (hround.runs h ts).sent]

theorem endsAgainst_iff (hround : StaySame round round') (h : SameToPeers r r')
    (ts : List (Direction × Bool)) (t : Direction × Bool) :
    EndsAgainst round r ts t ↔ EndsAgainst round' r' ts t := by
  have hbefore := hround.runs h ts
  have hbehind := hround _ _ t hbefore
  constructor
  · rintro ⟨hrun, hend, hopen⟩
    rw [hbefore.running] at hrun
    rw [hbehind.running] at hend
    rw [hbehind.pending] at hopen
    exact ⟨hrun, hend, hopen⟩
  · rintro ⟨hrun, hend, hopen⟩
    rw [← hbefore.running] at hrun
    rw [← hbehind.running] at hend
    rw [← hbehind.pending] at hopen
    exact ⟨hrun, hend, hopen⟩

end StaySame

theorem SameToPeers.sentClose_iff (h : SameToPeers r r') (d : Direction) :
    SentClose r d ↔ SentClose r' d := by
  unfold SentClose
  rw [h.sent, h.clientClosed]

end

/-- **With a handler that returns every frame unchanged, `relay_upgraded` is `relay_raw_upgraded`
to both peers**: round by round, whichever sides are picked and whichever sends fail, and so in all
that they can deliver. -/
theorem relay_same (ws : WebSocketHandler ω) (hws : ws.Unchanging) (ext : ω) (ext' : ω')
    (ctx ctx' : HttpContext) (client server : List Item) :
    (∀ ts : List (Direction × Bool),
      SameToPeers (ts.foldl (relayUpgraded ws) (Relay.start ext ctx client server))
        (ts.foldl relayRawUpgraded (Relay.start ext' ctx' client server))) ∧
    deliveries (relayUpgraded ws) (Relay.start ext ctx client server) =
      deliveries relayRawUpgraded (Relay.start ext' ctx' client server) := by
  have hstart := start_same ext ext' ctx ctx' client server
  exact ⟨(raw_staySame hws).runs hstart, (raw_staySame hws).deliveries_eq hstart⟩

theorem relay_same_noop : deliveries (relayUpgraded NoopWebSocketHandler) crossing =
    deliveries relayRawUpgraded crossing :=
  (relay_same NoopWebSocketHandler (fun _ _ _ _ => rfl) () () someContext someContext _ _).2

/-! ## Closing the other peer -/

/-- **What one message adds** to the Closes that a peer has been sent. -/
theorem onFrame_close_iff (r : Relay ω) (t : Direction × Bool) (msg : Message) (rest : List Item)
    (d : Direction) :
    (∃ m ∈ (Relay.onFrame frame r t.1 t.2 msg rest).sent d, m.isClose = true) ↔
      (∃ m ∈ r.sent d, m.isClose = true) ∨
        t.1 = d ∧ ForwardsClose frame r.ctx msg t r.ext := by
  unfold Relay.onFrame ForwardsClose
  by_cases hd : t.1 = d
  · subst hd
    simp only [Function.update_self, List.mem_append, or_and_right, exists_or, true_and]
    refine or_congr Iff.rfl ?_
    cases t.2 with
    | false => simp
    | true => simp only [if_true, Option.mem_toList, true_and]
  · simp only [Function.update_of_ne (fun h => hd h.symm), hd, false_and, or_false]

/-- **A peer has been sent a Close** when one of the messages taken gives one for it. -/
theorem sent_close_iff (hl : Stops leave) (ts : List (Direction × Bool)) {r : Relay ω}
    (hrun : r.running = true) (d : Direction) :
    (∃ msg ∈ (ts.foldl (Relay.turn frame leave) r).sent d, msg.isClose = true) ↔
      (∃ msg ∈ r.sent d, msg.isClose = true) ∨
        ForwardsCloseIn frame d r.pending r.ctx r.ext ts := by
  induction ts generalizing r with
  | nil => exact (or_iff_left id).symm
  | cons t ts ih =>
    rw [List.foldl_cons]
    unfold ForwardsCloseIn
    rcases hp : r.pending t.1 with _ | ⟨e | msg, rest⟩
    · have hturn : Relay.turn frame leave r t = leave r := by
        unfold Relay.turn
        rw [if_pos hrun, hp]
      rw [hturn, turns_stopped (hl.running _), hl.sent]
      exact (or_iff_left id).symm
    · have hturn : Relay.turn frame leave r t =
          leave { r with pending := Function.update r.pending t.1 rest } := by
        unfold Relay.turn
        rw [if_pos hrun, hp]
      rw [hturn, turns_stopped (hl.running _), hl.sent]
      exact (or_iff_left id).symm
    · have hturn : Relay.turn frame leave r t =
          if msg.isClose then leave (Relay.onFrame frame r t.1 t.2 msg rest)
          else Relay.onFrame frame r t.1 t.2 msg rest := by
        unfold Relay.turn
        rw [if_pos hrun, hp]
      rw [hturn]
      simp only
      cases hclose : msg.isClose with
      | true =>
        rw [if_pos rfl, turns_stopped (hl.running _), hl.sent, onFrame_close_iff]
        exact or_congr Iff.rfl (or_iff_left fun h => Bool.false_ne_true h.1.symm).symm
      | false =>
        rw [if_neg Bool.false_ne_true, ih (r := Relay.onFrame frame r t.1 t.2 msg rest) hrun,
          onFrame_close_iff, or_assoc]
        exact or_congr Iff.rfl (or_congr Iff.rfl (and_iff_right rfl).symm)

/-- A relay that passes every frame on has sent no Close while it is in its loop. -/
theorem no_close_of_running (hframe : ∀ ctx msg d w, (frame ctx msg d w).1.1 = some msg)
    (hl : Stops leave) {ts : List (Direction × Bool)} {r : Relay ω} {d : Direction}
    (hno : ¬ ∃ msg ∈ r.sent d, msg.isClose = true)
    (hrun : (ts.foldl (Relay.turn frame leave) r).running = true) :
    ¬ ∃ msg ∈ (ts.foldl (Relay.turn frame leave) r).sent d, msg.isClose = true := by
  induction ts generalizing r with
  | nil => exact hno
  | cons t ts ih =>
    rw [List.foldl_cons] at hrun ⊢
    refine ih ?_ hrun
    -- the round has not left the loop, so it took a message that is no Close
    have hnext : (Relay.turn frame leave r t).running = true := by
      by_contra hstop
      have hstop := Bool.eq_false_of_not_eq_true hstop
      rw [turns_stopped hstop, hstop] at hrun
      exact Bool.false_ne_true hrun
    obtain ⟨msg, rest, hp, hclose⟩ := turn_running hl.running hnext
    unfold Relay.turn
    split
    · rw [hp]
      simp only
      rw [if_neg (Bool.eq_false_iff.1 hclose), onFrame_close_iff]
      rintro (h | ⟨-, -, out, hout, hclosed⟩)
      · exact hno h
      · rw [hframe] at hout
        rw [← Option.some.inj hout, hclose] at hclosed
        exact Bool.false_ne_true hclosed
    · exact hno

/-- Behind its loop, `relay_framed` closes the client, whoever has ended. -/
theorem framed_clientClosed {ws : WebSocketHandler ω} {t : Direction × Bool}
    (hrun : r.running = true) (hend : (relayFramed ws r t).running = false) :
    (relayFramed ws r t).clientClosed = true := by
  unfold relayFramed Relay.turn at hend ⊢
  rw [hrun, if_pos rfl] at hend ⊢
  rcases hp : r.pending t.1 with _ | ⟨e | msg, rest⟩
  · rfl
  · rfl
  · rw [hp] at hend
    simp only at hend ⊢
    split
    · rfl
    · rename_i hopen
      rw [if_neg hopen] at hend
      exact absurd (hrun.symm.trans hend) (by decide)

theorem turns_clientClosed (hleave : ∀ r, (leave r).clientClosed = r.clientClosed)
    (ts : List (Direction × Bool)) (r : Relay ω) :
    (ts.foldl (Relay.turn frame leave) r).clientClosed = r.clientClosed := by
  induction ts generalizing r with
  | nil => rfl
  | cons t ts ih =>
    rw [List.foldl_cons, ih]
    unfold Relay.turn
    split
    · rcases r.pending t.1 with _ | ⟨e | msg, rest⟩
      · exact hleave r
      · exact hleave _
      · simp only
        split
        · exact hleave _
        · rfl
    · rfl

/-- A relay that never closes the client has sent it just what it has forwarded. -/
theorem sentClose_iff (hleave : ∀ r, (leave r).clientClosed = r.clientClosed)
    (hr : r.clientClosed = false) (ts : List (Direction × Bool)) (d : Direction) :
    SentClose (ts.foldl (Relay.turn frame leave) r) d ↔
      ∃ msg ∈ (ts.foldl (Relay.turn frame leave) r).sent d, msg.isClose = true := by
  unfold SentClose
  rw [turns_clientClosed hleave, hr]
  exact or_iff_left fun h => Bool.false_ne_true h.2

/-- At the start nothing has been sent. -/
theorem start_no_close (ext : ω) (ctx : HttpContext) (client server : List Item) (d : Direction) :
    ¬ ∃ msg ∈ (Relay.start ext ctx client server).sent d, msg.isClose = true := by
  rintro ⟨msg, hmsg, -⟩
  exact absurd hmsg List.not_mem_nil

/-- For a relay that passes every frame on, the last round decides. -/
theorem last_close_iff (hframe : ∀ ctx msg d w, (frame ctx msg d w).1.1 = some msg)
    (hl : Stops leave) {ts : List (Direction × Bool)} {t : Direction × Bool} {r : Relay ω}
    (hno : ¬ ∃ msg ∈ r.sent t.1, msg.isClose = true)
    (hrun : (ts.foldl (Relay.turn frame leave) r).running = true) :
    (∃ msg ∈ ((ts ++ [t]).foldl (Relay.turn frame leave) r).sent t.1, msg.isClose = true) ↔
      t.2 = true ∧ ClosesNext ((ts.foldl (Relay.turn frame leave) r).pending t.1) := by
  rw [List.foldl_append, sent_close_iff hl [t] hrun,
    or_iff_right (no_close_of_running hframe hl hno hrun)]
  unfold ForwardsCloseIn ForwardsClose
  rcases (ts.foldl (Relay.turn frame leave) r).pending t.1 with _ | ⟨e | msg, rest⟩
  · exact (iff_of_eq (and_false _)).symm
  · exact (iff_of_eq (and_false _)).symm
  · simp only [hframe, true_and, Option.some.injEq, exists_eq_left']
    exact or_iff_left fun h => h.2

/-- **What the relays do for a peer that is still open** when the other has ended. `relay_framed`
closes the client; beyond that, a peer has been sent a Close only if one was forwarded to it. -/
theorem relay_closes_peer_iff (ws : WebSocketHandler ω) (ext : ω) (ctx : HttpContext)
    (client server : List Item) (ts : List (Direction × Bool)) (t : Direction × Bool) :
    (EndsAgainst (relayFramed ws) (Relay.start ext ctx client server) ts t →
      (SentClose ((ts ++ [t]).foldl (relayFramed ws) (Relay.start ext ctx client server)) t.1 ↔
        t.1 = .serverToClient ∨ ForwardsCloseIn ws.onFrame t.1
          (Relay.start ext ctx client server).pending ctx ext (ts ++ [t]))) ∧
    (EndsAgainst (relayUpgraded ws) (Relay.start ext ctx client server) ts t →
      (SentClose ((ts ++ [t]).foldl (relayUpgraded ws) (Relay.start ext ctx client server)) t.1 ↔
        ForwardsCloseIn ws.onFrame t.1
          (Relay.start ext ctx client server).pending ctx ext (ts ++ [t]))) ∧
    (EndsAgainst relayRawUpgraded (Relay.start ext ctx client server) ts t →
      (SentClose ((ts ++ [t]).foldl relayRawUpgraded (Relay.start ext ctx client server)) t.1 ↔
        t.2 = true ∧ ClosesNext
          ((ts.foldl relayRawUpgraded (Relay.start ext ctx client server)).pending t.1))) := by
  have hstart := start_no_close ext ctx client server t.1
  refine ⟨fun h => ?_, fun _ => ?_, fun h => ?_⟩
  · have hclosed : ((ts ++ [t]).foldl (relayFramed ws)
        (Relay.start ext ctx client server)).clientClosed = true := by
      rw [List.foldl_append]
      exact framed_clientClosed h.running h.ended
    unfold SentClose
    rw [hclosed, or_comm]
    refine or_congr (and_iff_left rfl) ?_
    exact Iff.trans (sent_close_iff (leaves_framed ws).stops _ rfl _) (or_iff_right hstart)
  · refine Iff.trans (sentClose_iff ?_ ?_ _ _) ?_
    · exact fun _ => rfl
    · rfl
    · exact Iff.trans (sent_close_iff (leaves_onClose ws).stops _ rfl _) (or_iff_right hstart)
  · have hws : (NoopWebSocketHandler : WebSocketHandler ω).Unchanging := fun _ _ _ _ => rfl
    have hsame := start_same ext ext ctx ctx client server
    rw [← (raw_staySame hws).endsAgainst_iff hsame] at h
    rw [← ((raw_staySame hws).runs hsame _).sentClose_iff, ← ((raw_staySame hws).runs hsame ts).pending]
    refine Iff.trans (sentClose_iff ?_ ?_ _ _) ?_
    · exact fun _ => rfl
    · rfl
    · exact last_close_iff hws (leaves_onClose _).stops hstart h.running

/-- The client's stream ends while the server has something to say. -/
def hanging : Relay Unit :=
  Relay.start () someContext [] [.ok (.text ['b'])]

/-- The server is not told. -/
theorem relay_leaves_open :
    ¬ (EndsAgainst (relayFramed NoopWebSocketHandler) hanging [] (.clientToServer, true) →
      SentClose (relayFramed NoopWebSocketHandler hanging (.clientToServer, true))
        .clientToServer) ∧
    ¬ (EndsAgainst (relayUpgraded NoopWebSocketHandler) hanging [] (.clientToServer, true) →
      SentClose (relayUpgraded NoopWebSocketHandler hanging (.clientToServer, true))
        .clientToServer) ∧
    ¬ (EndsAgainst relayRawUpgraded hanging [] (.clientToServer, true) →
      SentClose (relayRawUpgraded hanging (.clientToServer, true)) .clientToServer) := by
  refine ⟨fun h => ?_, fun h => ?_, fun h => ?_⟩
  all_goals
    obtain ⟨msg, hmsg, -⟩ | ⟨hclient, -⟩ := h ⟨rfl, rfl, id⟩
    · exact absurd hmsg List.not_mem_nil
    · exact nomatch hclient

/-- A Close of the server, with a handler that passes it on. -/
theorem relay_closes_peer_noop :
    let closing := Relay.start () someContext [.ok (.text ['a'])] [.ok (.close none)]
    SentClose (relayFramed NoopWebSocketHandler closing (.serverToClient, false))
      .serverToClient ∧
    SentClose (relayUpgraded NoopWebSocketHandler closing (.serverToClient, true))
      .serverToClient ∧
    SentClose (relayRawUpgraded closing (.serverToClient, true)) .serverToClient := by
  have h := relay_closes_peer_iff NoopWebSocketHandler () someContext [.ok (.text ['a'])]
    [.ok (.close none)] []
  refine ⟨?_, ?_, ?_⟩
  · exact ((h (.serverToClient, false)).1 ⟨rfl, rfl, id⟩).2 (Or.inl rfl)
  · exact ((h (.serverToClient, true)).2.1 ⟨rfl, rfl, id⟩).2
      (Or.inl ⟨rfl, rfl, .close none, rfl, rfl⟩)
  · exact ((h (.serverToClient, true)).2.2 ⟨rfl, rfl, id⟩).2 ⟨rfl, rfl⟩

end HexbufferProxy
