import HexbufferProxy.Spec.Closing
import HexbufferProxy.Proof.Relay

/-!
# The first Close ends a relay

* `turn_unchanged`: a round that takes a message forwards it as it is.
* `turns_cleanly`: when a run closes without loss. The induction is on the rounds; a round that takes
  a Close or finds an end is the last.
* `raw_staySame`: to both peers `relay_raw_upgraded` is `relay_upgraded` with a handler that returns
  every frame unchanged; what is said of the one carries over to the other.
* `relay_closes_iff`: the three relays.
-/

namespace HexbufferProxy

variable {ω : Type}
  {frame : HttpContext → Message → Direction → ω → (Option Message × HttpContext) × ω}
  {leave : Relay ω → Relay ω} {r₀ r : Relay ω}

/-- What stands behind the loop of any relay. -/
structure Stops (leave : Relay ω → Relay ω) : Prop where
  running : ∀ r, (leave r).running = false
  sent : ∀ r, (leave r).sent = r.sent

/-- Inside the loop: all that has been taken has been sent, and it was no Close. -/
structure Passing (r₀ r : Relay ω) : Prop where
  running : r.running = true
  passed : ∀ d, r₀.pending d = (r.sent d).map .ok ++ r.pending d
  opened : ∀ d, ∀ msg ∈ r.sent d, msg.isClose = false

theorem beforeClose_append {msgs : List Message} (h : ∀ msg ∈ msgs, msg.isClose = false)
    (items : List Item) : beforeClose (msgs.map .ok ++ items) = msgs ++ beforeClose items := by
  induction msgs with
  | nil => rfl
  | cons msg msgs ih =>
    have hmsg : ¬ msg.isClose = true := by
      rw [h msg List.mem_cons_self]
      exact Bool.false_ne_true
    rw [List.map_cons, List.cons_append, beforeClose, if_neg hmsg,
      ih fun x hx => h x (List.mem_cons_of_mem _ hx)]
    rfl

/-- Everything before a Close has been forwarded when nothing of it is left. -/
theorem Passing.forwarded_iff (h : Passing r₀ r) (d : Direction) :
    beforeClose (r₀.pending d) <+: r.sent d ↔ beforeClose (r.pending d) = [] := by
  rw [h.passed d, beforeClose_append (h.opened d)]
  constructor
  · intro hle
    have hlen := hle.length_le
    rw [List.length_append] at hlen
    exact List.eq_nil_of_length_eq_zero (by omega)
  · intro hnil
    rw [hnil, List.append_nil]

/-- A round that takes a message. -/
theorem turn_unchanged (leave : Relay ω → Relay ω)
    (hframe : ∀ ctx msg d w, (frame ctx msg d w).1.1 = some msg)
    (h : Passing r₀ r) {d : Direction} {msg : Message} {rest : List Item}
    (hp : r.pending d = .ok msg :: rest) :
    ∃ r', r'.running = true ∧
      Relay.turn frame leave r (d, true) = (if msg.isClose then leave r' else r') ∧
      r'.pending = Function.update r.pending d rest ∧
      r'.sent = Function.update r.sent d (r.sent d ++ [msg]) := by
  refine ⟨Relay.onFrame frame r d true msg rest, h.running, ?_, rfl, ?_⟩
  · unfold Relay.turn
    rw [h.running, if_pos rfl, hp]
  · show Function.update r.sent d (r.sent d ++ (frame r.ctx msg d r.ext).1.1.toList) = _
    rw [hframe]
    rfl

theorem Passing.turn (leave : Relay ω → Relay ω)
    (hframe : ∀ ctx msg d w, (frame ctx msg d w).1.1 = some msg)
    (h : Passing r₀ r) {d : Direction} {msg : Message} {rest : List Item}
    (hp : r.pending d = .ok msg :: rest) (hopen : msg.isClose = false) :
    Passing r₀ (Relay.turn frame leave r (d, true)) := by
  obtain ⟨r', hrun, hturn, hpending, hsent⟩ := turn_unchanged leave hframe h hp
  rw [hopen, if_neg Bool.false_ne_true] at hturn
  rw [hturn]
  refine ⟨hrun, fun d' => ?_, fun d' msg' hmsg' => ?_⟩
  · rw [h.passed d', hpending, hsent]
    by_cases hd : d' = d
    · subst hd
      rw [Function.update_self, Function.update_self, hp, List.map_append, List.append_assoc]
      rfl
    · rw [Function.update_of_ne hd, Function.update_of_ne hd]
  · rw [hsent] at hmsg'
    by_cases hd : d' = d
    · subst hd
      rw [Function.update_self] at hmsg'
      rcases List.mem_append.1 hmsg' with hold | hnew
      · exact h.opened d' msg' hold
      · rw [List.mem_singleton.1 hnew]
        exact hopen
    · rw [Function.update_of_ne hd] at hmsg'
      exact h.opened d' msg' hmsg'

/-- A round that finds the end of a stream leaves the loop. -/
theorem turn_end
    (frame : HttpContext → Message → Direction → ω → (Option Message × HttpContext) × ω)
    (hl : Stops leave) (h : Passing r₀ r) {d : Direction} (hend : StreamEnded (r.pending d)) :
    (Relay.turn frame leave r (d, true)).running = false ∧
      (Relay.turn frame leave r (d, true)).sent = r.sent := by
  unfold Relay.turn
  rw [h.running, if_pos rfl]
  cases hp : r.pending d with
  | nil => exact ⟨hl.running r, hl.sent r⟩
  | cons item rest =>
    cases item with
    | error e => exact ⟨hl.running _, hl.sent _⟩
    | ok msg =>
      rw [hp] at hend
      exact hend.elim

theorem findsEnd_stopped (h : r.running = false) (ts : List (Direction × Bool)) :
    ¬ FindsEnd (Relay.turn frame leave) r ts := by
  induction ts generalizing r with
  | nil => exact id
  | cons t ts ih =>
    have ht : Relay.turn frame leave r t = r := turns_stopped h [t]
    rintro (⟨hr, -⟩ | hlater)
    · rw [h] at hr
      exact Bool.false_ne_true hr
    · rw [ht] at hlater
      exact ih h hlater

theorem harmless_stopped (h : r.running = false) (ts : List (Direction × Bool)) :
    Harmless (Relay.turn frame leave) r ts := by
  induction ts generalizing r with
  | nil => exact trivial
  | cons t ts ih =>
    have ht : Relay.turn frame leave r t = r := turns_stopped h [t]
    refine ⟨fun hr => ?_, ?_⟩
    · rw [h] at hr
      exact absurd hr Bool.false_ne_true
    · rw [ht]
      exact ih h

/-- **When a run closes without loss.** `r₀` is where it began, `r` where it is. -/
theorem turns_cleanly (hframe : ∀ ctx msg d w, (frame ctx msg d w).1.1 = some msg)
    (hl : Stops leave) (ts : List (Direction × Bool)) (hok : ∀ t ∈ ts, t.2 = true)
    (h : Passing r₀ r) :
    ((ts.foldl (Relay.turn frame leave) r).running = false →
      (∀ d, beforeClose (r₀.pending d) <+: (ts.foldl (Relay.turn frame leave) r).sent d) ∧
      ((∀ d, ∃ msg ∈ (ts.foldl (Relay.turn frame leave) r).sent d, msg.isClose = true) ∨
        FindsEnd (Relay.turn frame leave) r ts)) ↔
    Harmless (Relay.turn frame leave) r ts := by
  induction ts generalizing r with
  | nil =>
    refine ⟨fun _ => trivial, fun _ hstop => ?_⟩
    rw [List.foldl_nil, h.running] at hstop
    exact absurd hstop.symm Bool.false_ne_true
  | cons t ts ih =>
    obtain ⟨d, ok⟩ := t
    obtain rfl : ok = true := hok (d, ok) List.mem_cons_self
    have hok' : ∀ t ∈ ts, t.2 = true := fun t ht => hok t (List.mem_cons_of_mem _ ht)
    rw [List.foldl_cons]
    by_cases hend : StreamEnded (r.pending d)
    · -- the last round: what is left on the other side is lost
      obtain ⟨hstop, hsent⟩ := turn_end frame hl h hend
      rw [turns_stopped hstop, hsent]
      have hcloses : ¬ ClosesNext (r.pending d) := by
        cases hp : r.pending d with
        | nil => exact id
        | cons item rest =>
          cases item with
          | error e => exact id
          | ok msg => rw [hp] at hend; exact hend.elim
      constructor
      · intro hclean
        refine ⟨fun _ => ⟨hcloses, fun _ d' => ?_⟩, harmless_stopped hstop ts⟩
        exact (h.forwarded_iff d').1 ((hclean hstop).1 d')
      · intro hharmless _
        refine ⟨fun d' => ?_, .inr (.inl ⟨h.running, hend⟩)⟩
        exact (h.forwarded_iff d').2 ((hharmless.1 h.running).2 hend d')
    obtain ⟨msg, rest, hp⟩ : ∃ msg rest, r.pending d = .ok msg :: rest := by
      cases hp : r.pending d with
      | nil => rw [hp] at hend; exact absurd trivial hend
      | cons item rest =>
        cases item with
        | error e => rw [hp] at hend; exact absurd trivial hend
        | ok msg => exact ⟨msg, rest, rfl⟩
    have hcloses : ClosesNext (r.pending d) ↔ msg.isClose = true := by
      rw [hp]
      exact Iff.rfl
    have hfinds : FindsEnd (Relay.turn frame leave) r ((d, true) :: ts) ↔
        FindsEnd (Relay.turn frame leave) (Relay.turn frame leave r (d, true)) ts :=
      ⟨fun hor => hor.resolve_left fun hnow => hend hnow.2, .inr⟩
    cases hmsg : msg.isClose with
    | true =>
      -- the first Close is the only one
      obtain ⟨r', -, hturn, -, hsent⟩ := turn_unchanged leave hframe h hp
      rw [hmsg, if_pos rfl] at hturn
      have hstop : (Relay.turn frame leave r (d, true)).running = false := by
        rw [hturn]
        exact hl.running r'
      constructor
      · intro hclean
        exfalso
        rw [turns_stopped hstop] at hclean
        rcases (hclean hstop).2 with hboth | hfound
        · obtain ⟨d', hd'⟩ : ∃ d', d' ≠ d := by
            cases d with
            | clientToServer => exact ⟨.serverToClient, fun h => nomatch h⟩
            | serverToClient => exact ⟨.clientToServer, fun h => nomatch h⟩
          obtain ⟨other, hother, hclosed⟩ := hboth d'
          rw [hturn, hl.sent, hsent, Function.update_of_ne hd'] at hother
          rw [h.opened d' other hother] at hclosed
          exact Bool.false_ne_true hclosed
        · exact findsEnd_stopped hstop ts (hfinds.1 hfound)
      · intro hharmless
        exact absurd (hcloses.2 hmsg) (hharmless.1 h.running).1
    | false =>
      have hnext := h.turn leave hframe hp hmsg
      rw [hfinds, ih hok' hnext]
      refine ⟨fun hlater => ⟨fun _ => ⟨fun hc => ?_, fun hnow => absurd hnow hend⟩, hlater⟩,
        fun hharmless => hharmless.2⟩
      rw [hcloses, hmsg] at hc
      exact Bool.false_ne_true hc

theorem start_passing (ext : ω) (ctx : HttpContext) (client server : List Item) :
    Passing (Relay.start ext ctx client server) (Relay.start ext ctx client server) :=
  ⟨rfl, fun _ => rfl, fun _ _ hmsg => absurd hmsg List.not_mem_nil⟩

theorem Leaves.stops (hl : Leaves leave) : Stops leave := ⟨hl.running, hl.sent⟩

/-! ## A relay without a handler -/

section

variable {ω' : Type} {round : Relay ω → Direction × Bool → Relay ω}
  {round' : Relay ω' → Direction × Bool → Relay ω'} {r' : Relay ω'}

/-- Relays that are the same to both peers stay so, round by round. -/
def StaySame (round : Relay ω → Direction × Bool → Relay ω)
    (round' : Relay ω' → Direction × Bool → Relay ω') : Prop :=
  ∀ r r' t, SameToPeers r r' → SameToPeers (round r t) (round' r' t)

/-- **One round of `relay_upgraded`**, with a handler that returns every frame unchanged, and one of
`relay_raw_upgraded`. -/
theorem raw_staySame {ws : WebSocketHandler ω} (hws : ws.Unchanging) :
    StaySame (relayUpgraded ws) (relayRawUpgraded : Relay ω' → Direction × Bool → Relay ω') := by
  intro r r' t h
  unfold relayUpgraded relayRawUpgraded Relay.turn
  rw [← h.running, ← h.pending]
  cases hr : r.running with
  | false => exact h
  | true =>
    rw [if_pos rfl, if_pos rfl]
    rcases hp : r.pending t.1 with _ | ⟨e | msg, rest⟩
    · dsimp only
      exact ⟨rfl, h.sent, rfl, h.clientClosed⟩
    · dsimp only
      exact ⟨rfl, h.sent, rfl, h.clientClosed⟩
    · have hsent : (Relay.onFrame ws.onFrame r t.1 t.2 msg rest).sent =
          Function.update r'.sent t.1 (r'.sent t.1 ++ if t.2 then [msg] else []) := by
        unfold Relay.onFrame
        simp only [hws r.ctx msg t.1 r.ext, h.sent, Option.toList_some]
      dsimp only
      split
      · exact ⟨rfl, hsent, rfl, h.clientClosed⟩
      · exact ⟨rfl, hsent, hr, h.clientClosed⟩

namespace StaySame

theorem runs (hround : StaySame round round') (h : SameToPeers r r')
    (ts : List (Direction × Bool)) :
    SameToPeers (ts.foldl round r) (ts.foldl round' r') := by
  induction ts generalizing r r' with
  | nil => exact h
  | cons t ts ih => exact ih (hround r r' t h)

theorem findsEnd_iff (hround : StaySame round round') (h : SameToPeers r r')
    (ts : List (Direction × Bool)) :
    FindsEnd round r ts ↔ FindsEnd round' r' ts := by
  induction ts generalizing r r' with
  | nil => exact Iff.rfl
  | cons t ts ih =>
    unfold FindsEnd
    rw [h.running, h.pending, ih (hround r r' t h)]

theorem harmless_iff (hround : StaySame round round') (h : SameToPeers r r')
    (ts : List (Direction × Bool)) :
    Harmless round r ts ↔ Harmless round' r' ts := by
  induction ts generalizing r r' with
  | nil => exact Iff.rfl
  | cons t ts ih =>
    unfold Harmless
    rw [h.running, h.pending, ih (hround r r' t h)]

theorem closesCleanly_iff (hround : StaySame round round') (h : SameToPeers r r')
    (ts : List (Direction × Bool)) :
    ClosesCleanly round r ts ↔ ClosesCleanly round' r' ts := by
  have hend := hround.runs h ts
  unfold ClosesCleanly
  rw [hend.running, hend.sent, h.pending, hround.findsEnd_iff h ts]

end StaySame

end

/-- At the start only the handler can differ. -/
theorem start_same {ω' : Type} (ext : ω) (ext' : ω') (ctx ctx' : HttpContext)
    (client server : List Item) :
    SameToPeers (Relay.start ext ctx client server) (Relay.start ext' ctx' client server) :=
  ⟨rfl, rfl, rfl, rfl⟩

/-! ## The three relays -/

/-- **Closing loses nothing just if no round takes a Close, and the end of one stream finds nothing
left of the other**: runs of `relay_framed`, `relay_upgraded` and `relay_raw_upgraded` with a
handler that returns every frame unchanged and sends that succeed. -/
theorem relay_closes_iff (ws : WebSocketHandler ω) (hws : ws.Unchanging) (ext : ω)
    (ctx : HttpContext) (client server : List Item) (ts : List (Direction × Bool))
    (hok : ∀ t ∈ ts, t.2 = true) :
    (ClosesCleanly (relayFramed ws) (Relay.start ext ctx client server) ts ↔
      Harmless (relayFramed ws) (Relay.start ext ctx client server) ts) ∧
    (ClosesCleanly (relayUpgraded ws) (Relay.start ext ctx client server) ts ↔
      Harmless (relayUpgraded ws) (Relay.start ext ctx client server) ts) ∧
    (ClosesCleanly relayRawUpgraded (Relay.start ext ctx client server) ts ↔
      Harmless relayRawUpgraded (Relay.start ext ctx client server) ts) := by
  have hstart := start_passing ext ctx client server
  have hupgraded : ClosesCleanly (relayUpgraded ws) (Relay.start ext ctx client server) ts ↔
      Harmless (relayUpgraded ws) (Relay.start ext ctx client server) ts :=
    turns_cleanly hws (leaves_onClose ws).stops ts hok hstart
  refine ⟨turns_cleanly hws (leaves_framed ws).stops ts hok hstart, hupgraded, ?_⟩
  have hsame := start_same ext ext ctx ctx client server
  rw [← (raw_staySame hws).closesCleanly_iff hsame, ← (raw_staySame hws).harmless_iff hsame]
  exact hupgraded

/-- The client closes while a message of the server is on its way. -/
def crossing : Relay Unit :=
  Relay.start () someContext [.ok (.close none)] [.ok (.text ['b']), .ok (.close none)]

/-- The relays end with the client's Close; the server's message is lost. -/
theorem relay_loses :
    ¬ ClosesCleanly (relayFramed NoopWebSocketHandler) crossing [(.clientToServer, true)] ∧
    ¬ ClosesCleanly (relayUpgraded NoopWebSocketHandler) crossing [(.clientToServer, true)] ∧
    ¬ ClosesCleanly relayRawUpgraded crossing [(.clientToServer, true)] := by
  refine ⟨fun h => ?_, fun h => ?_, fun h => ?_⟩
  · exact absurd ((h rfl).1 .serverToClient) (List.isPrefixOf_iff_prefix.not.1 (by decide))
  · exact absurd ((h rfl).1 .serverToClient) (List.isPrefixOf_iff_prefix.not.1 (by decide))
  · exact absurd ((h rfl).1 .serverToClient) (List.isPrefixOf_iff_prefix.not.1 (by decide))

/-- One message each way, and the end of the client's stream when the server has said all. -/
theorem relay_closes_iff_noop :
    ClosesCleanly (relayFramed NoopWebSocketHandler)
      (Relay.start () someContext [.ok (.text ['a'])] [.ok (.text ['b'])])
      [(.clientToServer, true), (.serverToClient, true), (.clientToServer, true)] := by
  refine (relay_closes_iff NoopWebSocketHandler (fun _ _ _ _ => rfl) () someContext
    [.ok (.text ['a'])] [.ok (.text ['b'])] _ (by decide)).1.2 ?_
  have hround : ∀ {P : Prop}, ¬ false = true ∧ (False → P) := ⟨Bool.false_ne_true, False.elim⟩
  refine And.intro (fun _ => hround) (And.intro (fun _ => hround) (And.intro (fun _ =>
    And.intro id fun _ d => ?_) trivial))
  cases d <;> rfl

end HexbufferProxy
