import HexbufferProxy.Spec.Inspector

/-!
# The inspector keeps requests and responses together

* `inspectStep_does`: what one step records, remembers and forgets.
* `start_paired`, `step_paired`, `run_paired`: so what is remembered is what has been forwarded and not answered.
* `inspector_records`: and every exchange is recorded once, as itself.
* `inspector_history`: the history is the end of that.
-/

namespace HexbufferProxy

open Rust

variable {http : HttpCrate} {s : Inspector} {e : Exchange}

/-! ## One step -/

/-- What a call knows about itself. -/
def Inspect.Knows : Inspect → Prop
  | .response e => e.isMocked = false
  | .record e m res => e.isMocked = false ∧ isDashboardHost e.ctx = false ∧ e.reply = some res ∧
      m = e.metadata
  | _ => True

/-- The shared state remembers of this call what it should. -/
def Remembers (s : Inspector) (l : Inspect) : Prop :=
  ∀ id, l.exchangeId = some id → s.reqStart id = l.memory

/-- **What a step does**: it records what the call has made with it, and remembers of the call what
it should from then on. -/
structure Does (http : HttpCrate) (s : Inspector) (l : Inspect) (q : Inspector × Inspect) : Prop where
  sent : ∃ new, q.1.sent = s.sent ++ new ∧
    (q.2.made http).toList = (l.made http).toList ++ new
  others : ∀ id, l.exchangeId ≠ some id → q.1.reqStart id = s.reqStart id
  remembers : Remembers q.1 q.2
  knows : q.2.Knows

/-- A step that records and forgets nothing. -/
theorem does_none {l l' : Inspect} {s' : Inspector} (hsent : s'.sent = s.sent)
    (hreq : s'.reqStart = s.reqStart) (hmade : l'.made http = l.made http)
    (hid : l'.exchangeId = l.exchangeId) (hmemory : l'.memory = l.memory) (hs : Remembers s l)
    (hknows : l'.Knows) : Does http s l (s', l') where
  sent := ⟨[], by rw [hsent, List.append_nil], by rw [hmade, List.append_nil]⟩
  others _ _ := congrFun hreq _
  remembers id h := by
    rw [hreq, hmemory]
    exact hs id (hid ▸ h)
  knows := hknows

theorem isDashboardHost_isDashboard (h : isDashboardHost e.ctx = true) :
    isDashboard e.ctx e.req = true := by
  unfold isDashboard
  rw [h]
  rfl

/-- The request. -/
theorem request_does (http : HttpCrate) (hs : Remembers s (.request e)) :
    Does http s (.request e) (inspectStep http s (.request e)) := by
  unfold inspectStep InspectorHttpHandler
  dsimp only
  by_cases hdash : isDashboard e.ctx e.req = true
  · rw [if_pos hdash]
    refine does_none rfl rfl rfl rfl ?_ hs ?_
    · show (if isDashboard e.ctx e.req then none else some e.metadata) = none
      rw [if_pos hdash]
    · show e.isMocked = false
      unfold Exchange.isMocked
      rw [hdash]
      rfl
  rw [if_neg hdash]
  have hhost : ¬ isDashboardHost e.ctx = true := fun h => hdash (isDashboardHost_isDashboard h)
  have hmocked : e.isMocked = isMockPath (intercepted e.req) := by
    unfold Exchange.isMocked
    rw [Bool.eq_false_iff.2 hdash]
    rfl
  by_cases hmock : isMockPath (intercepted e.req) = true
  · rw [if_pos hmock]
    refine ⟨⟨[mockRecord e.clocks e.ctx (intercepted e.req)], rfl, ?_⟩, fun _ _ => rfl,
      fun id h => hs id h, trivial⟩
    show (e.record http).toList = _
    unfold Exchange.record
    rw [if_neg hhost, hmocked, if_pos hmock]
    rfl
  · rw [if_neg hmock]
    refine ⟨⟨[], (List.append_nil _).symm, rfl⟩, fun id h => ?_, fun id h => ?_, ?_⟩
    · exact Function.update_of_ne (fun hid => h (congrArg some hid.symm)) _ _
    · obtain rfl : e.ctx.id = id := Option.some.inj h
      show Function.update s.reqStart e.ctx.id (some _) e.ctx.id =
        if isDashboard e.ctx e.req then none else some e.metadata
      rw [Function.update_self, if_neg hdash]
      unfold Exchange.metadata
      rw [if_neg hdash]
    · show e.isMocked = false
      rw [hmocked]
      exact Bool.eq_false_iff.2 hmock

/-- The response, up to its body. -/
theorem response_does (http : HttpCrate) (hs : Remembers s (.response e))
    (hknows : (Inspect.response e).Knows) :
    Does http s (.response e) (inspectStep http s (.response e)) := by
  have hmemory : s.reqStart e.ctx.id = if isDashboard e.ctx e.req then none else some e.metadata :=
    hs e.ctx.id rfl
  unfold inspectStep
  dsimp only
  cases hreply : e.reply with
  | none => exact does_none rfl rfl rfl rfl rfl hs hknows
  | some res =>
    dsimp only
    by_cases hhost : isDashboardHost e.ctx = true
    · rw [if_pos hhost]
      refine does_none rfl rfl ?_ rfl ?_ hs trivial
      · show e.record http = none
        unfold Exchange.record
        rw [if_pos hhost]
      · show none = if isDashboard e.ctx e.req then none else some e.metadata
        rw [if_pos (isDashboardHost_isDashboard hhost)]
    rw [if_neg hhost]
    refine ⟨⟨[], (List.append_nil _).symm, rfl⟩, fun id h => ?_, fun id h => ?_, ?_⟩
    · exact Function.update_of_ne (fun hid => h (congrArg some hid.symm)) _ _
    · obtain rfl : e.ctx.id = id := Option.some.inj h
      exact Function.update_self ..
    · refine ⟨hknows, Bool.eq_false_iff.2 hhost, hreply, ?_⟩
      show (s.reqStart e.ctx.id).getD (.missing e.clocks) = e.metadata
      rw [hmemory]
      split
      · next hdash =>
        unfold Exchange.metadata
        rw [if_pos hdash]
        rfl
      · rfl

/-- The response, with its body. -/
theorem record_does {m : RequestMetadata} {res : Response} (http : HttpCrate)
    (hs : Remembers s (.record e m res)) (hknows : (Inspect.record e m res).Knows) :
    Does http s (.record e m res) (inspectStep http s (.record e m res)) := by
  obtain ⟨hmocked, hhost, hreply, rfl⟩ := hknows
  have hmade : e.record http = res.body.intoBytes.toOption.map fun bytes =>
      responseRecord http e.clocks e.ctx e.metadata res.status
        (res.headers.insert processedName processedValue) bytes := by
    unfold Exchange.record
    rw [if_neg (Bool.eq_false_iff.1 hhost), if_neg (Bool.eq_false_iff.1 hmocked), hreply]
    rfl
  unfold inspectStep recordResponse
  dsimp only
  cases hbody : res.body.intoBytes with
  | error err =>
    rw [hbody] at hmade
    exact does_none rfl rfl hmade rfl rfl hs trivial
  | ok bytes =>
    rw [hbody] at hmade
    refine ⟨⟨_, rfl, ?_⟩, fun _ _ => rfl, fun id h => hs id h, trivial⟩
    show (e.record http).toList = _
    rw [hmade]
    rfl

theorem inspectStep_does (http : HttpCrate) {l : Inspect} (hs : Remembers s l) (hknows : l.Knows) :
    Does http s l (inspectStep http s l) := by
  have hother : ∀ {l' : Inspect}, l'.exchangeId = none → ∀ s', Remembers s' l' := by
    intro l' hl' s' id h
    rw [hl'] at h
    cases h
  cases l with
  | request e => exact request_does http hs
  | response e => exact response_does http hs hknows
  | record e m res => exact record_does http hs hknows
  | exchanged e => exact does_none rfl rfl rfl rfl rfl hs trivial
  | count secs ctx msg direction => exact does_none rfl rfl rfl rfl rfl hs trivial
  | note secs ctx msg direction frameId =>
    unfold inspectStep recordFrame
    dsimp only
    cases hframe : frameRecord secs ctx msg direction frameId with
    | error f =>
      have hmade : (Inspect.noted secs ctx msg direction frameId).made http = none :=
        congrArg Except.toOption hframe
      exact does_none rfl rfl hmade rfl rfl hs trivial
    | ok record =>
      have hmade : (Inspect.noted secs ctx msg direction frameId).made http = some record :=
        congrArg Except.toOption hframe
      exact ⟨⟨_, rfl, congrArg Option.toList hmade⟩, fun _ _ => rfl, hother rfl _, trivial⟩
  | noted secs ctx msg direction frameId => exact does_none rfl rfl rfl rfl rfl hs trivial
  | clear => exact does_none rfl rfl rfl rfl rfl hs trivial
  | cleared => exact does_none rfl rfl rfl rfl rfl hs trivial

/-- A call keeps its number. -/
theorem inspectStep_id (http : HttpCrate) (s : Inspector) (l : Inspect) :
    (inspectStep http s l).2.exchangeId = l.exchangeId := by
  cases l with
  | request e =>
    unfold inspectStep
    dsimp only
    split <;> rfl
  | response e =>
    unfold inspectStep
    dsimp only
    split
    · rfl
    · split <;> rfl
  | _ => rfl

/-! ## All calls -/

/-- **Requests and responses are kept together** in this state. -/
structure Paired (http : HttpCrate) (p : Pool Inspector Inspect) : Prop where
  sent : p.shared.sent.Perm (p.calls.filterMap (Inspect.made http))
  remembers : ∀ l ∈ p.calls, Remembers p.shared l
  knows : ∀ l ∈ p.calls, l.Knows
  forgets : ∀ id, id ∉ p.calls.filterMap Inspect.exchangeId → p.shared.reqStart id = none

variable {p : Pool Inspector Inspect}

/-- An exchange begins under a new number. -/
theorem start_paired (hp : Paired http p) (a : Inspected)
    (hnew : ∀ id, a.exchangeId = some id → id ∉ p.calls.filterMap Inspect.exchangeId) :
    Paired http (Pool.act (inspector http) p (.start a)) := by
  have hstart : ((inspector http).start a).made http = none ∧
      ((inspector http).start a).exchangeId = a.exchangeId ∧
      ((inspector http).start a).memory = none ∧ ((inspector http).start a).Knows := by
    cases a <;> exact ⟨rfl, rfl, rfl, trivial⟩
  obtain ⟨hmade, hid, hmemory, hknows⟩ := hstart
  have hmem : ∀ l ∈ p.calls ++ [(inspector http).start a],
      l ∈ p.calls ∨ l = (inspector http).start a := by
    intro l hl
    rcases List.mem_append.1 hl with hl | hl
    · exact .inl hl
    · exact .inr (List.mem_singleton.1 hl)
  refine ⟨?_, fun l hl => ?_, fun l hl => ?_, fun id h => ?_⟩
  · show p.shared.sent.Perm ((p.calls ++ [(inspector http).start a]).filterMap _)
    rw [List.filterMap_append, List.filterMap_cons_none hmade, List.filterMap_nil, List.append_nil]
    exact hp.sent
  · rcases hmem l hl with hl | rfl
    · exact hp.remembers l hl
    · intro id h
      rw [hmemory]
      exact hp.forgets id (hnew id (hid ▸ h))
  · rcases hmem l hl with hl | rfl
    · exact hp.knows l hl
    · exact hknows
  · have h' : id ∉ (p.calls ++ [(inspector http).start a]).filterMap Inspect.exchangeId := h
    rw [List.filterMap_append] at h'
    exact hp.forgets id fun hin => h' (List.mem_append_left _ hin)

theorem filterMap_middle {α β : Type} (f : α → Option β) (pre post : List α) (x : α) :
    ((pre ++ x :: post).filterMap f).Perm ((f x).toList ++ (pre ++ post).filterMap f) := by
  refine (List.perm_middle.filterMap f).trans (List.Perm.of_eq ?_)
  rw [List.filterMap_cons]
  cases f x <;> rfl

/-- A call takes a step. -/
theorem step_paired (hp : Paired http p) (hids : (p.calls.filterMap Inspect.exchangeId).Nodup)
    (i : ℕ) : Paired http (Pool.act (inspector http) p (.step i)) := by
  cases hi : p.calls[i]? with
  | none =>
    unfold Pool.act
    simp only [hi]
    exact hp
  | some l =>
    obtain ⟨pre, post, hcalls, hact⟩ := Pool.act_split (M := inspector http) hi
    have hl : l ∈ p.calls := List.mem_of_getElem? hi
    have hid : ((inspector http).step i p.shared l).2.exchangeId = l.exchangeId :=
      inspectStep_id http p.shared l
    obtain ⟨⟨new, hsent, hmade⟩, hothers, hremembers, hknows⟩ :
        Does http p.shared l ((inspector http).step i p.shared l) :=
      inspectStep_does http (hp.remembers l hl) (hp.knows l hl)
    rw [hact]
    generalize ((inspector http).step i p.shared l).1 = s' at hsent hothers hremembers ⊢
    generalize ((inspector http).step i p.shared l).2 = l' at hid hmade hremembers hknows ⊢
    -- the other calls have other numbers
    have hother : ∀ m ∈ pre ++ post, ∀ id, m.exchangeId = some id → l.exchangeId ≠ some id := by
      intro m hm id hmid hlid
      rw [hcalls, List.filterMap_append, List.filterMap_cons_some hlid,
        List.nodup_middle, List.nodup_cons, ← List.filterMap_append] at hids
      exact hids.1 (List.mem_filterMap.2 ⟨m, hm, hmid⟩)
    have hmem : ∀ m ∈ pre ++ l' :: post, m = l' ∨ m ∈ pre ++ post := by
      intro m hm
      exact List.mem_cons.1 (List.perm_middle.mem_iff.1 hm)
    have hin : ∀ m ∈ pre ++ post, m ∈ p.calls := by
      intro m hm
      rw [hcalls]
      exact List.perm_middle.mem_iff.2 (List.mem_cons_of_mem l hm)
    refine ⟨?_, fun m hm => ?_, fun m hm => ?_, fun id h => ?_⟩
    · have hbefore := hcalls ▸ hp.sent
      show s'.sent.Perm _
      rw [hsent]
      refine ((hbefore.trans (filterMap_middle _ pre post l)).append_right new).trans ?_
      refine List.Perm.trans ?_ (filterMap_middle _ pre post l').symm
      rw [hmade, List.append_assoc, List.append_assoc]
      exact List.perm_append_comm.append_left _
    · rcases hmem m hm with rfl | hm
      · exact hremembers
      · intro id hmid
        rw [hothers id (hother m hm id hmid)]
        exact hp.remembers m (hin m hm) id hmid
    · rcases hmem m hm with rfl | hm
      · exact hknows
      · exact hp.knows m (hin m hm)
    · have hsame : (pre ++ l' :: post).filterMap Inspect.exchangeId =
          p.calls.filterMap Inspect.exchangeId := by
        rw [hcalls, List.filterMap_append, List.filterMap_append, List.filterMap_cons,
          List.filterMap_cons, hid]
      have hnone : id ∉ p.calls.filterMap Inspect.exchangeId := fun hin => h (hsame ▸ hin)
      show s'.reqStart id = none
      rw [hothers id fun hlid => hnone (List.mem_filterMap.2 ⟨l, hl, hlid⟩)]
      exact hp.forgets id hnone

/-! ## Runs -/

theorem act_ids (p : Pool Inspector Inspect) (a : Act Inspected) :
    (Pool.act (inspector http) p a).calls.filterMap Inspect.exchangeId =
      p.calls.filterMap Inspect.exchangeId ++ exchangeIds [a] := by
  cases a with
  | start a =>
    show (p.calls ++ [(inspector http).start a]).filterMap _ = _
    rw [List.filterMap_append]
    cases a <;> rfl
  | step i =>
    show _ = _ ++ []
    rw [List.append_nil]
    cases hi : p.calls[i]? with
    | none =>
      unfold Pool.act
      simp only [hi]
    | some l =>
      obtain ⟨pre, post, hcalls, hact⟩ := Pool.act_split (M := inspector http) hi
      have hid : ((inspector http).step i p.shared l).2.exchangeId = l.exchangeId :=
        inspectStep_id http p.shared l
      rw [hact, hcalls]
      dsimp only
      rw [List.filterMap_append, List.filterMap_append, List.filterMap_cons, List.filterMap_cons, hid]

theorem exchangeIds_cons (a : Act Inspected) (acts : List (Act Inspected)) :
    exchangeIds (a :: acts) = exchangeIds [a] ++ exchangeIds acts :=
  List.filterMap_append (l := [a])

theorem run_paired (acts : List (Act Inspected)) (hp : Paired http p)
    (hids : (p.calls.filterMap Inspect.exchangeId ++ exchangeIds acts).Nodup) :
    Paired http (Pool.run (inspector http) p acts) := by
  induction acts generalizing p with
  | nil => exact hp
  | cons a acts ih =>
    rw [exchangeIds_cons, ← List.append_assoc] at hids
    refine ih ?_ (by rw [act_ids]; exact hids)
    have hbefore := (List.nodup_append.1 hids).1
    cases a with
    | step i => exact step_paired hp (List.nodup_append.1 hbefore).1 i
    | start a =>
      refine start_paired hp a fun id hid hin => ?_
      have hnew : id ∈ exchangeIds [.start a] :=
        List.mem_filterMap.2 ⟨.start a, List.mem_singleton_self _, hid⟩
      exact (List.nodup_append.1 hbefore).2.2 id hin id hnew rfl

theorem new_paired (http : HttpCrate) : Paired http ⟨.new, []⟩ where
  sent := List.Perm.refl _
  remembers _ h := absurd h List.not_mem_nil
  knows _ h := absurd h List.not_mem_nil
  forgets _ _ := rfl

/-- Only a request that has been forwarded is remembered. -/
theorem memory_some {l : Inspect} {m : RequestMetadata} (h : l.memory = some m) :
    ∃ e, l = .response e ∧ isDashboard e.ctx e.req = false ∧ m = e.metadata := by
  cases l with
  | response e =>
    have hmemory : (if isDashboard e.ctx e.req then none else some e.metadata) = some m := h
    split at hmemory
    · cases hmemory
    · next hdash => exact ⟨e, rfl, Bool.eq_false_iff.2 hdash, (Option.some.inj hmemory).symm⟩
  | _ => cases h

/-- **Every exchange is recorded once, as itself**, however the handlers' steps are interleaved: what
has been sent to the dashboard are the records of the exchanges and frames that have come to their
end, each made from its own request and response. Until then the request is remembered, and nothing
else is; a request that no response comes for is remembered for ever. The numbers of the exchanges
have to be different. -/
theorem inspector_records (http : HttpCrate) (acts : List (Act Inspected))
    (hids : (exchangeIds acts).Nodup) :
    let p := Pool.run (inspector http) ⟨.new, []⟩ acts
    p.shared.sent.Perm (p.calls.filterMap (Inspect.made http)) ∧
      ∀ id m, p.shared.reqStart id = some m ↔
        ∃ e, .response e ∈ p.calls ∧ e.ctx.id = id ∧ isDashboard e.ctx e.req = false ∧
          m = e.metadata := by
  have hp := run_paired acts (new_paired http) hids
  refine ⟨hp.sent, fun id m => ⟨fun hm => ?_, ?_⟩⟩
  · have hin : id ∈ (Pool.run (inspector http) ⟨.new, []⟩ acts).calls.filterMap Inspect.exchangeId := by
      by_contra hnone
      rw [hp.forgets id hnone] at hm
      cases hm
    obtain ⟨l, hl, hid⟩ := List.mem_filterMap.1 hin
    rw [hp.remembers l hl id hid] at hm
    obtain ⟨e, rfl, hdash, rfl⟩ := memory_some hm
    exact ⟨e, hl, Option.some.inj hid, hdash, rfl⟩
  · rintro ⟨e, he, rfl, hdash, rfl⟩
    rw [hp.remembers _ he e.ctx.id rfl]
    show (if isDashboard e.ctx e.req then none else some e.metadata) = some e.metadata
    rw [hdash]
    rfl

/-! ## The history -/

theorem recordTraffic_recent {kept : List TrafficRecord} (h : s.history = kept.rtake 100)
    (record : TrafficRecord) : (s.recordTraffic record).history = (kept ++ [record]).rtake 100 := by
  rw [List.rtake_concat_succ]
  unfold Inspector.recordTraffic
  dsimp only
  rw [h]
  unfold List.rtake
  rw [List.length_drop]
  split
  · next hfull =>
    rw [List.tail_drop]
    congr 2
    omega
  · next hroom =>
    congr 2
    omega

/-- What a step does with the history. -/
inductive Shifts (s s' : Inspector) (l : Inspect) : Prop
  | same (hhistory : s'.history = s.history) (hsent : s'.sent = s.sent)
  | records (record : TrafficRecord) (hhistory : s'.history = (s.recordTraffic record).history)
      (hsent : s'.sent = s.sent ++ [record])
  | clears (hl : l = .clear) (hhistory : s'.history = []) (hsent : s'.sent = s.sent)

theorem inspectStep_shifts (http : HttpCrate) (s : Inspector) (l : Inspect) :
    Shifts s (inspectStep http s l).1 l := by
  cases l with
  | request e =>
    unfold inspectStep InspectorHttpHandler
    dsimp only
    by_cases hdash : isDashboard e.ctx e.req = true
    · rw [if_pos hdash]
      exact .same rfl rfl
    rw [if_neg hdash]
    by_cases hmock : isMockPath (intercepted e.req) = true
    · rw [if_pos hmock]
      exact .records _ rfl rfl
    · rw [if_neg hmock]
      exact .same rfl rfl
  | response e =>
    unfold inspectStep
    dsimp only
    split
    · exact .same rfl rfl
    · split <;> exact .same rfl rfl
  | record e m res =>
    unfold inspectStep recordResponse
    dsimp only
    split
    · exact .same rfl rfl
    · exact .records _ rfl rfl
  | note secs ctx msg direction frameId =>
    unfold inspectStep recordFrame
    dsimp only
    split
    · exact .same rfl rfl
    · exact .records _ rfl rfl
  | clear => exact .clears rfl rfl rfl
  | _ => exact .same rfl rfl

theorem inspectStep_clear (http : HttpCrate) (s : Inspector) (l : Inspect) :
    (inspectStep http s l).2 ≠ .clear := by
  cases l with
  | request e =>
    unfold inspectStep
    dsimp only
    split <;> exact fun h => by cases h
  | response e =>
    unfold inspectStep
    dsimp only
    split
    · exact fun h => by cases h
    · split <;> exact fun h => by cases h
  | _ => exact fun h => by cases h

/-- The history is the end of what has been recorded since then, of all of it if nothing is
cleared. -/
def Recent (before : List TrafficRecord) (quiet : Prop) (p : Pool Inspector Inspect) : Prop :=
  ∃ new kept, p.shared.sent = before ++ new ∧ kept <:+ new ∧ p.shared.history = kept.rtake 100 ∧
    (quiet → kept = new ∧ Inspect.clear ∉ p.calls)

theorem act_recent {before : List TrafficRecord} {quiet : Prop} (hp : Recent before quiet p)
    {a : Act Inspected} (ha : quiet → a ≠ .start .clear) :
    Recent before quiet (Pool.act (inspector http) p a) := by
  obtain ⟨new, kept, hnew, hkept, hhistory, hquiet⟩ := hp
  cases a with
  | start a =>
    refine ⟨new, kept, hnew, hkept, hhistory, fun hq => ⟨(hquiet hq).1, fun hin => ?_⟩⟩
    rcases List.mem_append.1 hin with hin | hin
    · exact (hquiet hq).2 hin
    · have hclear := List.mem_singleton.1 hin
      cases a with
      | clear => exact ha hq rfl
      | _ => cases hclear
  | step i =>
    cases hi : p.calls[i]? with
    | none =>
      unfold Pool.act
      simp only [hi]
      exact ⟨new, kept, hnew, hkept, hhistory, hquiet⟩
    | some l =>
      have hshifts : Shifts p.shared ((inspector http).step i p.shared l).1 l :=
        inspectStep_shifts http p.shared l
      have hclear : ((inspector http).step i p.shared l).2 ≠ .clear :=
        inspectStep_clear http p.shared l
      rw [Pool.act_step hi]
      generalize ((inspector http).step i p.shared l).1 = s' at hshifts ⊢
      generalize ((inspector http).step i p.shared l).2 = l' at hclear ⊢
      have hcalls : quiet → Inspect.clear ∉ p.calls.set i l' := by
        intro hq hin
        rcases List.mem_or_eq_of_mem_set hin with hin | rfl
        · exact (hquiet hq).2 hin
        · exact hclear rfl
      cases hshifts with
      | same hsame hsent =>
        exact ⟨new, kept, hsent.trans hnew, hkept, hsame.trans hhistory,
          fun hq => ⟨(hquiet hq).1, hcalls hq⟩⟩
      | records record hrecord hsent =>
        refine ⟨new ++ [record], kept ++ [record], ?_, ?_,
          hrecord.trans (recordTraffic_recent hhistory record),
          fun hq => ⟨congrArg (· ++ [record]) (hquiet hq).1, hcalls hq⟩⟩
        · show s'.sent = before ++ (new ++ [record])
          rw [hsent, hnew, List.append_assoc]
        · obtain ⟨front, hfront⟩ := hkept
          exact ⟨front, by rw [← hfront, List.append_assoc]⟩
      | clears hl hcleared hsent =>
        refine ⟨new, [], hsent.trans hnew, List.nil_suffix, hcleared.trans (List.rtake_nil 100).symm,
          fun hq => ?_⟩
        exact absurd (hl ▸ List.mem_of_getElem? hi) (hquiet hq).2

/-- **The history is the end of what has been recorded.** From a state on in which it is empty, as it
is in the beginning and whenever it has been cleared, it has the last hundred of the records that the
dashboard gets, in the same order, until it is cleared again; and of the last of them in any case. -/
theorem inspector_history (http : HttpCrate) (p : Pool Inspector Inspect)
    (hp : p.shared.history = []) (acts : List (Act Inspected)) :
    let q := Pool.run (inspector http) p acts
    ∃ new kept, q.shared.sent = p.shared.sent ++ new ∧ kept <:+ new ∧
      q.shared.history = kept.rtake 100 ∧
      (Inspect.clear ∉ p.calls → Act.start Inspected.clear ∉ acts → kept = new) := by
  have hrun : ∀ (quiet : Prop) (p' : Pool Inspector Inspect) (later : List (Act Inspected)),
      Recent p.shared.sent quiet p' → (quiet → Act.start Inspected.clear ∉ later) →
      Recent p.shared.sent quiet (Pool.run (inspector http) p' later) := by
    intro quiet p' later hp' hlater
    induction later generalizing p' with
    | nil => exact hp'
    | cons a later ih =>
      refine ih _ (act_recent hp' fun hq ha => ?_) fun hq hin => ?_
      · exact hlater hq (ha ▸ List.mem_cons_self)
      · exact hlater hq (List.mem_cons_of_mem a hin)
  obtain ⟨new, kept, hnew, hkept, hhistory, hquiet⟩ := hrun
    (Inspect.clear ∉ p.calls ∧ Act.start Inspected.clear ∉ acts) p acts
    ⟨[], [], (List.append_nil _).symm, List.suffix_rfl, hp.trans (List.rtake_nil 100).symm,
      fun hq => ⟨rfl, hq.1⟩⟩ And.right
  exact ⟨new, kept, hnew, hkept, hhistory, fun hp hacts => (hquiet ⟨hp, hacts⟩).1⟩

/-! ## The handlers by themselves -/

/-- The steps of a response, with nothing in between, are `handle_response`. -/
theorem response_alone (http : HttpCrate) (s : Inspector) (e : Exchange) {res : Response}
    (h : e.reply = some res) :
    (fun q : Inspector × Inspect => inspectStep http q.1 q.2)^[2] (s, .response e) =
      (((InspectorHttpHandler http e.clocks).handleResponse e.ctx res s).2, .exchanged e) := by
  show inspectStep http (inspectStep http s (.response e)).1 (inspectStep http s (.response e)).2 = _
  unfold InspectorHttpHandler
  dsimp only
  by_cases hhost : isDashboardHost e.ctx = true
  · have hstep : inspectStep http s (.response e) = (s, .exchanged e) := by
      unfold inspectStep
      dsimp only
      rw [h]
      exact if_pos hhost
    rw [hstep, if_pos hhost]
    rfl
  · have hstep : inspectStep http s (.response e) = ((takeRequest e.clocks e.ctx s).2,
        .record e (takeRequest e.clocks e.ctx s).1 res) := by
      unfold inspectStep
      dsimp only
      rw [h]
      exact if_neg hhost
    rw [hstep, if_neg hhost]
    rfl

/-- The steps of a frame, with nothing in between, are `on_frame`. -/
theorem frame_alone (http : HttpCrate) (s : Inspector) (secs : ℕ) (ctx : HttpContext)
    (msg : Message) (direction : Direction) :
    ((fun q : Inspector × Inspect => inspectStep http q.1 q.2)^[2]
      (s, .count secs ctx msg direction)).1 =
      (InspectorWsHandler.onFrame secs ctx msg direction s).2 := rfl

/-! ## Two exchanges at once -/

def sampleExchange (id : UInt64) : Exchange where
  clocks := ⟨0, 0, 5, 0⟩
  ctx := ⟨id, "a.example".toList, ⟨"127.0.0.1", 0⟩, false⟩
  req := ⟨.get, .origin .slash, [], .full []⟩
  reply := some ⟨⟨200, ok_inRange⟩, [], .full (lit "hello")⟩

/-- The second request comes before the first response. -/
def overlapping : List (Act Inspected) :=
  [.start (.exchange (sampleExchange 1)), .step 0, .start (.exchange (sampleExchange 2)), .step 1,
    .step 1, .step 0, .step 0, .step 1]

theorem inspector_records_overlapping :
    let p := Pool.run (inspector .basic) ⟨.new, []⟩ overlapping
    p.shared.sent.map TrafficRecord.id = [1, 2] ∧
      p.shared.sent.Perm (p.calls.filterMap (Inspect.made .basic)) :=
  ⟨by decide +kernel, (inspector_records .basic overlapping (by decide)).1⟩

/-- So many frames, one after another. -/
def crowded (first n : ℕ) : List (Act Inspected) :=
  (List.range' first n).flatMap fun i =>
    [.start (.frame 5 (sampleExchange 0).ctx (.text "hello".toList) .clientToServer), .step i,
      .step i]

/-- More frames than the history can hold, then two more behind a `clear`. -/
def crowdedCleared : List (Act Inspected) :=
  crowded 0 103 ++ [.start .clear, .step 103] ++ crowded 104 2

theorem inspector_history_crowded :
    let p := Pool.run (inspector .basic) ⟨.new, []⟩ (crowded 0 103)
    let q := Pool.run (inspector .basic) ⟨.new, []⟩ crowdedCleared
    p.shared.sent.length = 103 ∧
      (p.shared.history.length = 100 ∧ p.shared.history.head?.map TrafficRecord.id = some 4) ∧
      q.shared.sent.length = 105 ∧ q.shared.history.map TrafficRecord.id = [104, 105] ∧
      ∃ new kept, q.shared.sent = [] ++ new ∧ kept <:+ new ∧ q.shared.history = kept.rtake 100 ∧
        (Inspect.clear ∉ [] → Act.start Inspected.clear ∉ crowdedCleared → kept = new) :=
  ⟨by decide +kernel, by decide +kernel, by decide +kernel, by decide +kernel,
    inspector_history .basic ⟨.new, []⟩ rfl crowdedCleared⟩

end HexbufferProxy
