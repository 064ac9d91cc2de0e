import HexbufferProxy.Proof.Parse
import HexbufferProxy.Spec.Handshake

/-!
# When a request for WebSocket is recognised

* `infix_elements_iff`: a word that is found in a list lies in one of its elements.
* `found_iff`: the code finds a word that stands first or inside another.
* `listed_iff`: a word that is listed stands first or later.
* `isWebsocketUpgrade_asks_iff`: so the code recognises exactly the requests that ask, but for those
  it misses and those it mistakes.
-/

namespace HexbufferProxy

open Rust

variable {m : HeaderMap} {n : HeaderName} {word : Str}

theorem toStr_ascii {v : HeaderValue} {t : Str} (h : v.toStr = some t) :
    ∀ c ∈ t, c.toNat < 128 := by
  unfold HeaderValue.toStr at h
  split at h
  · rename_i hall
    intro c hc
    rw [← Option.some.inj h] at hc
    obtain ⟨b, hb, rfl⟩ := List.mem_map.1 hc
    have hbyte := List.all_eq_true.1 hall b hb
    simp only [Bool.or_eq_true, Bool.and_eq_true, decide_eq_true_eq, beq_iff_eq] at hbyte
    rw [Char.toNat_ofNat, if_pos (Or.inl (by omega))]
    omega
  · exact nomatch h

theorem toStr_lossy {v : HeaderValue} {t : Str} (h : v.toStr = some t) : fromUtf8Lossy v.1 = t := by
  have hascii : ∀ bs : Bytes, (∀ b ∈ bs, b.toNat < 128) →
      fromUtf8Lossy bs = bs.map fun b => Char.ofNat b.toNat := by
    intro bs hbs
    induction bs with
    | nil => rfl
    | cons b bs ih =>
      rw [lossy_cons_ascii (hbs b List.mem_cons_self),
        ih fun x hx => hbs x (List.mem_cons_of_mem b hx), List.map_cons]
  unfold HeaderValue.toStr at h
  split at h
  · rename_i hall
    rw [← Option.some.inj h]
    apply hascii
    intro b hb
    have hbyte := List.all_eq_true.1 hall b hb
    simp only [Bool.or_eq_true, Bool.and_eq_true, decide_eq_true_eq, beq_iff_eq] at hbyte
    omega
  · exact nomatch h

/-! ## Words in lists -/

/-- A word without the separator lies on one side of it. -/
theorem infix_append_cons {c : Char} {w a b : Str} (hc : c ∉ w) (h : w <:+: a ++ c :: b) :
    w <:+: a ∨ w <:+: b := by
  induction a with
  | nil =>
    rcases List.infix_cons_iff.1 h with h | h
    · rcases List.prefix_cons_iff.1 h with rfl | ⟨t, rfl, -⟩
      · exact Or.inl List.nil_infix
      · exact absurd List.mem_cons_self hc
    · exact Or.inr h
  | cons x a ih =>
    rcases List.infix_cons_iff.1 h with h | h
    · have hfront : x :: a ++ [c] <+: x :: a ++ c :: b := ⟨b, by simp⟩
      rcases List.prefix_or_prefix_of_prefix h hfront with h | h
      · rcases List.prefix_concat_iff.1 h with rfl | h
        · exact absurd (List.mem_append_right _ (List.mem_singleton_self c)) hc
        · exact Or.inl h.isInfix
      · exact absurd (h.subset (List.mem_append_right _ (List.mem_singleton_self c))) hc
    · exact (ih h).imp_left List.infix_cons

/-- **A word without the separator lies in one element of the list.** -/
theorem infix_splitOn_iff {c : Char} {w s : Str} (hc : c ∉ w) :
    w <:+: s ↔ ∃ x ∈ s.splitOn c, w <:+: x := by
  induction hlen : s.length using Nat.strong_induction_on generalizing s with
  | _ k ih =>
    by_cases hs : c ∈ s
    · obtain ⟨a, b, rfl, ha⟩ := List.eq_append_cons_of_mem hs
      have hlt : b.length < k := by
        rw [← hlen, List.length_append, List.length_cons]
        omega
      rw [List.splitOn_append_cons_self_of_not_mem ha, List.exists_mem_cons_iff, ← ih _ hlt rfl]
      constructor
      · exact infix_append_cons hc
      · rintro (h | h)
        · exact h.trans (List.prefix_append _ _).isInfix
        · exact h.trans ⟨a ++ [c], [], by simp⟩
    · rw [List.splitOn_eq_singleton hs]
      simp

theorem infix_dropWhile {p : Char → Bool} {w s : Str} (hw : ∀ c ∈ w, p c = false)
    (h : w <:+: s) : w <:+: s.dropWhile p := by
  induction s with
  | nil => exact h
  | cons c s ih =>
    rw [List.dropWhile_cons]
    split
    · rename_i hp
      rcases List.infix_cons_iff.1 h with h | h
      · rcases List.prefix_cons_iff.1 h with rfl | ⟨t, rfl, -⟩
        · exact List.nil_infix
        · exact absurd (hp.symm.trans (hw c List.mem_cons_self)) (by decide)
      · exact ih h
    · exact h

/-- Blanks around a text hold no part of a word. -/
theorem infix_strip_iff {w s : Str} (hw : ∀ c ∈ w, c ≠ ' ' ∧ c ≠ '\t') :
    w <:+: strip s ↔ w <:+: s := by
  have hblank : ∀ c ∈ w, decide (c = ' ' ∨ c = '\t') = false := by
    intro c hc
    exact decide_eq_false (not_or.2 (hw c hc))
  unfold strip List.rdropWhile
  constructor
  · intro h
    refine h.trans ?_
    exact (List.rdropWhile_prefix _ _).isInfix.trans (List.dropWhile_suffix _).isInfix
  · intro h
    rw [← List.reverse_infix, List.reverse_reverse]
    refine infix_dropWhile (fun c hc => hblank c (List.mem_reverse.1 hc)) ?_
    exact List.reverse_infix.2 (infix_dropWhile hblank h)

/-- **A word lies in a list when it lies in one of its elements**, in any case. -/
theorem infix_elements_iff {t : Str} (hword : word ≠ [])
    (hc : ∀ c ∈ word, c ≠ ',' ∧ c ≠ ' ' ∧ c ≠ '\t') :
    word <:+: t.map Char.toLower ↔
      ∃ e ∈ (elements [t]).map (·.map Char.toLower), word <:+: e := by
  -- the part of the text that becomes the word has no comma and no blank either
  have hclean : ∀ w : Str, word = w.map Char.toLower →
      ∀ c ∈ w, c ≠ ',' ∧ c ≠ ' ' ∧ c ≠ '\t' := by
    rintro w rfl c hcw
    have h := hc c.toLower (List.mem_map_of_mem hcw)
    refine ⟨?_, ?_, ?_⟩
    · rintro rfl; exact h.1 rfl
    · rintro rfl; exact h.2.1 rfl
    · rintro rfl; exact h.2.2 rfl
  have hpart : ∀ w : Str, word = w.map Char.toLower →
      (w <:+: t ↔ ∃ e ∈ elements [t], w <:+: e) := by
    intro w hw
    have hblank : ∀ c ∈ w, c ≠ ' ' ∧ c ≠ '\t' := fun c h => (hclean w hw c h).2
    rw [infix_splitOn_iff fun h => (hclean w hw _ h).1 rfl]
    unfold elements
    rw [List.flatMap_singleton]
    constructor
    · rintro ⟨x, hx, hin⟩
      have hstrip := (infix_strip_iff hblank).2 hin
      refine ⟨strip x, List.mem_filter.2 ⟨List.mem_map_of_mem hx, ?_⟩, hstrip⟩
      refine decide_eq_true fun hnil => hword ?_
      rw [hnil] at hstrip
      rw [hw, List.infix_nil.1 hstrip, List.map_nil]
    · rintro ⟨e, he, hin⟩
      obtain ⟨x, hx, rfl⟩ := List.mem_map.1 (List.mem_filter.1 he).1
      exact ⟨x, hx, (infix_strip_iff hblank).1 hin⟩
  rw [List.infix_map_iff]
  constructor
  · rintro ⟨w, hin, hw⟩
    obtain ⟨e, he, hin⟩ := (hpart w hw).1 hin
    exact ⟨e.map Char.toLower, List.mem_map_of_mem he, hw ▸ hin.map _⟩
  · rintro ⟨_, hmem, hin⟩
    obtain ⟨e, he, rfl⟩ := List.mem_map.1 hmem
    obtain ⟨w, hin, hw⟩ := List.infix_map_iff.1 hin
    exact ⟨w, (hpart w hw).2 ⟨e, he, hin⟩, hw⟩

/-! ## Where a word stands -/

/-- A part of an element is the element or a proper part. -/
theorem infix_iff_part {w e : Str} :
    w <:+: e ↔ e = w ∨ ∃ a b, e = a ++ w ++ b ∧ (a ≠ [] ∨ b ≠ []) := by
  constructor
  · rintro ⟨a, b, rfl⟩
    by_cases hab : a = [] ∧ b = []
    · obtain ⟨rfl, rfl⟩ := hab
      exact .inl (List.append_nil w)
    · exact .inr ⟨a, b, rfl, not_and_or.1 hab⟩
  · rintro (rfl | ⟨a, b, rfl, -⟩)
    · exact List.infix_rfl
    · exact ⟨a, b, rfl⟩

/-- **The code finds a word** that stands first or inside another. -/
theorem found_iff (U : Unicode) (m : HeaderMap) (n : HeaderName) {word : Str} (hword : word ≠ [])
    (hc : ∀ c ∈ word, c ≠ ',' ∧ c ≠ ' ' ∧ c ≠ '\t') :
    ((m.get n).bind HeaderValue.toStr).elim false
        (fun t => contains word (U.toLowercase t)) = true ↔
      StandsFirst m n word ∨ StandsInside m n word := by
  cases hvalues : m.values n with
  | nil =>
    have hget : m.get n = none := by rw [HeaderMap.get, hvalues]; rfl
    rw [hget]
    refine ⟨fun h => absurd h Bool.false_ne_true, ?_⟩
    rintro (⟨v, vs, h, -⟩ | ⟨v, vs, h, -⟩)
    · exact absurd (hvalues.symm.trans h) (List.cons_ne_nil v vs).symm
    · exact absurd (hvalues.symm.trans h) (List.cons_ne_nil v vs).symm
  | cons v vs =>
    have hget : m.get n = some v := by rw [HeaderMap.get, hvalues]; rfl
    have hhead : ∀ {v' vs'}, m.values n = v' :: vs' → v' = v :=
      fun h => (List.cons.inj (h.symm.trans hvalues)).1
    rw [hget, Option.bind_some]
    cases ht : v.toStr with
    | none =>
      refine ⟨fun h => absurd h Bool.false_ne_true, ?_⟩
      rintro (⟨v', vs', h, hsome, -⟩ | ⟨v', vs', h, hsome, -⟩)
      · rw [hhead h, ht] at hsome
        exact absurd hsome Bool.false_ne_true
      · rw [hhead h, ht] at hsome
        exact absurd hsome Bool.false_ne_true
    | some t =>
      have hsome : v.toStr.isSome = true := by rw [ht]; rfl
      have hfound : contains word (U.toLowercase t) = true ↔ ∃ e ∈ words v, word <:+: e := by
        unfold contains words
        rw [U.ascii t (toStr_ascii ht), decide_eq_true_eq, toStr_lossy ht]
        exact infix_elements_iff hword hc
      rw [Option.elim_some, hfound]
      constructor
      · rintro ⟨e, he, hpart⟩
        rcases infix_iff_part.1 hpart with rfl | hproper
        · exact .inl ⟨v, vs, hvalues, hsome, he⟩
        · exact .inr ⟨v, vs, hvalues, hsome, e, he, hproper⟩
      · rintro (⟨v', vs', h, -, hmem⟩ | ⟨v', vs', h, -, e, he, hproper⟩)
        · exact ⟨word, hhead h ▸ hmem, List.infix_rfl⟩
        · exact ⟨e, hhead h ▸ he, infix_iff_part.2 (.inr hproper)⟩

theorem mem_listed : word ∈ listed m n ↔ ∃ v ∈ m.values n, word ∈ words v := by
  unfold listed words elements
  simp only [List.mem_map, List.mem_flatMap, List.flatMap_singleton]
  constructor
  · rintro ⟨e, ⟨_, ⟨v, hv, rfl⟩, he⟩, rfl⟩
    exact ⟨v, hv, e, he, rfl⟩
  · rintro ⟨v, hv, e, he, rfl⟩
    exact ⟨e, ⟨_, ⟨v, hv, rfl⟩, he⟩, rfl⟩

/-- **A word that is listed** stands first or later. -/
theorem listed_iff : word ∈ listed m n ↔ StandsFirst m n word ∨ StandsLater m n word := by
  rw [mem_listed]
  constructor
  · rintro ⟨v, hv, hmem⟩
    cases hvalues : m.values n with
    | nil => exact absurd (hvalues ▸ hv) List.not_mem_nil
    | cons v₀ vs =>
      rcases List.mem_cons.1 (hvalues ▸ hv) with rfl | hlater
      · cases hsome : v.toStr.isSome with
        | true => exact .inl ⟨v, vs, hvalues, hsome, hmem⟩
        | false => exact .inr ⟨v, vs, hvalues, .inr ⟨hsome, hmem⟩⟩
      · exact .inr ⟨v₀, vs, hvalues, .inl ⟨v, hlater, hmem⟩⟩
  · rintro (⟨v, vs, h, -, hmem⟩ | ⟨v, vs, h, ⟨v', hv', hmem⟩ | ⟨-, hmem⟩⟩)
    · exact ⟨v, h ▸ List.mem_cons_self, hmem⟩
    · exact ⟨v', h ▸ List.mem_cons_of_mem v hv', hmem⟩
    · exact ⟨v, h ▸ List.mem_cons_self, hmem⟩

/-- A word that is found is listed, unless it stands only inside another. -/
theorem listed_or_inside (h : StandsFirst m n word ∨ StandsInside m n word) :
    (StandsFirst m n word ∨ StandsLater m n word) ∨ OnlyInside m n word := by
  by_cases hlisted : StandsFirst m n word ∨ StandsLater m n word
  · exact .inl hlisted
  · obtain ⟨hfirst, hlater⟩ := not_or.1 hlisted
    exact .inr ⟨h.resolve_left hfirst, hfirst, hlater⟩

/-- A word that is listed is found, unless it stands only later. -/
theorem found_or_later (h : StandsFirst m n word ∨ StandsLater m n word) :
    (StandsFirst m n word ∨ StandsInside m n word) ∨ OnlyLater m n word := by
  by_cases hfound : StandsFirst m n word ∨ StandsInside m n word
  · exact .inl hfound
  · obtain ⟨hfirst, hinside⟩ := not_or.1 hfound
    exact .inr ⟨h.resolve_left hfirst, hfirst, hinside⟩

theorem isWebsocketUpgrade_found (U : Unicode) (req : Request) :
    isWebsocketUpgrade U req = true ↔
      (StandsFirst req.headers upgradeName "websocket".toList ∨
          StandsInside req.headers upgradeName "websocket".toList) ∧
        (StandsFirst req.headers connectionName "upgrade".toList ∨
          StandsInside req.headers connectionName "upgrade".toList) := by
  rw [← found_iff U req.headers upgradeName (by decide) (by decide),
    ← found_iff U req.headers connectionName (by decide) (by decide), ← Bool.and_eq_true]
  unfold isWebsocketUpgrade
  dsimp only
  cases (HeaderMap.get req.headers upgradeName).bind HeaderValue.toStr <;>
    cases (HeaderMap.get req.headers connectionName).bind HeaderValue.toStr <;> exact Iff.rfl

/-- **A request is recognised** exactly as it asks, but for those that are missed and those that
are mistaken. -/
theorem isWebsocketUpgrade_asks_iff (U : Unicode) (req : Request) :
    (isWebsocketUpgrade U req = true ↔ AsksUpgrade req.headers) ↔
      ¬ MissedUpgrade req.headers ∧ ¬ MistakenUpgrade req.headers := by
  unfold AsksUpgrade
  rw [isWebsocketUpgrade_found, listed_iff, listed_iff]
  constructor
  · intro hiff
    constructor
    · rintro (⟨⟨hu, hfirst, hinside⟩, hc⟩ | ⟨hu, hc, hfirst, hinside⟩)
      · exact (hiff.2 ⟨.inr hu, hc⟩).1.elim hfirst hinside
      · exact (hiff.2 ⟨hu, .inr hc⟩).2.elim hfirst hinside
    · rintro (⟨⟨hu, hfirst, hlater⟩, hc⟩ | ⟨hu, hc, hfirst, hlater⟩)
      · exact (hiff.1 ⟨.inr hu, hc⟩).1.elim hfirst hlater
      · exact (hiff.1 ⟨hu, .inr hc⟩).2.elim hfirst hlater
  · rintro ⟨hmissed, hmistaken⟩
    constructor
    · rintro ⟨hu, hc⟩
      refine ⟨(listed_or_inside hu).resolve_right fun h => hmistaken (.inl ⟨h, hc⟩), ?_⟩
      exact (listed_or_inside hc).resolve_right fun h => hmistaken (.inr ⟨hu, h⟩)
    · rintro ⟨hu, hc⟩
      refine ⟨(found_or_later hu).resolve_right fun h => hmissed (.inl ⟨h, hc⟩), ?_⟩
      exact (found_or_later hc).resolve_right fun h => hmissed (.inr ⟨hu, h⟩)

/-- A request whose Connection field comes on two lines. -/
def secondLine : Request where
  method := .get
  uri := .origin .slash
  headers := [(upgradeName, websocketValue), (connectionName, ⟨lit "keep-alive", by decide⟩),
    (connectionName, upgradeValue)]
  body := .full []

/-- A request for another protocol. -/
def otherProtocol : Request where
  method := .get
  uri := .origin .slash
  headers := [(upgradeName, ⟨lit "websocket-next", by decide⟩), (connectionName, upgradeValue)]
  body := .full []

/-- The one is missed, the other mistaken. -/
theorem isWebsocketUpgrade_wrong :
    (¬ ∀ (U : Unicode) (req : Request),
      AsksUpgrade req.headers → isWebsocketUpgrade U req = true) ∧
      ¬ ∀ (U : Unicode) (req : Request),
        isWebsocketUpgrade U req = true → AsksUpgrade req.headers := by
  constructor
  · intro hall
    have hmissed : ¬ isWebsocketUpgrade Unicode.basic secondLine = true := by decide +kernel
    exact hmissed (hall _ _ (by decide +kernel))
  · intro hall
    have hno : ¬ AsksUpgrade otherProtocol.headers := by decide +kernel
    exact hno (hall Unicode.basic _ (by decide +kernel))

end HexbufferProxy
