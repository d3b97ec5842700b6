import ParserKit.Proofs.Grammar.Grouping

/-!
# Repetitions

* `Grammar.Exhausted`: an element misses in a context, or matches without consuming anything.
* `Grammar.Derives.exhausted`: so does an element that has been repeated, where the last round has
  been undone.
* **`Grammar.exhausted_after_repetition`**: repetitions take all they can, and give nothing back.
* **`Grammar.occurrences_as_choice_and_sequence`**: an optional element is a choice, and a
  repetition of at least once is a sequence.
-/

namespace ParserKit

open TokenStream (SameRest)

namespace TokenStream

variable {s s' : TokenStream} {ts : List Token}

theorem Consumes.sameRest (h : Consumes [] s s') (hp : s.input.Prompt) : SameRest s s' :=
  ⟨h.rest_eq.symm, hp, h.prompt_of hp⟩

theorem Consumes.sameRest_commit (h : Consumes ts s.begin s') (hp : s.input.Prompt) :
    SameRest s' s'.commit :=
  ⟨List.append_cancel_left (h.commit.rest_eq.symm.trans h.rest_eq), h.prompt_of hp,
    h.commit.prompt_of hp⟩

end TokenStream

namespace Grammar

variable {g : Grammar} {e : Element} {cx cx' cy : Context} {nodes : List Node}
  {r : Except ParseError Outcome}

/-! ## Repetitions take all they can -/

/-- **No more of an element follows**: it misses, or it matches without consuming anything. -/
def Exhausted (g : Grammar) (e : Element) (cx : Context) : Prop :=
  ∃ r cx', g.Yields e cx r cx' ∧ cx.stream.Alike cx'.stream ∧
    (r = .ok .notMatched ∨ ∃ nodes, r = .ok (.matched nodes))

theorem Exhausted.of_sameRest (h : g.Exhausted e cx) (hs : SameRest cx.stream cy.stream) :
    g.Exhausted e cy := by
  obtain ⟨r, cx', hy, ha, hr⟩ := h
  obtain ⟨cy', hd, hab⟩ := (yields_iff_derives.mp hy).lockstep TokenStream.lockstep_sameRest hs
  obtain ⟨ts, hx, hy'⟩ := hab.consumes
  obtain rfl := hx.eq_nil_of_index_le (Nat.le_of_eq ha.index_eq)
  exact ⟨r, cy', yields_iff_derives.mpr hd, hy'.alike, hr⟩

/-- **An element whose rounds have come to an end is exhausted.** The last round consumed nothing,
or it has been undone. So the same tokens remain as before it. -/
theorem Derives.exhausted (h : g.Derives (.rounds e) cx r cx') (hr : ∀ err, r ≠ .error err)
    (hp : cx.stream.input.Prompt) : g.Exhausted e cx' := by
  generalize hg : Goal.rounds e = goal at h
  induction h with
  | @roundsEnd _ cx r cx₁ h hi =>
    -- the last round is an attempt that can be made again, as the same tokens remain after it
    cases hg
    obtain ⟨ts, hc⟩ := h.consumes
    have hend : cx.begin.stream.Alike cx₁.stream := by
      rcases r with err | nodes | _
      · exact absurd rfl (hr err)
      · obtain rfl := hc.eq_nil_of_index_le (Nat.le_of_eq (hi nodes rfl))
        exact hc.alike
      · exact h.alike_of_notMatched
    obtain rfl := hc.eq_nil_of_index_le (Nat.le_of_eq hend.index_eq)
    have hbegin : g.Exhausted e cx.begin := by
      refine ⟨r, cx₁, yields_iff_derives.mpr h, hend, ?_⟩
      rcases r with err | nodes | _
      · exact absurd rfl (hr err)
      · exact .inr ⟨nodes, rfl⟩
      · exact .inl rfl
    have hsettle : SameRest cx.stream (cx₁.settle r).stream := by
      rcases r with err | nodes | _
      · exact absurd rfl (hr err)
      · exact hc.commit.sameRest hp
      · exact hc.rollback.sameRest hp
    exact hbegin.of_sameRest ⟨hsettle.rest_eq, hsettle.prompt_left, hsettle.prompt_right⟩
  | @roundsMore _ cx nodes cx₁ r cx' h _ _ _ ihs =>
    cases hg
    obtain ⟨ts, hc⟩ := h.consumes
    refine ihs (fun err herr => ?_) (hc.commit.prompt_of hp) rfl
    subst herr
    exact hr err rfl
  | _ => cases hg

theorem exhausted_of_many (hp : cx.stream.input.Prompt)
    (h : g.Derives (.element (.many e)) cx r cx') (hr : ∀ err, r ≠ .error err) :
    g.Exhausted e cx' := by
  cases h with
  | many h =>
    refine h.exhausted (fun err herr => ?_) hp
    subst herr
    exact hr err rfl

theorem exhausted_of_oneOrMore (hp : cx.stream.input.Prompt)
    (h : g.Derives (.element (.oneOrMore e)) cx (.ok (.matched nodes)) cx') :
    g.Exhausted e cx' := by
  cases h with
  | oneOrMore h =>
    obtain ⟨ts, hc⟩ := h.consumes
    exact (h.exhausted nofun hp).of_sameRest (hc.sameRest_commit hp)

theorem exhausted_of_repetition {rep : Element} (hrep : rep = .many e ∨ rep = .oneOrMore e)
    (hp : cx.stream.input.Prompt) (h : g.Yields rep cx (.ok (.matched nodes)) cx') :
    g.Exhausted e cx' := by
  obtain rfl | rfl := hrep
  · exact exhausted_of_many hp (yields_iff_derives.mp h) nofun
  · exact exhausted_of_oneOrMore hp (yields_iff_derives.mp h)

theorem Derives.inOrder_matched {es : List Element}
    (h : g.Derives (.inOrder (e :: es)) cx (.ok (.matched nodes)) cx') :
    ∃ first more cx₁, g.Derives (.element e) cx (.ok (.matched first)) cx₁ ∧
      g.Derives (.inOrder es) cx₁ (.ok (.matched more)) cx' ∧ nodes = first ++ more := by
  generalize hr : Except.ok (Outcome.matched nodes) = r at h
  cases h with
  | inOrderStop _ hstop => exact absurd hr.symm (hstop nodes)
  | @inOrderMore _ _ _ first cx₁ r _ h hs =>
    rcases r with err | more | _
    · cases hr
    · cases hr
      exact ⟨first, more, cx₁, h, hs, rfl⟩
    · cases hr

theorem yields_pair {e₁ e₂ : Element}
    (h : g.Yields (.sequence [e₁, e₂]) cx (.ok (.matched nodes)) cx') :
    ∃ nodes₁ nodes₂ cx₁ cx₂, g.Yields e₁ cx.begin (.ok (.matched nodes₁)) cx₁ ∧
      g.Yields e₂ cx₁ (.ok (.matched nodes₂)) cx₂ ∧ nodes = nodes₁ ++ nodes₂ ∧
        cx' = cx₂.settle (.ok (.matched nodes)) := by
  simp only [yields_iff_derives] at h ⊢
  cases h with
  | @sequence _ _ _ cx₂ h =>
    obtain ⟨nodes₁, _, cx₁, h₁, hs, rfl⟩ := h.inOrder_matched
    obtain ⟨nodes₂, _, _, h₂, hnil, rfl⟩ := hs.inOrder_matched
    cases hnil
    rw [List.append_nil]
    exact ⟨nodes₁, nodes₂, cx₁, cx₂, h₁, h₂, rfl, rfl⟩

/-- **Repetitions take all they can, and give nothing back.** After a repetition has matched, the
element misses, or it matches without consuming anything. So where the repetition and the element
match one after the other, the element consumes nothing. Inputs that keep their promises never
pause (`TokenInput.Reliable.prompt`). -/
theorem exhausted_after_repetition (g : Grammar) (e rep : Element)
    (hrep : rep = .many e ∨ rep = .oneOrMore e) (cx : Context) (hp : cx.stream.input.Prompt)
    (nodes : List Node) (cx' : Context) :
    (g.Yields rep cx (.ok (.matched nodes)) cx' → g.Exhausted e cx') ∧
    (g.Yields (.sequence [rep, e]) cx (.ok (.matched nodes)) cx' →
      ∃ nodes₁ nodes₂ cx₁ cx₂, g.Yields rep cx.begin (.ok (.matched nodes₁)) cx₁ ∧
        g.Yields e cx₁ (.ok (.matched nodes₂)) cx₂ ∧ cx₁.stream.Alike cx₂.stream ∧
        nodes = nodes₁ ++ nodes₂ ∧ cx' = cx₂.settle (.ok (.matched nodes))) := by
  refine ⟨exhausted_of_repetition hrep hp, fun h => ?_⟩
  have hbegin : cx.begin.stream.input.Prompt := hp
  obtain ⟨nodes₁, nodes₂, cx₁, cx₂, h₁, h₂, hnodes, hcx⟩ := yields_pair h
  obtain ⟨r, cx₂', hy, ha, -⟩ := exhausted_of_repetition hrep hbegin h₁
  obtain ⟨-, rfl⟩ := (yields_iff_derives.mp h₂).unique (yields_iff_derives.mp hy)
  exact ⟨nodes₁, nodes₂, cx₁, cx₂, h₁, h₂, ha, hnodes, hcx⟩

theorem exhausted_after_optional :
    let e : Element := .optional (.terminal "A")
    let cx : Context := ⟨.ofTokens [.ofType "a" "A" .start .start], none⟩
    (∃ nodes cx', Yields {} (.many e) cx (.ok (.matched nodes)) cx' ∧ Exhausted {} e cx') ∧
      ∃ nodes cx', Yields {} (.sequence [.many e, e]) cx (.ok (.matched nodes)) cx' ∧
        ∃ nodes₁ nodes₂ cx₁ cx₂, Yields {} (.many e) cx.begin (.ok (.matched nodes₁)) cx₁ ∧
          Yields {} e cx₁ (.ok (.matched nodes₂)) cx₂ ∧ cx₁.stream.Alike cx₂.stream ∧
          nodes = nodes₁ ++ nodes₂ ∧ cx' = cx₂.settle (.ok (.matched nodes)) := by
  have h := exhausted_after_repetition {} (.optional (.terminal "A"))
    (.many (.optional (.terminal "A"))) (.inl rfl)
    ⟨.ofTokens [.ofType "a" "A" .start .start], none⟩ (TokenInput.prompt_tokens _)
  exact ⟨⟨_, _, ⟨5, rfl⟩, (h _ _).1 ⟨5, rfl⟩⟩, _, _, ⟨5, rfl⟩, (h _ _).2 ⟨5, rfl⟩⟩

/-! ## Occurrences as choices and sequences -/

theorem meaning_nothing (g : Grammar) (cx : Context) :
    g.meaning (.element (.sequence [])) cx = some (.ok (.matched []), cx) := by
  rw [meaning_sequence, meaning_inOrder, transaction_eq]
  rfl

theorem inOrder_singleton (f : Element → Attempt) (e : Element) (cx : Context) :
    inOrder f [e] cx = f e cx := by
  rw [inOrder_cons_eq_bind]
  rcases f e cx with _ | ⟨err | nodes | _, cx'⟩
  · rfl
  · rfl
  · simp [andInOrder, inOrder, Except.map, Outcome.prepend]
  · rfl

/-- **An optional element is a choice** between the element and nothing. -/
theorem meaning_optional_eq (g : Grammar) (e : Element) (cx : Context) :
    g.meaning (.element (.optional e)) cx =
      g.meaning (.element (.alternatives [e, .sequence []])) cx := by
  rw [meaning_optional, meaning_alternatives, meaning_firstOf, atMostOnce_eq, transaction_eq,
    transaction_eq, firstOf_cons_eq_bind, Option.map_map, Function.comp_apply]
  cases h : g.meaning (.element e) cx.begin with
  | none => rfl
  | some out =>
    obtain ⟨err | nodes | _, cx₁⟩ := out
    · rfl
    · rfl
    · -- nothing is left to be undone, so that nothing is left to be committed
      have hd := meaning_eq_some_iff.mp h
      have hrecord : cx₁.stream.record = [] := hd.alike_of_notMatched.record_eq
      have hcx : cx₁.settle (.ok .notMatched) = cx₁.settle (.ok (.matched [])) :=
        Context.ext (TokenStream.rollback_eq_commit hrecord) rfl
      have hnothing : firstOf (g.meaning ∘ .element) [.sequence []] cx₁ =
          some (.ok (.matched []), cx₁) := by
        rw [firstOf_cons_eq_bind, Function.comp_apply, meaning_nothing]
        rfl
      simp only [Option.bind_some, Option.map_some, orFirstOf, hnothing, Function.comp_apply, hcx,
        orNothing]

/-- What an element yields in a context it also yields in a new frame. -/
theorem index_ne_of_progress
    (hadv : ∀ nodes cx', g.Yields e cx (.ok (.matched nodes)) cx' →
      cx.stream.index < cx'.stream.index)
    (h : g.meaning (.element e) cx.begin = some (.ok (.matched nodes), cx')) :
    cx'.stream.index ≠ cx.begin.stream.index := by
  obtain ⟨hnone, -⟩ | ⟨r, cx₁, cx₂, h₁, h₂, ha⟩ := g.meaning_begin (.element e) cx
  · rw [h] at hnone
    cases hnone
  · rw [h] at h₁
    cases h₁
    have hlt := hadv nodes cx₂ (yields_iff_derives.mpr (meaning_eq_some_iff.mp h₂))
    exact fun hi => absurd (ha.index_eq_iff.mpr hi) (Nat.ne_of_gt hlt)

/-- **A repetition of at least once is a sequence** of the element and any number of repetitions,
provided that the first match consumes something. -/
theorem meaning_oneOrMore_eq
    (hadv : ∀ nodes cx', g.Yields e cx (.ok (.matched nodes)) cx' →
      cx.stream.index < cx'.stream.index) :
    g.meaning (.element (.oneOrMore e)) cx =
      g.meaning (.element (.sequence [e, .many e])) cx := by
  rw [meaning_oneOrMore, meaning_sequence, meaning_inOrder]
  refine SettleAlike.transaction_eq Unmatched ?_
  rw [meaning_rounds, inOrder_cons_eq_bind]
  have hstop {r : Except ParseError Outcome} {cx₁ : Context} (hr : Unmatched r) :
      g.andRounds e cx.begin.stream.index (r, cx₁) = some (r, cx₁) := by
    rcases r with err | nodes | _
    · rfl
    · exact absurd rfl (hr nodes)
    · rfl
  -- the first round has a transaction of its own, which the first element of the sequence lacks
  refine SettleAlike.bind (g.settleAlike_transaction _ _) hstop andInOrder_of_unmatched
    fun out hout => ?_
  obtain ⟨r, cx₁⟩ := out
  rcases r with err | nodes | _
  · exact .some (.refl _)
  · have hi := index_ne_of_progress hadv hout
    have hmany : inOrder (g.meaning ∘ .element) [.many e] cx₁ =
        (g.meaning (.rounds e) cx₁).map fun out => (orNothing out.1, out.2) :=
      (inOrder_singleton _ _ _).trans (g.meaning_many cx₁ e)
    simp only [andRounds, andInOrder, if_neg hi, hmany, Option.map_map]
    exact SettleAlike.rel_refl _
  · exact .some (.refl _)

/-- **Occurrences are choices and sequences.** An optional element is a choice between the element
and nothing. A repetition of at least once is a sequence of the element and any number of
repetitions, in every context where the element, if it matches there, consumes something. -/
theorem occurrences_as_choice_and_sequence (g : Grammar) (e : Element) :
    g.Equivalent (.optional e) (.alternatives [e, .sequence []]) ∧
    ∀ cx, (∀ nodes cx', g.Yields e cx (.ok (.matched nodes)) cx' →
        cx.stream.index < cx'.stream.index) →
      ∀ r cx', g.Yields (.oneOrMore e) cx r cx' ↔ g.Yields (.sequence [e, .many e]) cx r cx' :=
  ⟨fun cx _ _ => yields_iff_of_meaning_eq (g.meaning_optional_eq e cx),
    fun _ hadv _ _ => yields_iff_of_meaning_eq (meaning_oneOrMore_eq hadv)⟩

theorem progress_of_terminal {type : String}
    (h : g.Yields (.terminal type) cx (.ok (.matched nodes)) cx') :
    cx.stream.index < cx'.stream.index := by
  have hd := yields_iff_derives.mp h
  generalize hr : Except.ok (Outcome.matched nodes) = r at hd
  cases hd with
  | terminal =>
    rw [matchTerminal_eq] at hr ⊢
    cases hn : cx.stream.lookup.1 with
    | none =>
      rw [hn] at hr
      cases hr
    | some token =>
      simp only [hn] at hr ⊢
      by_cases ht : token.hasType type
      · simp only [if_pos ht] at hr ⊢
        cases htr : g.transformTerminal type (.ofToken type token) with
        | error err =>
          rw [htr] at hr
          cases hr
        | ok node =>
          have hi := (TokenStream.consumes_lookup hn).index_eq
          exact Nat.lt_of_lt_of_eq (Nat.lt_succ_self _) hi.symm
      · simp only [if_neg ht] at hr
        cases hr

theorem occurrences_of_two_tokens :
    let e : Element := .terminal "A"
    let cx : Context :=
      ⟨.ofTokens [.ofType "a" "A" .start .start, .ofType "a" "A" .start .start], none⟩
    (∀ nodes cx', Yields {} e cx (.ok (.matched nodes)) cx' →
        cx.stream.index < cx'.stream.index) ∧
      ∃ nodes cx', Yields {} (.oneOrMore e) cx (.ok (.matched nodes)) cx' ∧
        Yields {} (.sequence [e, .many e]) cx (.ok (.matched nodes)) cx' ∧
        cx'.stream.index = 2 := by
  have h := (occurrences_as_choice_and_sequence {} (.terminal "A")).2
    ⟨.ofTokens [.ofType "a" "A" .start .start, .ofType "a" "A" .start .start], none⟩
    fun _ _ => progress_of_terminal
  exact ⟨fun _ _ => progress_of_terminal, _, _, ⟨4, rfl⟩, (h _ _).mp ⟨4, rfl⟩, rfl⟩

end Grammar

end ParserKit
