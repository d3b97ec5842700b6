import ParserKit.Proofs.Grammar.Frames

/-!
# Attempts in lockstep

What an element does is settled by what lies ahead in the stream. The open frames, the index and the
failure noted before only pass through.

* `TokenStream.Lockstep`: relations between streams that terminals and transactions keep.
* `Context.Abreast`: two contexts have been left for two others by consuming the same tokens.
* **`Grammar.Derives.lockstep`**: what can be derived in a context can be derived in every context
  with a related stream, and the same tokens are consumed.
* `TokenStream.SameRest`: the same tokens remain, and the inputs never pause.
* `TokenStream.SameFront`: the same tokens have been read ahead of the same input.
-/

namespace ParserKit

open TokenStream (Consumes)

namespace TokenStream

/-- **A relation that goes through attempts.** Related streams show the same next token, and they
stay related when the same is done to both. Undoing is only asked for where the innermost records
are the same. -/
structure Lockstep (P : TokenStream → TokenStream → Prop) : Prop where
  lookup_eq : ∀ {s t}, P s t → t.lookup.1 = s.lookup.1
  fill : ∀ {s t}, P s t → P (s.fill 1) (t.fill 1)
  consume : ∀ {s t}, P s t → P s.consume.2 t.consume.2
  begin : ∀ {s t}, P s t → P s.begin t.begin
  commit : ∀ {s t}, P s t → P s.commit t.commit
  rollback : ∀ {s t}, P s t → t.record = s.record → P s.rollback t.rollback

end TokenStream

/-! ## Two contexts side by side -/

namespace Context

variable {P : TokenStream → TokenStream → Prop} {cx cy cx₁ cy₁ cx' cy' : Context}

theorem related_begin (hP : TokenStream.Lockstep P) (h : P cx.stream cy.stream) :
    P cx.begin.stream cy.begin.stream := hP.begin h

/-- **The contexts `cx` and `cy` have been left for `cx'` and `cy'`** by consuming the same tokens.
The streams are related, and the failures are the same if they were so before. -/
structure Abreast (P : TokenStream → TokenStream → Prop) (cx cy cx' cy' : Context) : Prop where
  consumes : ∃ ts, Consumes ts cx.stream cx'.stream ∧ Consumes ts cy.stream cy'.stream
  related : P cx'.stream cy'.stream
  failure_eq : cy.lastFailure = cx.lastFailure → cy'.lastFailure = cx'.lastFailure

namespace Abreast

theorem refl (h : P cx.stream cy.stream) : Abreast P cx cy cx cy :=
  ⟨⟨[], cx.stream.consumes_refl, cy.stream.consumes_refl⟩, h, id⟩

theorem trans (h₁ : Abreast P cx cy cx₁ cy₁) (h₂ : Abreast P cx₁ cy₁ cx' cy') :
    Abreast P cx cy cx' cy' := by
  obtain ⟨ts₁, hx₁, hy₁⟩ := h₁.consumes
  obtain ⟨ts₂, hx₂, hy₂⟩ := h₂.consumes
  exact ⟨⟨ts₁ ++ ts₂, hx₁.trans hx₂, hy₁.trans hy₂⟩, h₂.related,
    fun h => h₂.failure_eq (h₁.failure_eq h)⟩

theorem index_eq_iff (h : Abreast P cx cy cx' cy') :
    cy'.stream.index = cy.stream.index ↔ cx'.stream.index = cx.stream.index := by
  obtain ⟨ts, hx, hy⟩ := h.consumes
  rw [hx.index_eq, hy.index_eq, Nat.add_eq_left, Nat.add_eq_left]

theorem settle (hP : TokenStream.Lockstep P) (r : Except ParseError Outcome)
    (h : Abreast P cx.begin cy.begin cx' cy') :
    Abreast P cx cy (cx'.settle r) (cy'.settle r) := by
  obtain ⟨ts, hx, hy⟩ := h.consumes
  have hfailure (hf : cy.lastFailure = cx.lastFailure) :
      (cy'.settle r).lastFailure = (cx'.settle r).lastFailure := by
    rw [lastFailure_settle, lastFailure_settle]
    exact h.failure_eq hf
  have hrollback := hP.rollback h.related (hy.record_eq.trans hx.record_eq.symm)
  rcases r with e | nodes | _
  · exact ⟨⟨[], hx.rollback, hy.rollback⟩, hrollback, hfailure⟩
  · exact ⟨⟨ts, hx.commit, hy.commit⟩, hP.commit h.related, hfailure⟩
  · exact ⟨⟨[], hx.rollback, hy.rollback⟩, hrollback, hfailure⟩

theorem matchTerminal (hP : TokenStream.Lockstep P) (g : Grammar) (type : String)
    (h : P cx.stream cy.stream) :
    (g.matchTerminal type cy).1 = (g.matchTerminal type cx).1 ∧
      Abreast P cx cy (g.matchTerminal type cx).2 (g.matchTerminal type cy).2 := by
  have hl := hP.lookup_eq h
  have hfill := hP.fill h
  have hcx := cx.stream.consumes_fill 1
  have hcy := cy.stream.consumes_fill 1
  rw [matchTerminal_eq, matchTerminal_eq, hl]
  cases hn : cx.stream.lookup.1 with
  | none => exact ⟨rfl, ⟨[], hcx, hcy⟩, hfill, fun _ => rfl⟩
  | some token =>
    dsimp only
    by_cases ht : token.hasType type
    · simp only [if_pos ht]
      cases g.transformTerminal type (.ofToken type token) with
      | error e => exact ⟨rfl, ⟨[], hcx, hcy⟩, hfill, id⟩
      | ok node =>
        exact ⟨rfl, ⟨[token], TokenStream.consumes_lookup hn,
          TokenStream.consumes_lookup (hl.trans hn)⟩, hP.consume hfill, fun _ => rfl⟩
    · simp only [if_neg ht]
      exact ⟨trivial, ⟨[], hcx, hcy⟩, hfill, fun _ => rfl⟩

end Abreast

end Context

open Context (Abreast)

namespace Grammar

variable {P : TokenStream → TokenStream → Prop} {g : Grammar} {goal : Goal} {cx cx' cy : Context}
  {r : Except ParseError Outcome}

/-- **What can be derived in a context can be derived in every one with a related stream**, with the
same result, and by consuming the same tokens. -/
theorem Derives.lockstep (hP : TokenStream.Lockstep P) (h : g.Derives goal cx r cx')
    (hs : P cx.stream cy.stream) : ∃ cy', g.Derives goal cy r cy' ∧ Abreast P cx cy cx' cy' := by
  -- frames are opened on both sides, so that a rollback gives back the same tokens on both
  induction h generalizing cy with
  | terminal type cx =>
    obtain ⟨hr, ha⟩ := Abreast.matchTerminal hP g type hs
    exact ⟨_, hr ▸ .terminal type cy, ha⟩
  | undefined hu cx => exact ⟨cy, .undefined hu cy, .refl hs⟩
  | ref hr _ ih =>
    obtain ⟨cy', hd, ha⟩ := ih hs
    exact ⟨cy', .ref hr hd, ha⟩
  | rule _ ih =>
    obtain ⟨cy', hd, ha⟩ := ih (Context.related_begin hP hs)
    exact ⟨_, .rule hd, ha.settle hP _⟩
  | tagged _ ih =>
    obtain ⟨cy', hd, ha⟩ := ih hs
    exact ⟨cy', .tagged hd, ha⟩
  | sequence _ ih =>
    obtain ⟨cy', hd, ha⟩ := ih (Context.related_begin hP hs)
    exact ⟨_, .sequence hd, ha.settle hP _⟩
  | alternatives _ ih =>
    obtain ⟨cy', hd, ha⟩ := ih (Context.related_begin hP hs)
    exact ⟨_, .alternatives hd, ha.settle hP _⟩
  | optional _ ih =>
    obtain ⟨cy', hd, ha⟩ := ih (Context.related_begin hP hs)
    exact ⟨_, .optional hd, ha.settle hP _⟩
  | many _ ih =>
    obtain ⟨cy', hd, ha⟩ := ih hs
    exact ⟨cy', .many hd, ha⟩
  | oneOrMore _ ih =>
    obtain ⟨cy', hd, ha⟩ := ih (Context.related_begin hP hs)
    exact ⟨_, .oneOrMore hd, ha.settle hP _⟩
  | inOrderNil cx => exact ⟨cy, .inOrderNil cy, .refl hs⟩
  | inOrderStop _ hr ih =>
    obtain ⟨cy', hd, ha⟩ := ih hs
    exact ⟨cy', .inOrderStop hd hr, ha⟩
  | inOrderMore _ _ ih ihs =>
    obtain ⟨cy₁, hd, ha₁⟩ := ih hs
    obtain ⟨cy', hds, ha⟩ := ihs ha₁.related
    exact ⟨cy', .inOrderMore hd hds, ha₁.trans ha⟩
  | firstOfNil cx => exact ⟨cy, .firstOfNil cy, .refl hs⟩
  | firstOfStop _ hr ih =>
    obtain ⟨cy', hd, ha⟩ := ih hs
    exact ⟨cy', .firstOfStop hd hr, ha⟩
  | firstOfMore _ _ ih ihs =>
    obtain ⟨cy₁, hd, ha₁⟩ := ih hs
    obtain ⟨cy', hds, ha⟩ := ihs ha₁.related
    exact ⟨cy', .firstOfMore hd hds, ha₁.trans ha⟩
  | roundsEnd _ hr ih =>
    obtain ⟨cy', hd, ha⟩ := ih (Context.related_begin hP hs)
    exact ⟨_, .roundsEnd hd fun nodes hm => ha.index_eq_iff.mpr (hr nodes hm), ha.settle hP _⟩
  | @roundsMore e cx nodes _ _ _ _ hi _ ih ihs =>
    obtain ⟨cy₁, hd, ha₁⟩ := ih (Context.related_begin hP hs)
    have ha₁' := ha₁.settle hP (.ok (.matched nodes))
    obtain ⟨cy', hds, ha⟩ := ihs ha₁'.related
    exact ⟨cy', .roundsMore hd (fun h => hi (ha₁.index_eq_iff.mp h)) hds, ha₁'.trans ha⟩

end Grammar

/-! ## Relations that go through attempts -/

namespace TokenStream

variable {s t : TokenStream}

theorem input_commit (s : TokenStream) : s.commit.input = s.input := by
  unfold commit
  cases s.outer <;> rfl

theorem buffer_commit (s : TokenStream) : s.commit.buffer = s.buffer := by
  unfold commit
  cases s.outer <;> rfl

theorem lookahead_commit (s : TokenStream) : s.commit.lookahead = s.lookahead := by
  unfold commit
  cases s.outer <;> rfl

theorem input_rollback (s : TokenStream) : s.rollback.input = s.input := by
  unfold rollback
  cases s.outer <;> rfl

theorem buffer_rollback (s : TokenStream) :
    s.rollback.buffer = s.record.reverse ++ s.buffer := by
  unfold rollback
  cases s.outer <;> rfl

theorem lookahead_rollback (s : TokenStream) : s.rollback.lookahead = s.lookahead := by
  unfold rollback
  cases s.outer <;> rfl

/-- The same tokens remain in both streams, and the inputs never pause. -/
structure SameRest (s t : TokenStream) : Prop where
  rest_eq : t.rest = s.rest
  prompt_left : s.input.Prompt
  prompt_right : t.input.Prompt

/-- **With inputs that never pause, attempts depend only on the tokens that remain.** -/
theorem lockstep_sameRest : Lockstep SameRest where
  lookup_eq h := by
    rw [fst_lookup h.prompt_left, fst_lookup h.prompt_right, h.rest_eq]
  fill h := by
    refine ⟨?_, prompt_fill h.prompt_left 1, prompt_fill h.prompt_right 1⟩
    rw [rest_fill, rest_fill, h.rest_eq]
  consume {s t} h := by
    have hs := s.consumes_consume
    have ht := t.consumes_consume
    refine ⟨?_, hs.prompt_of h.prompt_left, ht.prompt_of h.prompt_right⟩
    have hr := ht.rest_eq
    rw [fst_consume h.prompt_right, h.rest_eq, ← fst_consume h.prompt_left, hs.rest_eq] at hr
    exact (List.append_cancel_left hr).symm
  begin h := ⟨h.rest_eq, h.prompt_left, h.prompt_right⟩
  commit h := by
    refine ⟨?_, ?_, ?_⟩
    · rw [rest, rest, buffer_commit, input_commit, buffer_commit, input_commit]
      exact h.rest_eq
    · rw [input_commit]
      exact h.prompt_left
    · rw [input_commit]
      exact h.prompt_right
  rollback h hr := by
    refine ⟨?_, ?_, ?_⟩
    · rw [rest, rest, buffer_rollback, input_rollback, buffer_rollback, input_rollback, hr,
        List.append_assoc, List.append_assoc]
      exact congrArg (_ ++ ·) h.rest_eq
    · rw [input_rollback]
      exact h.prompt_left
    · rw [input_rollback]
      exact h.prompt_right

/-- The same tokens have been read ahead of the same input, which may pause. -/
structure SameFront (s t : TokenStream) : Prop where
  input_eq : t.input = s.input
  buffer_eq : t.buffer = s.buffer
  lookahead_eq : t.lookahead = s.lookahead

theorem SameFront.fill (h : SameFront s t) (n : Nat) : SameFront (s.fill n) (t.fill n) := by
  rw [fill_eq, fill_eq, lacking, lacking, h.input_eq, h.buffer_eq, h.lookahead_eq]
  exact ⟨rfl, rfl, rfl⟩

/-- **Attempts depend only on the input and on what has been read ahead of it.** -/
theorem lockstep_sameFront : Lockstep SameFront where
  lookup_eq h := congrArg List.head? (h.fill 1).buffer_eq
  fill h := h.fill 1
  consume {s t} h := by
    have hf := h.fill 1
    have hb := hf.buffer_eq
    cases hs : (s.fill 1).buffer with
    | nil =>
      rw [hs] at hb
      simp only [TokenStream.consume, hs, hb]
      exact hf
    | cons token buffer =>
      rw [hs] at hb
      simp only [TokenStream.consume, hs, hb]
      exact ⟨hf.input_eq, rfl, hf.lookahead_eq⟩
  begin h := ⟨h.input_eq, h.buffer_eq, h.lookahead_eq⟩
  commit h := by
    refine ⟨?_, ?_, ?_⟩
    · rw [input_commit, input_commit, h.input_eq]
    · rw [buffer_commit, buffer_commit, h.buffer_eq]
    · rw [lookahead_commit, lookahead_commit, h.lookahead_eq]
  rollback h hr := by
    refine ⟨?_, ?_, ?_⟩
    · rw [input_rollback, input_rollback, h.input_eq]
    · rw [buffer_rollback, buffer_rollback, hr, h.buffer_eq]
    · rw [lookahead_rollback, lookahead_rollback, h.lookahead_eq]

end TokenStream

end ParserKit
