import ParserKit.Proofs.Grammar.Derives

/-!
# What elements do to the frames of a stream

* `consumes_settle`: a transaction undoes what was consumed without a match.
* `Grammar.Derives.consumes`: whatever the result is, some tokens have been consumed in the
  innermost frame.
* **`Grammar.Derives.atomic`**: nothing has been consumed without a match, except by repetitions of
  any number of times, which have no transaction around their rounds.
* **`Grammar.frames_of_yields`**: the frames after an element has come to an end.
* **`Grammar.untouched_iff_of_error`**: what fails is undone, unless it is a repetition that fails
  after its first round.
-/

namespace ParserKit

open TokenStream (Consumes)

/-! ## Transactions and terminals -/

section Steps

variable {cx cx' : Context} {ts : List Token}

/-- **A transaction undoes what was consumed without a match.** -/
theorem consumes_settle (r : Except ParseError Outcome)
    (h : Consumes ts cx.begin.stream cx'.stream) :
    ∃ ts', Consumes ts' cx.stream (cx'.settle r).stream ∧
      ((∃ nodes, r = .ok (.matched nodes)) ∨ ts' = []) := by
  rcases r with e | nodes | _
  · exact ⟨[], h.rollback, .inr rfl⟩
  · exact ⟨ts, h.commit, .inl ⟨nodes, rfl⟩⟩
  · exact ⟨[], h.rollback, .inr rfl⟩

theorem consumes_matchTerminal (g : Grammar) (type : String) (cx : Context) :
    ∃ ts, Consumes ts cx.stream (g.matchTerminal type cx).2.stream ∧
      ((∃ nodes, (g.matchTerminal type cx).1 = .ok (.matched nodes)) ∨ ts = []) := by
  have hf := cx.stream.consumes_fill 1
  rw [matchTerminal_eq]
  cases cx.stream.lookup.1 with
  | none => exact ⟨[], hf, .inr rfl⟩
  | some token =>
    by_cases ht : token.hasType type
    · simp only [if_pos ht]
      cases g.transformTerminal type (.ofToken type token) with
      | error e => exact ⟨[], hf, .inr rfl⟩
      | ok node => exact ⟨_, hf.trans (TokenStream.consumes_consume _), .inl ⟨[node], rfl⟩⟩
    · simp only [if_neg ht]
      exact ⟨[], hf, .inr rfl⟩

end Steps

/-! ## Derivations -/

/-- The element that is repeated any number of times, without a transaction around the rounds. The
repetition may be tagged. -/
def Element.repeated? : Element → Option Element
  | many e => some e
  | tagged _ e => e.repeated?
  | _ => none

/-- A goal that is an element, and no repetition of any number of times. -/
def Goal.Atomic : Goal → Prop
  | element e => e.repeated? = none
  | _ => False

namespace Grammar

variable {g : Grammar} {goal : Goal} {e e' : Element} {cx cx' : Context}
  {r : Except ParseError Outcome}

/-- **Whatever the result is, some tokens have been consumed in the innermost frame.** -/
theorem Derives.consumes (h : g.Derives goal cx r cx') :
    ∃ ts, Consumes ts cx.stream cx'.stream := by
  induction h with
  | terminal type cx =>
    obtain ⟨ts, hc, -⟩ := consumes_matchTerminal g type cx
    exact ⟨ts, hc⟩
  | undefined _ cx | inOrderNil cx | firstOfNil cx => exact ⟨[], cx.stream.consumes_refl⟩
  | ref _ _ ih | tagged _ ih | many _ ih | inOrderStop _ _ ih | firstOfStop _ _ ih => exact ih
  | rule _ ih | sequence _ ih | alternatives _ ih | optional _ ih | oneOrMore _ ih
  | roundsEnd _ _ ih =>
    obtain ⟨ts, hc⟩ := ih
    obtain ⟨ts', hc', -⟩ := consumes_settle _ hc
    exact ⟨ts', hc'⟩
  | inOrderMore _ _ ih ihs | firstOfMore _ _ ih ihs =>
    obtain ⟨ts₁, hc₁⟩ := ih
    obtain ⟨ts₂, hc₂⟩ := ihs
    exact ⟨ts₁ ++ ts₂, hc₁.trans hc₂⟩
  | roundsMore _ _ _ ih ihs =>
    obtain ⟨ts₁, hc₁⟩ := ih
    obtain ⟨ts₂, hc₂⟩ := ihs
    exact ⟨ts₁ ++ ts₂, hc₁.commit.trans hc₂⟩

/-- **Nothing has been consumed without a match**, unless the rounds of a repetition did so. -/
theorem Derives.atomic (h : g.Derives goal cx r cx') (hg : goal.Atomic) :
    ∃ ts, Consumes ts cx.stream cx'.stream ∧ ((∃ nodes, r = .ok (.matched nodes)) ∨ ts = []) := by
  induction h with
  | terminal type cx => exact consumes_matchTerminal g type cx
  | undefined _ cx => exact ⟨[], cx.stream.consumes_refl, .inr rfl⟩
  | ref _ _ ih => exact ih rfl
  | rule h | sequence h | alternatives h | oneOrMore h =>
    obtain ⟨ts, hc⟩ := h.consumes
    exact consumes_settle _ hc
  | tagged h ih =>
    obtain ⟨ts, hc, ⟨nodes, rfl⟩ | hts⟩ := ih hg
    · exact ⟨ts, hc, .inl ⟨_, rfl⟩⟩
    · exact ⟨ts, hc, .inr hts⟩
  | @optional e cx r cx' h =>
    obtain ⟨ts, hc⟩ := h.consumes
    obtain ⟨ts', hc', ⟨nodes, rfl⟩ | hts⟩ := consumes_settle r hc
    · exact ⟨ts', hc', .inl ⟨nodes, rfl⟩⟩
    · exact ⟨ts', hc', .inr hts⟩
  | many => exact absurd hg (Option.some_ne_none _)
  | inOrderNil | inOrderStop | inOrderMore | firstOfNil | firstOfStop | firstOfMore | roundsEnd
  | roundsMore => exact hg.elim

theorem Derives.alike (h : g.Derives (.element e) cx r cx') (he : e.repeated? = none)
    (hr : ∀ nodes, r ≠ .ok (.matched nodes)) : cx.stream.Alike cx'.stream := by
  obtain ⟨ts, hc, ⟨nodes, rfl⟩ | rfl⟩ := h.atomic he
  · exact absurd rfl (hr nodes)
  · exact hc.alike

/-- A repetition of any number of times consists of rounds. It never misses, and it only fails where
they do. -/
theorem Derives.rounds (h : g.Derives goal cx r cx') (hg : goal = .element e)
    (he : e.repeated? = some e') :
    ∃ r₀, g.Derives (.rounds e') cx r₀ cx' ∧
      ((∃ nodes, r = .ok (.matched nodes)) ∨ ∃ err, r = .error err ∧ r₀ = .error err) := by
  induction h generalizing e with
  | @many e cx r cx' h =>
    cases hg
    cases he
    refine ⟨r, h, ?_⟩
    rcases r with err | nodes | _
    · exact .inr ⟨err, rfl, rfl⟩
    · exact .inl ⟨nodes, rfl⟩
    · exact .inl ⟨[], rfl⟩
  | tagged h ih =>
    cases hg
    obtain ⟨r₀, h₀, ⟨nodes, rfl⟩ | ⟨err, rfl, rfl⟩⟩ := ih rfl he
    · exact ⟨r₀, h₀, .inl ⟨_, rfl⟩⟩
    · exact ⟨_, h₀, .inr ⟨err, rfl, rfl⟩⟩
  | _ =>
    cases hg <;> cases he

theorem Derives.alike_of_notMatched (h : g.Derives (.element e) cx (.ok .notMatched) cx') :
    cx.stream.Alike cx'.stream := by
  cases he : e.repeated? with
  | none => exact h.alike he fun nodes => by simp
  | some e' =>
    obtain ⟨r₀, -, ⟨nodes, hr⟩ | ⟨err, hr, -⟩⟩ := h.rounds rfl he
    · cases hr
    · cases hr

theorem exists_consumes_of_attemptRoot {s s' : TokenStream}
    {r : Except ParseError (Outcome × Option Failure)} (h : g.attemptRoot s = some (r, s')) :
    ∃ ts, Consumes ts s s' := by
  obtain ⟨-, -, rfl⟩ | ⟨root, r₀, cx', -, hy, -, rfl⟩ := yields_of_attemptRoot h
  · exact ⟨[], s'.consumes_refl⟩
  · exact (yields_iff_derives.mp hy).consumes

/-- **What becomes of the frames of a stream.** The frames around the innermost one stay as they
are. The consumed tokens of a match are added to the innermost one, and where nothing matched
nothing has changed. So it is after an error in a rule, and in an attempt of the root rule. -/
theorem frames_of_yields (g : Grammar) :
    (∀ e cx r cx', g.Yields e cx r cx' →
      cx'.stream.depth = cx.stream.depth ∧ cx'.stream.outer = cx.stream.outer ∧
        match r with
        | .ok (.matched _) => ∃ ts, Consumes ts cx.stream cx'.stream
        | .ok .notMatched => cx.stream.Alike cx'.stream
        | .error _ => ∀ name content transform, e = .rule name content transform →
            cx.stream.Alike cx'.stream) ∧
      ∀ s r s', g.attemptRoot s = some (r, s') →
        s'.depth = s.depth ∧ s'.outer = s.outer ∧
          match r with
          | .ok (.matched _, _) => ∃ ts, Consumes ts s s'
          | .ok (.notMatched, _) | .error _ => s.Alike s' := by
  refine ⟨fun e cx r cx' h => ?_, fun s r s' h => ?_⟩
  · have hd := yields_iff_derives.mp h
    obtain ⟨ts, hc⟩ := hd.consumes
    refine ⟨congrArg List.length hc.outer_eq, hc.outer_eq, ?_⟩
    rcases r with err | nodes | _
    · rintro name content transform rfl
      exact hd.alike rfl fun nodes => by simp
    · exact ⟨ts, hc⟩
    · exact hd.alike_of_notMatched
  · obtain ⟨ts, hc⟩ := exists_consumes_of_attemptRoot h
    refine ⟨congrArg List.length hc.outer_eq, hc.outer_eq, ?_⟩
    obtain ⟨-, rfl, rfl⟩ | ⟨root, r₀, cx', -, hy, rfl, rfl⟩ := yields_of_attemptRoot h
    · exact ⟨rfl, rfl, rfl, rfl⟩
    · have hd := yields_iff_derives.mp hy
      rcases r₀ with err | nodes | _
      · exact hd.alike rfl fun nodes => by simp
      · exact ⟨ts, hc⟩
      · exact hd.alike_of_notMatched

theorem frames_of_half_sequence :
    let g := Grammar.addRule {} "pair" (.sequence [.terminal "A", .terminal "B"]) true
    let s := TokenStream.ofTokens [.ofType "a" "A" .start .start]
    ∃ failure s', g.attemptRoot s = some (.ok (.notMatched, failure), s') ∧ s.Alike s' := by
  intro g s
  have h : g.attemptRoot s = some (.ok (.notMatched, _), _) := rfl
  exact ⟨_, _, h, ((frames_of_yields g).2 _ _ _ h).2.2⟩

/-! ## Errors -/

theorem Derives.of_rounds_error {err : ParseError}
    (h : g.Derives (.rounds e) cx (.error err) cx') :
    (∃ cx₀, g.Derives (.element e) cx.begin (.error err) cx₀ ∧ cx' = cx₀.settle (.error err)) ∨
      ∃ nodes cx₁, g.Derives (.element e) cx.begin (.ok (.matched nodes)) cx₁ ∧
        cx₁.stream.index ≠ cx.stream.index ∧
        g.Derives (.rounds e) (cx₁.settle (.ok (.matched nodes))) (.error err) cx' := by
  generalize hr : Except.error err = r at h
  cases h with
  | @roundsEnd _ _ _ cx₀ h =>
    subst hr
    exact .inl ⟨cx₀, h, rfl⟩
  | @roundsMore _ _ nodes cx₁ r _ h hi hs =>
    rcases r with err' | _ | _
    · cases hr
      exact .inr ⟨nodes, cx₁, h, hi, hs⟩
    · cases hr
    · cases hr

/-- **What an error undoes.** No transaction is left open. The tokens consumed before the error come
next again, unless the element is a repetition of any number of times whose first round matched: the
rounds before the one that fails stay consumed. -/
theorem untouched_iff_of_error {err : ParseError} (h : g.Yields e cx (.error err) cx') :
    cx'.stream.depth = cx.stream.depth ∧
      (cx'.stream.index = cx.stream.index ∧ cx'.stream.rest = cx.stream.rest ↔
        ¬ ∃ e' nodes cx₁, e.repeated? = some e' ∧
          g.Yields e' cx.begin (.ok (.matched nodes)) cx₁) := by
  simp only [yields_iff_derives] at h ⊢
  obtain ⟨ts, hc⟩ := h.consumes
  refine ⟨congrArg List.length hc.outer_eq, ?_⟩
  cases he : e.repeated? with
  | none =>
    have ha := h.alike he fun nodes => by simp
    refine ⟨fun _ => ?_, fun _ => ⟨ha.index_eq, ha.rest_eq⟩⟩
    rintro ⟨e', -, -, he', -⟩
    exact Option.some_ne_none e' he'.symm
  | some e' =>
    obtain ⟨r₀, h₀, ⟨nodes, hr⟩ | ⟨err', hr, rfl⟩⟩ := h.rounds rfl he
    · cases hr
    obtain rfl := Except.error.inj hr
    obtain ⟨cx₀, h₁, rfl⟩ | ⟨nodes, cx₁, h₁, hi, hs⟩ := h₀.of_rounds_error
    · -- the first round fails, and its transaction undoes what it consumed
      obtain ⟨ts₁, hc₁⟩ := h₁.consumes
      have ha := hc₁.rollback.alike
      refine ⟨fun _ => ?_, fun _ => ⟨ha.index_eq, ha.rest_eq⟩⟩
      rintro ⟨e'', nodes, cx₁, he', h₂⟩
      obtain rfl := Option.some.inj he'
      cases (h₁.unique h₂).1
    · -- a later round fails: the first one has consumed tokens, and the others gave none back
      obtain ⟨ts₁, hc₁⟩ := h₁.consumes
      obtain ⟨ts₂, hc₂⟩ := hs.consumes
      refine ⟨fun hsame => ?_, fun hno => absurd ⟨e', nodes, cx₁, rfl, h₁⟩ hno⟩
      have hi₁ : cx₁.stream.index = cx.stream.index + ts₁.length := hc₁.index_eq
      have hi₂ := (hc₁.commit.trans hc₂).index_eq
      rw [List.length_append] at hi₂
      omega

theorem untouched_of_failed_oneOrMore :
    let t : Token := .ofType "a" "A" .start .start
    let e : Element := .oneOrMore (.alternatives [.terminal "A", .ref "missing"])
    ∃ cx', Yields {} e ⟨.ofTokens [t], none⟩ (.error (.undefinedRule "missing")) cx' ∧
      cx'.stream.index = 0 ∧ cx'.stream.rest = [t] := by
  intro t e
  have h : Yields {} e ⟨.ofTokens [t], none⟩ (.error (.undefinedRule "missing")) _ := ⟨8, rfl⟩
  refine ⟨_, h, (untouched_iff_of_error h).2.mpr ?_⟩
  rintro ⟨e', -, -, he', -⟩
  exact Option.some_ne_none e' he'.symm

/-- The same repetition, but of any number of times: the token of the first round is lost. -/
theorem touched_by_failed_many :
    let t : Token := .ofType "a" "A" .start .start
    let s := TokenStream.ofTokens [t]
    let e : Element := .many (.alternatives [.terminal "A", .ref "missing"])
    ∃ cx', Yields {} e ⟨s, none⟩ (.error (.undefinedRule "missing")) cx' ∧
      s.index = 0 ∧ cx'.stream.index = 1 ∧ s.rest = [t] ∧ cx'.stream.rest = [] :=
  ⟨_, ⟨8, rfl⟩, rfl, rfl, rfl, rfl⟩

end Grammar

end ParserKit
