import ParserKit.Proofs.Grammar.Frames
import ParserKit.Proofs.Grammar.Recognize

/-!
# Elements on streams as recognizers

* `Grammar.Derives.recognize`: what a stream yields is the verdict on the tokens that remain.
* `Grammar.Halts`: elements that come to an end on all streams with given tokens left;
  `Grammar.halts_of_recognize`: they do so where there is a verdict.
* **`Grammar.yields_iff_recognize`**: on a stream over a list of tokens, an element yields what the
  verdict on the tokens that remain says.
-/

namespace ParserKit

open TokenStream (Consumes)

/-! ## Verdicts on results -/

namespace Verdict

/-- The result of an attempt with the number of tokens that it consumed. -/
def ofResult : Except ParseError Outcome → Nat → Verdict
  | .ok (.matched nodes), n => matched nodes n
  | .ok .notMatched, _ => notMatched
  | .error e, _ => failed e

variable (r : Except ParseError Outcome) (k : Nat)

theorem after_ofResult (nodes : List Node) (n : Nat) :
    (ofResult r k).after nodes n = ofResult (r.map (.prepend nodes)) (n + k) := by
  rcases r with _ | _ | _ <;> rfl

theorem tag_ofResult (id : String) :
    (ofResult r k).tag id = ofResult (r.map (·.mapNodes (·.setId id))) k := by
  rcases r with _ | _ | _ <;> rfl

theorem wrap_ofResult (name : String) (transform : Option Transform) :
    (ofResult r k).wrap name transform = ofResult (gather name transform r) k := by
  rcases r with _ | children | _
  · rfl
  · simp only [ofResult, wrap, gather]
    cases transform.elim (.ok { Node.ofName name with children })
      (· { Node.ofName name with children }) <;> rfl
  · rfl

theorem orEmpty_ofResult (hk : r = .ok .notMatched → k = 0) :
    (ofResult r k).orEmpty = ofResult (orNothing r) k := by
  rcases r with _ | _ | _
  · rfl
  · rfl
  · rw [hk rfl]
    rfl

theorem ofResult_settle (cx : Context) (i : Nat) :
    ofResult r ((cx.settle r).stream.index - i) = ofResult r (cx.stream.index - i) := by
  rcases r with _ | nodes | _
  · rfl
  · exact congrArg (fun j => matched nodes (j - i)) cx.stream.index_commit
  · rfl

end Verdict

/-- The element whose recognizer tells what a goal yields. -/
def Goal.whole : Goal → Element
  | element e => e
  | inOrder es => .sequence es
  | firstOf es => .alternatives es
  | rounds e => .oneOrMore e

namespace Grammar

/-! ## From streams to lists -/

variable {g : Grammar} {goal : Goal} {e : Element} {cx cx' : Context}
  {r : Except ParseError Outcome}

theorem recognize_matchTerminal (type : String) (hp : cx.stream.input.Prompt) :
    g.recognizeTerminal type cx.stream.rest =
      .ofResult (g.matchTerminal type cx).1
        ((g.matchTerminal type cx).2.stream.index - cx.stream.index) := by
  have hl : cx.stream.lookup.1 = cx.stream.rest.head? := TokenStream.head?_buffer_fill hp
  rw [matchTerminal_eq, hl]
  cases hr : cx.stream.rest with
  | nil => rfl
  | cons token tokens =>
    simp only [recognizeTerminal, List.head?_cons]
    by_cases ht : token.hasType type
    · simp only [if_pos ht]
      cases g.transformTerminal type (.ofToken type token) with
      | error e => rfl
      | ok node =>
        have hc : Consumes [token] (cx.stream.fill 1) (cx.stream.fill 1).consume.2 :=
          TokenStream.consumes_head (TokenStream.prompt_fill hp 1)
            ((cx.stream.rest_fill 1).trans hr)
        have hi : (cx.stream.fill 1).consume.2.index - cx.stream.index = 1 := by
          rw [hc.index_eq, TokenStream.index_fill, Nat.add_sub_cancel_left]
          rfl
        simp only [hi, Verdict.ofResult]
    · simp only [if_neg ht]
      rfl

theorem Derives.index_of_missed_rounds (h : g.Derives (.rounds e) cx r cx')
    (hr : r = .ok .notMatched) : cx'.stream.index - cx.stream.index = 0 := by
  cases h with
  | @roundsEnd _ _ _ cx₀ h =>
    obtain ⟨ts, hc⟩ := h.consumes
    subst hr
    exact (congrArg (· - cx.stream.index) hc.rollback.index_eq).trans (Nat.sub_self _)
  | @roundsMore _ _ nodes _ r _ _ _ _ =>
    rcases r with _ | _ | _ <;> cases hr

/-- **What a stream yields is the verdict on the tokens that remain.** -/
theorem Derives.recognize (h : g.Derives goal cx r cx') (hp : cx.stream.input.Prompt) :
    g.recognize goal.whole cx.stream.rest =
      some (.ofResult r (cx'.stream.index - cx.stream.index)) := by
  induction h with
  | terminal type cx =>
    exact (recognize_eq g _ _).trans (congrArg some (recognize_matchTerminal type hp))
  | undefined h cx =>
    show g.recognize (.ref _) _ = _
    rw [recognize_eq, recognizeStep, h]
    rfl
  | ref hr _ ih =>
    show g.recognize (.ref _) _ = _
    rw [recognize_eq, recognizeStep, hr]
    exact ih hp
  | @rule name content transform cx r cx' h ih =>
    have hv : g.recognize content cx.stream.rest =
        some (.ofResult r (cx'.stream.index - cx.stream.index)) := ih hp
    show g.recognize (.rule name content transform) _ = _
    rw [recognize_eq, recognizeStep, hv, Option.map_some, Verdict.wrap_ofResult,
      Verdict.ofResult_settle]
  | @tagged id e cx r cx' h ih =>
    show g.recognize (.tagged id e) _ = _
    have hv : g.recognize e cx.stream.rest = _ := ih hp
    rw [recognize_eq, recognizeStep, hv, Option.map_some, Verdict.tag_ofResult]
  | sequence h ih | alternatives h ih | oneOrMore h ih =>
    rw [Verdict.ofResult_settle]
    exact ih hp
  | @optional e cx r cx' h ih =>
    have hv : g.recognize e cx.stream.rest =
        some (.ofResult r (cx'.stream.index - cx.stream.index)) := ih hp
    obtain ⟨ts, hc⟩ := h.consumes
    obtain ⟨ts', hc', hts⟩ := consumes_settle r hc
    show g.recognize (.optional e) _ = _
    rw [recognize_eq, recognizeStep, hv, Option.map_some, ← Verdict.ofResult_settle,
      Verdict.orEmpty_ofResult]
    rintro rfl
    obtain ⟨nodes, hr⟩ | rfl := hts
    · cases hr
    · rw [hc'.index_eq, List.length_nil, Nat.add_zero, Nat.sub_self]
  | @many e cx r cx' h ih =>
    have hv : g.recognize (.oneOrMore e) cx.stream.rest = _ := ih hp
    show g.recognize (.many e) _ = _
    rw [recognize_eq, recognizeStep, hv, Option.map_some,
      Verdict.orEmpty_ofResult _ _ h.index_of_missed_rounds]
  | inOrderNil cx =>
    show g.recognize (.sequence []) _ = _
    rw [recognize_eq, recognizeStep, Nat.sub_self]
    rfl
  | @inOrderStop e es cx r cx' h hr ih =>
    have hv : g.recognize e cx.stream.rest = _ := ih hp
    show g.recognize (.sequence (e :: es)) _ = _
    rw [recognize_eq, recognizeStep, hv, Option.bind_some]
    rcases r with _ | nodes | _
    · rfl
    · exact absurd rfl (hr nodes)
    · rfl
  | @inOrderMore e es cx nodes cx₁ r cx' h hs ih ihs =>
    have hv : g.recognize e cx.stream.rest =
        some (.matched nodes (cx₁.stream.index - cx.stream.index)) := ih hp
    obtain ⟨ts₁, hc₁⟩ := h.consumes
    obtain ⟨ts₂, hc₂⟩ := hs.consumes
    have hvs : g.recognize (.sequence es) cx₁.stream.rest = _ := ihs (hc₁.prompt_of hp)
    show g.recognize (.sequence (e :: es)) _ = _
    rw [recognize_eq, recognizeStep, hv, Option.bind_some]
    dsimp only
    rw [← hc₁.rest_eq_drop, hvs, Option.map_some, Verdict.after_ofResult, hc₁.index_sub_add hc₂]
  | firstOfNil cx =>
    show g.recognize (.alternatives []) _ = _
    rw [recognize_eq, recognizeStep]
    rfl
  | @firstOfStop e es cx r cx' h hr ih =>
    have hv : g.recognize e cx.stream.rest = _ := ih hp
    show g.recognize (.alternatives (e :: es)) _ = _
    rw [recognize_eq, recognizeStep, hv, Option.bind_some]
    rcases r with _ | nodes | _
    · rfl
    · rfl
    · exact absurd rfl hr
  | @firstOfMore e es cx cx₁ r cx' h hs ih ihs =>
    have hv : g.recognize e cx.stream.rest = some .notMatched := ih hp
    -- the next choice starts where the missed one did
    obtain ⟨ts₁, hc₁⟩ := h.consumes
    have ha := h.alike_of_notMatched
    have hvs : g.recognize (.alternatives es) cx₁.stream.rest = _ := ihs (hc₁.prompt_of hp)
    show g.recognize (.alternatives (e :: es)) _ = _
    rw [recognize_eq, recognizeStep, hv, Option.bind_some]
    dsimp only
    rw [← ha.rest_eq, ← ha.index_eq, hvs]
  | @roundsEnd e cx r cx' h hr ih =>
    have hv : g.recognize e cx.stream.rest =
        some (.ofResult r (cx'.stream.index - cx.stream.index)) := ih hp
    show g.recognize (.oneOrMore e) _ = _
    rw [recognize_eq, recognizeStep, hv, Option.bind_some, Verdict.ofResult_settle]
    rcases r with _ | nodes | _
    · rfl
    · rw [hr nodes rfl, Nat.sub_self]
      rfl
    · rfl
  | @roundsMore e cx nodes cx₁ r cx' h hi hs ih ihs =>
    have hci := cx₁.stream.index_commit
    have hv : g.recognize e cx.stream.rest =
        some (.matched nodes (cx₁.stream.commit.index - cx.stream.index)) := by
      rw [hci]
      exact ih hp
    obtain ⟨ts, hc⟩ := h.consumes
    have hc₁ : Consumes ts cx.stream cx₁.stream.commit := hc.commit
    obtain ⟨ts₂, hc₂⟩ := hs.consumes
    obtain ⟨k, hk⟩ := hc₁.exists_index_sub (by rwa [hci])
    have hvs : g.recognize (.oneOrMore e) cx₁.stream.commit.rest =
        some (.ofResult r (cx'.stream.index - cx₁.stream.commit.index)) := ihs (hc₁.prompt_of hp)
    have hempty : (Verdict.ofResult r (cx'.stream.index - cx₁.stream.commit.index)).orEmpty =
        .ofResult (orNothing r) (cx'.stream.index - cx₁.stream.commit.index) :=
      Verdict.orEmpty_ofResult _ _ hs.index_of_missed_rounds
    show g.recognize (.oneOrMore e) _ = _
    rw [recognize_eq, recognizeStep, hv, hk, Option.bind_some]
    dsimp only
    rw [← hk, ← hc₁.rest_eq_drop, recognize_eq, recognizeStep, hvs, Option.map_some, hempty,
      Option.map_some, Verdict.after_ofResult, hc₁.index_sub_add hc₂]

/-! ## From lists to streams -/

/-- On prompt inputs with these tokens left, something can be derived for an element. Where it has
several parts or rounds, this is said of what happens inside its transaction. -/
def Halts (g : Grammar) (e : Element) (tokens : List Token) : Prop :=
  ∀ cx : Context, cx.stream.input.Prompt → cx.stream.rest = tokens →
    ∃ r cx', match e with
      | .sequence es => g.Derives (.inOrder es) cx r cx'
      | .alternatives es => g.Derives (.firstOf es) cx r cx'
      | .many e | .oneOrMore e => g.Derives (.rounds e) cx r cx'
      | e => g.Derives (.element e) cx r cx'

theorem Halts.element {tokens : List Token} (h : g.Halts e tokens) (cx : Context)
    (hp : cx.stream.input.Prompt) (hcx : cx.stream.rest = tokens) :
    ∃ r cx', g.Derives (.element e) cx r cx' := by
  cases e with
  | sequence es =>
    obtain ⟨r, cx', hd⟩ := h cx.begin hp hcx
    exact ⟨r, _, .sequence hd⟩
  | alternatives es =>
    obtain ⟨r, cx', hd⟩ := h cx.begin hp hcx
    exact ⟨r, _, .alternatives hd⟩
  | many e =>
    obtain ⟨r, cx', hd⟩ := h cx hp hcx
    exact ⟨_, cx', .many hd⟩
  | oneOrMore e =>
    obtain ⟨r, cx', hd⟩ := h cx.begin hp hcx
    exact ⟨r, _, .oneOrMore hd⟩
  | _ => exact h cx hp hcx

theorem Halts.exists_of_recognize {tokens : List Token} {v : Verdict} (h : g.Halts e tokens)
    (hv : g.recognize e tokens = some v) (cx : Context) (hp : cx.stream.input.Prompt)
    (hcx : cx.stream.rest = tokens) :
    ∃ r cx' ts, g.Derives (.element e) cx r cx' ∧ Consumes ts cx.stream cx'.stream ∧
      v = .ofResult r (cx'.stream.index - cx.stream.index) := by
  obtain ⟨r, cx', hd⟩ := h.element cx hp hcx
  obtain ⟨ts, hc⟩ := hd.consumes
  have hr : g.recognize e cx.stream.rest = _ := hd.recognize hp
  rw [hcx, hv] at hr
  exact ⟨r, cx', ts, hd, hc, Option.some.inj hr⟩

section Halts

variable {tokens : List Token} {v : Verdict}

theorem Halts.ref {name : String} {rule : Rule} (h : g.Halts rule.element tokens)
    (hr : g.rule? name = some rule) : g.Halts (.ref name) tokens := by
  intro cx hp hcx
  obtain ⟨r, cx', hd⟩ := h.element cx hp hcx
  exact ⟨r, cx', .ref hr hd⟩

theorem Halts.rule (h : g.Halts e tokens) (name : String) (transform : Option Transform) :
    g.Halts (.rule name e transform) tokens := by
  intro cx hp hcx
  obtain ⟨r, cx', hd⟩ := h.element cx.begin hp hcx
  exact ⟨_, _, .rule hd⟩

theorem Halts.tagged (h : g.Halts e tokens) (id : String) : g.Halts (.tagged id e) tokens := by
  intro cx hp hcx
  obtain ⟨r, cx', hd⟩ := h.element cx hp hcx
  exact ⟨_, cx', .tagged hd⟩

theorem Halts.optional (h : g.Halts e tokens) : g.Halts (.optional e) tokens := by
  intro cx hp hcx
  obtain ⟨r, cx', hd⟩ := h.element cx.begin hp hcx
  exact ⟨_, _, .optional hd⟩

theorem Halts.sequence {es : List Element} (h : g.Halts e tokens)
    (hv : g.recognize e tokens = some v)
    (hs : ∀ nodes k, v = .matched nodes k → g.Halts (.sequence es) (tokens.drop k)) :
    g.Halts (.sequence (e :: es)) tokens := by
  rintro cx hp rfl
  obtain ⟨r₁, cx₁, ts₁, hd, hc₁, rfl⟩ := h.exists_of_recognize hv cx hp rfl
  rcases r₁ with err | nodes | _
  · exact ⟨_, _, .inOrderStop hd fun nodes => by simp⟩
  · obtain ⟨r₂, cx₂, hds⟩ := hs _ _ rfl cx₁ (hc₁.prompt_of hp) hc₁.rest_eq_drop
    exact ⟨_, _, .inOrderMore hd hds⟩
  · exact ⟨_, _, .inOrderStop hd fun nodes => by simp⟩

theorem Halts.alternatives {es : List Element} (h : g.Halts e tokens)
    (hv : g.recognize e tokens = some v)
    (hs : v = .notMatched → g.Halts (.alternatives es) tokens) :
    g.Halts (.alternatives (e :: es)) tokens := by
  rintro cx hp rfl
  obtain ⟨r₁, cx₁, ts₁, hd, hc₁, rfl⟩ := h.exists_of_recognize hv cx hp rfl
  rcases r₁ with err | nodes | _
  · exact ⟨_, _, .firstOfStop hd (by simp)⟩
  · exact ⟨_, _, .firstOfStop hd (by simp)⟩
  · have hrest := hd.alike_of_notMatched.rest_eq
    obtain ⟨r₂, cx₂, hds⟩ := hs rfl cx₁ (hc₁.prompt_of hp) hrest
    exact ⟨_, _, .firstOfMore hd hds⟩

theorem Halts.oneOrMore (h : g.Halts e tokens) (hv : g.recognize e tokens = some v)
    (hs : ∀ nodes k, v = .matched nodes (k + 1) → g.Halts (.many e) (tokens.drop (k + 1))) :
    g.Halts (.oneOrMore e) tokens := by
  rintro cx hp rfl
  obtain ⟨r₁, cx₁, ts₁, hd, hc₁, rfl⟩ := h.exists_of_recognize hv cx.begin hp rfl
  rcases r₁ with err | nodes | _
  · exact ⟨_, _, .roundsEnd hd fun nodes => by simp⟩
  · by_cases hi : cx₁.stream.index = cx.stream.index
    · exact ⟨_, _, .roundsEnd hd fun _ _ => hi⟩
    · obtain ⟨k, hk⟩ := hc₁.exists_index_sub hi
      have hrest : cx₁.stream.commit.rest = cx.stream.rest.drop (k + 1) := by
        rw [hc₁.commit.rest_eq_drop, TokenStream.index_commit, ← hk]
        rfl
      obtain ⟨r₂, cx₂, hds⟩ := hs nodes k (congrArg (Verdict.matched nodes) hk)
        (cx₁.settle (.ok (.matched nodes))) (hc₁.commit.prompt_of hp) hrest
      exact ⟨_, _, .roundsMore hd hi hds⟩
  · exact ⟨_, _, .roundsEnd hd fun nodes => by simp⟩

/-- **Where there is a verdict, something can be derived.** -/
theorem halts_of_recognize (h : g.recognize e tokens = some v) : g.Halts e tokens := by
  refine recognize_induction (P := fun e tokens _ => g.Halts e tokens) (fun rec ih => ?_) h
  intro e tokens v h
  cases e with
  | terminal type => exact fun cx _ _ => ⟨_, _, .terminal type cx⟩
  | ref name =>
    simp only [recognizeStep] at h
    cases hr : g.rule? name with
    | none => exact fun cx _ _ => ⟨_, _, .undefined hr cx⟩
    | some rule =>
      rw [hr] at h
      exact (ih h).2.ref hr
  | rule name content transform =>
    obtain ⟨v₀, h₀, _⟩ := Option.map_eq_some_iff.mp h
    exact (ih h₀).2.rule name transform
  | tagged id e =>
    obtain ⟨v₀, h₀, _⟩ := Option.map_eq_some_iff.mp h
    exact (ih h₀).2.tagged id
  | optional e =>
    obtain ⟨v₀, h₀, _⟩ := Option.map_eq_some_iff.mp h
    exact (ih h₀).2.optional
  | many e =>
    obtain ⟨v₀, h₀, _⟩ := Option.map_eq_some_iff.mp h
    exact (ih h₀).2
  | sequence es =>
    cases es with
    | nil => exact fun cx _ _ => ⟨_, _, .inOrderNil cx⟩
    | cons e es =>
      obtain ⟨v₁, h₁, hk⟩ := Option.bind_eq_some_iff.mp h
      obtain ⟨hv₁, hh₁⟩ := ih h₁
      refine hh₁.sequence hv₁ ?_
      rintro nodes k rfl
      obtain ⟨v₂, h₂, _⟩ := Option.map_eq_some_iff.mp hk
      exact (ih h₂).2
  | alternatives es =>
    cases es with
    | nil => exact fun cx _ _ => ⟨_, _, .firstOfNil cx⟩
    | cons e es =>
      obtain ⟨v₁, h₁, hk⟩ := Option.bind_eq_some_iff.mp h
      obtain ⟨hv₁, hh₁⟩ := ih h₁
      refine hh₁.alternatives hv₁ ?_
      rintro rfl
      exact (ih hk).2
  | oneOrMore e =>
    obtain ⟨v₁, h₁, hk⟩ := Option.bind_eq_some_iff.mp h
    obtain ⟨hv₁, hh₁⟩ := ih h₁
    refine hh₁.oneOrMore hv₁ ?_
    rintro nodes k rfl
    obtain ⟨v₂, h₂, _⟩ := Option.map_eq_some_iff.mp hk
    exact (ih h₂).2

end Halts

/-! ## Elements as recognizers -/

/-- **On a stream over a list of tokens, an element is a recognizer**, whatever frames are open, has
been read ahead, or was noted as a failure. It comes to an end exactly where there is a verdict on
the tokens that remain. Then the verdict tells the result and the tokens that a match consumes. -/
theorem yields_iff_recognize (e : Element) (cx : Context) {later : List Token}
    (h : cx.stream.input = .tokens later) :
    ((∃ r cx', g.Yields e cx r cx') ↔ ∃ v, g.recognize e cx.stream.rest = some v) ∧
      ∀ r cx', g.Yields e cx r cx' → ∃ v, g.recognize e cx.stream.rest = some v ∧
        match v with
        | .matched nodes k => r = .ok (.matched nodes) ∧ k ≤ cx.stream.rest.length ∧
            Consumes (cx.stream.rest.take k) cx.stream cx'.stream
        | .notMatched => r = .ok .notMatched ∧ cx.stream.Alike cx'.stream
        | .failed err => r = .error err := by
  have hp : cx.stream.input.Prompt := h ▸ TokenInput.prompt_tokens later
  simp only [yields_iff_derives]
  refine ⟨⟨?_, ?_⟩, fun r cx' hd => ⟨_, hd.recognize hp, ?_⟩⟩
  · rintro ⟨r, cx', hd⟩
    exact ⟨_, hd.recognize hp⟩
  · rintro ⟨v, hv⟩
    exact (halts_of_recognize hv).element cx hp rfl
  · rcases r with err | nodes | _
    · rfl
    · obtain ⟨ts, hc⟩ := hd.consumes
      have hk : cx'.stream.index - cx.stream.index = ts.length := by
        rw [hc.index_eq, Nat.add_sub_cancel_left]
      have hts : cx.stream.rest.take ts.length = ts := by
        rw [hc.rest_eq, List.take_left]
      simp only [Verdict.ofResult, hk, hts]
      refine ⟨trivial, ?_, hc⟩
      rw [hc.rest_eq, List.length_append]
      exact Nat.le_add_right _ _
    · exact ⟨rfl, hd.alike_of_notMatched⟩

theorem recognize_of_half_pair :
    let a : Token := .ofType "a" "A" .start .start
    let pair : Element := .sequence [.terminal "A", .terminal "B"]
    let cx : Context := ⟨(TokenStream.ofTokens [a, a]).hasMore.2.begin, some ⟨.type "B", some a⟩⟩
    recognize {} pair cx.stream.rest = some .notMatched := by
  intro a pair cx
  have hy : Yields {} pair cx (.ok .notMatched) _ := ⟨2, rfl⟩
  obtain ⟨v, hv, hm⟩ := (yields_iff_recognize pair cx rfl).2 _ _ hy
  rcases v with _ | _ | _
  · cases hm.1
  · exact hv
  · cases hm

end Grammar

end ParserKit
