import ParserKit.Proofs.Grammar.Agreement
import ParserKit.Proofs.Grammar.Spelling

/-!
# What failures tell

The latest failure of a context is noted by a terminal that did not match, and cleared by one that
did.

* `Grammar.Tries`: a terminal is tried in a context, in the course of a goal.
* **`Grammar.Derives.tried`**: a failure that was not there before is that of a terminal that was
  tried.
* **`Grammar.failure_found`**: a failure names a place in the list of tokens, and what stands there
  does not match; what this says of the errors of a parse.
* **`Grammar.Derives.isSome_failure`**: where every choice has a branch, whatever misses leaves a
  failure behind.
* **`Grammar.failure_of_notMatched`**: then every parse without transforms that fails names a token,
  a type that was expected, or a rule that is missing.
-/

namespace ParserKit

open TokenStream (Consumes)

namespace Grammar

/-! ## Terminals that are tried -/

/-- **A terminal of a type is tried in a context**, in the course of a goal that begins in another
one. -/
inductive Tries (g : Grammar) : Goal → Context → String → Context → Prop
  | terminal (type cx) : Tries g (.element (.terminal type)) cx type cx
  | ref {name rule cx type cy} (hr : g.rule? name = some rule)
      (h : Tries g (.element rule.element) cx type cy) : Tries g (.element (.ref name)) cx type cy
  | rule {name content transform cx type cy} (h : Tries g (.element content) cx.begin type cy) :
      Tries g (.element (.rule name content transform)) cx type cy
  | tagged {id e cx type cy} (h : Tries g (.element e) cx type cy) :
      Tries g (.element (.tagged id e)) cx type cy
  | sequence {es cx type cy} (h : Tries g (.inOrder es) cx.begin type cy) :
      Tries g (.element (.sequence es)) cx type cy
  | alternatives {es cx type cy} (h : Tries g (.firstOf es) cx.begin type cy) :
      Tries g (.element (.alternatives es)) cx type cy
  | optional {e cx type cy} (h : Tries g (.element e) cx.begin type cy) :
      Tries g (.element (.optional e)) cx type cy
  | many {e cx type cy} (h : Tries g (.rounds e) cx type cy) :
      Tries g (.element (.many e)) cx type cy
  | oneOrMore {e cx type cy} (h : Tries g (.rounds e) cx.begin type cy) :
      Tries g (.element (.oneOrMore e)) cx type cy
  | inOrderHead {e es cx type cy} (h : Tries g (.element e) cx type cy) :
      Tries g (.inOrder (e :: es)) cx type cy
  | inOrderTail {e es cx nodes cx₁ type cy}
      (h : g.Derives (.element e) cx (.ok (.matched nodes)) cx₁)
      (hs : Tries g (.inOrder es) cx₁ type cy) : Tries g (.inOrder (e :: es)) cx type cy
  | firstOfHead {e es cx type cy} (h : Tries g (.element e) cx type cy) :
      Tries g (.firstOf (e :: es)) cx type cy
  | firstOfTail {e es cx cx₁ type cy} (h : g.Derives (.element e) cx (.ok .notMatched) cx₁)
      (hs : Tries g (.firstOf es) cx₁ type cy) : Tries g (.firstOf (e :: es)) cx type cy
  | roundsHead {e cx type cy} (h : Tries g (.element e) cx.begin type cy) :
      Tries g (.rounds e) cx type cy
  | roundsTail {e cx nodes cx₁ type cy}
      (h : g.Derives (.element e) cx.begin (.ok (.matched nodes)) cx₁)
      (hi : cx₁.stream.index ≠ cx.stream.index)
      (hs : Tries g (.rounds e) (cx₁.settle (.ok (.matched nodes))) type cy) :
      Tries g (.rounds e) cx type cy

variable {g : Grammar} {N : List Element} {goal : Goal} {e : Element} {cx cx' cy : Context}
  {r : Except ParseError Outcome} {type : String}

/-- **A terminal is tried where some of the tokens to come have been consumed.** -/
theorem Tries.reaches (h : g.Tries goal cx type cy) :
    ∃ ts, cx.stream.rest = ts ++ cy.stream.rest ∧
      cy.stream.index = cx.stream.index + ts.length ∧
      (cx.stream.input.Prompt → cy.stream.input.Prompt) := by
  -- what is tried after a first part comes after the tokens that this part consumed
  have after {cx cx₁ cy : Context} {us : List Token} (hc : Consumes us cx.stream cx₁.stream)
      (ih : ∃ ts, cx₁.stream.rest = ts ++ cy.stream.rest ∧
        cy.stream.index = cx₁.stream.index + ts.length ∧
        (cx₁.stream.input.Prompt → cy.stream.input.Prompt)) :
      ∃ ts, cx.stream.rest = ts ++ cy.stream.rest ∧
        cy.stream.index = cx.stream.index + ts.length ∧
        (cx.stream.input.Prompt → cy.stream.input.Prompt) := by
    obtain ⟨ts, hrest, hindex, hp⟩ := ih
    refine ⟨us ++ ts, ?_, ?_, fun h => hp (hc.prompt_of h)⟩
    · rw [hc.rest_eq, hrest, List.append_assoc]
    · rw [hindex, hc.index_eq, List.length_append, Nat.add_assoc]
  induction h with
  | terminal => exact ⟨[], rfl, rfl, id⟩
  | ref _ _ ih => exact ih
  | rule _ ih | tagged _ ih | sequence _ ih | alternatives _ ih | optional _ ih | many _ ih
  | oneOrMore _ ih | inOrderHead _ ih | firstOfHead _ ih | roundsHead _ ih => exact ih
  | inOrderTail h _ ih | firstOfTail h _ ih =>
    obtain ⟨us, hc⟩ := h.consumes
    exact after hc ih
  | roundsTail h _ _ ih =>
    obtain ⟨us, hc⟩ := h.consumes
    exact after hc.commit ih

theorem Tries.mem_of_within (h : g.Tries goal cx type cy) (hN : g.Closed N)
    (hgoal : goal.Within N) : .terminal type ∈ N := by
  induction h with
  | terminal => exact hgoal
  | ref hr _ ih => exact ih (hN.rule_mem hr)
  | rule _ ih | tagged _ ih | optional _ ih | many _ ih | oneOrMore _ ih =>
    exact ih (hN.children_mem hgoal List.mem_cons_self)
  | sequence _ ih | alternatives _ ih => exact ih fun x hx => hN.children_mem hgoal hx
  | inOrderHead _ ih | firstOfHead _ ih => exact ih (hgoal _ List.mem_cons_self)
  | inOrderTail _ _ ih | firstOfTail _ _ ih =>
    exact ih fun x hx => hgoal x (List.mem_cons_of_mem _ hx)
  | roundsHead _ ih | roundsTail _ _ _ ih => exact ih hgoal

/-! ## Where failures come from -/

/-- The failure that a terminal of a type notes in a context, if the next token does not match. -/
def Misses (type : String) (cy : Context) (f : Failure) : Prop :=
  f = ⟨.type type, cy.stream.lookup.1⟩ ∧
    ∀ token, cy.stream.lookup.1 = some token → token.hasType type = false

/-- **What a terminal does.** It misses and notes so, it matches and clears the failure, or its
transform fails and the failure stays as it was. -/
theorem matchTerminal_cases (g : Grammar) (type : String) (cx : Context) :
    (∃ f, Misses type cx f ∧
      g.matchTerminal type cx = (.ok .notMatched, ⟨cx.stream.fill 1, some f⟩)) ∨
    (∃ token node, g.transformTerminal type (.ofToken type token) = .ok node ∧
      g.matchTerminal type cx = (.ok (.matched [node]), ⟨(cx.stream.fill 1).consume.2, none⟩)) ∨
    ∃ token err, g.transformTerminal type (.ofToken type token) = .error err ∧
      g.matchTerminal type cx = (.error err, ⟨cx.stream.fill 1, cx.lastFailure⟩) := by
  unfold Misses
  rw [matchTerminal_eq]
  cases cx.stream.lookup.1 with
  | none => exact .inl ⟨_, ⟨rfl, fun token h => by cases h⟩, rfl⟩
  | some token =>
    by_cases ht : token.hasType type
    · simp only [if_pos ht]
      cases hn : g.transformTerminal type (.ofToken type token) with
      | ok node => exact .inr (.inl ⟨token, node, hn, rfl⟩)
      | error err => exact .inr (.inr ⟨token, err, hn, rfl⟩)
    · simp only [if_neg ht]
      refine .inl ⟨_, ⟨rfl, fun other h => ?_⟩, rfl⟩
      cases h
      exact Bool.eq_false_iff.mpr ht

/-- **A failure that was not there before is that of a terminal that was tried.** -/
theorem Derives.tried {f : Failure} (h : g.Derives goal cx r cx') (hf : cx'.lastFailure = some f) :
    cx.lastFailure = some f ∨ ∃ type cy, g.Tries goal cx type cy ∧ Misses type cy f := by
  have lift {goal goal' : Goal} {cx cx₁ : Context}
      (ht : ∀ {type cy}, g.Tries goal' cx₁ type cy → g.Tries goal cx type cy)
      (ih : cx.lastFailure = some f ∨ ∃ type cy, g.Tries goal' cx₁ type cy ∧ Misses type cy f) :
      cx.lastFailure = some f ∨ ∃ type cy, g.Tries goal cx type cy ∧ Misses type cy f :=
    ih.imp_right fun ⟨type, cy, h, hm⟩ => ⟨type, cy, ht h, hm⟩
  induction h with
  | terminal type cx =>
    obtain ⟨f', hm, ht⟩ | ⟨token, node, -, ht⟩ | ⟨token, err, -, ht⟩ :=
      g.matchTerminal_cases type cx
    · rw [ht] at hf
      obtain rfl := Option.some.inj hf
      exact .inr ⟨type, cx, .terminal type cx, hm⟩
    · rw [ht] at hf
      cases hf
    · rw [ht] at hf
      exact .inl hf
  | undefined | inOrderNil | firstOfNil => exact .inl hf
  | ref hr _ ih => exact lift (.ref hr) (ih hf)
  | rule _ ih => exact lift .rule (ih (by simpa using hf))
  | tagged _ ih => exact lift .tagged (ih hf)
  | sequence _ ih => exact lift .sequence (ih (by simpa using hf))
  | alternatives _ ih => exact lift .alternatives (ih (by simpa using hf))
  | optional _ ih => exact lift .optional (ih (by simpa using hf))
  | many _ ih => exact lift .many (ih hf)
  | oneOrMore _ ih => exact lift .oneOrMore (ih (by simpa using hf))
  | inOrderStop _ _ ih => exact lift .inOrderHead (ih hf)
  | firstOfStop _ _ ih => exact lift .firstOfHead (ih hf)
  | roundsEnd _ _ ih => exact lift .roundsHead (ih (by simpa using hf))
  | inOrderMore h _ ih ihs =>
    obtain hf₁ | ⟨type, cy, ht, hm⟩ := ihs hf
    · exact lift .inOrderHead (ih hf₁)
    · exact .inr ⟨type, cy, .inOrderTail h ht, hm⟩
  | firstOfMore h _ ih ihs =>
    obtain hf₁ | ⟨type, cy, ht, hm⟩ := ihs hf
    · exact lift .firstOfHead (ih hf₁)
    · exact .inr ⟨type, cy, .firstOfTail h ht, hm⟩
  | roundsMore h hi _ ih ihs =>
    obtain hf₁ | ⟨type, cy, ht, hm⟩ := ihs hf
    · exact lift .roundsHead (ih (by simpa using hf₁))
    · exact .inr ⟨type, cy, .roundsTail h hi ht, hm⟩

/-! ## Failures on lists of tokens -/

theorem Tries.place (h : g.Tries goal cx type cy) (hp : cx.stream.input.Prompt) {ts : List Token}
    {k : Nat} (hk : k ≤ ts.length) (hrest : cx.stream.rest = ts.drop k) :
    ∃ p, k ≤ p ∧ p ≤ ts.length ∧ cy.stream.rest = ts.drop p ∧
      cy.stream.index + k = cx.stream.index + p ∧ cy.stream.lookup.1 = ts[p]? := by
  obtain ⟨us, hus, hindex, hprompt⟩ := h.reaches
  rw [hrest] at hus
  have hcy : cy.stream.rest = ts.drop (k + us.length) := by
    rw [← List.drop_drop, hus, List.drop_left]
  have hlen := congrArg List.length hus
  rw [List.length_drop, List.length_append] at hlen
  refine ⟨k + us.length, by omega, by omega, hcy, by omega, ?_⟩
  rw [TokenStream.fst_lookup (hprompt hp), hcy, List.head?_drop]

/-- What a failure tells on a list of tokens: a terminal was tried at a place, and what stands there
does not match. -/
theorem Derives.failure_at {f : Failure} (h : g.Derives (.element e) cx r cx')
    (hp : cx.stream.input.Prompt) {ts : List Token} {k : Nat} (hk : k ≤ ts.length)
    (hrest : cx.stream.rest = ts.drop k) (hnone : cx.lastFailure = none)
    (hf : cx'.lastFailure = some f) :
    ∃ type cy p, g.Tries (.element e) cx type cy ∧ .terminal type ∈ g.parts e ∧ k ≤ p ∧
      p ≤ ts.length ∧ cy.stream.rest = ts.drop p ∧ cy.stream.index + k = cx.stream.index + p ∧
      f = ⟨.type type, ts[p]?⟩ ∧ ∀ token, ts[p]? = some token → token.hasType type = false := by
  obtain hf | ⟨type, cy, ht, hmiss, htype⟩ := h.tried hf
  · rw [hnone] at hf
    cases hf
  · obtain ⟨p, hkp, hpl, hcy, hindex, hl⟩ := ht.place hp hk hrest
    rw [hl] at hmiss htype
    have hmem := ht.mem_of_within (g.closed_parts e) (List.mem_append_left _ e.self_mem_parts)
    exact ⟨type, cy, p, ht, hmem, hkp, hpl, hcy, hindex, hmiss, htype⟩

theorem parse_of_matched {s s₁ : TokenStream} {nodes : List Node} {failure : Option Failure}
    (hp : s.input.Prompt) (h : g.attemptRoot s = some (.ok (.matched nodes, failure), s₁)) :
    (s₁.rest = [] ∧ ∃ node, g.parse s = some (.ok node, s₁.fill 1)) ∨
      ∃ token, s₁.rest.head? = some token ∧
        g.parse s = some (.error (.unexpectedToken token), s₁.fill 1) := by
  obtain ⟨-, hr, -⟩ | ⟨root, r₀, cx', -, hy, hr, rfl⟩ := yields_of_attemptRoot h
  · cases hr
  obtain ⟨outcome, rfl⟩ : ∃ outcome, r₀ = .ok outcome := by
    cases r₀ with
    | error err => cases hr
    | ok outcome => exact ⟨outcome, rfl⟩
  cases hr
  have hd := yields_iff_derives.mp hy
  obtain ⟨node, rfl⟩ := hd.exists_node
  obtain ⟨ts, hc⟩ := hd.consumes
  have hl : cx'.stream.lookup.1 = cx'.stream.rest.head? := TokenStream.fst_lookup (hc.prompt_of hp)
  have hparse : g.parse s = some (complete [node] cx'.stream) := by
    simp only [parse, h]
  have hlookup : cx'.stream.lookup = (cx'.stream.rest.head?, cx'.stream.fill 1) := Prod.ext hl rfl
  unfold complete at hparse
  rw [hlookup] at hparse
  cases hrest : cx'.stream.rest with
  | nil =>
    rw [hrest] at hparse
    exact .inl ⟨rfl, node, hparse⟩
  | cons token tokens =>
    rw [hrest] at hparse
    exact .inr ⟨token, rfl, hparse⟩

/-- **What failures tell about the tokens.** After an attempt that began without a failure, the
latest one names the type of a terminal that was tried, and what stands at that place, which does
not match: a token, or the end. If the root rule of a parse does not match, the error is that of
such a failure: it names a token of the list, or a type that was expected when all tokens had been
consumed. If the root rule matches, a parse fails only where it left tokens, and names the first of
them. -/
theorem failure_found (g : Grammar) (ts : List Token) :
    (∀ e cx r cx' later k, cx.stream.input = .tokens later → k ≤ ts.length →
      cx.stream.rest = ts.drop k → cx.lastFailure = none → g.Yields e cx r cx' →
      ∀ f, cx'.lastFailure = some f →
        ∃ type p, f.expected = .type type ∧ .terminal type ∈ g.parts e ∧ k ≤ p ∧ p ≤ ts.length ∧
          f.found = ts[p]? ∧ (∀ token, ts[p]? = some token → token.hasType type = false) ∧
          ∃ cy, g.Tries (.element e) cx type cy ∧ cy.stream.rest = ts.drop p) ∧
    (∀ f s', g.attemptRoot (.ofTokens ts) = some (.ok (.notMatched, some f), s') →
      ∃ root type cy, g.root? = some root ∧
        g.Tries (.element root.element) ⟨.ofTokens ts, none⟩ type cy ∧
        ((∃ token, g.parse (.ofTokens ts) = some (.error (.unexpectedToken token), s') ∧
            ts[cy.stream.index]? = some token ∧ token.hasType type = false) ∨
          g.parse (.ofTokens ts) = some (.error (.noTokenFound (.type type)), s') ∧
            cy.stream.index = ts.length ∧ cy.stream.rest = [])) ∧
    ∀ nodes failure s', g.attemptRoot (.ofTokens ts) = some (.ok (.matched nodes, failure), s') →
      (∃ node s'', g.parse (.ofTokens ts) = some (.ok node, s'') ∧ s'.index = ts.length) ∨
        ∃ token s'', g.parse (.ofTokens ts) = some (.error (.unexpectedToken token), s'') ∧
          s''.index = s'.index ∧ ts[s''.index]? = some token := by
  have hprompt : (TokenStream.ofTokens ts).input.Prompt := TokenInput.prompt_tokens ts
  have hfresh : (TokenStream.ofTokens ts).rest = ts.drop 0 := rfl
  refine ⟨?_, fun f s' h => ?_, fun nodes failure s' h => ?_⟩
  · intro e cx r cx' later k hin hk hrest hnone hy f hf
    have hp : cx.stream.input.Prompt := hin ▸ TokenInput.prompt_tokens later
    obtain ⟨type, cy, p, ht, hmem, hkp, hpl, hcy, -, rfl, htype⟩ :=
      (yields_iff_derives.mp hy).failure_at hp hk hrest hnone hf
    exact ⟨type, p, rfl, hmem, hkp, hpl, rfl, htype, cy, ht, hcy⟩
  · obtain ⟨-, hr, -⟩ | ⟨root, r₀, cx', hroot, hy, hr, rfl⟩ := yields_of_attemptRoot h
    · cases hr
    rcases r₀ with err | outcome
    · cases hr
    obtain ⟨rfl, hf⟩ := Prod.mk.inj (Except.ok.inj hr)
    obtain ⟨type, cy, p, ht, -, -, hpl, hcy, hindex, rfl, htype⟩ :=
      (yields_iff_derives.mp hy).failure_at hprompt (Nat.zero_le _) hfresh rfl hf.symm
    obtain rfl : cy.stream.index = p := by
      rw [Nat.add_zero, show (TokenStream.ofTokens ts).index = 0 from rfl, Nat.zero_add] at hindex
      exact hindex
    refine ⟨root, type, cy, hroot, ht, ?_⟩
    have hparse : g.parse (.ofTokens ts) =
        some (.error (Failure.toError ⟨.type type, ts[cy.stream.index]?⟩), cx'.stream) := by
      simp only [parse, h, mismatchError]
    cases htoken : ts[cy.stream.index]? with
    | some token =>
      rw [htoken] at hparse
      exact .inl ⟨token, hparse, rfl, htype token htoken⟩
    | none =>
      rw [htoken] at hparse
      have hend : cy.stream.index = ts.length :=
        Nat.le_antisymm hpl (List.getElem?_eq_none_iff.mp htoken)
      refine .inr ⟨hparse, hend, ?_⟩
      rw [hcy, hend, List.drop_length]
  · obtain ⟨us, hc⟩ := exists_consumes_of_attemptRoot h
    have hus : ts = us ++ s'.rest := hc.rest_eq
    have hi : s'.index = us.length := hc.index_eq.trans (Nat.zero_add _)
    obtain ⟨hnil, node, hparse⟩ | ⟨token, htoken, hparse⟩ := parse_of_matched hprompt h
    · refine .inl ⟨node, _, hparse, ?_⟩
      rw [hi, hus, hnil, List.append_nil]
    · refine .inr ⟨token, _, hparse, s'.index_fill 1, ?_⟩
      rw [TokenStream.index_fill, ← List.head?_drop, hi, hus, List.drop_left, htoken]

/-- A pair on a token of its first part and one of neither: the failure is at the second place.
Without the second token it is at the end. A single rule that leaves the second token names it. -/
theorem failures_of_half_pair :
    let a : Token := .ofType "a" "A" .start .start
    let c : Token := .ofType "c" "C" .start .start
    let pair : Element := .sequence [.terminal "A", .terminal "B"]
    let g := Grammar.addRule {} "pair" pair true
    (∃ cx' type, ∃ p : Nat, g.Yields pair ⟨.ofTokens [a, c], none⟩ (.ok .notMatched) cx' ∧
      cx'.lastFailure = some ⟨.type type, some c⟩ ∧ some c = [a, c][p]? ∧ c.hasType type = false) ∧
    (∃ type s', g.parse (.ofTokens [a]) = some (.error (.noTokenFound (.type type)), s')) ∧
    ∃ token s', (g.addRule "single" (.terminal "A") true).parse (.ofTokens [a, c]) =
      some (.error (.unexpectedToken token), s') ∧ [a, c][s'.index]? = some token := by
  intro a c pair g
  refine ⟨?_, ?_, ?_⟩
  · have hy : g.Yields pair ⟨.ofTokens [a, c], none⟩ (.ok .notMatched) _ := ⟨2, rfl⟩
    have hf : _ = some (Failure.mk (.type "B") (some c)) := rfl
    obtain ⟨type, p, htype, -, -, -, hfound, hmiss, -⟩ :=
      (failure_found g [a, c]).1 pair _ _ _ [a, c] 0 rfl (Nat.zero_le _) rfl rfl hy _ hf
    obtain rfl := Expected.type.inj htype
    exact ⟨_, "B", p, hy, hf, hfound, hmiss c hfound.symm⟩
  · have h : g.attemptRoot (.ofTokens [a]) =
        some (.ok (.notMatched, some ⟨.type "B", none⟩), _) := rfl
    obtain ⟨root, type, cy, -, -, ⟨token, hparse, -⟩ | ⟨hparse, -⟩⟩ :=
      (failure_found g [a]).2.1 _ _ h
    · cases hparse
    · exact ⟨type, _, hparse⟩
  · have h : (g.addRule "single" (.terminal "A") true).attemptRoot (.ofTokens [a, c]) =
        some (.ok (.matched _, _), _) := rfl
    obtain ⟨node, s', hparse, -⟩ | ⟨token, s', hparse, -, htoken⟩ :=
      (failure_found _ [a, c]).2.2 _ _ _ h
    · cases hparse
    · exact ⟨token, s', hparse, htoken⟩

/-! ## Every miss is explained -/

/-- **Where every choice has a branch, whatever misses leaves a failure behind.** Choices without a
branch that are left over after others have missed are no exception. -/
theorem Derives.isSome_failure (hN : g.Closed N) (hchoice : .alternatives [] ∉ N)
    (h : g.Derives goal cx r cx') (hgoal : goal.Within N) (hr : r = .ok .notMatched)
    (hnil : goal = .firstOf [] → cx.lastFailure.isSome) : cx'.lastFailure.isSome := by
  induction h with
  | terminal type cx =>
    obtain ⟨f, -, ht⟩ | ⟨token, node, -, ht⟩ | ⟨token, err, -, ht⟩ := g.matchTerminal_cases type cx
    · rw [ht]
      rfl
    · rw [ht] at hr
      cases hr
    · rw [ht] at hr
      cases hr
  | undefined | inOrderNil => cases hr
  | ref hrule _ ih => exact ih (hN.rule_mem hrule) hr (by rintro ⟨⟩)
  | @rule name content transform cx r cx' _ ih =>
    rw [Context.lastFailure_settle]
    refine ih (hN.children_mem hgoal List.mem_cons_self) ?_ (by rintro ⟨⟩)
    rcases r with err | children | _
    · cases hr
    · simp only [gather] at hr
      cases hn : transform.elim (.ok { Node.ofName name with children })
        (· { Node.ofName name with children }) <;> rw [hn] at hr <;> cases hr
    · rfl
  | @tagged id e cx r cx' _ ih =>
    refine ih (hN.children_mem hgoal List.mem_cons_self) ?_ (by rintro ⟨⟩)
    rcases r with err | nodes | _
    · cases hr
    · cases hr
    · rfl
  | sequence _ ih =>
    rw [Context.lastFailure_settle]
    exact ih (fun x hx => hN.children_mem hgoal hx) hr (by rintro ⟨⟩)
  | alternatives _ ih =>
    rw [Context.lastFailure_settle]
    refine ih (fun x hx => hN.children_mem hgoal hx) hr fun hes => ?_
    obtain rfl := Goal.firstOf.inj hes
    exact absurd hgoal hchoice
  | @optional e cx r cx' _ ih | @many e cx r cx' _ ih =>
    rcases r with err | nodes | _ <;> cases hr
  | oneOrMore _ ih =>
    rw [Context.lastFailure_settle]
    exact ih (hN.children_mem hgoal List.mem_cons_self) hr (by rintro ⟨⟩)
  | inOrderStop _ _ ih | firstOfStop _ _ ih => exact ih (hgoal _ List.mem_cons_self) hr (by rintro ⟨⟩)
  | @inOrderMore e es cx nodes cx₁ r cx' _ _ ih ihs =>
    refine ihs (fun x hx => hgoal x (List.mem_cons_of_mem _ hx)) ?_ (by rintro ⟨⟩)
    rcases r with err | more | _
    · cases hr
    · cases hr
    · rfl
  | firstOfNil => exact hnil rfl
  | firstOfMore _ _ ih ihs =>
    exact ihs (fun x hx => hgoal x (List.mem_cons_of_mem _ hx)) hr fun _ =>
      ih (hgoal _ List.mem_cons_self) rfl (by rintro ⟨⟩)
  | roundsEnd _ _ ih =>
    rw [Context.lastFailure_settle]
    exact ih hgoal hr (by rintro ⟨⟩)
  | @roundsMore e cx nodes cx₁ r cx' _ _ _ ih ihs =>
    rcases r with err | more | _ <;> cases hr

/-- Without transforms, the only error of an attempt is that a rule is missing. -/
theorem Derives.exists_undefined (hg : g.Untransformed) (hN : g.Closed N)
    (hrule : ∀ {name content transform}, .rule name content transform ∈ N → transform = none)
    (h : g.Derives goal cx r cx') (hgoal : goal.Within N) {err : ParseError} (hr : r = .error err) :
    ∃ name, err = .undefinedRule name := by
  induction h generalizing err with
  | terminal type cx =>
    obtain ⟨f, -, ht⟩ | ⟨token, node, -, ht⟩ | ⟨token, err, hn, -⟩ := g.matchTerminal_cases type cx
    · rw [ht] at hr
      cases hr
    · rw [ht] at hr
      cases hr
    · rw [hg.transformTerminal] at hn
      cases hn
  | @undefined name =>
    cases hr
    exact ⟨name, rfl⟩
  | inOrderNil | firstOfNil => cases hr
  | ref hrule _ ih => exact ih (hN.rule_mem hrule) hr
  | @rule name content transform cx r cx' _ ih =>
    obtain rfl := hrule hgoal
    rcases r with err' | children | _
    · exact ih (hN.children_mem hgoal List.mem_cons_self) hr
    · cases hr
    · cases hr
  | @tagged id e cx r cx' _ ih =>
    rcases r with err' | outcome
    · cases hr
      exact ih (hN.children_mem hgoal List.mem_cons_self) rfl
    · cases hr
  | sequence _ ih | alternatives _ ih => exact ih (fun x hx => hN.children_mem hgoal hx) hr
  | @optional e cx r cx' _ ih | @many e cx r cx' _ ih =>
    rcases r with err' | nodes | _
    · exact ih (hN.children_mem hgoal List.mem_cons_self) hr
    · cases hr
    · cases hr
  | oneOrMore _ ih => exact ih (hN.children_mem hgoal List.mem_cons_self) hr
  | inOrderStop _ _ ih | firstOfStop _ _ ih => exact ih (hgoal _ List.mem_cons_self) hr
  | @inOrderMore e es cx nodes cx₁ r cx' _ _ ih ihs =>
    rcases r with err' | outcome
    · cases hr
      exact ihs (fun x hx => hgoal x (List.mem_cons_of_mem _ hx)) rfl
    · cases hr
  | firstOfMore _ _ ih ihs => exact ihs (fun x hx => hgoal x (List.mem_cons_of_mem _ hx)) hr
  | roundsEnd _ _ ih => exact ih hgoal hr
  | @roundsMore e cx nodes cx₁ r cx' _ _ _ ih ihs =>
    rcases r with err' | more | _
    · cases hr
      exact ihs hgoal rfl
    · cases hr
    · cases hr

/-- **Why parses fail.** If every choice has a branch, in the element and in all rules, an element
that misses leaves a failure behind. So every parse that fails without transforms names a token that
was not expected, a type that was, a rule that is not defined, or the lack of a root rule. -/
theorem failure_of_notMatched (g : Grammar) :
    (∀ e cx cx', .alternatives [] ∉ g.parts e → g.Yields e cx (.ok .notMatched) cx' →
      cx'.lastFailure.isSome) ∧
    ((∀ r ∈ g.rules.values, .alternatives [] ∉ r.element.parts) → g.Untransformed →
      ∀ s err s', g.parse s = some (.error err, s') →
        (∃ token, err = .unexpectedToken token) ∨ (∃ expected, err = .noTokenFound expected) ∨
          (∃ name, err = .undefinedRule name) ∨ err = .noRootRule) := by
  have hmiss : ∀ e cx cx', .alternatives [] ∉ g.parts e → g.Yields e cx (.ok .notMatched) cx' →
      cx'.lastFailure.isSome := fun e cx cx' hchoice hy =>
    (yields_iff_derives.mp hy).isSome_failure (g.closed_parts e) hchoice
      (List.mem_append_left _ e.self_mem_parts) rfl nofun
  refine ⟨hmiss, fun hchoice hg s err s' h => ?_⟩
  unfold parse at h
  rcases ha : g.attemptRoot s with _ | ⟨r, s₁⟩
  · rw [ha] at h
    cases h
  rw [ha] at h
  obtain ⟨-, rfl, -⟩ | ⟨root, r₀, cx', hroot, hy, rfl, rfl⟩ := yields_of_attemptRoot ha
  · obtain ⟨herr, -⟩ := Prod.mk.inj (Option.some.inj h)
    exact .inr (.inr (.inr (Except.error.inj herr).symm))
  obtain ⟨name, -, hrule⟩ := Option.bind_eq_some_iff.mp hroot
  have hmem := mem_rules_of_rule? hrule
  have hd := yields_iff_derives.mp hy
  rcases r₀ with err' | nodes | _
  · obtain ⟨herr, -⟩ := Prod.mk.inj (Option.some.inj h)
    obtain rfl := Except.error.inj herr
    exact .inr (.inr (.inl (hd.exists_undefined hg (g.closed_parts _)
      (hg.of_mem_parts (hg.rule_content root hmem))
      (List.mem_append_left _ (Element.self_mem_parts _)) rfl)))
  · -- the tree is there, so that only a token that is left can be wrong
    obtain ⟨node, rfl⟩ := hd.exists_node
    have h : complete [node] cx'.stream = (.error err, s') := Option.some.inj h
    unfold complete at h
    rcases hl : cx'.stream.lookup with ⟨_ | token, s₂⟩
    · rw [hl] at h
      cases h
    · rw [hl] at h
      cases h
      exact .inl ⟨token, rfl⟩
  · have hchoice' : .alternatives [] ∉ g.parts root.element := by
      rw [parts, List.mem_append, List.mem_flatMap]
      rintro (hin | ⟨rule, hrule, hin⟩)
      · exact hchoice root hmem hin
      · exact hchoice rule hrule hin
    obtain ⟨f, hf⟩ := Option.isSome_iff_exists.mp (hmiss _ _ _ hchoice' hy)
    simp only [hf, Except.map, mismatchError, Option.some.injEq, Prod.mk.injEq,
      Except.error.injEq] at h
    obtain ⟨rfl, -⟩ := h
    unfold Failure.toError
    cases f.found with
    | some token => exact .inl ⟨token, rfl⟩
    | none => exact .inr (.inl ⟨f.expected, rfl⟩)

theorem failure_of_missed_choice :
    let c : Token := .ofType "c" "C" .start .start
    let choice : Element := .alternatives [.ref "pair", .terminal "B"]
    let g := (Grammar.addRule {} "pair"
      (.sequence [.optional (.terminal "A"), .terminal "B"]) false).addRule "choice" choice true
    (∃ cx', g.Yields choice ⟨.ofTokens [c], none⟩ (.ok .notMatched) cx' ∧ cx'.lastFailure.isSome) ∧
      ∃ err s', g.parse (.ofTokens [c]) = some (.error err, s') ∧
        ((∃ token, err = .unexpectedToken token) ∨ (∃ expected, err = .noTokenFound expected) ∨
          (∃ name, err = .undefinedRule name) ∨ err = .noRootRule) := by
  intro c choice g
  have hrules : ∀ r ∈ g.rules.values, r =
      ⟨"pair", .sequence [.optional (.terminal "A"), .terminal "B"], none⟩ ∨
        r = ⟨"choice", choice, none⟩ := by
    intro r hr
    simpa [g, addRule, OrderedMap.insert, OrderedMap.empty, OrderedMap.values, setEntry] using hr
  have hchoice : ∀ r ∈ g.rules.values, .alternatives [] ∉ r.element.parts := by
    intro r hr
    rcases hrules r hr with rfl | rfl <;>
      simp [choice, Rule.element, Element.parts_eq, Element.children]
  have hg : g.Untransformed := by
    refine ⟨fun r hr name content transform h => ?_, rfl⟩
    rcases hrules r hr with rfl | rfl <;>
      simp [choice, Rule.element, Element.parts_eq, Element.children] at h <;>
      exact h.2.2
  have hparts : .alternatives [] ∉ g.parts choice := by
    rw [parts, List.mem_append, List.mem_flatMap]
    rintro (hin | ⟨r, hr, hin⟩)
    · simp [choice, Element.parts_eq, Element.children] at hin
    · exact hchoice r hr hin
  have hy : g.Yields choice ⟨.ofTokens [c], none⟩ (.ok .notMatched) _ := ⟨8, rfl⟩
  have hparse : g.parse (.ofTokens [c]) = some (.error (.unexpectedToken c), _) := rfl
  exact ⟨⟨_, hy, (failure_of_notMatched g).1 _ _ _ hparts hy⟩, _, _, hparse,
    (failure_of_notMatched g).2 hchoice hg _ _ _ hparse⟩

end Grammar

end ParserKit
