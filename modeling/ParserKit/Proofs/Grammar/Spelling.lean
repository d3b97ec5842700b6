import ParserKit.Proofs.Grammar.Depth

/-!
# Trees spell out tokens

* `Node.preorder`, `Node.preorderAll`: the nodes of trees in document order.
* `Node.isToken`: nodes that carry the type of a token; `Node.Spells`: the token that such a node shows.
* **`SpellsOut`**: trees show tokens, each of them once and in order, and all other nodes are those of
  rules.
* `Spelled`: the nodes of a match spell out the tokens that it consumed. Transactions, tags, rules and
  sequences keep this.
* **`Grammar.spellsOut_of_yields`**: without transforms, what an element yields spells out the tokens
  that it consumed, and a tree those of the whole stream.
-/

namespace ParserKit

open TokenStream (Consumes)

/-! ## Document order -/

namespace Node

mutual

/-- A node and everything below it, in document order. -/
def preorder : Node → List Node
  | ⟨name, text, attrs, id, children⟩ => ⟨name, text, attrs, id, children⟩ :: preorderAll children

def preorderAll : List Node → List Node
  | [] => []
  | n :: ns => n.preorder ++ preorderAll ns

end

theorem preorder_eq (n : Node) : n.preorder = n :: preorderAll n.children := by
  obtain ⟨name, text, attrs, id, children⟩ := n
  rw [preorder]

theorem preorderAll_append (ns ms : List Node) :
    preorderAll (ns ++ ms) = preorderAll ns ++ preorderAll ms := by
  induction ns with
  | nil => rfl
  | cons n ns ih => rw [List.cons_append, preorderAll, preorderAll, ih, List.append_assoc]

theorem preorderAll_singleton (n : Node) : preorderAll [n] = n.preorder := by
  rw [preorderAll, preorderAll, List.append_nil]

theorem clearId_preorderAll_setId (id : String) (ns : List Node) :
    (preorderAll (ns.map (·.setId id))).map clearId = (preorderAll ns).map clearId := by
  induction ns with
  | nil => rfl
  | cons n ns ih =>
    rw [List.map_cons, preorderAll, preorderAll, List.map_append, List.map_append, ih,
      preorder_eq, preorder_eq, List.map_cons, List.map_cons]
    rfl

/-! ## Nodes of tokens and of rules -/

def isToken (n : Node) : Bool := (n.attr? "type").isSome

/-- A node shows a token: it has its text, and one of its types. -/
def Spells (n : Node) (t : Token) : Prop :=
  n.text = t.content ∧ ∃ type ∈ t.types, n.attr? "type" = some type

/-- A node has the name of a rule from a list of elements, and neither a text nor attributes. -/
def OfRule (N : List Element) (n : Node) : Prop :=
  n.text = "" ∧ n.attrs = .empty ∧
    ∃ content transform, Element.rule n.name content transform ∈ N

theorem spells_ofToken {type : String} {t : Token} (h : t.hasType type = true) :
    (ofToken type t).Spells t :=
  ⟨rfl, type, List.contains_iff_mem.mp h, rfl⟩

end Node

/-- **Trees spell out tokens.** In document order, the nodes that carry a type show the tokens one by
one, and all other nodes are those of rules. -/
structure SpellsOut (N : List Element) (nodes : List Node) (ts : List Token) : Prop where
  tokens : List.Forall₂ Node.Spells ((Node.preorderAll nodes).filter Node.isToken) ts
  others : ∀ n ∈ Node.preorderAll nodes, n.isToken = false → n.OfRule N

namespace SpellsOut

variable {N : List Element} {nodes more : List Node} {ts us : List Token}

theorem nil (N : List Element) : SpellsOut N [] [] := ⟨.nil, by simp [Node.preorderAll]⟩

theorem append (h : SpellsOut N nodes ts) (h' : SpellsOut N more us) :
    SpellsOut N (nodes ++ more) (ts ++ us) where
  tokens := by
    rw [Node.preorderAll_append, List.filter_append]
    exact List.rel_append h.tokens h'.tokens
  others n hn := by
    rw [Node.preorderAll_append, List.mem_append] at hn
    exact hn.elim (h.others n) (h'.others n)

theorem token (N : List Element) {type : String} {t : Token} (h : t.hasType type = true) :
    SpellsOut N [.ofToken type t] [t] where
  tokens := .cons (Node.spells_ofToken h) .nil
  others n hn ht := by
    obtain rfl := List.mem_singleton.mp hn
    cases ht

theorem rule (h : SpellsOut N nodes ts) {name : String} {content : Element}
    {transform : Option Transform} (hr : Element.rule name content transform ∈ N) :
    SpellsOut N [{ Node.ofName name with children := nodes }] ts := by
  refine ⟨?_, fun n hn ht => ?_⟩
  · rw [Node.preorderAll_singleton, Node.preorder_eq]
    exact h.tokens
  · rw [Node.preorderAll_singleton, Node.preorder_eq, List.mem_cons] at hn
    rcases hn with rfl | hn
    · exact ⟨rfl, rfl, content, transform, hr⟩
    · exact h.others n hn ht

theorem setId (h : SpellsOut N nodes ts) (id : String) :
    SpellsOut N (nodes.map (·.setId id)) ts := by
  have hid := Node.clearId_preorderAll_setId id nodes
  -- what is said of a node does not depend on its id
  have htokens : ∀ l : List Node, List.Forall₂ Node.Spells (l.filter Node.isToken) ts ↔
      List.Forall₂ Node.Spells ((l.map Node.clearId).filter Node.isToken) ts := by
    intro l
    rw [List.filter_map, List.forall₂_map_left_iff]
    rfl
  have hothers : ∀ l : List Node, (∀ n ∈ l, n.isToken = false → n.OfRule N) ↔
      ∀ n ∈ l.map Node.clearId, n.isToken = false → n.OfRule N := by
    intro l
    rw [List.forall_mem_map]
    rfl
  constructor
  · rw [htokens, hid, ← htokens]
    exact h.tokens
  · rw [hothers, hid, ← hothers]
    exact h.others

theorem texts_eq (h : SpellsOut N nodes ts) :
    ((Node.preorderAll nodes).filter Node.isToken).map Node.text = ts.map Token.content := by
  have htexts := List.Forall₂.imp (fun n t (hn : Node.Spells n t) => hn.1) h.tokens
  rwa [← List.forall₂_map_right_iff, ← List.forall₂_map_left_iff, List.forall₂_eq_eq_eq] at htexts

end SpellsOut

/-! ## Attempts -/

/-- The nodes of a match spell out the tokens that it consumed. -/
def Spelled (N : List Element) (cx : Context) (r : Except ParseError Outcome) (cx' : Context) : Prop :=
  ∃ ts, Consumes ts cx.stream cx'.stream ∧ ∀ nodes, r = .ok (.matched nodes) → SpellsOut N nodes ts

namespace Spelled

variable {N : List Element} {cx cx₁ cx' : Context} {r : Except ParseError Outcome} {nodes : List Node}

theorem settle (h : Spelled N cx.begin r cx') : Spelled N cx r (cx'.settle r) := by
  obtain ⟨ts, hc, hs⟩ := h
  rcases r with err | nodes | _
  · exact ⟨[], hc.rollback, fun nodes hr => by cases hr⟩
  · exact ⟨ts, hc.commit, hs⟩
  · exact ⟨[], hc.rollback, fun nodes hr => by cases hr⟩

theorem gather (h : Spelled N cx r cx') {name : String} {content : Element}
    (hN : Element.rule name content none ∈ N) : Spelled N cx (gather name none r) cx' := by
  obtain ⟨ts, hc, hs⟩ := h
  refine ⟨ts, hc, fun nodes hr => ?_⟩
  rcases r with err | children | _
  · cases hr
  · cases hr
    exact (hs children rfl).rule hN
  · cases hr

theorem tag (h : Spelled N cx r cx') (id : String) :
    Spelled N cx (r.map (·.mapNodes (·.setId id))) cx' := by
  obtain ⟨ts, hc, hs⟩ := h
  refine ⟨ts, hc, fun nodes hr => ?_⟩
  rcases r with err | inner | _
  · cases hr
  · cases hr
    exact (hs inner rfl).setId id
  · cases hr

/-- A miss that consumed nothing counts as an empty match. -/
theorem orNothing (h : Spelled N cx r cx')
    (hr : r = .ok .notMatched → cx'.stream.index ≤ cx.stream.index) :
    Spelled N cx (orNothing r) cx' := by
  obtain ⟨ts, hc, hs⟩ := h
  refine ⟨ts, hc, fun nodes hn => ?_⟩
  rcases r with err | inner | _
  · cases hn
  · exact hs nodes hn
  · cases hn
    obtain rfl := hc.eq_nil_of_index_le (hr rfl)
    exact .nil N

theorem prepend (h : Spelled N cx (.ok (.matched nodes)) cx₁) (hs : Spelled N cx₁ r cx') :
    Spelled N cx (r.map (.prepend nodes)) cx' := by
  obtain ⟨ts, hc, hn⟩ := h
  obtain ⟨us, hc', hm⟩ := hs
  refine ⟨ts ++ us, hc.trans hc', fun all hr => ?_⟩
  rcases r with err | more | _
  · cases hr
  · cases hr
    exact (hn nodes rfl).append (hm more rfl)
  · cases hr

theorem after (hc : Consumes [] cx.stream cx₁.stream) (h : Spelled N cx₁ r cx') :
    Spelled N cx r cx' := by
  obtain ⟨ts, hc', hs⟩ := h
  exact ⟨ts, hc.trans hc', hs⟩

end Spelled

/-! ## Grammars without transforms -/

/-- An element in which no rule has a transform. -/
def Element.Untransformed (e : Element) : Prop :=
  ∀ {name content transform}, rule name content transform ∈ e.parts → transform = none

/-- A grammar in which neither a rule nor a terminal has a transform. -/
structure Grammar.Untransformed (g : Grammar) : Prop where
  rule_content : ∀ r ∈ g.rules.values, r.element.Untransformed
  terminals_eq : g.terminalTransforms = .empty

/-- The elements of a goal are among those of a list. -/
def Goal.Within (N : List Element) : Goal → Prop
  | element e | rounds e => e ∈ N
  | inOrder es | firstOf es => ∀ e ∈ es, e ∈ N

namespace Grammar

variable {g : Grammar} {N : List Element} {goal : Goal} {e : Element} {cx cx' : Context}
  {r : Except ParseError Outcome}

theorem Untransformed.of_mem_parts (hg : g.Untransformed) (he : e.Untransformed) {name : String}
    {content : Element} {transform : Option Transform}
    (h : .rule name content transform ∈ g.parts e) : transform = none := by
  rw [parts, List.mem_append, List.mem_flatMap] at h
  rcases h with h | ⟨r, hr, h⟩
  · exact he h
  · exact hg.rule_content r hr h

theorem Untransformed.transformTerminal (hg : g.Untransformed) (type : String) (n : Node) :
    g.transformTerminal type n = .ok n := by
  rw [Grammar.transformTerminal, hg.terminals_eq]
  rfl

theorem Untransformed.spelled_matchTerminal (hg : g.Untransformed) (type : String) (cx : Context) :
    Spelled N cx (g.matchTerminal type cx).1 (g.matchTerminal type cx).2 := by
  have hf := cx.stream.consumes_fill 1
  rw [matchTerminal_eq]
  cases hl : cx.stream.lookup.1 with
  | none => exact ⟨[], hf, fun nodes hr => by cases hr⟩
  | some token =>
    by_cases ht : token.hasType type
    · simp only [if_pos ht, hg.transformTerminal]
      refine ⟨[token], TokenStream.consumes_lookup hl, fun nodes hr => ?_⟩
      cases hr
      exact .token N ht
    · simp only [if_neg ht]
      exact ⟨[], hf, fun nodes hr => by cases hr⟩

/-- **Without transforms, the nodes of a match spell out the tokens that it consumed.** -/
theorem Derives.spelled (hg : g.Untransformed) (hN : g.Closed N)
    (hrule : ∀ {name content transform}, .rule name content transform ∈ N → transform = none)
    (h : g.Derives goal cx r cx') (hgoal : goal.Within N) : Spelled N cx r cx' := by
  have hmissed {e : Element} {cx cx' : Context} {r : Except ParseError Outcome}
      (h : g.Derives (.rounds e) cx r cx') (hr : r = .ok .notMatched) :
      cx'.stream.index ≤ cx.stream.index := Nat.sub_eq_zero_iff_le.mp (h.index_of_missed_rounds hr)
  induction h with
  | terminal type cx => exact hg.spelled_matchTerminal type cx
  | undefined _ cx => exact ⟨[], cx.stream.consumes_refl, fun nodes hr => by cases hr⟩
  | ref hr _ ih => exact ih (hN.rule_mem hr)
  | @rule name content transform cx r cx' _ ih =>
    obtain rfl := hrule hgoal
    exact ((ih (hN.children_mem hgoal List.mem_cons_self)).gather hgoal).settle
  | tagged _ ih => exact (ih (hN.children_mem hgoal List.mem_cons_self)).tag _
  | sequence _ ih | alternatives _ ih => exact (ih fun x hx => hN.children_mem hgoal hx).settle
  | @optional e cx r cx' h ih =>
    refine (ih (hN.children_mem hgoal List.mem_cons_self)).settle.orNothing ?_
    rintro rfl
    obtain ⟨ts, hc⟩ := h.consumes
    exact hc.rollback.index_eq.le
  | many h ih => exact (ih (hN.children_mem hgoal List.mem_cons_self)).orNothing (hmissed h)
  | oneOrMore _ ih => exact (ih (hN.children_mem hgoal List.mem_cons_self)).settle
  | inOrderNil cx =>
    refine ⟨[], cx.stream.consumes_refl, fun nodes hr => ?_⟩
    cases hr
    exact .nil N
  | inOrderStop _ _ ih | firstOfStop _ _ ih => exact ih (hgoal _ List.mem_cons_self)
  | inOrderMore _ _ ih ihs =>
    exact (ih (hgoal _ List.mem_cons_self)).prepend
      (ihs fun x hx => hgoal x (List.mem_cons_of_mem _ hx))
  | firstOfNil cx => exact ⟨[], cx.stream.consumes_refl, fun nodes hr => by cases hr⟩
  | firstOfMore h _ _ ihs =>
    -- the choice that missed has consumed nothing
    obtain ⟨ts, hc⟩ := h.consumes
    obtain rfl := hc.eq_nil_of_index_le h.alike_of_notMatched.index_eq.le
    exact (ihs fun x hx => hgoal x (List.mem_cons_of_mem _ hx)).after hc
  | roundsEnd _ _ ih => exact (ih hgoal).settle
  | roundsMore _ _ hs ih ihs =>
    exact (ih hgoal).settle.prepend ((ihs hgoal).orNothing (hmissed hs))

theorem Untransformed.spellsOut (hg : g.Untransformed) (he : e.Untransformed) {nodes : List Node}
    (h : g.Yields e cx (.ok (.matched nodes)) cx') :
    ∃ ts, Consumes ts cx.stream cx'.stream ∧ SpellsOut (g.parts e) nodes ts := by
  have hmem : e ∈ g.parts e := List.mem_append_left _ e.self_mem_parts
  obtain ⟨ts, hc, hs⟩ := (yields_iff_derives.mp h).spelled hg (g.closed_parts e) (hg.of_mem_parts he) hmem
  exact ⟨ts, hc, hs nodes rfl⟩

theorem Derives.exists_node {rule : Rule} {nodes : List Node}
    (h : g.Derives (.element rule.element) cx (.ok (.matched nodes)) cx') : ∃ node, nodes = [node] := by
  rw [Rule.element] at h
  generalize hr : Except.ok (Outcome.matched nodes) = r at h
  cases h with
  | @rule _ _ _ _ r₀ _ _ =>
    rcases r₀ with err | children | _
    · cases hr
    · simp only [gather] at hr
      generalize rule.transform.elim _ _ = out at hr
      cases out with
      | error err => cases hr
      | ok node =>
        cases hr
        exact ⟨node, rfl⟩
    · cases hr

theorem yields_of_parse_ok {s s' : TokenStream} {node : Node} (h : g.parse s = some (.ok node, s')) :
    ∃ root cx', g.root? = some root ∧
      g.Yields root.element ⟨s, none⟩ (.ok (.matched [node])) cx' ∧
      cx'.stream.lookup = (none, s') := by
  unfold parse at h
  rcases ha : g.attemptRoot s with _ | ⟨err | ⟨nodes | _, failure⟩, s₁⟩ <;>
    simp only [ha, Option.some.injEq, reduceCtorEq, Prod.mk.injEq, false_and] at h
  obtain ⟨-, hr, -⟩ | ⟨root, r₀, cx', hroot, hy, hr, rfl⟩ := yields_of_attemptRoot ha
  · cases hr
  obtain ⟨outcome, rfl⟩ : ∃ outcome, r₀ = .ok outcome := by
    cases r₀ with
    | error err => cases hr
    | ok outcome => exact ⟨outcome, rfl⟩
  cases hr
  obtain ⟨first, rfl⟩ := (yields_iff_derives.mp hy).exists_node
  unfold complete at h
  rcases hl : cx'.stream.lookup with ⟨_ | token, s₂⟩
  · rw [hl] at h
    cases h
    exact ⟨root, cx', hroot, hy, hl⟩
  · rw [hl] at h
    cases h

/-- **Without transforms, trees spell out the input.** In document order, the nodes of a match that carry
a type show the tokens that it consumed, and all others are those of rules. A tree shows all tokens
that were left in the stream, unless the input paused where the tree ends. -/
theorem spellsOut_of_yields (hg : g.Untransformed) :
    (∀ e cx nodes cx', e.Untransformed → g.Yields e cx (.ok (.matched nodes)) cx' →
      ∃ ts, Consumes ts cx.stream cx'.stream ∧ SpellsOut (g.parts e) nodes ts) ∧
    ∀ s node s', g.parse s = some (.ok node, s') →
      ∃ ts, Consumes ts s s' ∧ s'.buffer = [] ∧ (s.input.Prompt → s.rest = ts) ∧
        (node.preorder.filter Node.isToken).map Node.text = ts.map Token.content := by
  refine ⟨fun e cx nodes cx' he h => hg.spellsOut he h, fun s node s' h => ?_⟩
  obtain ⟨root, cx', hroot, hy, hl⟩ := yields_of_parse_ok h
  obtain ⟨name, -, hrule⟩ := Option.bind_eq_some_iff.mp hroot
  have he : root.element.Untransformed := hg.rule_content root (mem_rules_of_rule? hrule)
  obtain ⟨ts, hc, hs⟩ := hg.spellsOut he hy
  obtain ⟨hnone, rfl⟩ := Prod.mk.inj hl
  have hbuffer : (cx'.stream.fill 1).buffer = [] := List.head?_eq_none_iff.mp hnone
  have hc' : Consumes ts s (cx'.stream.fill 1) := by
    have := hc.trans (cx'.stream.consumes_fill 1)
    rwa [List.append_nil] at this
  refine ⟨ts, hc', hbuffer, fun hp => ?_, ?_⟩
  · have hrest := TokenStream.head?_buffer_fill (hc.prompt_of hp)
    rw [hbuffer] at hrest
    rw [hc.rest_eq, List.head?_eq_none_iff.mp hrest.symm, List.append_nil]
  · have htexts := hs.texts_eq
    rwa [Node.preorderAll_singleton] at htexts

theorem spellsOut_of_half_pair :
    let a : Token := .ofType "a" "A" .start .start
    let b : Token := .ofType "b" "B" .start .start
    let pair : Element := .sequence [.terminal "A", .terminal "B"]
    let pairs : Element := .sequence [.many (.ref "pair"), .optional (.terminal "A")]
    let g := (Grammar.addRule {} "pair" pair false).addRule "pairs" pairs true
    g.Untransformed ∧ ∃ node s', g.parse (.ofTokens [a, b, a]) = some (.ok node, s') ∧
      (node.preorder.filter Node.isToken).map Node.text = ["a", "b", "a"] := by
  intro a b pair pairs g
  have hg : g.Untransformed := by
    refine ⟨fun r hr name content transform h => ?_, rfl⟩
    have hr : r = ⟨"pair", pair, none⟩ ∨ r = ⟨"pairs", pairs, none⟩ := by
      simpa [g, addRule, OrderedMap.insert, OrderedMap.empty, OrderedMap.values, setEntry] using hr
    rcases hr with rfl | rfl <;>
      simp [pair, pairs, Rule.element, Element.parts_eq, Element.children] at h <;>
      exact h.2.2
  have hok : (g.parse (.ofTokens [a, b, a])).map (fun out => out.1.isOk) = some true := by
    decide +kernel
  obtain ⟨⟨node | node, s'⟩, h, hnode⟩ := Option.map_eq_some_iff.mp hok
  · cases hnode
  · have hp : (TokenStream.ofTokens [a, b, a]).input.Prompt := TokenInput.prompt_tokens _
    obtain ⟨ts, -, -, hrest, htexts⟩ := (spellsOut_of_yields hg).2 (.ofTokens [a, b, a]) node s' h
    obtain rfl : [a, b, a] = ts := hrest hp
    exact ⟨hg, node, s', h, htexts⟩

end Grammar

end ParserKit
