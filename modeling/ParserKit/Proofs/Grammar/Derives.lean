import ParserKit.Grammar.Parse
import ParserKit.Proofs.Stream.Remaining

/-!
# What elements yield, whatever the bound

The recursion of `Grammar.attemptWithin` is bounded by an argument. This module does away with it.

* `matchTerminal_eq`, `transaction_eq`, `withId_eq`, ...: the ways of building attempts, as
  operations on optional results.
* **`Grammar.Derives`**: the results of elements, of their parts and of rounds of repetitions, by
  rules.
* **`Grammar.Yields`**: an element comes to an end in a context, with a result and a context after
  it. That is so if it can be derived (`Grammar.yields_iff_derives`), and there is at most one
  result (`Grammar.Derives.unique`).
-/

namespace ParserKit

/-! ## Ways of building attempts -/

def Node.ofToken (type : String) (token : Token) : Node :=
  (Node.ofText terminalName token.content).setAttr "type" type

def Outcome.prepend (nodes : List Node) : Outcome → Outcome
  | matched more => matched (nodes ++ more)
  | notMatched => notMatched

/-- The result of a rule, given the result of its content. -/
def gather (name : String) (transform : Option Transform) :
    Except ParseError Outcome → Except ParseError Outcome
  | .ok (.matched children) =>
    let node := { Node.ofName name with children }
    (transform.elim (.ok node) (· node)).map fun node => .matched [node]
  | r => r

/-- A result in which a miss counts as an empty match. -/
def orNothing : Except ParseError Outcome → Except ParseError Outcome
  | .ok .notMatched => .ok (.matched [])
  | r => r

section Equations

variable (a : Attempt) (f : Element → Attempt) (cx : Context)

theorem matchTerminal_eq (g : Grammar) (type : String) :
    g.matchTerminal type cx =
      match cx.stream.lookup.1 with
      | none => (.ok .notMatched, ⟨cx.stream.fill 1, some ⟨.type type, none⟩⟩)
      | some token =>
        if token.hasType type then
          match g.transformTerminal type (.ofToken type token) with
          | .ok node => (.ok (.matched [node]), ⟨(cx.stream.fill 1).consume.2, none⟩)
          | .error e => (.error e, ⟨cx.stream.fill 1, cx.lastFailure⟩)
        else (.ok .notMatched, ⟨cx.stream.fill 1, some ⟨.type type, some token⟩⟩) :=
  rfl

@[simp] theorem Context.lastFailure_settle (r : Except ParseError Outcome) (cx : Context) :
    (cx.settle r).lastFailure = cx.lastFailure := by
  rcases r with _ | _ | _ <;> rfl

theorem mapResult_eq_some {α β : Type} {o : Option (α × Context)} {f : α → β} {r : β}
    {cx' : Context} :
    (o.map fun out => (f out.1, out.2)) = some (r, cx') ↔ ∃ r₀, o = some (r₀, cx') ∧ f r₀ = r := by
  rw [Option.map_eq_some_iff]
  constructor
  · rintro ⟨⟨r₀, cx₀⟩, ho, hout⟩
    obtain ⟨hr, rfl⟩ := Prod.mk.inj hout
    exact ⟨r₀, ho, hr⟩
  · rintro ⟨r₀, ho, rfl⟩
    exact ⟨(r₀, cx'), ho, rfl⟩

theorem transaction_eq :
    transaction a cx = (a cx.begin).map fun out => (out.1, out.2.settle out.1) := by
  unfold transaction
  cases a cx.begin <;> rfl

theorem transaction_eq_some {r : Except ParseError Outcome} {cx' : Context} :
    transaction a cx = some (r, cx') ↔ ∃ cx₀, a cx.begin = some (r, cx₀) ∧ cx₀.settle r = cx' := by
  rw [transaction_eq, Option.map_eq_some_iff]
  constructor
  · rintro ⟨⟨r₀, cx₀⟩, ho, hout⟩
    obtain ⟨rfl, hcx⟩ := Prod.mk.inj hout
    exact ⟨cx₀, ho, hcx⟩
  · rintro ⟨cx₀, ho, rfl⟩
    exact ⟨(r, cx₀), ho, rfl⟩

theorem withId_eq (id : String) :
    withId id a cx = (a cx).map fun out => (out.1.map (·.mapNodes (·.setId id)), out.2) := by
  unfold withId
  rcases a cx with _ | ⟨_ | outcome, cx'⟩ <;> rfl

theorem underRule_eq (name : String) (transform : Option Transform) :
    underRule name transform a cx = (a cx).map fun out => (gather name transform out.1, out.2) := by
  unfold underRule
  rcases a cx with _ | ⟨_ | children | _, cx'⟩
  · rfl
  · rfl
  · simp only [Option.map_some, gather]
    cases transform.elim (.ok { Node.ofName name with children })
      (· { Node.ofName name with children }) <;> rfl
  · rfl

theorem atMostOnce_eq :
    atMostOnce a cx = (transaction a cx).map fun out => (orNothing out.1, out.2) := by
  unfold atMostOnce
  rcases transaction a cx with _ | ⟨_ | _ | _, cx'⟩ <;> rfl

theorem inOrder_cons (e : Element) (es : List Element) :
    inOrder f (e :: es) cx = (f e cx).bind fun out =>
      match out.1 with
      | .ok (.matched nodes) =>
        (inOrder f es out.2).map fun out => (out.1.map (.prepend nodes), out.2)
      | r => some (r, out.2) := by
  conv => lhs; unfold inOrder
  rcases f e cx with _ | ⟨_ | nodes | _, cx'⟩
  · rfl
  · rfl
  · simp only [Option.bind_some]
    rcases inOrder f es cx' with _ | ⟨_ | _ | _, cx''⟩ <;> rfl
  · rfl

theorem firstOf_cons (e : Element) (es : List Element) :
    firstOf f (e :: es) cx = (f e cx).bind fun out =>
      match out.1 with
      | .ok .notMatched => firstOf f es out.2
      | r => some (r, out.2) := by
  conv => lhs; unfold firstOf
  rcases f e cx with _ | ⟨_ | _ | _, cx'⟩ <;> rfl

/-! The rounds of a repetition, with the number of matches replaced by whether there was one. -/

theorem nodes_of_iterate {n : Nat} {nodes : List Node} {cx' : Context}
    (h : iterate a n cx = some (.ok (nodes, 0), cx')) : nodes = [] := by
  cases n with
  | zero => cases h
  | succ n =>
    unfold iterate at h
    rcases ht : transaction a cx with _ | ⟨_ | more | _, cx₁⟩
    · simp [ht] at h
    · simp [ht] at h
    · simp only [ht] at h
      by_cases hi : cx₁.stream.index = cx.stream.index
      · simp [hi] at h
      · rw [if_neg hi] at h
        rcases hr : iterate a n cx₁ with _ | ⟨_ | p, cx₂⟩ <;> simp [hr] at h
    · simp only [ht] at h
      exact (Prod.mk.inj (Except.ok.inj (Prod.mk.inj (Option.some.inj h)).1)).1.symm

theorem anyNumber_eq (n : Nat) :
    anyNumber a n cx = (atLeastOnce a n cx).map fun out => (orNothing out.1, out.2) := by
  unfold anyNumber atLeastOnce
  rcases h : iterate a n cx with _ | ⟨_ | ⟨nodes, _ | _⟩, cx'⟩
  · rfl
  · rfl
  · rw [nodes_of_iterate a cx h]
    rfl
  · rfl

theorem atLeastOnce_succ (n : Nat) :
    atLeastOnce a (n + 1) cx = (transaction a cx).bind fun out =>
      match out.1 with
      | .ok (.matched nodes) =>
        if out.2.stream.index = cx.stream.index then some (.ok (.matched nodes), out.2)
        else (atLeastOnce a n out.2).map fun out =>
          ((orNothing out.1).map (.prepend nodes), out.2)
      | r => some (r, out.2) := by
  conv => lhs; unfold atLeastOnce iterate
  rcases transaction a cx with _ | ⟨_ | nodes | _, cx'⟩
  · rfl
  · rfl
  · simp only [Option.bind_some]
    by_cases hi : cx'.stream.index = cx.stream.index
    · simp only [if_pos hi]
    · simp only [if_neg hi]
      unfold atLeastOnce
      rcases h : iterate a n cx' with _ | ⟨_ | ⟨more, _ | _⟩, cx''⟩
      · rfl
      · rfl
      · rw [nodes_of_iterate a cx' h]
        rfl
      · rfl
  · rfl

end Equations

/-! ## Derivations -/

/-- What can be attempted: an element, the elements of a sequence, choices, or the rounds of a
repetition. -/
inductive Goal where
  | element (e : Element)
  | inOrder (es : List Element)
  | firstOf (es : List Element)
  | rounds (e : Element)

namespace Grammar

/-- **The results of goals, by rules.** Rounds miss if the first one does; they end with the first
one that does not match, or consumes nothing. -/
inductive Derives (g : Grammar) : Goal → Context → Except ParseError Outcome → Context → Prop
  | terminal (type cx) :
      Derives g (.element (.terminal type)) cx (g.matchTerminal type cx).1
        (g.matchTerminal type cx).2
  | undefined {name} (h : g.rule? name = none) (cx) :
      Derives g (.element (.ref name)) cx (.error (.undefinedRule name)) cx
  | ref {name rule cx r cx'} (hr : g.rule? name = some rule)
      (h : Derives g (.element rule.element) cx r cx') : Derives g (.element (.ref name)) cx r cx'
  | rule {name content transform cx r cx'} (h : Derives g (.element content) cx.begin r cx') :
      Derives g (.element (.rule name content transform)) cx (gather name transform r)
        (cx'.settle (gather name transform r))
  | tagged {id e cx r cx'} (h : Derives g (.element e) cx r cx') :
      Derives g (.element (.tagged id e)) cx (r.map (·.mapNodes (·.setId id))) cx'
  | sequence {es cx r cx'} (h : Derives g (.inOrder es) cx.begin r cx') :
      Derives g (.element (.sequence es)) cx r (cx'.settle r)
  | alternatives {es cx r cx'} (h : Derives g (.firstOf es) cx.begin r cx') :
      Derives g (.element (.alternatives es)) cx r (cx'.settle r)
  | optional {e cx r cx'} (h : Derives g (.element e) cx.begin r cx') :
      Derives g (.element (.optional e)) cx (orNothing r) (cx'.settle r)
  | many {e cx r cx'} (h : Derives g (.rounds e) cx r cx') :
      Derives g (.element (.many e)) cx (orNothing r) cx'
  | oneOrMore {e cx r cx'} (h : Derives g (.rounds e) cx.begin r cx') :
      Derives g (.element (.oneOrMore e)) cx r (cx'.settle r)
  | inOrderNil (cx) : Derives g (.inOrder []) cx (.ok (.matched [])) cx
  | inOrderStop {e es cx r cx'} (h : Derives g (.element e) cx r cx')
      (hr : ∀ nodes, r ≠ .ok (.matched nodes)) : Derives g (.inOrder (e :: es)) cx r cx'
  | inOrderMore {e es cx nodes cx₁ r cx'}
      (h : Derives g (.element e) cx (.ok (.matched nodes)) cx₁)
      (hs : Derives g (.inOrder es) cx₁ r cx') :
      Derives g (.inOrder (e :: es)) cx (r.map (.prepend nodes)) cx'
  | firstOfNil (cx) : Derives g (.firstOf []) cx (.ok .notMatched) cx
  | firstOfStop {e es cx r cx'} (h : Derives g (.element e) cx r cx') (hr : r ≠ .ok .notMatched) :
      Derives g (.firstOf (e :: es)) cx r cx'
  | firstOfMore {e es cx cx₁ r cx'} (h : Derives g (.element e) cx (.ok .notMatched) cx₁)
      (hs : Derives g (.firstOf es) cx₁ r cx') : Derives g (.firstOf (e :: es)) cx r cx'
  | roundsEnd {e cx r cx'} (h : Derives g (.element e) cx.begin r cx')
      (hr : ∀ nodes, r = .ok (.matched nodes) → cx'.stream.index = cx.stream.index) :
      Derives g (.rounds e) cx r (cx'.settle r)
  | roundsMore {e cx nodes cx₁ r cx'}
      (h : Derives g (.element e) cx.begin (.ok (.matched nodes)) cx₁)
      (hi : cx₁.stream.index ≠ cx.stream.index)
      (hs : Derives g (.rounds e) (cx₁.settle (.ok (.matched nodes))) r cx') :
      Derives g (.rounds e) cx ((orNothing r).map (.prepend nodes)) cx'

/-! ## From attempts to derivations -/

section Sound

variable {g : Grammar} {n : Nat} {cx cx' : Context} {r : Except ParseError Outcome}

theorem attemptWithin_ref_some {name : String} {rule : Rule} (h : g.rule? name = some rule) :
    g.attemptWithin (n + 1) (.ref name) cx = g.attemptWithin n rule.element cx := by
  simp only [attemptWithin, h]

theorem attemptWithin_ref_none {name : String} (h : g.rule? name = none) :
    g.attemptWithin (n + 1) (.ref name) cx = some (.error (.undefinedRule name), cx) := by
  simp only [attemptWithin, h]

variable {f : Element → Attempt}
  (he : ∀ {e cx r cx'}, f e cx = some (r, cx') → g.Derives (.element e) cx r cx')
include he

theorem derives_of_inOrder {es : List Element} (h : inOrder f es cx = some (r, cx')) :
    g.Derives (.inOrder es) cx r cx' := by
  induction es generalizing cx r cx' with
  | nil =>
    obtain ⟨rfl, rfl⟩ := Prod.mk.inj (Option.some.inj h)
    exact .inOrderNil cx
  | cons e es ih =>
    rw [inOrder_cons] at h
    obtain ⟨⟨_ | nodes | _, cx₁⟩, h₁, hk⟩ := Option.bind_eq_some_iff.mp h
    · obtain ⟨rfl, rfl⟩ := Prod.mk.inj (Option.some.inj hk)
      exact .inOrderStop (he h₁) fun nodes => by simp
    · obtain ⟨r₂, h₂, rfl⟩ := mapResult_eq_some.mp hk
      exact .inOrderMore (he h₁) (ih h₂)
    · obtain ⟨rfl, rfl⟩ := Prod.mk.inj (Option.some.inj hk)
      exact .inOrderStop (he h₁) fun nodes => by simp

theorem derives_of_firstOf {es : List Element} (h : firstOf f es cx = some (r, cx')) :
    g.Derives (.firstOf es) cx r cx' := by
  induction es generalizing cx r cx' with
  | nil =>
    obtain ⟨rfl, rfl⟩ := Prod.mk.inj (Option.some.inj h)
    exact .firstOfNil cx
  | cons e es ih =>
    rw [firstOf_cons] at h
    obtain ⟨⟨_ | nodes | _, cx₁⟩, h₁, hk⟩ := Option.bind_eq_some_iff.mp h
    · obtain ⟨rfl, rfl⟩ := Prod.mk.inj (Option.some.inj hk)
      exact .firstOfStop (he h₁) (by simp)
    · obtain ⟨rfl, rfl⟩ := Prod.mk.inj (Option.some.inj hk)
      exact .firstOfStop (he h₁) (by simp)
    · exact .firstOfMore (he h₁) (ih hk)

theorem derives_of_rounds {e : Element} {k : Nat} (h : atLeastOnce (f e) k cx = some (r, cx')) :
    g.Derives (.rounds e) cx r cx' := by
  induction k generalizing cx r cx' with
  | zero => cases h
  | succ k ih =>
    rw [atLeastOnce_succ] at h
    obtain ⟨⟨r₁, cx₁⟩, ht, hk⟩ := Option.bind_eq_some_iff.mp h
    obtain ⟨cx₀, h₀, rfl⟩ := (transaction_eq_some _ _).mp ht
    rcases r₁ with _ | nodes | _
    · obtain ⟨rfl, rfl⟩ := Prod.mk.inj (Option.some.inj hk)
      exact .roundsEnd (he h₀) fun nodes => by simp
    · have hc : (cx₀.settle (.ok (.matched nodes))).stream.index = cx₀.stream.index :=
        cx₀.stream.index_commit
      simp only [hc] at hk
      by_cases hi : cx₀.stream.index = cx.stream.index
      · rw [if_pos hi] at hk
        obtain ⟨rfl, rfl⟩ := Prod.mk.inj (Option.some.inj hk)
        exact .roundsEnd (he h₀) fun _ _ => hi
      · rw [if_neg hi] at hk
        obtain ⟨r₂, h₂, rfl⟩ :=
          (mapResult_eq_some (f := fun r => (orNothing r).map (Outcome.prepend nodes))).mp hk
        exact .roundsMore (he h₀) hi (ih h₂)
    · obtain ⟨rfl, rfl⟩ := Prod.mk.inj (Option.some.inj hk)
      exact .roundsEnd (he h₀) fun nodes => by simp

omit he in
theorem derives_of_attemptWithin {e : Element} (h : g.attemptWithin n e cx = some (r, cx')) :
    g.Derives (.element e) cx r cx' := by
  induction n generalizing e cx r cx' with
  | zero => cases h
  | succ n ih =>
    cases e with
    | terminal type =>
      have h := Prod.ext_iff.mp (Option.some.inj h)
      obtain ⟨rfl, rfl⟩ := h
      exact .terminal type cx
    | ref name =>
      cases hr : g.rule? name with
      | none =>
        rw [attemptWithin_ref_none hr] at h
        obtain ⟨rfl, rfl⟩ := Prod.mk.inj (Option.some.inj h)
        exact .undefined hr cx
      | some rule =>
        rw [attemptWithin_ref_some hr] at h
        exact .ref hr (ih h)
    | rule name content transform =>
      obtain ⟨cx₀, hu, rfl⟩ := (transaction_eq_some _ _).mp h
      rw [underRule_eq] at hu
      obtain ⟨r₀, h₀, rfl⟩ := mapResult_eq_some.mp hu
      exact .rule (ih h₀)
    | tagged id e =>
      obtain ⟨r₀, h₀, rfl⟩ := mapResult_eq_some.mp ((withId_eq _ cx id).symm.trans h)
      exact .tagged (ih h₀)
    | sequence es =>
      obtain ⟨cx₀, h₀, rfl⟩ := (transaction_eq_some _ _).mp h
      exact .sequence (derives_of_inOrder ih h₀)
    | alternatives es =>
      obtain ⟨cx₀, h₀, rfl⟩ := (transaction_eq_some _ _).mp h
      exact .alternatives (derives_of_firstOf ih h₀)
    | optional e =>
      obtain ⟨r₀, ht, rfl⟩ := mapResult_eq_some.mp ((atMostOnce_eq _ cx).symm.trans h)
      obtain ⟨cx₀, h₀, rfl⟩ := (transaction_eq_some _ _).mp ht
      exact .optional (ih h₀)
    | many e =>
      obtain ⟨r₀, h₀, rfl⟩ := mapResult_eq_some.mp ((anyNumber_eq _ cx n).symm.trans h)
      exact .many (derives_of_rounds ih h₀)
    | oneOrMore e =>
      obtain ⟨cx₀, h₀, rfl⟩ := (transaction_eq_some _ _).mp h
      exact .oneOrMore (derives_of_rounds ih h₀)

end Sound

/-! ## From derivations to attempts -/

/-- What is done for a goal, with a bound for the depth of the recursion and one for the number of
rounds. -/
def run (g : Grammar) (n k : Nat) : Goal → Attempt
  | .element e => g.attemptWithin n e
  | .inOrder es => ParserKit.inOrder (g.attemptWithin n) es
  | .firstOf es => ParserKit.firstOf (g.attemptWithin n) es
  | .rounds e => atLeastOnce (g.attemptWithin n e) k

section Run

variable {g : Grammar} {n k : Nat} {f : Element → Attempt} {e : Element} {es : List Element}
  {nodes : List Node} {cx cx₁ cx' : Context} {r : Except ParseError Outcome}

theorem attemptWithin_rule (name : String) (transform : Option Transform)
    (h : g.attemptWithin n e cx.begin = some (r, cx')) :
    g.attemptWithin (n + 1) (.rule name e transform) cx =
      some (gather name transform r, cx'.settle (gather name transform r)) := by
  refine (transaction_eq_some _ _).mpr ⟨cx', ?_, rfl⟩
  rw [underRule_eq]
  exact mapResult_eq_some.mpr ⟨r, h, rfl⟩

theorem attemptWithin_tagged (id : String) (h : g.attemptWithin n e cx = some (r, cx')) :
    g.attemptWithin (n + 1) (.tagged id e) cx = some (r.map (·.mapNodes (·.setId id)), cx') :=
  (withId_eq _ cx id).trans (mapResult_eq_some.mpr ⟨r, h, rfl⟩)

theorem attemptWithin_sequence (h : inOrder (g.attemptWithin n) es cx.begin = some (r, cx')) :
    g.attemptWithin (n + 1) (.sequence es) cx = some (r, cx'.settle r) :=
  (transaction_eq_some _ _).mpr ⟨cx', h, rfl⟩

theorem attemptWithin_alternatives
    (h : firstOf (g.attemptWithin n) es cx.begin = some (r, cx')) :
    g.attemptWithin (n + 1) (.alternatives es) cx = some (r, cx'.settle r) :=
  (transaction_eq_some _ _).mpr ⟨cx', h, rfl⟩

theorem attemptWithin_optional (h : g.attemptWithin n e cx.begin = some (r, cx')) :
    g.attemptWithin (n + 1) (.optional e) cx = some (orNothing r, cx'.settle r) := by
  refine (atMostOnce_eq _ cx).trans (mapResult_eq_some.mpr ⟨r, ?_, rfl⟩)
  exact (transaction_eq_some _ _).mpr ⟨cx', h, rfl⟩

theorem attemptWithin_many (h : atLeastOnce (g.attemptWithin n e) n cx = some (r, cx')) :
    g.attemptWithin (n + 1) (.many e) cx = some (orNothing r, cx') :=
  (anyNumber_eq _ cx n).trans (mapResult_eq_some.mpr ⟨r, h, rfl⟩)

theorem attemptWithin_oneOrMore
    (h : atLeastOnce (g.attemptWithin n e) n cx.begin = some (r, cx')) :
    g.attemptWithin (n + 1) (.oneOrMore e) cx = some (r, cx'.settle r) :=
  (transaction_eq_some _ _).mpr ⟨cx', h, rfl⟩

theorem inOrder_stop (h : f e cx = some (r, cx')) (hr : ∀ nodes, r ≠ .ok (.matched nodes)) :
    inOrder f (e :: es) cx = some (r, cx') := by
  rw [inOrder_cons, h, Option.bind_some]
  rcases r with _ | nodes | _
  · rfl
  · exact absurd rfl (hr nodes)
  · rfl

theorem inOrder_more (h : f e cx = some (.ok (.matched nodes), cx₁))
    (hs : inOrder f es cx₁ = some (r, cx')) :
    inOrder f (e :: es) cx = some (r.map (.prepend nodes), cx') := by
  rw [inOrder_cons, h, Option.bind_some]
  exact mapResult_eq_some.mpr ⟨r, hs, rfl⟩

theorem firstOf_stop (h : f e cx = some (r, cx')) (hr : r ≠ .ok .notMatched) :
    firstOf f (e :: es) cx = some (r, cx') := by
  rw [firstOf_cons, h, Option.bind_some]
  rcases r with _ | nodes | _
  · rfl
  · rfl
  · exact absurd rfl hr

theorem firstOf_more (h : f e cx = some (.ok .notMatched, cx₁))
    (hs : firstOf f es cx₁ = some (r, cx')) :
    firstOf f (e :: es) cx = some (r, cx') := by
  rw [firstOf_cons, h, Option.bind_some]
  exact hs

theorem atLeastOnce_end (h : g.attemptWithin n e cx.begin = some (r, cx'))
    (hr : ∀ nodes, r = .ok (.matched nodes) → cx'.stream.index = cx.stream.index) :
    atLeastOnce (g.attemptWithin n e) (k + 1) cx = some (r, cx'.settle r) := by
  rw [atLeastOnce_succ, (transaction_eq_some _ _).mpr ⟨cx', h, rfl⟩, Option.bind_some]
  rcases r with _ | nodes | _
  · rfl
  · exact if_pos ((cx'.stream.index_commit).trans (hr nodes rfl))
  · rfl

theorem atLeastOnce_more (h : g.attemptWithin n e cx.begin = some (.ok (.matched nodes), cx₁))
    (hi : cx₁.stream.index ≠ cx.stream.index)
    (hs : atLeastOnce (g.attemptWithin n e) k (cx₁.settle (.ok (.matched nodes))) =
      some (r, cx')) :
    atLeastOnce (g.attemptWithin n e) (k + 1) cx =
      some ((orNothing r).map (.prepend nodes), cx') := by
  have hi' : ¬ cx₁.stream.commit.index = cx.stream.index := by
    rwa [cx₁.stream.index_commit]
  rw [atLeastOnce_succ, (transaction_eq_some _ _).mpr ⟨cx₁, h, rfl⟩, Option.bind_some]
  refine (if_neg hi').trans ?_
  exact (mapResult_eq_some (f := fun r => (orNothing r).map (Outcome.prepend nodes))).mpr
    ⟨r, hs, rfl⟩

end Run

/-- An element whose attempt at one depth is that of a goal one step deeper. -/
theorem eventually_element {g : Grammar} {goal : Goal} {e : Element} {cx cx₀ cx' cx₀' : Context}
    {r r₀ : Except ParseError Outcome}
    (ih : ∃ b, ∀ n k, b ≤ n → b ≤ k → g.run n k goal cx₀ = some (r₀, cx₀'))
    (h : ∀ n, g.run n n goal cx₀ = some (r₀, cx₀') → g.attemptWithin (n + 1) e cx = some (r, cx')) :
    ∃ b, ∀ n k, b ≤ n → b ≤ k → g.run n k (.element e) cx = some (r, cx') := by
  obtain ⟨b, hb⟩ := ih
  refine ⟨b + 1, fun n k hn hk => ?_⟩
  obtain ⟨n, rfl⟩ : ∃ m, n = m + 1 := ⟨n - 1, by omega⟩
  exact h n (hb n n (by omega) (by omega))

/-- **All bounds that are large enough give the result of a derivation.** -/
theorem Derives.eventually {g : Grammar} {goal : Goal} {cx cx' : Context}
    {r : Except ParseError Outcome} (h : g.Derives goal cx r cx') :
    ∃ b, ∀ n k, b ≤ n → b ≤ k → g.run n k goal cx = some (r, cx') := by
  induction h with
  | terminal type cx =>
    refine ⟨1, fun n k hn _ => ?_⟩
    obtain ⟨n, rfl⟩ := Nat.exists_eq_add_of_le' hn
    rfl
  | undefined h cx =>
    refine ⟨1, fun n k hn _ => ?_⟩
    obtain ⟨n, rfl⟩ := Nat.exists_eq_add_of_le' hn
    exact attemptWithin_ref_none h
  | ref hr _ ih => exact eventually_element ih fun n hn => (attemptWithin_ref_some hr).trans hn
  | rule _ ih => exact eventually_element ih fun n hn => attemptWithin_rule _ _ hn
  | tagged _ ih => exact eventually_element ih fun n hn => attemptWithin_tagged _ hn
  | sequence _ ih => exact eventually_element ih fun n hn => attemptWithin_sequence hn
  | alternatives _ ih => exact eventually_element ih fun n hn => attemptWithin_alternatives hn
  | optional _ ih => exact eventually_element ih fun n hn => attemptWithin_optional hn
  | many _ ih => exact eventually_element ih fun n hn => attemptWithin_many hn
  | oneOrMore _ ih => exact eventually_element ih fun n hn => attemptWithin_oneOrMore hn
  | inOrderNil cx => exact ⟨0, fun _ _ _ _ => rfl⟩
  | inOrderStop h hr ih =>
    obtain ⟨b, hb⟩ := ih
    exact ⟨b, fun n k hn hk => inOrder_stop (hb n k hn hk) hr⟩
  | inOrderMore h hs ih ihs =>
    obtain ⟨b, hb⟩ := ih
    obtain ⟨b', hb'⟩ := ihs
    exact ⟨max b b', fun n k hn hk =>
      inOrder_more (hb n k (by omega) (by omega)) (hb' n k (by omega) (by omega))⟩
  | firstOfNil cx => exact ⟨0, fun _ _ _ _ => rfl⟩
  | firstOfStop h hr ih =>
    obtain ⟨b, hb⟩ := ih
    exact ⟨b, fun n k hn hk => firstOf_stop (hb n k hn hk) hr⟩
  | firstOfMore h hs ih ihs =>
    obtain ⟨b, hb⟩ := ih
    obtain ⟨b', hb'⟩ := ihs
    exact ⟨max b b', fun n k hn hk =>
      firstOf_more (hb n k (by omega) (by omega)) (hb' n k (by omega) (by omega))⟩
  | roundsEnd h hr ih =>
    obtain ⟨b, hb⟩ := ih
    refine ⟨b + 1, fun n k hn hk => ?_⟩
    obtain ⟨k, rfl⟩ : ∃ k', k = k' + 1 := ⟨k - 1, by omega⟩
    exact atLeastOnce_end (hb n k (by omega) (by omega)) hr
  | roundsMore h hi hs ih ihs =>
    obtain ⟨b, hb⟩ := ih
    obtain ⟨b', hb'⟩ := ihs
    refine ⟨max b b' + 1, fun n k hn hk => ?_⟩
    obtain ⟨k, rfl⟩ : ∃ k', k = k' + 1 := ⟨k - 1, by omega⟩
    exact atLeastOnce_more (hb n k (by omega) (by omega)) hi (hb' n k (by omega) (by omega))

/-! ## Results -/

variable {g : Grammar} {goal : Goal} {e : Element} {cx cx' : Context}
  {r : Except ParseError Outcome}

/-- **An element comes to an end in a context**, with a result and a context after it. -/
def Yields (g : Grammar) (e : Element) (cx : Context) (r : Except ParseError Outcome)
    (cx' : Context) : Prop := ∃ n, g.attemptWithin n e cx = some (r, cx')

theorem yields_of_attempt (h : g.attempt e cx = some (r, cx')) : g.Yields e cx r cx' := ⟨_, h⟩

/-- **What an element yields is what can be derived for it.** -/
theorem yields_iff_derives : g.Yields e cx r cx' ↔ g.Derives (.element e) cx r cx' := by
  constructor
  · rintro ⟨n, hn⟩
    exact derives_of_attemptWithin hn
  · intro h
    obtain ⟨b, hb⟩ := h.eventually
    exact ⟨b, hb b b (Nat.le_refl b) (Nat.le_refl b)⟩

/-- **A goal has one result at most.** -/
theorem Derives.unique {r₁ r₂ : Except ParseError Outcome} {cx₁ cx₂ : Context}
    (h₁ : g.Derives goal cx r₁ cx₁) (h₂ : g.Derives goal cx r₂ cx₂) : r₁ = r₂ ∧ cx₁ = cx₂ := by
  obtain ⟨b₁, hb₁⟩ := h₁.eventually
  obtain ⟨b₂, hb₂⟩ := h₂.eventually
  have h := hb₁ (max b₁ b₂) (max b₁ b₂) (Nat.le_max_left _ _) (Nat.le_max_left _ _)
  rw [hb₂ (max b₁ b₂) (max b₁ b₂) (Nat.le_max_right _ _) (Nat.le_max_right _ _)] at h
  obtain ⟨hr, hcx⟩ := Prod.mk.inj (Option.some.inj h)
  exact ⟨hr.symm, hcx.symm⟩

theorem yields_of_attemptRoot {s s' : TokenStream}
    {r : Except ParseError (Outcome × Option Failure)} (h : g.attemptRoot s = some (r, s')) :
    (g.root? = none ∧ r = .error .noRootRule ∧ s' = s) ∨
      ∃ root r₀ cx', g.root? = some root ∧ g.Yields root.element ⟨s, none⟩ r₀ cx' ∧
        r = r₀.map (·, cx'.lastFailure) ∧ s' = cx'.stream := by
  unfold attemptRoot at h
  cases hr : g.root? with
  | none =>
    rw [hr] at h
    obtain ⟨rfl, rfl⟩ := Prod.mk.inj (Option.some.inj h)
    exact .inl ⟨rfl, rfl, rfl⟩
  | some root =>
    simp only [hr] at h
    rcases ha : g.attempt root.element ⟨s, none⟩ with _ | ⟨r₀, cx'⟩
    · rw [ha] at h
      exact absurd h (Option.some_ne_none _).symm
    · refine .inr ⟨root, r₀, cx', rfl, yields_of_attempt ha, ?_⟩
      rw [ha] at h
      cases r₀ <;>
      · obtain ⟨rfl, rfl⟩ := Prod.mk.inj (Option.some.inj h)
        exact ⟨rfl, rfl⟩

end Grammar

end ParserKit
