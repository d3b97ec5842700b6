import ParserKit.Proofs.Grammar.Lockstep

/-!
# The meaning of elements

* **`Grammar.meaning`**: what a goal yields in each context, as a partial function without a bound.
* `Grammar.meaning_sequence`, `Grammar.meaning_rounds`, ...: the equations that it solves.
* `Grammar.Equivalent`: elements that no context tells apart.
-/

namespace ParserKit

namespace Grammar

variable {g : Grammar} {goal : Goal} {e e' : Element} {cx cx' : Context}
  {r : Except ParseError Outcome}

/-! ## Partial functions -/

open Classical in
/-- **What a goal yields in each context**, if it comes to an end there. -/
noncomputable def meaning (g : Grammar) (goal : Goal) : Attempt := fun cx =>
  if h : ∃ out : Except ParseError Outcome × Context, g.Derives goal cx out.1 out.2 then
    some h.choose
  else none

theorem meaning_eq_some_iff : g.meaning goal cx = some (r, cx') ↔ g.Derives goal cx r cx' := by
  unfold meaning
  by_cases h : ∃ out : Except ParseError Outcome × Context, g.Derives goal cx out.1 out.2
  · rw [dif_pos h]
    constructor
    · intro hout
      have hd := h.choose_spec
      rwa [Option.some.inj hout] at hd
    · intro hd
      obtain ⟨hr, hcx⟩ := h.choose_spec.unique hd
      exact congrArg some (Prod.ext hr hcx)
  · rw [dif_neg h]
    exact ⟨nofun, fun hd => absurd ⟨(r, cx'), hd⟩ h⟩

theorem meaning_eq {o : Option (Except ParseError Outcome × Context)}
    (h : ∀ r cx', g.Derives goal cx r cx' ↔ o = some (r, cx')) : g.meaning goal cx = o :=
  Option.ext fun out => meaning_eq_some_iff.trans (h out.1 out.2)

/-- **Elements that no context tells apart**: they have the same result, and leave the same stream
and the same failure behind. Where one does not come to an end the other one does not, either. -/
def Equivalent (g : Grammar) (e e' : Element) : Prop :=
  ∀ cx r cx', g.Yields e cx r cx' ↔ g.Yields e' cx r cx'

theorem yields_iff_of_meaning_eq
    (h : g.meaning (.element e) cx = g.meaning (.element e') cx) :
    g.Yields e cx r cx' ↔ g.Yields e' cx r cx' := by
  rw [yields_iff_derives, yields_iff_derives, ← meaning_eq_some_iff, ← meaning_eq_some_iff, h]

/-! ## Equations -/

variable (g) (cx)

theorem meaning_tagged (id : String) (e : Element) :
    g.meaning (.element (.tagged id e)) cx = withId id (g.meaning (.element e)) cx := by
  rw [withId_eq]
  refine meaning_eq fun r cx' => ⟨fun h => ?_, fun h => ?_⟩
  · cases h with
    | tagged h => exact mapResult_eq_some.mpr ⟨_, meaning_eq_some_iff.mpr h, rfl⟩
  · obtain ⟨r₀, h₀, rfl⟩ := mapResult_eq_some.mp h
    exact .tagged (meaning_eq_some_iff.mp h₀)

theorem meaning_transaction {e : Element} {goal : Goal}
    (h : ∀ r cx', g.Derives (.element e) cx r cx' ↔
      ∃ cx₀, g.Derives goal cx.begin r cx₀ ∧ cx₀.settle r = cx') :
    g.meaning (.element e) cx = transaction (g.meaning goal) cx := by
  refine meaning_eq fun r cx' => ?_
  simp only [h, transaction_eq_some, meaning_eq_some_iff]

theorem meaning_sequence (es : List Element) :
    g.meaning (.element (.sequence es)) cx = transaction (g.meaning (.inOrder es)) cx := by
  refine g.meaning_transaction cx fun r cx' => ⟨fun h => ?_, ?_⟩
  · cases h with
    | sequence h => exact ⟨_, h, rfl⟩
  · rintro ⟨cx₀, h, rfl⟩
    exact .sequence h

theorem meaning_alternatives (es : List Element) :
    g.meaning (.element (.alternatives es)) cx = transaction (g.meaning (.firstOf es)) cx := by
  refine g.meaning_transaction cx fun r cx' => ⟨fun h => ?_, ?_⟩
  · cases h with
    | alternatives h => exact ⟨_, h, rfl⟩
  · rintro ⟨cx₀, h, rfl⟩
    exact .alternatives h

theorem meaning_oneOrMore (e : Element) :
    g.meaning (.element (.oneOrMore e)) cx = transaction (g.meaning (.rounds e)) cx := by
  refine g.meaning_transaction cx fun r cx' => ⟨fun h => ?_, ?_⟩
  · cases h with
    | oneOrMore h => exact ⟨_, h, rfl⟩
  · rintro ⟨cx₀, h, rfl⟩
    exact .oneOrMore h

theorem meaning_optional (e : Element) :
    g.meaning (.element (.optional e)) cx = atMostOnce (g.meaning (.element e)) cx := by
  rw [atMostOnce_eq]
  refine meaning_eq fun r cx' => ⟨fun h => ?_, fun h => ?_⟩
  · cases h with
    | optional h =>
      refine mapResult_eq_some.mpr ⟨_, ?_, rfl⟩
      exact (transaction_eq_some _ _).mpr ⟨_, meaning_eq_some_iff.mpr h, rfl⟩
  · obtain ⟨r₀, ht, rfl⟩ := mapResult_eq_some.mp h
    obtain ⟨cx₀, h₀, rfl⟩ := (transaction_eq_some _ _).mp ht
    exact .optional (meaning_eq_some_iff.mp h₀)

theorem meaning_many (e : Element) :
    g.meaning (.element (.many e)) cx =
      (g.meaning (.rounds e) cx).map fun out => (orNothing out.1, out.2) := by
  refine meaning_eq fun r cx' => ⟨fun h => ?_, fun h => ?_⟩
  · cases h with
    | many h => exact mapResult_eq_some.mpr ⟨_, meaning_eq_some_iff.mpr h, rfl⟩
  · obtain ⟨r₀, h₀, rfl⟩ := mapResult_eq_some.mp h
    exact .many (meaning_eq_some_iff.mp h₀)

theorem meaning_inOrder (es : List Element) :
    g.meaning (.inOrder es) = inOrder (g.meaning ∘ .element) es := by
  funext cx
  refine meaning_eq fun r cx' => ⟨fun h => ?_, derives_of_inOrder meaning_eq_some_iff.mp⟩
  induction es generalizing cx r cx' with
  | nil =>
    cases h
    rfl
  | cons e es ih =>
    cases h with
    | inOrderStop h hr => exact inOrder_stop (meaning_eq_some_iff.mpr h) hr
    | inOrderMore h hs => exact inOrder_more (meaning_eq_some_iff.mpr h) (ih _ _ _ hs)

theorem meaning_firstOf (es : List Element) :
    g.meaning (.firstOf es) = firstOf (g.meaning ∘ .element) es := by
  funext cx
  refine meaning_eq fun r cx' => ⟨fun h => ?_, derives_of_firstOf meaning_eq_some_iff.mp⟩
  induction es generalizing cx r cx' with
  | nil =>
    cases h
    rfl
  | cons e es ih =>
    cases h with
    | firstOfStop h hr => exact firstOf_stop (meaning_eq_some_iff.mpr h) hr
    | firstOfMore h hs => exact firstOf_more (meaning_eq_some_iff.mpr h) (ih _ _ _ hs)

/-- Goes on with the rounds of a repetition after a match that moved the index. -/
noncomputable def andRounds (e : Element) (before : Nat)
    (out : Except ParseError Outcome × Context) : Option (Except ParseError Outcome × Context) :=
  match out.1 with
  | .ok (.matched nodes) =>
    if out.2.stream.index = before then some out
    else (g.meaning (.rounds e) out.2).map fun more =>
      ((orNothing more.1).map (.prepend nodes), more.2)
  | _ => some out

theorem meaning_rounds (e : Element) :
    g.meaning (.rounds e) cx =
      (transaction (g.meaning (.element e)) cx).bind (g.andRounds e cx.stream.index) := by
  have hi (cx₁ : Context) (nodes : List Node) :
      (cx₁.settle (.ok (.matched nodes))).stream.index = cx₁.stream.index :=
    cx₁.stream.index_commit
  refine meaning_eq fun r cx' => ⟨fun h => ?_, fun h => ?_⟩
  · cases h with
    | roundsEnd h hr =>
      refine Option.bind_eq_some_iff.mpr
        ⟨_, (transaction_eq_some _ _).mpr ⟨_, meaning_eq_some_iff.mpr h, rfl⟩, ?_⟩
      rcases r with err | nodes | _
      · rfl
      · exact if_pos ((hi _ nodes).trans (hr nodes rfl))
      · rfl
    | @roundsMore _ _ nodes _ _ _ h hne hs =>
      refine Option.bind_eq_some_iff.mpr
        ⟨_, (transaction_eq_some _ _).mpr ⟨_, meaning_eq_some_iff.mpr h, rfl⟩, ?_⟩
      refine (if_neg fun h' => hne ((hi _ nodes).symm.trans h')).trans ?_
      rw [meaning_eq_some_iff.mpr hs]
      rfl
  · obtain ⟨⟨r₁, cx₁⟩, ht, hk⟩ := Option.bind_eq_some_iff.mp h
    obtain ⟨cx₀, h₀, rfl⟩ := (transaction_eq_some _ _).mp ht
    have hd := meaning_eq_some_iff.mp h₀
    unfold andRounds at hk
    rcases r₁ with err | nodes | _
    · cases hk
      exact .roundsEnd hd nofun
    · simp only [hi] at hk
      by_cases hb : cx₀.stream.index = cx.stream.index
      · rw [if_pos hb] at hk
        cases hk
        exact .roundsEnd hd fun _ _ => hb
      · rw [if_neg hb] at hk
        obtain ⟨⟨r₂, cx₂⟩, h₂, hout⟩ := Option.map_eq_some_iff.mp hk
        cases hout
        exact .roundsMore hd hb (meaning_eq_some_iff.mp h₂)
    · cases hk
      exact .roundsEnd hd nofun

end Grammar

end ParserKit
