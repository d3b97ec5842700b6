import ParserKit.Proofs.Grammar.Depth
import ParserKit.Proofs.Grammar.Lockstep

/-!
# Elements do not notice how tokens arrive

* `Context.Agree`: contexts with streams that are alike, and with the same failure.
* **`Grammar.Derives.agree`**: what can be derived in a context can be derived in those that agree with
  it, with the same result, and they agree afterwards.
* **`Grammar.fst_parse_eq`**: the tree or the error of a parse depends only on the tokens that remain
  in the stream.
-/

namespace ParserKit

/-! ## Contexts that agree -/

/-- **Contexts agree** if their streams are alike and the same failure was noted last. Their inputs
never pause, but they may be of different kinds, and different numbers of tokens may have been read
ahead. -/
structure Context.Agree (cx cy : Context) : Prop where
  alike : cx.stream.Alike cy.stream
  failure_eq : cy.lastFailure = cx.lastFailure
  prompt_left : cx.stream.input.Prompt
  prompt_right : cy.stream.input.Prompt

namespace Context

variable {cx cy : Context}

theorem Agree.symm (h : cx.Agree cy) : cy.Agree cx :=
  ⟨h.alike.symm, h.failure_eq.symm, h.prompt_right, h.prompt_left⟩

end Context

namespace Grammar

variable {g : Grammar} {goal : Goal} {e : Element} {cx cx' cy : Context}
  {r : Except ParseError Outcome}

/-- **What can be derived in a context can be derived in those that agree with it.** -/
theorem Derives.agree (h : g.Derives goal cx r cx') (ha : cx.Agree cy) :
    ∃ cy', g.Derives goal cy r cy' ∧ cx'.Agree cy' := by
  obtain ⟨cy', hd, hab⟩ := h.lockstep TokenStream.lockstep_sameRest
    ⟨ha.alike.rest_eq, ha.prompt_left, ha.prompt_right⟩
  obtain ⟨ts, hx, hy⟩ := hab.consumes
  exact ⟨cy', hd, ha.alike.of_consumes hx hy, hab.failure_eq ha.failure_eq,
    hab.related.prompt_left, hab.related.prompt_right⟩

/-! ## Parses -/

theorem attempt_agree (ha : cx.Agree cy) (hx : cx.stream.rest.length ≤ cx.stream.size)
    (hy : cy.stream.rest.length ≤ cy.stream.size) (h : g.attempt e cx = some (r, cx')) :
    ∃ cy', g.attempt e cy = some (r, cy') ∧ cx'.Agree cy' := by
  have hd := yields_iff_derives.mp ((attempt_eq_some_iff ha.prompt_left hx).mp h)
  obtain ⟨cy', hd', ha'⟩ := hd.agree ha
  exact ⟨cy', (attempt_eq_some_iff ha.prompt_right hy).mpr (yields_iff_derives.mpr hd'), ha'⟩

section Parse

variable {s s' : TokenStream} (ha : s.Alike s') (hp : s.input.Prompt) (hp' : s'.input.Prompt)
include ha hp hp'

theorem fst_lookup_eq : s.lookup.1 = s'.lookup.1 := by
  rw [TokenStream.fst_lookup hp, TokenStream.fst_lookup hp', ha.rest_eq]

theorem fst_complete_eq (nodes : List Node) : (complete nodes s).1 = (complete nodes s').1 := by
  have hl := fst_lookup_eq ha hp hp'
  unfold complete
  generalize s.lookup = out, s'.lookup = out' at hl
  obtain ⟨next, t⟩ := out
  obtain ⟨next', t'⟩ := out'
  obtain rfl : next = next' := hl
  cases next with
  | none => cases nodes <;> rfl
  | some token => rfl

theorem fst_mismatchError_eq (failure : Option Failure) :
    (mismatchError failure s).1 = (mismatchError failure s').1 := by
  have hl := fst_lookup_eq ha hp hp'
  unfold mismatchError
  cases failure with
  | some f => rfl
  | none =>
    generalize s.lookup = out, s'.lookup = out' at hl
    obtain ⟨next, t⟩ := out
    obtain ⟨next', t'⟩ := out'
    obtain rfl : next = next' := hl
    cases next <;> rfl

/-- **The tree or the error of a parse depends only on the tokens that remain.** -/
theorem fst_parse_eq (g : Grammar) (hs : s.rest.length ≤ s.size) (hs' : s'.rest.length ≤ s'.size) :
    (g.parse s).map Prod.fst = (g.parse s').map Prod.fst := by
  cases hr : g.root? with
  | none => simp only [parse, attemptRoot, hr, Option.map_some]
  | some root =>
    have hag : Context.Agree ⟨s, none⟩ ⟨s', none⟩ := ⟨ha, rfl, hp, hp'⟩
    cases hx : g.attempt root.element ⟨s, none⟩ with
    | some out =>
      obtain ⟨r, cx'⟩ := out
      obtain ⟨cy', hy, hag'⟩ := attempt_agree hag hs hs' hx
      rcases r with e | nodes | _
      · simp only [parse, attemptRoot, hr, hx, hy, Option.map_some]
      · have hc := fst_complete_eq hag'.alike hag'.prompt_left hag'.prompt_right nodes
        simp only [parse, attemptRoot, hr, hx, hy, Option.map_some, hc]
      · have hm := fst_mismatchError_eq hag'.alike hag'.prompt_left hag'.prompt_right cx'.lastFailure
        simp only [parse, attemptRoot, hr, hx, hy, Option.map_some, hag'.failure_eq, hm]
    | none =>
      cases hy : g.attempt root.element ⟨s', none⟩ with
      | none => simp only [parse, attemptRoot, hr, hx, hy]
      | some out =>
        obtain ⟨r, cy'⟩ := out
        obtain ⟨cx', hx', -⟩ := attempt_agree hag.symm hs' hs hy
        rw [hx] at hx'
        cases hx'

end Parse

end Grammar

end ParserKit
