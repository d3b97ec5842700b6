import Mathlib.Order.Filter.AtTopBot.Basic
import ParserKit.Proofs.Grammar.Derives

/-!
# Recognizers of token lists

A parsing expression grammar says what an element matches at the start of a list of tokens, without
a stream, transactions or a record of failures.

* `Verdict`: a match with its nodes and the number of tokens that it takes, a miss, or an error.
* `Grammar.recognizeStep`: the verdict on a list of tokens, given those on parts of the element.
* **`Grammar.recognize`**: the verdict on a list of tokens. There is none for a left recursion.
* **`Grammar.recognize_eq`**: the recognizer solves the equation that the step states;
  `Grammar.recognize_induction`: it is the least solution.
-/

namespace ParserKit

/-! ## Verdicts -/

/-- What a recognizer finds at the start of a list of tokens. -/
inductive Verdict where
  | matched (nodes : List Node) (consumed : Nat)
  | notMatched
  | failed (e : ParseError)

namespace Verdict

/-- The verdict on what comes after a match, as one on both together. -/
def after (nodes : List Node) (consumed : Nat) : Verdict → Verdict
  | matched more n => matched (nodes ++ more) (consumed + n)
  | v => v

def tag (id : String) : Verdict → Verdict
  | matched nodes n => matched (nodes.map (·.setId id)) n
  | v => v

/-- Gathers the nodes of a match under one node, which is then transformed. -/
def wrap (name : String) (transform : Option Transform) : Verdict → Verdict
  | matched children n =>
    let node := { Node.ofName name with children }
    match transform.elim (.ok node) (· node) with
    | .ok node => matched [node] n
    | .error e => failed e
  | v => v

/-- Takes a miss as an empty match. -/
def orEmpty : Verdict → Verdict
  | notMatched => matched [] 0
  | v => v

end Verdict

/-! ## Recognizers -/

namespace Grammar

/-- A terminal looks at the first token only. -/
def recognizeTerminal (g : Grammar) (type : String) : List Token → Verdict
  | [] => .notMatched
  | token :: _ =>
    if token.hasType type then
      match g.transformTerminal type (.ofToken type token) with
      | .ok node => .matched [node] 1
      | .error e => .failed e
    else .notMatched

/-- **What an element recognizes at the start of a list of tokens**, given a recognizer for what it
is made of. A repetition goes on until its element misses, or matches without taking a token; the
nodes of that last match are kept. -/
def recognizeStep (g : Grammar) (recognize : Element → List Token → Option Verdict) (e : Element)
    (tokens : List Token) : Option Verdict :=
  match e with
  | .terminal type => some (g.recognizeTerminal type tokens)
  | .ref name =>
    match g.rule? name with
    | some r => recognize r.element tokens
    | none => some (.failed (.undefinedRule name))
  | .rule name content transform => (recognize content tokens).map (.wrap name transform)
  | .tagged id e => (recognize e tokens).map (.tag id)
  | .sequence [] => some (.matched [] 0)
  | .sequence (e :: es) => (recognize e tokens).bind fun
    | .matched nodes n => (recognize (.sequence es) (tokens.drop n)).map (.after nodes n)
    | v => some v
  | .alternatives [] => some .notMatched
  | .alternatives (e :: es) => (recognize e tokens).bind fun
    | .notMatched => recognize (.alternatives es) tokens
    | v => some v
  | .optional e => (recognize e tokens).map .orEmpty
  | .many e => (recognize (.oneOrMore e) tokens).map .orEmpty
  | .oneOrMore e => (recognize e tokens).bind fun
    | .matched nodes (n + 1) =>
      (recognize (.many e) (tokens.drop (n + 1))).map (.after nodes (n + 1))
    | v => some v

/-- The verdicts that are reached with at most so many nested steps. -/
def recognizeWithin (g : Grammar) : Nat → Element → List Token → Option Verdict
  | 0 => fun _ _ => none
  | n + 1 => g.recognizeStep (g.recognizeWithin n)

open Classical in
/-- **The verdict on a list of tokens**, if some number of nested steps reaches one. -/
noncomputable def recognize (g : Grammar) (e : Element) (tokens : List Token) : Option Verdict :=
  if h : ∃ n, (g.recognizeWithin n e tokens).isSome then g.recognizeWithin h.choose e tokens
  else none

/-! ## Approximation -/

section Approximation

variable {α β ι : Type} {l : Filter ι} {o : Option α} {os : ι → Option α} {b : β}

theorem eventually_map (f : α → β) (ho : ∀ a, o = some a → ∀ᶠ i in l, os i = some a)
    (h : o.map f = some b) : ∀ᶠ i in l, (os i).map f = some b := by
  obtain ⟨a, ha, hb⟩ := Option.map_eq_some_iff.mp h
  filter_upwards [ho a ha] with i hi
  exact Option.map_eq_some_iff.mpr ⟨a, hi, hb⟩

theorem eventually_bind {k : α → Option β} {ks : ι → α → Option β}
    (ho : ∀ a, o = some a → ∀ᶠ i in l, os i = some a)
    (hk : ∀ a, k a = some b → ∀ᶠ i in l, ks i a = some b) (h : o.bind k = some b) :
    ∀ᶠ i in l, (os i).bind (ks i) = some b := by
  obtain ⟨a, ha, hb⟩ := Option.bind_eq_some_iff.mp h
  filter_upwards [ho a ha, hk a hb] with i hi hki
  exact Option.bind_eq_some_iff.mpr ⟨a, hi, hki⟩

end Approximation

variable {g : Grammar} {e : Element} {tokens : List Token} {v : Verdict}

/-- A step looks at finitely many verdicts: it has its own as soon as it has all of those. -/
theorem eventually_recognizeStep {ι : Type} {l : Filter ι}
    {rec : Element → List Token → Option Verdict} {recs : ι → Element → List Token → Option Verdict}
    (h : ∀ e tokens v, rec e tokens = some v → ∀ᶠ i in l, recs i e tokens = some v)
    (hv : g.recognizeStep rec e tokens = some v) :
    ∀ᶠ i in l, g.recognizeStep (recs i) e tokens = some v := by
  cases e with
  | terminal type => exact .of_forall fun _ => hv
  | ref name =>
    simp only [recognizeStep] at hv ⊢
    cases hr : g.rule? name with
    | none =>
      rw [hr] at hv
      exact .of_forall fun _ => hv
    | some rule =>
      rw [hr] at hv
      exact h _ _ v hv
  | rule name content transform => exact eventually_map _ (h content tokens) hv
  | tagged id e => exact eventually_map _ (h e tokens) hv
  | optional e => exact eventually_map _ (h e tokens) hv
  | many e => exact eventually_map _ (h (.oneOrMore e) tokens) hv
  | sequence es =>
    cases es with
    | nil => exact .of_forall fun _ => hv
    | cons e es =>
      refine eventually_bind (h e tokens) (fun v₁ hk => ?_) hv
      rcases v₁ with ⟨nodes, n⟩ | _ | _
      · exact eventually_map _ (h (.sequence es) (tokens.drop n)) hk
      · exact .of_forall fun _ => hk
      · exact .of_forall fun _ => hk
  | alternatives es =>
    cases es with
    | nil => exact .of_forall fun _ => hv
    | cons e es =>
      refine eventually_bind (h e tokens) (fun v₁ hk => ?_) hv
      rcases v₁ with _ | _ | _
      · exact .of_forall fun _ => hk
      · exact h (.alternatives es) tokens v hk
      · exact .of_forall fun _ => hk
  | oneOrMore e =>
    refine eventually_bind (h e tokens) (fun v₁ hk => ?_) hv
    rcases v₁ with ⟨nodes, _ | n⟩ | _ | _
    · exact .of_forall fun _ => hk
    · exact eventually_map _ (h (.many e) (tokens.drop (n + 1))) hk
    · exact .of_forall fun _ => hk
    · exact .of_forall fun _ => hk

theorem recognizeStep_mono {rec rec' : Element → List Token → Option Verdict}
    (h : ∀ e tokens v, rec e tokens = some v → rec' e tokens = some v)
    (hv : g.recognizeStep rec e tokens = some v) : g.recognizeStep rec' e tokens = some v := by
  have hs : ∀ᶠ f in pure rec', g.recognizeStep f e tokens = some v :=
    eventually_recognizeStep (fun e tokens v hv => Filter.eventually_pure.mpr (h e tokens v hv)) hv
  exact Filter.eventually_pure.mp hs

theorem recognizeWithin_mono {n m : Nat} (hnm : n ≤ m)
    (hv : g.recognizeWithin n e tokens = some v) : g.recognizeWithin m e tokens = some v := by
  induction n generalizing m e tokens v with
  | zero => cases hv
  | succ n ih =>
    obtain ⟨m, rfl⟩ : ∃ k, m = k + 1 := ⟨m - 1, by omega⟩
    exact recognizeStep_mono (fun e tokens v => ih (by omega)) hv

/-! ## The least solution -/

theorem recognize_eq_some_iff :
    g.recognize e tokens = some v ↔ ∃ n, g.recognizeWithin n e tokens = some v := by
  unfold recognize
  by_cases h : ∃ n, (g.recognizeWithin n e tokens).isSome
  · rw [dif_pos h]
    refine ⟨fun hv => ⟨_, hv⟩, fun ⟨n, hn⟩ => ?_⟩
    -- any two bounds that reach a verdict reach the same one
    obtain ⟨v₀, h₀⟩ := Option.isSome_iff_exists.mp h.choose_spec
    have hm := recognizeWithin_mono (Nat.le_max_left h.choose n) h₀
    rw [recognizeWithin_mono (Nat.le_max_right h.choose n) hn] at hm
    exact h₀.trans hm.symm
  · rw [dif_neg h]
    refine ⟨fun hv => absurd hv (Option.some_ne_none v).symm, fun ⟨n, hn⟩ => absurd ⟨n, ?_⟩ h⟩
    rw [hn]
    rfl

/-- **The recognizer solves the equation that a step states.** -/
theorem recognize_eq (g : Grammar) (e : Element) (tokens : List Token) :
    g.recognize e tokens = g.recognizeStep g.recognize e tokens := by
  refine Option.ext fun v => ⟨fun hv => ?_, fun hv => ?_⟩
  · obtain ⟨_ | n, hn⟩ := recognize_eq_some_iff.mp hv
    · cases hn
    · exact recognizeStep_mono (fun e tokens v h => recognize_eq_some_iff.mpr ⟨n, h⟩) hn
  · have hv : ∀ᶠ n in Filter.atTop, g.recognizeStep (g.recognizeWithin n) e tokens = some v := by
      refine eventually_recognizeStep (fun e tokens v h => ?_) hv
      obtain ⟨n, hn⟩ := recognize_eq_some_iff.mp h
      filter_upwards [Filter.eventually_ge_atTop n] with m hm
      exact recognizeWithin_mono hm hn
    obtain ⟨n, hn⟩ := hv.exists
    exact recognize_eq_some_iff.mpr ⟨n + 1, hn⟩

/-- **What every step passes on holds of all verdicts.** The step may start from any recognizer
whose verdicts are verdicts of the grammar and have the property. -/
theorem recognize_induction {P : Element → List Token → Verdict → Prop}
    (step : ∀ rec : Element → List Token → Option Verdict,
      (∀ {e tokens v}, rec e tokens = some v → g.recognize e tokens = some v ∧ P e tokens v) →
        ∀ {e tokens v}, g.recognizeStep rec e tokens = some v → P e tokens v)
    (hv : g.recognize e tokens = some v) : P e tokens v := by
  obtain ⟨n, hn⟩ := recognize_eq_some_iff.mp hv
  clear hv
  induction n generalizing e tokens v with
  | zero => cases hn
  | succ n ih => exact step _ (fun h => ⟨recognize_eq_some_iff.mpr ⟨n, h⟩, ih h⟩) hn

end Grammar

end ParserKit
