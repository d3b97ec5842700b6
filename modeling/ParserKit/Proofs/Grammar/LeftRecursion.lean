import Mathlib
import ParserKit.Proofs.Grammar.Depth

/-!
# Grammars without left recursion

* `Grammar.Nullable`: elements that may match without consuming anything, by rules;
  **`Grammar.nullable_of_recognize`**: no other element does.
* `Grammar.Exposes`: references of an element to which it may come before anything is consumed.
* **`Grammar.NoLeftRecursion`**: no rule leads to itself by such references.
* **`Grammar.NoLeftRecursion.decides`**: in such a grammar there is a verdict on every list of tokens.
  The induction is on the number of tokens, then on the rules that a rule leads to, then on the element.
* **`Grammar.exists_attempt`**: all attempts come to an end.
-/

namespace ParserKit

/-- The number of tokens that a match takes. -/
def Verdict.consumed? : Verdict → Option Nat
  | matched _ n => some n
  | _ => none

namespace Verdict

variable {v : Verdict} {n : Nat}

@[simp] theorem consumed?_tag (id : String) : (v.tag id).consumed? = v.consumed? := by
  cases v <;> rfl

theorem consumed?_of_wrap {name : String} {transform : Option Transform}
    (h : (v.wrap name transform).consumed? = some n) : v.consumed? = some n := by
  rcases v with ⟨children, k⟩ | _ | _
  · unfold wrap at h
    dsimp only at h
    split at h
    · exact h
    · cases h
  · exact h
  · exact h

theorem consumed?_of_orEmpty (h : v.orEmpty.consumed? = some n) : v.consumed? = some n ∨ n = 0 := by
  rcases v with _ | _ | _
  · exact .inl h
  · exact .inr (Option.some.inj h).symm
  · cases h

theorem consumed?_after (nodes : List Node) (k : Nat) :
    (v.after nodes k).consumed? = v.consumed?.map (k + ·) := by
  cases v <;> rfl

end Verdict

namespace Grammar

/-! ## Elements that consume nothing -/

/-- Elements that may match without consuming anything. -/
inductive Nullable (g : Grammar) : Element → Prop
  | ref {name r} (hr : g.rule? name = some r) (h : Nullable g r.element) : Nullable g (.ref name)
  | rule {name e transform} (h : Nullable g e) : Nullable g (.rule name e transform)
  | tagged {id e} (h : Nullable g e) : Nullable g (.tagged id e)
  | sequence {es} (h : ∀ e ∈ es, Nullable g e) : Nullable g (.sequence es)
  | alternatives {e es} (he : e ∈ es) (h : Nullable g e) : Nullable g (.alternatives es)
  | optional (e) : Nullable g (.optional e)
  | many (e) : Nullable g (.many e)
  | oneOrMore {e} (h : Nullable g e) : Nullable g (.oneOrMore e)

variable {g : Grammar} {e : Element} {es : List Element} {tokens : List Token} {v : Verdict}
  {n : Nat}

@[simp] theorem not_nullable_terminal (type : String) : ¬ g.Nullable (.terminal type) := by
  rintro ⟨⟩

theorem Nullable.of_sequence (h : g.Nullable (.sequence es)) : ∀ e ∈ es, g.Nullable e := by
  cases h with
  | sequence h => exact h

/-- **A match takes no more tokens than there are, and only nullable elements match without taking
one.** -/
theorem nullable_of_recognize (h : g.recognize e tokens = some v) (hn : v.consumed? = some n) :
    n ≤ tokens.length ∧ (n = 0 → g.Nullable e) := by
  revert n
  refine recognize_induction (P := fun e tokens v => ∀ {n}, v.consumed? = some n →
    n ≤ tokens.length ∧ (n = 0 → g.Nullable e)) (fun rec ih => ?_) h
  intro e tokens v h n hn
  cases e with
  | terminal type =>
    obtain rfl := Option.some.inj h
    cases tokens with
    | nil => cases hn
    | cons token tokens =>
      unfold recognizeTerminal at hn
      dsimp only at hn
      split at hn
      · split at hn
        · obtain rfl := Option.some.inj hn
          exact ⟨Nat.succ_le_succ (Nat.zero_le _), fun h => absurd h Nat.one_ne_zero⟩
        · cases hn
      · cases hn
  | ref name =>
    simp only [recognizeStep] at h
    cases hr : g.rule? name with
    | none =>
      rw [hr] at h
      obtain rfl := Option.some.inj h
      cases hn
    | some rule =>
      rw [hr] at h
      exact ((ih h).2 hn).imp_right fun hnull h0 => .ref hr (hnull h0)
  | rule name content transform =>
    obtain ⟨v₀, h₀, rfl⟩ := Option.map_eq_some_iff.mp h
    exact ((ih h₀).2 (Verdict.consumed?_of_wrap hn)).imp_right fun hnull h0 => .rule (hnull h0)
  | tagged id e =>
    obtain ⟨v₀, h₀, rfl⟩ := Option.map_eq_some_iff.mp h
    rw [Verdict.consumed?_tag] at hn
    exact ((ih h₀).2 hn).imp_right fun hnull h0 => .tagged (hnull h0)
  | optional e =>
    obtain ⟨v₀, h₀, rfl⟩ := Option.map_eq_some_iff.mp h
    refine ⟨?_, fun _ => .optional e⟩
    obtain hn | rfl := Verdict.consumed?_of_orEmpty hn
    · exact ((ih h₀).2 hn).1
    · exact Nat.zero_le _
  | many e =>
    obtain ⟨v₀, h₀, rfl⟩ := Option.map_eq_some_iff.mp h
    refine ⟨?_, fun _ => .many e⟩
    obtain hn | rfl := Verdict.consumed?_of_orEmpty hn
    · exact ((ih h₀).2 hn).1
    · exact Nat.zero_le _
  | sequence es =>
    cases es with
    | nil =>
      obtain rfl := Option.some.inj h
      obtain rfl := Option.some.inj hn
      exact ⟨Nat.zero_le _, fun _ => .sequence (by simp)⟩
    | cons e es =>
      obtain ⟨v₁, h₁, hk⟩ := Option.bind_eq_some_iff.mp h
      rcases v₁ with ⟨nodes, k⟩ | _ | _
      · obtain ⟨v₂, h₂, rfl⟩ := Option.map_eq_some_iff.mp hk
        rw [Verdict.consumed?_after] at hn
        obtain ⟨m, hm, rfl⟩ := Option.map_eq_some_iff.mp hn
        obtain ⟨hk, hnull⟩ := (ih h₁).2 (n := k) rfl
        obtain ⟨hm, hnulls⟩ := (ih h₂).2 hm
        rw [List.length_drop] at hm
        refine ⟨by omega, fun h0 => .sequence (List.forall_mem_cons.mpr ⟨hnull (by omega), ?_⟩)⟩
        exact (hnulls (by omega)).of_sequence
      all_goals
        obtain rfl := Option.some.inj hk
        cases hn
  | alternatives es =>
    cases es with
    | nil =>
      obtain rfl := Option.some.inj h
      cases hn
    | cons e es =>
      obtain ⟨v₁, h₁, hk⟩ := Option.bind_eq_some_iff.mp h
      rcases v₁ with ⟨nodes, k⟩ | _ | _
      · obtain rfl := Option.some.inj hk
        exact ((ih h₁).2 hn).imp_right fun hnull h0 =>
          .alternatives List.mem_cons_self (hnull h0)
      · obtain ⟨hle, hnull⟩ := (ih hk).2 hn
        refine ⟨hle, fun h0 => ?_⟩
        cases hnull h0 with
        | alternatives he h => exact .alternatives (List.mem_cons_of_mem _ he) h
      · obtain rfl := Option.some.inj hk
        cases hn
  | oneOrMore e =>
    obtain ⟨v₁, h₁, hk⟩ := Option.bind_eq_some_iff.mp h
    rcases v₁ with ⟨nodes, _ | k⟩ | _ | _
    · obtain rfl := Option.some.inj hk
      exact ((ih h₁).2 hn).imp_right fun hnull h0 => .oneOrMore (hnull h0)
    · obtain ⟨v₂, h₂, rfl⟩ := Option.map_eq_some_iff.mp hk
      rw [Verdict.consumed?_after] at hn
      obtain ⟨m, hm, rfl⟩ := Option.map_eq_some_iff.mp hn
      have hk := ((ih h₁).2 (n := k + 1) rfl).1
      have hm := ((ih h₂).2 hm).1
      rw [List.length_drop] at hm
      exact ⟨by omega, fun h0 => by omega⟩
    all_goals
      obtain rfl := Option.some.inj hk
      cases hn

/-! ## Left recursion -/

/-- References of an element to which it may come before anything is consumed. -/
inductive Exposes (g : Grammar) : Element → String → Prop
  | ref (name) : Exposes g (.ref name) name
  | rule {name' e transform name} (h : Exposes g e name) :
      Exposes g (.rule name' e transform) name
  | tagged {id e name} (h : Exposes g e name) : Exposes g (.tagged id e) name
  | sequence {before e after name} (hb : ∀ x ∈ before, g.Nullable x) (h : Exposes g e name) :
      Exposes g (.sequence (before ++ e :: after)) name
  | alternatives {e es name} (he : e ∈ es) (h : Exposes g e name) :
      Exposes g (.alternatives es) name
  | optional {e name} (h : Exposes g e name) : Exposes g (.optional e) name
  | many {e name} (h : Exposes g e name) : Exposes g (.many e) name
  | oneOrMore {e name} (h : Exposes g e name) : Exposes g (.oneOrMore e) name

section Exposes

variable {name : String}

@[simp] theorem not_exposes_terminal (type : String) : ¬ g.Exposes (.terminal type) name := by
  rintro ⟨⟩

@[simp] theorem exposes_ref {name' : String} : g.Exposes (.ref name') name ↔ name = name' := by
  constructor
  · rintro ⟨⟩
    rfl
  · rintro rfl
    exact .ref name

@[simp] theorem exposes_rule {name' : String} {transform : Option Transform} :
    g.Exposes (.rule name' e transform) name ↔ g.Exposes e name :=
  ⟨fun | .rule h => h, .rule⟩

@[simp] theorem exposes_optional : g.Exposes (.optional e) name ↔ g.Exposes e name :=
  ⟨fun | .optional h => h, .optional⟩

@[simp] theorem exposes_many : g.Exposes (.many e) name ↔ g.Exposes e name :=
  ⟨fun | .many h => h, .many⟩

@[simp] theorem exposes_sequence_cons : g.Exposes (.sequence (e :: es)) name ↔
    g.Exposes e name ∨ g.Nullable e ∧ g.Exposes (.sequence es) name := by
  constructor
  · intro h
    generalize hes : e :: es = all at h
    cases h with
    | @sequence before x after _ hb h =>
      cases before with
      | nil =>
        obtain ⟨rfl, -⟩ := List.cons.inj hes
        exact .inl h
      | cons y before =>
        obtain ⟨rfl, rfl⟩ := List.cons.inj hes
        obtain ⟨hy, hb⟩ := List.forall_mem_cons.mp hb
        exact .inr ⟨hy, .sequence hb h⟩
  · rintro (h | ⟨he, h⟩)
    · have hs : g.Exposes (.sequence ([] ++ e :: es)) name := .sequence (by simp) h
      exact hs
    · cases h with
      | @sequence before x after _ hb h =>
        have hs : g.Exposes (.sequence ((e :: before) ++ x :: after)) name :=
          .sequence (List.forall_mem_cons.mpr ⟨he, hb⟩) h
        exact hs

end Exposes

/-- A rule leads to the references that its element exposes. -/
def Leads (g : Grammar) (name name' : String) : Prop :=
  ∃ r, g.rule? name = some r ∧ g.Exposes r.element name'

/-- **No rule leads to itself**, directly or through other rules. -/
def NoLeftRecursion (g : Grammar) : Prop := ∀ name, ¬ Relation.TransGen g.Leads name name

theorem Leads.mem_names {name name' : String} (h : g.Leads name name') : name ∈ g.rules.names := by
  obtain ⟨r, hr, -⟩ := h
  obtain ⟨before, after, heq, -⟩ := List.lookup_eq_some_iff.mp hr
  rw [OrderedMap.names, heq, List.map_append, List.map_cons]
  exact List.mem_append_right _ List.mem_cons_self

/-- There are finitely many rules, so that no chain of rules in which each leads to the next goes on
for ever. -/
theorem NoLeftRecursion.wellFounded (h : g.NoLeftRecursion) :
    WellFounded fun name' name => g.Leads name name' := by
  let below : {name // name ∈ g.rules.names} → {name // name ∈ g.rules.names} → Prop :=
    fun b a => Relation.TransGen g.Leads a.1 b.1
  have : IsTrans _ below := ⟨fun _ _ _ hab hbc => hbc.trans hab⟩
  have : Std.Irrefl below := ⟨fun a => h a.1⟩
  have hwf : WellFounded below := Finite.wellFounded_of_trans_of_irrefl below
  have hother : ∀ name, name ∉ g.rules.names → Acc (fun name' name => g.Leads name name') name :=
    fun name hname => .intro name fun name' hl => absurd hl.mem_names hname
  have hrule : ∀ a : {name // name ∈ g.rules.names},
      Acc (fun name' name => g.Leads name name') a.1 := fun a => by
    induction a using hwf.induction with
    | h a ih =>
      refine .intro _ fun name' hl => ?_
      by_cases hm : name' ∈ g.rules.names
      · exact ih ⟨name', hm⟩ (.single hl)
      · exact hother name' hm
  refine ⟨fun name => ?_⟩
  by_cases hm : name ∈ g.rules.names
  · exact hrule ⟨name, hm⟩
  · exact hother name hm

theorem noLeftRecursion_of_rank (rank : String → Nat)
    (h : ∀ name name', g.Leads name name' → rank name' < rank name) : g.NoLeftRecursion := by
  intro name hname
  have hlt : ∀ {name'}, Relation.TransGen g.Leads name name' → rank name' < rank name := by
    intro name' ht
    induction ht with
    | single hl => exact h _ _ hl
    | tail _ hl ih => exact Nat.lt_trans (h _ _ hl) ih
  exact Nat.lt_irrefl _ (hlt hname)

/-! ## Verdicts -/

/-- There is a verdict on a list of tokens. -/
def Decides (g : Grammar) (e : Element) (tokens : List Token) : Prop :=
  ∃ v, g.recognize e tokens = some v

section Decides

theorem decides_of_step (h : g.recognizeStep g.recognize e tokens = some v) : g.Decides e tokens :=
  ⟨v, (recognize_eq g e tokens).trans h⟩

theorem decides_map {e' : Element} {f : Verdict → Verdict} (h : g.Decides e tokens)
    (hf : g.recognizeStep g.recognize e' tokens = (g.recognize e tokens).map f) :
    g.Decides e' tokens := by
  obtain ⟨v, hv⟩ := h
  exact decides_of_step (hf.trans (congrArg (Option.map f) hv))

variable (hless : ∀ tokens', tokens'.length < tokens.length → ∀ e, g.Decides e tokens')
include hless

/-- A sequence goes on with the tokens at hand only after elements that may consume nothing. -/
theorem decides_sequence (hes : ∀ before e after, es = before ++ e :: after →
    (∀ x ∈ before, g.Nullable x) → g.Decides e tokens) : g.Decides (.sequence es) tokens := by
  induction es with
  | nil => exact decides_of_step rfl
  | cons e es ih =>
    obtain ⟨v, hv⟩ := hes [] e es rfl (by simp)
    rcases v with ⟨nodes, _ | n⟩ | _ | err
    · have hnull := (nullable_of_recognize hv rfl).2 rfl
      obtain ⟨v, hvs⟩ := ih fun before x after heq hb =>
        hes (e :: before) x after (congrArg (e :: ·) heq) (List.forall_mem_cons.mpr ⟨hnull, hb⟩)
      exact decides_of_step (v := v.after nodes 0) (by simp [recognizeStep, hv, hvs])
    · have hle := (nullable_of_recognize hv rfl).1
      obtain ⟨v, hvs⟩ := hless (tokens.drop (n + 1)) (by rw [List.length_drop]; omega) (.sequence es)
      exact decides_of_step (v := v.after nodes (n + 1)) (by simp [recognizeStep, hv, hvs])
    · exact decides_of_step (v := .notMatched) (by simp [recognizeStep, hv])
    · exact decides_of_step (v := .failed err) (by simp [recognizeStep, hv])

omit hless in
theorem decides_alternatives (hes : ∀ e ∈ es, g.Decides e tokens) :
    g.Decides (.alternatives es) tokens := by
  induction es with
  | nil => exact decides_of_step rfl
  | cons e es ih =>
    obtain ⟨hd, hes⟩ := List.forall_mem_cons.mp hes
    obtain ⟨v, hv⟩ := hd
    obtain ⟨v', hvs⟩ := ih hes
    rcases v with ⟨nodes, n⟩ | _ | err
    · exact decides_of_step (v := .matched nodes n) (by simp [recognizeStep, hv])
    · exact decides_of_step (v := v') (by simp [recognizeStep, hv, hvs])
    · exact decides_of_step (v := .failed err) (by simp [recognizeStep, hv])

theorem decides_oneOrMore (he : g.Decides e tokens) : g.Decides (.oneOrMore e) tokens := by
  obtain ⟨v, hv⟩ := he
  rcases v with ⟨nodes, _ | n⟩ | _ | err
  · exact decides_of_step (v := .matched nodes 0) (by simp [recognizeStep, hv])
  · have hle := (nullable_of_recognize hv rfl).1
    obtain ⟨v, hvs⟩ := hless (tokens.drop (n + 1)) (by rw [List.length_drop]; omega) (.many e)
    exact decides_of_step (v := v.after nodes (n + 1)) (by simp [recognizeStep, hv, hvs])
  · exact decides_of_step (v := .notMatched) (by simp [recognizeStep, hv])
  · exact decides_of_step (v := .failed err) (by simp [recognizeStep, hv])

/-- **There is a verdict on an element if there is one on the rules that it exposes.** -/
theorem decides_of_exposed (e : Element) (hrules : ∀ name r, g.Exposes e name →
    g.rule? name = some r → g.Decides r.element tokens) : g.Decides e tokens := by
  induction e using Element.children_induction with
  | step e ih =>
    cases e with
    | terminal type => exact decides_of_step rfl
    | ref name =>
      cases hr : g.rule? name with
      | none => exact decides_of_step (v := .failed (.undefinedRule name)) (by simp [recognizeStep, hr])
      | some r =>
        obtain ⟨v, hv⟩ := hrules name r (.ref name) hr
        exact decides_of_step (v := v) (by simp [recognizeStep, hr, hv])
    | rule name content transform =>
      have he := ih content List.mem_cons_self fun name r hx => hrules name r (.rule hx)
      exact decides_map he rfl
    | tagged id e =>
      have he := ih e List.mem_cons_self fun name r hx => hrules name r (.tagged hx)
      exact decides_map he rfl
    | optional e =>
      have he := ih e List.mem_cons_self fun name r hx => hrules name r (.optional hx)
      exact decides_map he rfl
    | many e =>
      have he := ih e List.mem_cons_self fun name r hx => hrules name r (.many hx)
      exact decides_map (decides_oneOrMore hless he) rfl
    | oneOrMore e =>
      exact decides_oneOrMore hless
        (ih e List.mem_cons_self fun name r hx => hrules name r (.oneOrMore hx))
    | sequence es =>
      refine decides_sequence hless ?_
      rintro before e after rfl hb
      exact ih e (List.mem_append_right _ List.mem_cons_self) fun name r hx =>
        hrules name r (.sequence hb hx)
    | alternatives es =>
      exact decides_alternatives fun e he => ih e he fun name r hx =>
        hrules name r (.alternatives he hx)

end Decides

/-- **In a grammar without left recursion there is a verdict on every list of tokens.** -/
theorem NoLeftRecursion.decides (h : g.NoLeftRecursion) (e : Element) (tokens : List Token) :
    g.Decides e tokens := by
  induction hk : tokens.length using Nat.strongRecOn generalizing e tokens with
  | ind k ihk =>
    have hless : ∀ tokens', tokens'.length < tokens.length → ∀ e, g.Decides e tokens' :=
      fun tokens' hlt e => ihk _ (hk ▸ hlt) e tokens' rfl
    have hrules : ∀ name r, g.rule? name = some r → g.Decides r.element tokens := by
      intro name
      induction name using h.wellFounded.induction with
      | h name ih =>
        intro r hr
        exact decides_of_exposed hless r.element fun name' r' hx => ih name' ⟨r, hr, hx⟩ r'
    exact decides_of_exposed hless e fun name r _ => hrules name r

/-- **Every element comes to an end on every list of tokens** in a grammar without left recursion,
whatever frames are open, has been read ahead, or was noted as a failure. The computed bound for the
depth suffices. -/
theorem exists_attempt (g : Grammar) (h : g.NoLeftRecursion) (e : Element) (cx : Context)
    {later : List Token} (hin : cx.stream.input = .tokens later) :
    ∃ r cx', g.attempt e cx = some (r, cx') := by
  have hp : cx.stream.input.Prompt := hin ▸ TokenInput.prompt_tokens later
  have hsize : cx.stream.rest.length ≤ cx.stream.size := by
    rw [TokenStream.rest, TokenStream.size, hin, List.length_append]
    exact Nat.le_refl _
  obtain ⟨v, hv⟩ := h.decides e cx.stream.rest
  obtain ⟨r, cx', hd⟩ := (halts_of_recognize hv).element cx hp rfl
  exact ⟨r, cx', (attempt_eq_some_iff hp hsize).mpr (yields_iff_derives.mpr hd)⟩

/-- A rule that repeats an empty match, one that comes to itself after a token, and a reference to no
rule. -/
theorem attempt_of_repeated_empty_match :
    let g : Grammar := (({} : Grammar).addRule "gaps" (.many (.optional (.terminal "A"))) true).addRule
      "list" (.sequence [.ref "gaps", .terminal "B", .ref "list", .ref "missing"]) false
    let cx : Context := ⟨.ofTokens [.ofType "a" "A" .start .start], none⟩
    ∃ r cx', g.attempt (.sequence [.oneOrMore (.ref "gaps"), .ref "list"]) cx = some (r, cx') := by
  intro g cx
  have hrank : ∀ name name', g.Leads name name' →
      (if name' = "list" then 1 else 0) < if name = "list" then 1 else 0 := by
    rintro name name' ⟨r, hr, hx⟩
    have hrules : g.rules.entries = [("gaps", ⟨"gaps", .many (.optional (.terminal "A")), none⟩),
      ("list", ⟨"list", .sequence [.ref "gaps", .terminal "B", .ref "list", .ref "missing"],
        none⟩)] := rfl
    rw [rule?, OrderedMap.get?, hrules] at hr
    by_cases hg : name = "gaps"
    · subst hg
      obtain rfl := Option.some.inj hr
      simp [Rule.element] at hx
    · by_cases hl : name = "list"
      · subst hl
        obtain rfl := Option.some.inj hr
        obtain rfl : name' = "gaps" := by simpa [Rule.element] using hx
        decide
      · simp [List.lookup, beq_false_of_ne hg, beq_false_of_ne hl] at hr
  exact exists_attempt g (noLeftRecursion_of_rank _ hrank) _ cx rfl

end Grammar

end ParserKit
