import Mathlib
import ParserKit.Proofs.Grammar.Refinement

/-!
# The depth of the recursion

* `Element.children`, `Element.parts`, `Grammar.parts`: what elements are made of; there are as many
  parts as `Grammar.weight` says.
* `Grammar.Room`: the depth that is left suffices for elements that have a verdict. Between two tokens
  that are consumed no part is entered twice, since each has its verdict in fewer steps than those
  around it.
* **`Grammar.Derives.run_of_fits`**: where there is room, a derivation is carried out within the bound.
* **`Grammar.attempt_eq_some_iff`**: the computed bound suffices for whatever comes to an end;
  `Grammar.parse_eq_none_iff`: the same for parses.
-/

namespace ParserKit

/-! ## Parts -/

namespace Element

def children : Element → List Element
  | terminal _ | ref _ => []
  | rule _ e _ | tagged _ e | optional e | many e | oneOrMore e => [e]
  | sequence es | alternatives es => es

theorem weightAll_eq (es : List Element) : weightAll es = (es.map weight).sum := by
  induction es with
  | nil => rfl
  | cons e es ih => simp only [weightAll, List.map_cons, List.sum_cons, ih]

theorem weight_eq (e : Element) : e.weight = (e.children.map weight).sum + 1 := by
  cases e <;> simp [weight, children, weightAll_eq]

theorem weight_lt_of_mem_children {c e : Element} (h : c ∈ e.children) : c.weight < e.weight := by
  have hle := List.le_sum_of_mem (List.mem_map_of_mem (f := weight) h)
  have he := e.weight_eq
  omega

/-- **Induction over elements.** -/
theorem children_induction {motive : Element → Prop}
    (step : ∀ e, (∀ c ∈ e.children, motive c) → motive e) (e : Element) : motive e :=
  step e fun c _ => children_induction step c
termination_by e.weight
decreasing_by exact weight_lt_of_mem_children ‹_›

def parts (e : Element) : List Element := e :: e.children.attach.flatMap fun c => c.1.parts
termination_by e.weight
decreasing_by exact weight_lt_of_mem_children c.2

theorem parts_eq (e : Element) : e.parts = e :: e.children.flatMap parts := by
  rw [parts, List.flatMap_subtype (g := parts) fun _ _ => rfl, List.unattach_attach]

theorem self_mem_parts (e : Element) : e ∈ e.parts := by
  rw [parts_eq]
  exact List.mem_cons_self

theorem length_parts (e : Element) : e.parts.length = e.weight := by
  induction e using children_induction with
  | step e ih =>
    rw [parts_eq, weight_eq, List.length_cons, List.length_flatMap, List.map_congr_left ih]

theorem children_mem_parts {c x e : Element} (hx : x ∈ e.parts) (hc : c ∈ x.children) :
    c ∈ e.parts := by
  induction e using children_induction with
  | step e ih =>
    rw [parts_eq, List.mem_cons, List.mem_flatMap] at hx ⊢
    rcases hx with rfl | ⟨d, hd, hx⟩
    · exact .inr ⟨c, hc, c.self_mem_parts⟩
    · exact .inr ⟨d, hd, ih d hd hx⟩

end Element

namespace Grammar

def parts (g : Grammar) (e : Element) : List Element :=
  e.parts ++ g.rules.values.flatMap fun r => r.element.parts

theorem length_parts (g : Grammar) (e : Element) : (g.parts e).length = g.weight e := by
  unfold parts weight
  rw [List.length_append, List.length_flatMap, e.length_parts]
  induction g.rules.values with
  | nil => rfl
  | cons r rules ih =>
    rw [List.foldr_cons, ← ih, List.map_cons, List.sum_cons, Element.length_parts, Rule.weight]
    omega

theorem mem_rules_of_rule? {g : Grammar} {name : String} {r : Rule} (h : g.rule? name = some r) :
    r ∈ g.rules.values := by
  obtain ⟨before, after, heq, -⟩ := List.lookup_eq_some_iff.mp h
  rw [OrderedMap.values, heq, List.map_append, List.map_cons]
  exact List.mem_append_right _ List.mem_cons_self

/-- A list of elements that holds, with each element, what it is made of and what it refers to. -/
structure Closed (g : Grammar) (N : List Element) : Prop where
  children_mem : ∀ {x c}, x ∈ N → c ∈ x.children → c ∈ N
  rule_mem : ∀ {name r}, g.rule? name = some r → r.element ∈ N

theorem closed_parts (g : Grammar) (e : Element) : g.Closed (g.parts e) where
  children_mem {x c} hx hc := by
    rw [parts, List.mem_append, List.mem_flatMap] at hx ⊢
    rcases hx with hx | ⟨r, hr, hx⟩
    · exact .inl (Element.children_mem_parts hx hc)
    · exact .inr ⟨r, hr, Element.children_mem_parts hx hc⟩
  rule_mem {name r} hr := by
    rw [parts, List.mem_append, List.mem_flatMap]
    exact .inr ⟨r, mem_rules_of_rule? hr, r.element.self_mem_parts⟩

/-! ## Room -/

/-- **The depth `n` suffices for verdicts in `b` steps or fewer**: there are elements around, none of
which has a verdict in so few steps, and for all other parts, and every token that may be consumed,
depth is left. -/
def Room (g : Grammar) (N : List Element) (tokens : List Token) (b n : Nat) : Prop :=
  ∃ path : List Element, path.Nodup ∧ path ⊆ N ∧ (∀ x ∈ path, g.recognizeWithin b x tokens = none) ∧
    (tokens.length + 1) * (N.length + 1) ≤ n + path.length

section Room

variable {g : Grammar} {N : List Element} {tokens : List Token} {b c n : Nat} {e : Element}
  {v : Verdict}

theorem recognizeWithin_eq_none (hcb : c ≤ b) (h : g.recognizeWithin b e tokens = none) :
    g.recognizeWithin c e tokens = none := by
  cases hv : g.recognizeWithin c e tokens with
  | none => rfl
  | some v =>
    rw [recognizeWithin_mono hcb hv] at h
    cases h

theorem Room.mono (h : g.Room N tokens b n) (hcb : c ≤ b) : g.Room N tokens c n := by
  obtain ⟨path, hnodup, hN, hnone, hlen⟩ := h
  exact ⟨path, hnodup, hN, fun x hx => recognizeWithin_eq_none hcb (hnone x hx), hlen⟩

theorem Room.le (h : g.Room N tokens b n) : tokens.length * (N.length + 1) < n := by
  obtain ⟨path, hnodup, hN, -, hlen⟩ := h
  have hpath := (hnodup.subperm hN).length_le
  rw [Nat.add_mul] at hlen
  omega

theorem Room.length_lt (h : g.Room N tokens b n) : tokens.length < n :=
  Nat.lt_of_le_of_lt (Nat.le_mul_of_pos_right _ (Nat.succ_pos _)) h.le

/-- Once a token is consumed, the elements around do not matter. -/
theorem Room.drop (h : g.Room N tokens b n) (k : Nat) : g.Room N (tokens.drop k) b n := by
  by_cases hk : tokens.drop k = tokens
  · rwa [hk]
  · refine ⟨[], .nil, List.nil_subset _, by simp, ?_⟩
    have hlt : (tokens.drop k).length + 1 ≤ tokens.length := by
      by_contra hge
      exact hk ((List.drop_suffix k tokens).eq_of_length_le (by omega))
    exact Nat.le_trans (Nat.mul_le_mul_right _ hlt) (Nat.le_of_lt h.le)

/-- **An element with a verdict is entered.** It is not among those around it, and what it is made of
has verdicts in fewer steps. -/
theorem Room.enter (h : g.Room N tokens b n) (he : e ∈ N)
    (hv : g.recognizeWithin b e tokens = some v) :
    ∃ m c v, n = m + 1 ∧ g.recognizeWithin (c + 1) e tokens = some v ∧ g.Room N tokens c m := by
  classical
  -- the first number of steps that leads to a verdict
  have hex : ∃ k, (g.recognizeWithin k e tokens).isSome := ⟨b, by rw [hv]; rfl⟩
  have hsome := Nat.find_spec hex
  have hle : Nat.find hex ≤ b := Nat.find_min' hex (by rw [hv]; rfl)
  have hfirst := fun k => Nat.find_min hex (m := k)
  obtain ⟨c, hc⟩ : ∃ c, Nat.find hex = c + 1 :=
    Nat.exists_eq_succ_of_ne_zero fun h0 => by rw [h0] at hsome; cases hsome
  rw [hc] at hsome hle hfirst
  obtain ⟨v', hv'⟩ := Option.isSome_iff_exists.mp hsome
  have hpos := h.le
  obtain ⟨path, hnodup, hN, hpath, hlen⟩ := h.mono hle
  have hmem : e ∉ path := fun he => by
    rw [hpath e he] at hv'
    cases hv'
  refine ⟨n - 1, c, v', by omega, hv', e :: path, List.nodup_cons.mpr ⟨hmem, hnodup⟩,
    List.cons_subset.mpr ⟨he, hN⟩, ?_, by simp only [List.length_cons]; omega⟩
  intro x hx
  rcases List.mem_cons.mp hx with rfl | hx
  · exact Option.not_isSome_iff_eq_none.mp (hfirst c (Nat.lt_succ_self c))
  · exact recognizeWithin_eq_none (Nat.le_succ c) (hpath x hx)

end Room

/-! ## Derivations within the bound -/

/-- There is room for a goal, and for as many rounds as there are tokens. -/
inductive Fits (g : Grammar) (N : List Element) (tokens : List Token) (n k : Nat) : Goal → Prop
  | element {e b v} (he : e ∈ N) (hv : g.recognizeWithin b e tokens = some v)
      (hr : g.Room N tokens b n) : Fits g N tokens n k (.element e)
  | inOrder {es b v} (hes : ∀ e ∈ es, e ∈ N)
      (hv : g.recognizeWithin (b + 1) (.sequence es) tokens = some v) (hr : g.Room N tokens b n) :
      Fits g N tokens n k (.inOrder es)
  | firstOf {es b v} (hes : ∀ e ∈ es, e ∈ N)
      (hv : g.recognizeWithin (b + 1) (.alternatives es) tokens = some v)
      (hr : g.Room N tokens b n) : Fits g N tokens n k (.firstOf es)
  | rounds {e b v} (he : e ∈ N) (hv : g.recognizeWithin (b + 1) (.oneOrMore e) tokens = some v)
      (hr : g.Room N tokens b n) (hk : tokens.length < k) : Fits g N tokens n k (.rounds e)

section Fits

variable {g : Grammar} {N : List Element} {goal : Goal} {e : Element} {cx cx' : Context}
  {r : Except ParseError Outcome} {tokens : List Token} {b n k : Nat} {v : Verdict}

theorem exists_succ_of_recognizeWithin (hv : g.recognizeWithin b e tokens = some v) :
    ∃ c, b = c + 1 :=
  Nat.exists_eq_succ_of_ne_zero fun h0 => by rw [h0] at hv; cases hv

theorem Fits.enter (h : g.Fits N tokens n k (.element e)) :
    ∃ m c v, n = m + 1 ∧ e ∈ N ∧ g.recognizeWithin (c + 1) e tokens = some v ∧
      g.Room N tokens c m := by
  cases h with
  | element he hv hr =>
    obtain ⟨m, c, v, hn, hv, hr⟩ := hr.enter he hv
    exact ⟨m, c, v, hn, he, hv, hr⟩

variable (hN : g.Closed N)
include hN

theorem Fits.child {e' : Element} {f : Verdict → Verdict} (h : g.Fits N tokens n k (.element e'))
    (he : e ∈ e'.children)
    (hf : ∀ rec, g.recognizeStep rec e' tokens = (rec e tokens).map f) :
    ∃ m, n = m + 1 ∧ g.Fits N tokens m k (.element e) := by
  obtain ⟨m, c, v, hn, he', hv, hr⟩ := h.enter
  obtain ⟨v₀, hv₀, -⟩ := Option.map_eq_some_iff.mp ((hf _).symm.trans hv)
  exact ⟨m, hn, .element (hN.children_mem he' he) hv₀ hr⟩

theorem Fits.ref {name : String} {rule : Rule} (h : g.Fits N tokens n k (.element (.ref name)))
    (hr : g.rule? name = some rule) :
    ∃ m, n = m + 1 ∧ g.Fits N tokens m k (.element rule.element) := by
  obtain ⟨m, c, v, hn, -, hv, hroom⟩ := h.enter
  rw [recognizeWithin, recognizeStep, hr] at hv
  exact ⟨m, hn, .element (hN.rule_mem hr) hv hroom⟩

theorem Fits.sequence {es : List Element} (h : g.Fits N tokens n k (.element (.sequence es))) :
    ∃ m, n = m + 1 ∧ g.Fits N tokens m m (.inOrder es) := by
  obtain ⟨m, c, v, hn, he, hv, hr⟩ := h.enter
  exact ⟨m, hn, .inOrder (fun _ => hN.children_mem he) hv hr⟩

theorem Fits.alternatives {es : List Element}
    (h : g.Fits N tokens n k (.element (.alternatives es))) :
    ∃ m, n = m + 1 ∧ g.Fits N tokens m m (.firstOf es) := by
  obtain ⟨m, c, v, hn, he, hv, hr⟩ := h.enter
  exact ⟨m, hn, .firstOf (fun _ => hN.children_mem he) hv hr⟩

theorem Fits.oneOrMore (h : g.Fits N tokens n k (.element (.oneOrMore e))) :
    ∃ m, n = m + 1 ∧ g.Fits N tokens m m (.rounds e) := by
  obtain ⟨m, c, v, hn, he, hv, hr⟩ := h.enter
  exact ⟨m, hn, .rounds (hN.children_mem he List.mem_cons_self) hv hr hr.length_lt⟩

theorem Fits.many (h : g.Fits N tokens n k (.element (.many e))) :
    ∃ m, n = m + 1 ∧ g.Fits N tokens m m (.rounds e) := by
  obtain ⟨m, c, v, hn, he, hv, hr⟩ := h.enter
  obtain ⟨v₀, hv₀, -⟩ := Option.map_eq_some_iff.mp hv
  obtain ⟨c, rfl⟩ := exists_succ_of_recognizeWithin hv₀
  exact ⟨m, hn, .rounds (hN.children_mem he List.mem_cons_self) hv₀ (hr.mono (Nat.le_succ c))
    hr.length_lt⟩

omit hN

/-! The parts of a sequence, of choices and of rounds. A part that comes later starts where the verdict
on the one before it says. -/

variable {es : List Element} {nodes : List Node} {d : Nat}

theorem verdict_unique {v' : Verdict} (h : g.recognizeWithin b e tokens = some v)
    (h' : g.recognize e tokens = some v') : v = v' :=
  Option.some.inj ((recognize_eq_some_iff.mpr ⟨b, h⟩).symm.trans h')

theorem Fits.inOrder_head (h : g.Fits N tokens n k (.inOrder (e :: es))) :
    g.Fits N tokens n k (.element e) := by
  cases h with
  | inOrder hes hv hr =>
    obtain ⟨v₁, hv₁, -⟩ := Option.bind_eq_some_iff.mp hv
    exact .element (hes e List.mem_cons_self) hv₁ hr

theorem Fits.inOrder_tail (h : g.Fits N tokens n k (.inOrder (e :: es)))
    (he : g.recognize e tokens = some (.matched nodes d)) :
    g.Fits N (tokens.drop d) n k (.inOrder es) := by
  cases h with
  | inOrder hes hv hr =>
    obtain ⟨v₁, hv₁, hk⟩ := Option.bind_eq_some_iff.mp hv
    obtain rfl := verdict_unique hv₁ he
    obtain ⟨v₂, hv₂, -⟩ := Option.map_eq_some_iff.mp hk
    obtain ⟨b, rfl⟩ := exists_succ_of_recognizeWithin hv₂
    exact .inOrder (fun x hx => hes x (List.mem_cons_of_mem e hx)) hv₂
      ((hr.mono (Nat.le_succ b)).drop d)

theorem Fits.firstOf_head (h : g.Fits N tokens n k (.firstOf (e :: es))) :
    g.Fits N tokens n k (.element e) := by
  cases h with
  | firstOf hes hv hr =>
    obtain ⟨v₁, hv₁, -⟩ := Option.bind_eq_some_iff.mp hv
    exact .element (hes e List.mem_cons_self) hv₁ hr

theorem Fits.firstOf_tail (h : g.Fits N tokens n k (.firstOf (e :: es)))
    (he : g.recognize e tokens = some .notMatched) : g.Fits N tokens n k (.firstOf es) := by
  cases h with
  | firstOf hes hv hr =>
    obtain ⟨v₁, hv₁, hv₂⟩ := Option.bind_eq_some_iff.mp hv
    obtain rfl := verdict_unique hv₁ he
    obtain ⟨b, rfl⟩ := exists_succ_of_recognizeWithin hv₂
    exact .firstOf (fun x hx => hes x (List.mem_cons_of_mem e hx)) hv₂ (hr.mono (Nat.le_succ b))

theorem Fits.rounds_head (h : g.Fits N tokens n k (.rounds e)) :
    ∃ m, k = m + 1 ∧ g.Fits N tokens n m (.element e) := by
  cases h with
  | rounds he hv hr hk =>
    obtain ⟨v₁, hv₁, -⟩ := Option.bind_eq_some_iff.mp hv
    exact ⟨k - 1, by omega, .element he hv₁ hr⟩

/-- A round that consumes something leaves room for one round less. -/
theorem Fits.rounds_tail (h : g.Fits N tokens n (k + 1) (.rounds e))
    (he : g.recognize e tokens = some (.matched nodes (d + 1)))
    (hd : (tokens.drop (d + 1)).length < tokens.length) :
    g.Fits N (tokens.drop (d + 1)) n k (.rounds e) := by
  cases h with
  | rounds heN hv hr hk =>
    obtain ⟨v₁, hv₁, hmore⟩ := Option.bind_eq_some_iff.mp hv
    obtain rfl := verdict_unique hv₁ he
    obtain ⟨v₂, hv₂, -⟩ := Option.map_eq_some_iff.mp hmore
    obtain ⟨b, rfl⟩ := exists_succ_of_recognizeWithin hv₂
    obtain ⟨v₃, hv₃, -⟩ := Option.map_eq_some_iff.mp hv₂
    obtain ⟨b, rfl⟩ := exists_succ_of_recognizeWithin hv₃
    exact .rounds heN hv₃ ((hr.mono (by omega)).drop (d + 1)) (by omega)

/-- **Where there is room, a derivation is carried out within the bound.** -/
theorem Derives.run_of_fits (hN : g.Closed N) (h : g.Derives goal cx r cx')
    (hp : cx.stream.input.Prompt) (hf : g.Fits N cx.stream.rest n k goal) :
    g.run n k goal cx = some (r, cx') := by
  induction h generalizing n k with
  | terminal type cx =>
    obtain ⟨n, c, v, rfl, -⟩ := hf.enter
    rfl
  | undefined hu cx =>
    obtain ⟨n, c, v, rfl, -⟩ := hf.enter
    exact attemptWithin_ref_none hu
  | ref hr _ ih =>
    obtain ⟨n, rfl, hpart⟩ := hf.ref hN hr
    exact (attemptWithin_ref_some hr).trans (ih hp hpart)
  | rule _ ih =>
    obtain ⟨n, rfl, hpart⟩ := hf.child hN List.mem_cons_self fun _ => rfl
    exact attemptWithin_rule _ _ (ih hp hpart)
  | tagged _ ih =>
    obtain ⟨n, rfl, hpart⟩ := hf.child hN List.mem_cons_self fun _ => rfl
    exact attemptWithin_tagged _ (ih hp hpart)
  | optional _ ih =>
    obtain ⟨n, rfl, hpart⟩ := hf.child hN List.mem_cons_self fun _ => rfl
    exact attemptWithin_optional (ih hp hpart)
  | sequence _ ih =>
    obtain ⟨n, rfl, hpart⟩ := hf.sequence hN
    exact attemptWithin_sequence (ih hp hpart)
  | alternatives _ ih =>
    obtain ⟨n, rfl, hpart⟩ := hf.alternatives hN
    exact attemptWithin_alternatives (ih hp hpart)
  | many _ ih =>
    obtain ⟨n, rfl, hpart⟩ := hf.many hN
    exact attemptWithin_many (ih hp hpart)
  | oneOrMore _ ih =>
    obtain ⟨n, rfl, hpart⟩ := hf.oneOrMore hN
    exact attemptWithin_oneOrMore (ih hp hpart)
  | inOrderNil cx => rfl
  | inOrderStop _ hr ih => exact inOrder_stop (ih hp hf.inOrder_head) hr
  | inOrderMore h _ ih ihs =>
    obtain ⟨ts, hc⟩ := h.consumes
    have htail := hf.inOrder_tail (h.recognize hp)
    rw [← hc.rest_eq_drop] at htail
    exact inOrder_more (ih hp hf.inOrder_head) (ihs (hc.prompt_of hp) htail)
  | firstOfNil cx => rfl
  | firstOfStop _ hr ih => exact firstOf_stop (ih hp hf.firstOf_head) hr
  | firstOfMore h _ ih ihs =>
    obtain ⟨ts, hc⟩ := h.consumes
    have htail := hf.firstOf_tail (h.recognize hp)
    rw [← h.alike_of_notMatched.rest_eq] at htail
    exact firstOf_more (ih hp hf.firstOf_head) (ihs (hc.prompt_of hp) htail)
  | roundsEnd _ hr ih =>
    obtain ⟨k, rfl, hhead⟩ := hf.rounds_head
    exact atLeastOnce_end (ih hp hhead) hr
  | @roundsMore e cx nodes cx₁ r cx' h hi _ ih ihs =>
    obtain ⟨k, rfl, hhead⟩ := hf.rounds_head
    obtain ⟨ts, hc⟩ := h.consumes
    obtain ⟨d, hd⟩ := hc.exists_index_sub hi
    have hrest : cx₁.stream.commit.rest = cx.stream.rest.drop (d + 1) := by
      rw [hc.commit.rest_eq_drop, TokenStream.index_commit, ← hd]
      rfl
    have hlen : cx₁.stream.commit.rest.length < cx.stream.rest.length := by
      have hi' : cx₁.stream.index = cx.stream.index + ts.length := hc.index_eq
      rw [hc.commit.rest_eq, List.length_append]
      omega
    have hv : g.recognize e cx.stream.rest = some (.matched nodes (d + 1)) := by
      rw [← hd]
      exact h.recognize hp
    have htail := hf.rounds_tail hv (hrest ▸ hlen)
    rw [← hrest] at htail
    exact atLeastOnce_more (ih hp hhead) hi (ihs (hc.commit.prompt_of hp) htail)

/-- **The computed bound suffices for whatever comes to an end**, on prompt inputs. -/
theorem attempt_eq_some_iff (hp : cx.stream.input.Prompt)
    (hsize : cx.stream.rest.length ≤ cx.stream.size) :
    g.attempt e cx = some (r, cx') ↔ g.Yields e cx r cx' := by
  refine ⟨yields_of_attempt, fun h => ?_⟩
  have hd := yields_iff_derives.mp h
  obtain ⟨b, hv⟩ := recognize_eq_some_iff.mp (hd.recognize hp)
  have hroom : g.Room (g.parts e) cx.stream.rest b (g.depthBound e cx) := by
    refine ⟨[], .nil, List.nil_subset _, by simp, ?_⟩
    rw [length_parts]
    exact Nat.mul_le_mul (by omega) (Nat.le_succ _)
  have he : e ∈ g.parts e := List.mem_append_left _ e.self_mem_parts
  exact hd.run_of_fits (k := 0) (g.closed_parts e) hp (.element he hv hroom)

/-- **A parse has no answer exactly where the root rule does not come to an end.** -/
theorem parse_eq_none_iff {s : TokenStream} (hp : s.input.Prompt) (hsize : s.rest.length ≤ s.size) :
    g.parse s = none ↔
      ∃ root, g.root? = some root ∧ ¬ ∃ r cx', g.Yields root.element ⟨s, none⟩ r cx' := by
  cases hr : g.root? with
  | none => simp [parse, attemptRoot, hr]
  | some root =>
    rcases ha : g.attempt root.element ⟨s, none⟩ with _ | ⟨r, cx'⟩
    · have hnone : g.parse s = none := by simp only [parse, attemptRoot, hr, ha]
      refine iff_of_true hnone ⟨root, rfl, ?_⟩
      rintro ⟨r, cx', hy⟩
      rw [(attempt_eq_some_iff hp hsize).mpr hy] at ha
      cases ha
    · have hsome : g.parse s ≠ none := by
        rcases r with _ | _ | _ <;> simp [parse, attemptRoot, hr, ha]
      refine iff_of_false hsome ?_
      rintro ⟨_, hroot, hnot⟩
      obtain rfl := Option.some.inj hroot
      exact hnot ⟨r, cx', yields_of_attempt ha⟩

end Fits

end Grammar

end ParserKit
