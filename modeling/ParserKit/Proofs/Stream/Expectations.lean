import ParserKit.Proofs.Stream.Savepoints

/-!
# Expected tokens

* `Expected.Matches`: a token has one of the acceptable types.
* `TokenStream.FirstMismatch`: the first of several expectations that the tokens fail to meet, and
  the error that names it.
* `TokenStream.mismatch?_eq_some_iff`, `TokenStream.mismatch?_eq_none_iff`: it is found wherever
  there is one.
* `TokenStream.checkFor_eq`, `TokenStream.consumeExpected_eq`: both ways of comparing tokens with
  expectations look for it.
* **`TokenStream.consumeExpected_eq_ok_iff_checkFor`**: expected tokens are consumed all together,
  or not at all.
-/

namespace ParserKit

namespace Expected

def names : Expected → List String
  | type name => [name]
  | anyOf names => names

/-- **A token has one of the acceptable types.** -/
def Matches (slot : Expected) (t : Token) : Prop := ∃ name ∈ slot.names, t.hasType name

theorem accepts_iff {slot : Expected} {t : Token} : slot.accepts t ↔ slot.Matches t := by
  unfold Matches
  cases slot with
  | type name => simp only [accepts, names, List.mem_singleton, exists_eq_left]
  | anyOf names => exact List.any_eq_true

end Expected

namespace TokenStream

variable {slot : Expected} {slots expected : List Expected} {t : Token} {tokens ts : List Token}
  {i : Nat} {err : ParseError} {s : TokenStream}

/-! ## The first mismatch -/

/-- **The first expectation that is not met** is number `i`. The tokens before it are as expected.
Either there are not so many tokens, or the token there has none of the acceptable types. -/
structure FirstMismatch (slots : List Expected) (tokens : List Token) (i : Nat)
    (err : ParseError) : Prop where
  before : ∀ j < i, ∃ slot t, slots[j]? = some slot ∧ tokens[j]? = some t ∧ slot.Matches t
  fails : ∃ slot, slots[i]? = some slot ∧
    ((tokens.length < i + 1 ∧ err = .noTokenFound slot) ∨
      ∃ t, tokens[i]? = some t ∧ (∀ name ∈ slot.names, ¬ t.hasType name) ∧
        err = .unexpectedToken t)

theorem firstMismatch_missing_iff :
    FirstMismatch (slot :: slots) [] i err ↔ i = 0 ∧ err = .noTokenFound slot := by
  constructor
  · rintro ⟨hbefore, slot', hslot, hfails⟩
    obtain rfl : i = 0 := Nat.eq_zero_of_not_pos fun hpos => by
      obtain ⟨-, t, -, ht, -⟩ := hbefore 0 hpos
      cases ht
    cases hslot
    obtain ⟨-, rfl⟩ | ⟨t, ht, -⟩ := hfails
    · exact ⟨rfl, rfl⟩
    · cases ht
  · rintro ⟨rfl, rfl⟩
    exact ⟨nofun, slot, rfl, .inl ⟨Nat.zero_lt_one, rfl⟩⟩

theorem firstMismatch_here_iff (h : ¬ slot.Matches t) :
    FirstMismatch (slot :: slots) (t :: tokens) i err ↔ i = 0 ∧ err = .unexpectedToken t := by
  have hno : ∀ name ∈ slot.names, ¬ t.hasType name := fun name hname ht => h ⟨name, hname, ht⟩
  constructor
  · rintro ⟨hbefore, slot', hslot, hfails⟩
    obtain rfl : i = 0 := Nat.eq_zero_of_not_pos fun hpos => by
      obtain ⟨slot', t', hslot', ht', hmatches⟩ := hbefore 0 hpos
      cases hslot'
      cases ht'
      exact h hmatches
    cases hslot
    obtain ⟨hlen, -⟩ | ⟨t', ht, -, rfl⟩ := hfails
    · exact absurd (Nat.succ_pos tokens.length) (Nat.not_lt.mpr (Nat.lt_succ_iff.mp hlen))
    · cases ht
      exact ⟨rfl, rfl⟩
  · rintro ⟨rfl, rfl⟩
    exact ⟨nofun, slot, rfl, .inr ⟨t, rfl, hno, rfl⟩⟩

theorem firstMismatch_later_iff (h : slot.Matches t) :
    FirstMismatch (slot :: slots) (t :: tokens) i err ↔
      ∃ j, i = j + 1 ∧ FirstMismatch slots tokens j err := by
  constructor
  · rintro ⟨hbefore, slot', hslot, hfails⟩
    cases i with
    | zero =>
      cases hslot
      obtain ⟨hlen, -⟩ | ⟨t', ht, hno, -⟩ := hfails
      · exact absurd (Nat.succ_pos tokens.length) (Nat.not_lt.mpr (Nat.lt_succ_iff.mp hlen))
      · cases ht
        obtain ⟨name, hname, hhas⟩ := h
        exact absurd hhas (hno name hname)
    | succ j =>
      refine ⟨j, rfl, fun k hk => hbefore (k + 1) (Nat.succ_lt_succ hk), slot', hslot, ?_⟩
      exact hfails.imp_left fun ⟨hlen, he⟩ => ⟨Nat.lt_of_succ_lt_succ hlen, he⟩
  · rintro ⟨j, rfl, hbefore, slot', hslot, hfails⟩
    refine ⟨fun k hk => ?_, slot', hslot, ?_⟩
    · cases k with
      | zero => exact ⟨slot, t, rfl, rfl, h⟩
      | succ k => exact hbefore k (Nat.lt_of_succ_lt_succ hk)
    · exact hfails.imp_left fun ⟨hlen, he⟩ => ⟨Nat.succ_lt_succ hlen, he⟩

/-- **The first mismatch is found.** -/
theorem mismatch?_eq_some_iff :
    mismatch? slots tokens = some err ↔ ∃ i, FirstMismatch slots tokens i err := by
  induction slots generalizing tokens with
  | nil =>
    refine ⟨nofun, ?_⟩
    rintro ⟨i, -, slot, hslot, -⟩
    cases hslot
  | cons slot slots ih =>
    cases tokens with
    | nil =>
      simp only [mismatch?, firstMismatch_missing_iff, Option.some.injEq, exists_eq_left]
      exact eq_comm
    | cons t tokens =>
      by_cases h : slot.Matches t
      · simp only [mismatch?, if_pos (Expected.accepts_iff.mpr h), ih, firstMismatch_later_iff h]
        constructor
        · rintro ⟨j, hj⟩
          exact ⟨j + 1, j, rfl, hj⟩
        · rintro ⟨-, j, -, hj⟩
          exact ⟨j, hj⟩
      · simp only [mismatch?, if_neg (mt Expected.accepts_iff.mp h), firstMismatch_here_iff h,
          Option.some.injEq, exists_eq_left]
        exact eq_comm

/-- **There is no mismatch** if there are enough tokens, and all are as expected. -/
theorem mismatch?_eq_none_iff :
    mismatch? slots tokens = none ↔
      slots.length ≤ tokens.length ∧ Expected.acceptAll slots tokens := by
  induction slots generalizing tokens with
  | nil => simp [mismatch?, Expected.acceptAll]
  | cons slot slots ih =>
    cases tokens with
    | nil => simp [mismatch?]
    | cons t tokens =>
      by_cases h : slot.accepts t
      · have hall : Expected.acceptAll (slot :: slots) (t :: tokens) =
            Expected.acceptAll slots tokens := by
          simp only [Expected.acceptAll, List.zip_cons_cons, List.all_cons, h, Bool.true_and]
        simp only [mismatch?, if_pos h, ih, hall, List.length_cons, Nat.add_le_add_iff_right]
      · simp [mismatch?, h, Expected.acceptAll]

/-! ## Two ways of comparing -/

theorem checkFor_eq (h : s.input.Prompt) (expected : List Expected) :
    s.checkFor expected =
      (if mismatch? expected s.rest = none then some (s.rest.take expected.length) else none,
        s.fill expected.length) := by
  have hiff : (s.rest.take expected.length).length = expected.length ∧
      Expected.acceptAll expected (s.rest.take expected.length) ↔
        mismatch? expected s.rest = none := by
    rw [← mismatch?_take, mismatch?_eq_none_iff]
    refine and_congr_left fun _ => ?_
    rw [List.length_take]
    omega
  unfold checkFor
  simp only [take_buffer_fill h (Nat.le_refl _), hiff]

theorem consumeExpected_eq (h : s.input.Prompt) (expected : List Expected) :
    s.consumeExpected expected =
      match mismatch? expected s.rest with
      | some e => (.error e, s.fill expected.length)
      | none => (.ok (s.rest.take expected.length),
          ((s.fill expected.length).consumeMany expected.length).2) := by
  have hfst := fst_consumeMany expected.length (prompt_fill h expected.length)
  rw [rest_fill] at hfst
  simp only [consumeExpected, mismatch?_buffer_fill h]
  cases mismatch? expected s.rest with
  | some e => rfl
  | none => exact Prod.ext (congrArg Except.ok hfst) rfl

theorem consumes_consumeExpected (h : s.input.Prompt) (hm : mismatch? expected s.rest = none) :
    Consumes (s.rest.take expected.length) s (s.consumeExpected expected).2 := by
  have hfill := s.consumes_fill expected.length
  have hmany := (s.fill expected.length).consumes_consumeMany expected.length
  rw [fst_consumeMany _ (hfill.prompt_of h), rest_fill] at hmany
  rw [consumeExpected_eq h, hm]
  exact hfill.trans hmany

/-- **Consuming expected tokens is checking for them made atomic**, in every state that a stream
over a list of tokens can be in. The tokens that the check finds are consumed; they are those that
would have been consumed without any expectations. If the check fails, nothing is consumed, and the
error names the first mismatch. -/
theorem consumeExpected_eq_ok_iff_checkFor (tokens : List Token) (ops : List StreamOp)
    (expected : List Expected) :
    let s := (ofTokens tokens).run ops
    let after := (s.consumeExpected expected).2
    (∀ ts, (s.consumeExpected expected).1 = .ok ts ↔ (s.checkFor expected).1 = some ts) ∧
    (∀ ts, (s.consumeExpected expected).1 = .ok ts →
      ts = (s.consumeMany expected.length).1 ∧ ts.length = expected.length ∧
        Consumes ts s after ∧ (s.consumeMany expected.length).2.Alike after ∧
        after = ((s.checkFor expected).2.consumeMany expected.length).2) ∧
    ∀ err, ((s.consumeExpected expected).1 = .error err ↔
        ∃ i, FirstMismatch expected s.rest i err) ∧
      ((s.consumeExpected expected).1 = .error err → s.Alike after) := by
  intro s after
  have hp : s.input.Prompt := ((Savepoints.tracks_ofTokens tokens).run ops).prompt
  have hcheck := checkFor_eq hp expected
  have hconsume := consumeExpected_eq hp expected
  cases hm : mismatch? expected s.rest with
  | some e =>
    rw [hm] at hcheck hconsume
    have hafter : after = s.fill expected.length := congrArg Prod.snd hconsume
    refine ⟨?_, ?_, fun err => ⟨?_, fun _ => ?_⟩⟩
    · rw [hconsume, hcheck]
      exact fun ts => ⟨nofun, nofun⟩
    · rw [hconsume]
      exact fun ts => nofun
    · rw [hconsume, ← mismatch?_eq_some_iff, hm]
      exact ⟨fun h => congrArg some (Except.error.inj h), fun h => congrArg _ (Option.some.inj h)⟩
    · rw [hafter]
      exact (s.consumes_fill expected.length).alike
  | none =>
    rw [hm] at hcheck hconsume
    have hmany := s.consumes_consumeMany expected.length
    have hafter : Consumes (s.rest.take expected.length) s after :=
      consumes_consumeExpected hp hm
    rw [fst_consumeMany _ hp] at hmany
    refine ⟨?_, ?_, fun err => ⟨?_, ?_⟩⟩
    · rw [hconsume, hcheck]
      exact fun ts =>
        ⟨fun h => congrArg some (Except.ok.inj h), fun h => congrArg _ (Option.some.inj h)⟩
    · rw [hconsume]
      intro ts hts
      obtain rfl : s.rest.take expected.length = ts := Except.ok.inj hts
      refine ⟨(fst_consumeMany _ hp).symm, ?_, hafter, ?_, ?_⟩
      · exact List.length_take_of_le (mismatch?_eq_none_iff.mp hm).1
      · exact s.consumes_refl.alike.of_consumes hmany hafter
      · rw [hcheck]
        exact congrArg Prod.snd hconsume
    · rw [hconsume, ← mismatch?_eq_some_iff, hm]
      exact ⟨nofun, nofun⟩
    · rw [hconsume]
      exact nofun

theorem unconsumed_of_second_mismatch :
    let b : Token := .ofType "b" "B" .start .start
    let s := (ofTokens [.ofType "a" "A" .start .start, b]).run [.begin]
    let (r, after) := s.consumeExpected [.type "A", .anyOf ["C", "D"]]
    r = .error (.unexpectedToken b) ∧ s.Alike after := by
  have h := consumeExpected_eq_ok_iff_checkFor
    [.ofType "a" "A" .start .start, .ofType "b" "B" .start .start] [.begin]
    [.type "A", .anyOf ["C", "D"]]
  exact ⟨rfl, (h.2.2 _).2 rfl⟩

end TokenStream

end ParserKit
