import ParserKit.Proofs.Lexer.Remaining
import ParserKit.Stream.Basic

/-!
# The tokens that remain in a stream

* `TokenInput.rest`: the tokens that an input still has to give; `TokenInput.rest_pull`: reading
  takes them from the front.
* `TokenInput.Prompt`: inputs that never pause. Those that keep their promises do not
  (`TokenInput.Reliable.prompt`), such as a list of tokens.
* **`TokenStream.rest`**: the tokens that remain: those in the lookahead buffer, then the input's.
  Looking ahead leaves them alone (`TokenStream.rest_fill`), and shows as many of them as were asked
  for if the input is prompt (`TokenStream.buffer_fill`).
* **`TokenStream.Consumes`**: the passage from one stream to another by which some tokens, and only
  these, have been consumed in the innermost frame; how transactions act on it.
* `TokenStream.Alike`: streams with the same frames, index and remaining tokens.
-/

namespace ParserKit

/-! ## Inputs -/

namespace TokenInput

/-- The tokens that an input still has to give, without the gaps of a feed. -/
def rest : TokenInput → List Token
  | .tokens rest => rest
  | .feed arrivals => arrivals.filterMap id
  | .tokenizer t => t.rest

theorem rest_hasMore (i : TokenInput) : i.hasMore.2.rest = i.rest := by
  cases i with
  | tokens rest => rfl
  | feed arrivals => rfl
  | tokenizer t => exact t.rest_hasMore

theorem rest_next (i : TokenInput) : i.next.1.toList ++ i.next.2.rest = i.rest := by
  cases i with
  | tokens rest => cases rest <;> rfl
  | feed arrivals =>
    rcases arrivals with _ | ⟨_ | token, arrivals⟩ <;> simp [next, rest]
  | tokenizer t => exact t.rest_next

/-- **Reading takes tokens from the front.** -/
theorem rest_pull (n : Nat) (i : TokenInput) : (i.pull n).1 ++ (i.pull n).2.rest = i.rest := by
  induction n generalizing i with
  | zero => rfl
  | succ n ih =>
    unfold pull
    rcases hm : i.hasMore with ⟨_ | _, j⟩
    · have := i.rest_hasMore
      rw [hm] at this
      exact this
    · have h₁ := i.rest_hasMore
      have h₂ := j.rest_next
      rw [hm] at h₁
      rcases hn : j.next with ⟨_ | token, k⟩
      · simp only [hn] at h₁ h₂ ⊢
        exact h₂.trans h₁
      · simp only [hn] at h₁ h₂ ⊢
        rw [← h₁, ← h₂, ← ih k]
        rfl

/-- An input that never pauses: every read brings what was asked for, or all that is left. -/
def Prompt (i : TokenInput) : Prop :=
  ∃ P : TokenInput → Prop, P i ∧ ∀ j n, P j → (j.pull n).1 = j.rest.take n ∧ P (j.pull n).2

theorem Prompt.pull_fst {i : TokenInput} (h : i.Prompt) (n : Nat) :
    (i.pull n).1 = i.rest.take n := by
  obtain ⟨P, hi, hP⟩ := h
  exact (hP i n hi).1

theorem Prompt.pull_snd {i : TokenInput} (h : i.Prompt) (n : Nat) : (i.pull n).2.Prompt := by
  obtain ⟨P, hi, hP⟩ := h
  exact ⟨P, (hP i n hi).2, hP⟩

/-- A class of inputs that keep their promises: `hasMore` tells whether a token remains, and `next`
brings the first of those that do. -/
structure Reliable (P : TokenInput → Prop) : Prop where
  hasMore : ∀ {i}, P i → i.hasMore.1 = !i.rest.isEmpty ∧ P i.hasMore.2
  next : ∀ {i}, P i → i.next.1 = i.rest.head? ∧ P i.next.2

/-- **Inputs that keep their promises never pause.** -/
theorem Reliable.prompt {P : TokenInput → Prop} (hP : Reliable P) {i : TokenInput} (hi : P i) :
    i.Prompt := by
  refine ⟨P, hi, fun j n hj => ?_⟩
  induction n generalizing j with
  | zero => exact ⟨rfl, hj⟩
  | succ n ih =>
    obtain ⟨hmore, hj'⟩ := hP.hasMore hj
    obtain ⟨hnext, hk⟩ := hP.next hj'
    have hrest := j.hasMore.2.rest_next
    rw [hnext, j.rest_hasMore] at hrest
    rw [j.rest_hasMore] at hnext
    obtain ⟨hpull, hpull'⟩ := ih _ hk
    unfold pull
    rcases hm : j.hasMore with ⟨more, j'⟩
    rw [hm] at hmore hnext hrest hj' hpull hpull'
    obtain rfl : more = _ := hmore
    cases hr : j.rest with
    | nil => exact ⟨rfl, hj'⟩
    | cons t ts =>
      rcases hn : j'.next with ⟨first, k⟩
      rw [hn, hr] at hnext hrest
      rw [hn] at hpull hpull'
      obtain rfl : first = some t := hnext
      obtain rfl : k.rest = ts := (List.cons.inj hrest).2
      simp only [List.isEmpty_cons, Bool.not_false, hn]
      exact ⟨congrArg (t :: ·) hpull, hpull'⟩

/-- **A list of tokens is prompt.** -/
theorem prompt_tokens (ts : List Token) : (tokens ts).Prompt := by
  refine Reliable.prompt (P := fun i => ∃ ts, i = tokens ts) ⟨?_, ?_⟩ ⟨ts, rfl⟩
  · rintro _ ⟨ts, rfl⟩
    exact ⟨rfl, ts, rfl⟩
  · rintro _ ⟨_ | ⟨t, ts⟩, rfl⟩
    · exact ⟨rfl, [], rfl⟩
    · exact ⟨rfl, ts, rfl⟩

end TokenInput

namespace TokenStream

/-! ## Looking ahead -/

/-- **The tokens that remain**: the lookahead buffer, followed by the input. -/
def rest (s : TokenStream) : List Token := s.buffer ++ s.input.rest

def lacking (s : TokenStream) (n : Nat) : Nat := max s.lookahead n - s.buffer.length

theorem fill_eq (s : TokenStream) (n : Nat) :
    s.fill n = { s with
      lookahead := max s.lookahead n
      input := (s.input.pull (s.lacking n)).2
      buffer := s.buffer ++ (s.input.pull (s.lacking n)).1 } := by
  unfold fill lacking
  simp only [shortfall_eq]
  cases max s.lookahead n - s.buffer.length with
  | zero => simp only [TokenInput.pull, List.append_nil]
  | succ lacking => rfl

@[simp] theorem record_fill (s : TokenStream) (n : Nat) : (s.fill n).record = s.record := by
  rw [fill_eq]

@[simp] theorem outer_fill (s : TokenStream) (n : Nat) : (s.fill n).outer = s.outer := by
  rw [fill_eq]

@[simp] theorem index_fill (s : TokenStream) (n : Nat) : (s.fill n).index = s.index := by
  rw [fill_eq]

@[simp] theorem rest_fill (s : TokenStream) (n : Nat) : (s.fill n).rest = s.rest := by
  rw [fill_eq]
  simp only [rest, List.append_assoc, TokenInput.rest_pull]

theorem prompt_fill {s : TokenStream} (h : s.input.Prompt) (n : Nat) :
    (s.fill n).input.Prompt := by
  rw [fill_eq]
  exact h.pull_snd _

/-- The buffer of a stream with a prompt input shows what was ever asked for. -/
theorem buffer_fill {s : TokenStream} (h : s.input.Prompt) (n : Nat) :
    (s.fill n).buffer = s.rest.take (max s.buffer.length (max s.lookahead n)) := by
  have hk : max s.buffer.length (max s.lookahead n) = s.buffer.length + s.lacking n := by
    unfold lacking
    omega
  rw [fill_eq, hk, rest, List.take_length_add_append, ← h.pull_fst]

theorem take_buffer_fill {s : TokenStream} (h : s.input.Prompt) {n m : Nat} (hm : m ≤ n) :
    (s.fill n).buffer.take m = s.rest.take m := by
  rw [buffer_fill h, List.take_take]
  congr 1
  omega

theorem head?_buffer_fill {s : TokenStream} (h : s.input.Prompt) :
    (s.fill 1).buffer.head? = s.rest.head? := by
  have ht := take_buffer_fill h (Nat.le_refl 1)
  rw [List.take_one, List.take_one] at ht
  cases hb : (s.fill 1).buffer.head? <;> cases hr : s.rest.head? <;> simp_all

theorem fst_lookup {s : TokenStream} (h : s.input.Prompt) : s.lookup.1 = s.rest.head? :=
  head?_buffer_fill h

theorem isEmpty_buffer_fill {s : TokenStream} (h : s.input.Prompt) :
    (s.fill 1).buffer.isEmpty = s.rest.isEmpty := by
  have hh := head?_buffer_fill h
  cases hb : (s.fill 1).buffer <;> cases hr : s.rest <;> simp_all

/-! ## Consumption in the innermost frame -/

/-- **Exactly the tokens `ts` have been consumed**, in the innermost frame. An input that was prompt
still is. -/
structure Consumes (ts : List Token) (s s' : TokenStream) : Prop where
  outer_eq : s'.outer = s.outer
  record_eq : s'.record = ts.reverse ++ s.record
  index_eq : s'.index = s.index + ts.length
  rest_eq : s.rest = ts ++ s'.rest
  prompt_of : s.input.Prompt → s'.input.Prompt

variable {s s₁ s₂ s' : TokenStream} {ts ts₁ ts₂ : List Token}

theorem Consumes.trans (h₁ : Consumes ts₁ s s₁) (h₂ : Consumes ts₂ s₁ s₂) :
    Consumes (ts₁ ++ ts₂) s s₂ where
  outer_eq := h₂.outer_eq.trans h₁.outer_eq
  record_eq := by rw [h₂.record_eq, h₁.record_eq, List.reverse_append, List.append_assoc]
  index_eq := by rw [h₂.index_eq, h₁.index_eq, List.length_append, Nat.add_assoc]
  rest_eq := by rw [h₁.rest_eq, h₂.rest_eq, List.append_assoc]
  prompt_of hp := h₂.prompt_of (h₁.prompt_of hp)

/-- The same frames, index and remaining tokens. -/
structure Alike (s s' : TokenStream) : Prop where
  outer_eq : s'.outer = s.outer
  record_eq : s'.record = s.record
  index_eq : s'.index = s.index
  rest_eq : s'.rest = s.rest

theorem Alike.symm (h : s.Alike s') : s'.Alike s :=
  ⟨h.outer_eq.symm, h.record_eq.symm, h.index_eq.symm, h.rest_eq.symm⟩

theorem Consumes.alike (h : Consumes [] s s') : s.Alike s' :=
  ⟨h.outer_eq, h.record_eq, h.index_eq, h.rest_eq.symm⟩

theorem Alike.of_consumes (h : s.Alike s') (hc : Consumes ts s s₁) (hc' : Consumes ts s' s₂) :
    s₁.Alike s₂ where
  outer_eq := by rw [hc'.outer_eq, h.outer_eq, hc.outer_eq]
  record_eq := by rw [hc'.record_eq, h.record_eq, hc.record_eq]
  index_eq := by rw [hc'.index_eq, h.index_eq, hc.index_eq]
  rest_eq := List.append_cancel_left (hc'.rest_eq.symm.trans (h.rest_eq.trans hc.rest_eq))

theorem consumes_refl (s : TokenStream) : Consumes [] s s := ⟨rfl, rfl, rfl, rfl, id⟩

theorem consumes_fill (s : TokenStream) (n : Nat) : Consumes [] s (s.fill n) where
  outer_eq := s.outer_fill n
  record_eq := s.record_fill n
  index_eq := s.index_fill n
  rest_eq := (s.rest_fill n).symm
  prompt_of hp := prompt_fill hp n

theorem consumes_consume (s : TokenStream) : Consumes s.consume.1.toList s s.consume.2 := by
  have hf := s.consumes_fill 1
  cases hb : (s.fill 1).buffer with
  | nil =>
    simp only [consume, hb]
    exact hf
  | cons t buffer =>
    have hc : Consumes [t] (s.fill 1)
        { s.fill 1 with
          buffer, record := t :: (s.fill 1).record, index := (s.fill 1).index + 1 } :=
      ⟨rfl, rfl, rfl, by simp only [rest, hb, List.cons_append, List.nil_append], id⟩
    simp only [consume, hb]
    exact hf.trans hc

theorem fst_consume (h : s.input.Prompt) : s.consume.1 = s.rest.head? := by
  rw [← head?_buffer_fill h]
  cases hb : (s.fill 1).buffer <;> simp only [consume, hb, List.head?_nil, List.head?_cons]

theorem consumes_head (h : s.input.Prompt) {t : Token} (hr : s.rest = t :: ts) :
    Consumes [t] s s.consume.2 := by
  have hc := s.consumes_consume
  rw [fst_consume h, hr] at hc
  exact hc

/-- The token that a look-up shows is the one that is consumed, also if the input pauses. -/
theorem consumes_lookup {t : Token} (h : s.lookup.1 = some t) :
    Consumes [t] s s.lookup.2.consume.2 := by
  have hbuffer : (s.fill 1).buffer <+: ((s.fill 1).fill 1).buffer := by
    rw [fill_eq (s.fill 1)]
    exact List.prefix_append _ _
  obtain ⟨buffer, hb⟩ : ∃ buffer, (s.fill 1).buffer = t :: buffer := List.head?_eq_some_iff.mp h
  obtain ⟨more, hm⟩ := hbuffer
  have hfst : (s.fill 1).consume.1 = some t := by
    simp only [consume, ← hm, hb, List.cons_append]
  have hc := (s.consumes_fill 1).trans (s.fill 1).consumes_consume
  rwa [hfst] at hc

theorem Consumes.rest_eq_drop (h : Consumes ts s s') :
    s'.rest = s.rest.drop (s'.index - s.index) := by
  rw [h.rest_eq, h.index_eq, Nat.add_sub_cancel_left, List.drop_left]

theorem Consumes.eq_nil_of_index_le (h : Consumes ts s s') (hi : s'.index ≤ s.index) : ts = [] := by
  have hlen := h.index_eq
  exact List.length_eq_zero_iff.mp (by omega)

theorem Consumes.index_sub_add (h₁ : Consumes ts₁ s s₁) (h₂ : Consumes ts₂ s₁ s₂) :
    (s₁.index - s.index) + (s₂.index - s₁.index) = s₂.index - s.index := by
  have hi₁ := h₁.index_eq
  have hi₂ := h₂.index_eq
  omega

theorem Consumes.exists_index_sub (h : Consumes ts s s') (hi : s'.index ≠ s.index) :
    ∃ k, s'.index - s.index = k + 1 := by
  have hi' := h.index_eq
  exact ⟨s'.index - s.index - 1, by omega⟩

@[simp] theorem index_commit (s : TokenStream) : s.commit.index = s.index := by
  unfold TokenStream.commit
  cases s.outer <;> rfl

theorem Consumes.commit (h : Consumes ts s.begin s') : Consumes ts s s'.commit := by
  have ho : s'.outer = s.record :: s.outer := h.outer_eq
  unfold TokenStream.commit
  rw [ho]
  refine ⟨rfl, ?_, h.index_eq, h.rest_eq, h.prompt_of⟩
  rw [h.record_eq]
  simp only [begin, List.append_nil]

/-- **A rollback undoes whatever was consumed in a transaction.** -/
theorem Consumes.rollback (h : Consumes ts s.begin s') : Consumes [] s s'.rollback := by
  have ho : s'.outer = s.record :: s.outer := h.outer_eq
  have hr : s'.record = ts.reverse := h.record_eq.trans (List.append_nil _)
  have hi : s'.index = s.index + ts.length := h.index_eq
  unfold TokenStream.rollback
  simp only [ho]
  refine ⟨rfl, rfl, ?_, ?_, h.prompt_of⟩
  · simp only [hr, hi, List.length_reverse, List.length_nil]
    omega
  · simp only [rest, hr, List.reverse_reverse, List.nil_append, List.append_assoc]
    exact h.rest_eq

end TokenStream

end ParserKit
