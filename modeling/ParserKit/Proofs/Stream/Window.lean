import ParserKit.Proofs.Stream.Savepoints

/-!
# The lookahead window

How far a stream reads ahead depends on all that was ever asked of it.

* `Fill`: one topping up of the lookahead buffer; `Fill.demand`: the most that fills asked for;
  **`Fill.horizon`**: how far they read.
* `StreamCall`, `TokenStream.callAll`: histories of calls to a stream; `TokenStream.fillsOf`,
  `TokenStream.fills`: the fills that they perform.
* **`Savepoints.Window`**: the invariant; `Savepoints.Window.fill`: a fill moves the horizon, and
  `Savepoints.Window.perform`: no operation moves it but by its fills.
* **`TokenStream.buffer_callAll`**: the buffer holds what lies between the index and the horizon.
-/

namespace ParserKit

/-! ## Fills -/

/-- A topping up of the lookahead buffer: the index at which the stream stood, and how many tokens
were wanted. -/
structure Fill where
  index : Nat
  wanted : Nat

namespace Fill

/-- The most tokens that some fills wanted, and at least one. -/
def demand (fills : List Fill) : Nat := (fills.map wanted).foldr max 1

/-- **How far a list of `n` tokens has been read** after some fills, the newest of which comes
first. Each fill reads as many tokens from its index on as were wanted by then, if there are so many;
what was read stays read. -/
def horizon (n : Nat) : List Fill → Nat
  | [] => 0
  | f :: earlier => max (horizon n earlier) (min n (f.index + demand (f :: earlier)))

@[simp] theorem demand_cons (f : Fill) (fills : List Fill) :
    demand (f :: fills) = max f.wanted (demand fills) := rfl

theorem horizon_le (n : Nat) (fills : List Fill) : horizon n fills ≤ n := by
  induction fills with
  | nil => exact Nat.zero_le n
  | cons f earlier ih => exact Nat.max_le.mpr ⟨ih, Nat.min_le_left _ _⟩

theorem horizon_le_append (n : Nat) (newer fills : List Fill) :
    horizon n fills ≤ horizon n (newer ++ fills) := by
  induction newer with
  | nil => exact Nat.le_refl _
  | cons f newer ih => exact Nat.le_trans ih (Nat.le_max_left _ _)

end Fill

/-! ## Histories of calls -/

/-- A call to a token stream: an operation, or one by which its input is acquired or released. -/
inductive StreamCall where
  | acquire
  | release
  | perform (op : StreamOp)

theorem TokenInput.pull_tokens (n : Nat) (ts : List Token) :
    (tokens ts).pull n = (ts.take n, tokens (ts.drop n)) := by
  induction n generalizing ts with
  | zero => rfl
  | succ n ih =>
    cases ts with
    | nil => rfl
    | cons t ts => simp only [pull, hasMore, next, List.isEmpty_cons, Bool.not_false, ih,
        List.take_succ_cons, List.drop_succ_cons]

namespace TokenStream

def call (s : TokenStream) : StreamCall → TokenStream
  | .acquire => s.acquire.2
  | .release => s.release
  | .perform op => (s.perform op).2

def callAll (s : TokenStream) (calls : List StreamCall) : TokenStream := calls.foldl call s

/-- The fills of `n` consumptions in a row, newest first. The one that finds no token is the
last. -/
def fillsOfMany : Nat → TokenStream → List Fill
  | 0, _ => []
  | n + 1, s =>
    match s.consume with
    | (none, _) => [⟨s.index, 1⟩]
    | (some _, s') => fillsOfMany n s' ++ [⟨s.index, 1⟩]

/-- The fills that an operation performs, newest first. -/
def fillsOf (s : TokenStream) : StreamOp → List Fill
  | .hasMore => [⟨s.index, 1⟩]
  | .lookup => [⟨s.index, 1⟩]
  | .lookupMany n => [⟨s.index, n⟩]
  | .checkFor expected => [⟨s.index, expected.length⟩]
  | .consume => [⟨s.index, 1⟩]
  | .consumeMany n => s.fillsOfMany n
  | .consumeExpected expected =>
    let filled := s.fill expected.length
    match mismatch? expected filled.buffer with
    | some _ => [⟨s.index, expected.length⟩]
    | none => filled.fillsOfMany expected.length ++ [⟨s.index, expected.length⟩]
  | .begin => []
  | .commit => []
  | .rollback => []

def fillsOfCall (s : TokenStream) : StreamCall → List Fill
  | .acquire => []
  | .release => []
  | .perform op => s.fillsOf op

/-- The fills that a history of calls performs, newest first. -/
def fills : TokenStream → List StreamCall → List Fill
  | _, [] => []
  | s, c :: calls => fills (s.call c) calls ++ s.fillsOfCall c

theorem fills_append (s : TokenStream) (calls later : List StreamCall) :
    s.fills (calls ++ later) = (s.callAll calls).fills later ++ s.fills calls := by
  induction calls generalizing s with
  | nil => exact (List.append_nil _).symm
  | cons c calls ih =>
    show (s.call c).fills (calls ++ later) ++ s.fillsOfCall c =
      ((s.call c).callAll calls).fills later ++ ((s.call c).fills calls ++ s.fillsOfCall c)
    rw [ih, List.append_assoc]

theorem input_consume (s : TokenStream) : s.consume.2.input = (s.fill 1).input := by
  unfold consume
  cases hb : (s.fill 1).buffer <;> simp only [hb]

theorem lookahead_consume (s : TokenStream) : s.consume.2.lookahead = (s.fill 1).lookahead := by
  unfold consume
  cases hb : (s.fill 1).buffer <;> simp only [hb]

end TokenStream

/-! ## The invariant -/

namespace Savepoints

open Fill

/-- **A stream has read as far as its fills say**: of the list of tokens, its input holds what lies
beyond the horizon. -/
structure Window (c : Savepoints) (fills : List Fill) (s : TokenStream) : Prop
    extends c.Tracks s where
  input_eq : s.input = .tokens (c.tokens.drop (horizon c.tokens.length fills))
  lookahead_eq : s.lookahead = demand fills

variable {c : Savepoints} {fills : List Fill} {s : TokenStream}

theorem window_ofTokens (tokens : List Token) :
    (ofTokens tokens).Window [] (TokenStream.ofTokens tokens) :=
  ⟨tracks_ofTokens tokens, rfl, rfl⟩

theorem advance_advance (c : Savepoints) (m n : Nat) :
    (c.advance m).advance n = c.advance (m + n) := by
  simp only [advance, mk.injEq, true_and, and_true]
  omega

namespace Window

/-- **The buffer holds what lies between the index and the horizon.** -/
theorem buffer_eq (h : c.Window fills s) :
    s.index ≤ horizon c.tokens.length fills ∧
      s.buffer = (c.tokens.take (horizon c.tokens.length fills)).drop s.index := by
  have hle := horizon_le c.tokens.length fills
  generalize hend : horizon c.tokens.length fills = stop at hle
  have hrest : s.buffer ++ c.tokens.drop stop = c.tokens.drop s.index := by
    have hr : s.buffer ++ s.input.rest = c.tokens.drop c.pos := h.rest_eq
    rwa [h.input_eq, hend, ← h.index_eq] at hr
  have hindex : s.index ≤ stop := by
    have hlen := congrArg List.length hrest
    have hpos := h.pos_le
    rw [← h.index_eq] at hpos
    simp only [List.length_append, List.length_drop] at hlen
    omega
  refine ⟨hindex, List.append_cancel_right (hrest.trans ?_)⟩
  rw [← List.drop_append_of_le_length, List.take_append_drop]
  rw [List.length_take]
  omega

/-- **A fill moves the horizon.** -/
theorem fill (h : c.Window fills s) (n : Nat) :
    c.Window (⟨s.index, n⟩ :: fills) (s.fill n) := by
  obtain ⟨hindex, hbuffer⟩ := h.buffer_eq
  have hle := horizon_le c.tokens.length fills
  have hlook : max s.lookahead n = demand (⟨s.index, n⟩ :: fills) := by
    rw [h.lookahead_eq, demand_cons, Nat.max_comm]
  have hlacking : s.lacking n =
      demand (⟨s.index, n⟩ :: fills) - (horizon c.tokens.length fills - s.index) := by
    rw [TokenStream.lacking, hlook, hbuffer, List.length_drop, List.length_take,
      Nat.min_eq_left hle]
  refine ⟨h.toTracks.fill n, ?_, ?_⟩
  · rw [TokenStream.fill_eq, h.input_eq, TokenInput.pull_tokens, List.drop_drop, hlacking]
    refine congrArg TokenInput.tokens (List.drop_eq_drop_iff.mpr ?_)
    simp only [horizon]
    omega
  · rw [TokenStream.fill_eq]
    exact hlook

theorem consume (h : c.Window fills s) :
    (c.advance 1).Window (⟨s.index, 1⟩ :: fills) s.consume.2 where
  toTracks := (h.toTracks.perform .consume).2
  input_eq := s.input_consume.trans (h.fill 1).input_eq
  lookahead_eq := s.lookahead_consume.trans (h.fill 1).lookahead_eq

theorem consumeMany (n : Nat) (h : c.Window fills s) :
    (c.advance n).Window (s.fillsOfMany n ++ fills) (s.consumeMany n).2 := by
  induction n generalizing c fills s with
  | zero =>
    have hzero : c.advance 0 = c := by
      have hpos := h.pos_le
      simp only [advance, Nat.add_zero, Nat.min_eq_left hpos]
    rw [hzero]
    exact h
  | succ n ih =>
    have hc := h.consume
    have hfst := TokenStream.fst_consume h.prompt
    rcases hs : s.consume with ⟨_ | t, s'⟩
    · rw [hs] at hc hfst
      -- at the end of the list, moving over one token is moving over any number of them
      have hend : c.tokens.length ≤ c.pos :=
        List.drop_eq_nil_iff.mp (h.rest_eq.symm.trans (List.head?_eq_none_iff.mp hfst.symm))
      have hmany : c.advance (n + 1) = c.advance 1 := by
        simp only [advance, mk.injEq, true_and, and_true]
        omega
      simp only [TokenStream.consumeMany, TokenStream.fillsOfMany, hs, hmany]
      exact hc
    · rw [hs] at hc
      have hn := ih hc
      rw [advance_advance, Nat.add_comm] at hn
      simp only [TokenStream.consumeMany, TokenStream.fillsOfMany, hs, List.append_assoc]
      exact hn

/-- **Every operation moves the horizon by the fills that it performs**, and not otherwise. -/
theorem perform (h : c.Window fills s) (op : StreamOp) :
    (c.perform op).2.Window (s.fillsOf op ++ fills) (s.perform op).2 := by
  have ht := (h.toTracks.perform op).2
  have hc := c.tokens_perform op
  cases op with
  | hasMore => exact h.fill 1
  | lookup => exact h.fill 1
  | lookupMany n => exact h.fill n
  | checkFor expected => exact h.fill expected.length
  | consume => exact h.consume
  | consumeMany n => exact h.consumeMany n
  | consumeExpected expected =>
    have hfill := h.fill expected.length
    have hm : TokenStream.mismatch? expected (s.fill expected.length).buffer =
        TokenStream.mismatch? expected c.ahead := by
      rw [TokenStream.mismatch?_buffer_fill h.prompt, h.rest_eq]
    simp only [TokenStream.perform, Savepoints.perform, TokenStream.consumeExpected,
      Savepoints.consumeExpected, TokenStream.fillsOf, hm]
    cases TokenStream.mismatch? expected c.ahead with
    | some e => exact hfill
    | none =>
      rw [List.append_assoc]
      exact hfill.consumeMany expected.length
  | begin => exact ⟨ht, h.input_eq, h.lookahead_eq⟩
  | commit =>
    have hs : s.commit.input = s.input ∧ s.commit.lookahead = s.lookahead := by
      unfold TokenStream.commit
      cases s.outer <;> exact ⟨rfl, rfl⟩
    exact ⟨ht, by rw [hc]; exact hs.1.trans h.input_eq, hs.2.trans h.lookahead_eq⟩
  | rollback =>
    have hs : s.rollback.input = s.input ∧ s.rollback.lookahead = s.lookahead := by
      unfold TokenStream.rollback
      cases s.outer <;> exact ⟨rfl, rfl⟩
    exact ⟨ht, by rw [hc]; exact hs.1.trans h.input_eq, hs.2.trans h.lookahead_eq⟩

theorem call (h : c.Window fills s) (call : StreamCall) :
    ∃ c' : Savepoints, c'.tokens = c.tokens ∧
      c'.Window (s.fillsOfCall call ++ fills) (s.call call) := by
  cases call with
  | acquire =>
    have hs : s.acquire.2 = s := by
      simp only [TokenStream.acquire, h.input_eq, TokenInput.acquire]
      rw [← h.input_eq]
    exact ⟨c, rfl, by rw [TokenStream.call, hs]; exact h⟩
  | release =>
    have hs : s.release = s := by
      simp only [TokenStream.release, h.input_eq, TokenInput.release]
      rw [← h.input_eq]
    exact ⟨c, rfl, by rw [TokenStream.call, hs]; exact h⟩
  | perform op => exact ⟨_, c.tokens_perform op, h.perform op⟩

/-- **The window after a history of calls.** -/
theorem callAll (h : c.Window fills s) (calls : List StreamCall) :
    ∃ c' : Savepoints, c'.tokens = c.tokens ∧
      c'.Window (s.fills calls ++ fills) (s.callAll calls) := by
  induction calls generalizing c fills s with
  | nil => exact ⟨c, rfl, h⟩
  | cons first calls ih =>
    obtain ⟨c₁, htokens₁, h₁⟩ := h.call first
    obtain ⟨c₂, htokens₂, h₂⟩ := ih h₁
    rw [← List.append_assoc] at h₂
    exact ⟨c₂, htokens₂.trans htokens₁, h₂⟩

end Window

end Savepoints

/-- **The buffer of a stream over a list of tokens holds what lies between the index and the
horizon**, whatever has been done with the stream. The horizon lies in the list and never moves
back. The last token that has been read ahead is the one before the horizon, if it has not been
consumed. -/
theorem TokenStream.buffer_callAll (tokens : List Token) (calls : List StreamCall) :
    let s := (ofTokens tokens).callAll calls
    let stop := Fill.horizon tokens.length ((ofTokens tokens).fills calls)
    s.index ≤ stop ∧ stop ≤ tokens.length ∧ s.buffer = (tokens.take stop).drop s.index ∧
      (∀ later, stop ≤ Fill.horizon tokens.length ((ofTokens tokens).fills (calls ++ later))) ∧
      s.lastBuffered? = if s.index < stop then tokens[stop - 1]? else none := by
  intro s stop
  obtain ⟨c, htokens, h⟩ := (Savepoints.window_ofTokens tokens).callAll calls
  rw [List.append_nil] at h
  have htokens : c.tokens = tokens := htokens
  obtain ⟨hindex, hbuffer⟩ := h.buffer_eq
  rw [htokens] at hindex hbuffer
  have hle : stop ≤ tokens.length := Fill.horizon_le _ _
  refine ⟨hindex, hle, hbuffer, fun later => ?_, ?_⟩
  · rw [fills_append]
    exact Fill.horizon_le_append _ _ _
  · show s.buffer.getLast? = _
    have hlen : (tokens.take stop).length = stop := List.length_take_of_le hle
    rw [hbuffer, List.getLast?_drop, hlen, List.getLast?_eq_getElem?, hlen]
    by_cases hlt : s.index < stop
    · rw [if_neg (Nat.not_le.mpr hlt), if_pos hlt, List.getElem?_take_of_lt (by omega)]
    · rw [if_pos (Nat.not_lt.mp hlt), if_neg hlt]

end ParserKit
