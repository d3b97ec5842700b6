import ParserKit.Proofs.Operations
import ParserKit.Proofs.Stream.Remaining

/-!
# Token streams as cursors with savepoints

A stream keeps its tokens in an input, a lookahead buffer and a stack of records. Seen from outside
it is a position in a list of tokens, with the positions to which rollbacks lead.

* `StreamOp`, `StreamAnswer`, `TokenStream.perform`: the operations on a stream, as data.
* `TokenStream.performWithin`: an operation that panics if it asks for more room than there is.
* **`Savepoints`**: a list of tokens, the position in it, the position below which nothing can be
  undone, and the positions saved by open transactions.
* `Layered`: the records of a stream spell the stretches between the saved positions.
* **`Savepoints.Tracks`**: the invariant; `Savepoints.Tracks.perform`: every operation keeps it and
  has the same answer on both sides.
* **`trace_ofTokens_eq`**: no sequence of operations tells a stream from a cursor with savepoints.
-/

namespace ParserKit

/-! ## Operations -/

/-- An operation on a token stream. -/
inductive StreamOp where
  | hasMore
  | lookup
  | lookupMany (n : Nat)
  | checkFor (expected : List Expected)
  | consume
  | consumeMany (n : Nat)
  | consumeExpected (expected : List Expected)
  | begin
  | commit
  | rollback

/-- What an operation returns. -/
inductive StreamAnswer where
  | flag (b : Bool)
  | token (t : Option Token)
  | tokens (ts : List Token)
  | checked (ts : Option (List Token))
  | consumed (result : Except ParseError (List Token))
  | done

/-- The number of tokens for which an operation makes room before it starts. -/
def StreamOp.room : StreamOp → Nat
  | .consumeMany n => n
  | _ => 0

namespace TokenStream

def perform (s : TokenStream) : StreamOp → StreamAnswer × TokenStream
  | .hasMore => let (b, s) := s.hasMore; (.flag b, s)
  | .lookup => let (t, s) := s.lookup; (.token t, s)
  | .lookupMany n => let (ts, s) := s.lookupMany n; (.tokens ts, s)
  | .checkFor expected => let (ts, s) := s.checkFor expected; (.checked ts, s)
  | .consume => let (t, s) := s.consume; (.token t, s)
  | .consumeMany n => let (ts, s) := s.consumeMany n; (.tokens ts, s)
  | .consumeExpected expected => let (r, s) := s.consumeExpected expected; (.consumed r, s)
  | .begin => (.done, s.begin)
  | .commit => (.done, s.commit)
  | .rollback => (.done, s.rollback)

def run (s : TokenStream) (ops : List StreamOp) : TokenStream :=
  ops.foldl (fun s op => (s.perform op).2) s

/-- Performs an operation if there is room for what it asks for. -/
def performWithin (limit : Nat) (s : TokenStream) :
    StreamOp → Except Panic (StreamAnswer × TokenStream)
  | .consumeMany n => do
    let (ts, s) ← s.consumeManyWithin limit n
    return (.tokens ts, s)
  | op => return s.perform op

def runWithin (limit : Nat) (ops : List StreamOp) (s : TokenStream) : Except Panic TokenStream :=
  Operations.run (performWithin limit) ops s

/-- What a sequence of operations shows, up to a panic: each answer, with the index and the depth
after it. -/
def trace (limit : Nat) (ops : List StreamOp) (s : TokenStream) :
    List (Except Panic (StreamAnswer × Nat × Nat)) :=
  Operations.trace (fun s op => do
    let (answer, s) ← performWithin limit s op
    return ((answer, s.index, s.depth), s)) ops s

theorem performWithin_eq (limit : Nat) :
    performWithin limit = Operations.reserving limit StreamOp.room perform := by
  funext s op
  cases op with
  | consumeMany n =>
    rw [performWithin, consumeManyWithin, Operations.reserving, StreamOp.room]
    cases reserve limit n <;> rfl
  | _ =>
    simp only [Operations.reserving, StreamOp.room, reserve_zero]
    rfl

theorem trace_eq (limit : Nat) (ops : List StreamOp) (s : TokenStream) :
    s.trace limit ops = Operations.trace (Operations.reserving limit StreamOp.room fun s op =>
      let (answer, s) := s.perform op
      ((answer, s.index, s.depth), s)) ops s := by
  unfold trace
  congr 1
  funext s op
  rw [performWithin_eq, Operations.reserving, Operations.reserving]
  cases reserve limit op.room <;> rfl

end TokenStream

/-! ## Cursors with savepoints -/

/-- A position in a list of tokens. `saved` are the positions at which the open transactions began,
the innermost first, and `base` is the one below which nothing can be undone. -/
structure Savepoints where
  tokens : List Token
  pos : Nat
  base : Nat
  saved : List Nat

namespace Savepoints

def ofTokens (tokens : List Token) : Savepoints := ⟨tokens, 0, 0, []⟩

def ahead (c : Savepoints) : List Token := c.tokens.drop c.pos

/-- Moves over `n` tokens, or as many as there are. -/
def advance (c : Savepoints) (n : Nat) : Savepoints :=
  { c with pos := min (c.pos + n) c.tokens.length }

/-- The tokens ahead, if they are as expected. -/
def check (c : Savepoints) (expected : List Expected) : Option (List Token) :=
  let tokens := c.ahead.take expected.length
  if tokens.length = expected.length ∧ Expected.acceptAll expected tokens then some tokens else none

/-- Moves over the tokens ahead if they are as expected, and names the first that is not. -/
def consumeExpected (c : Savepoints) (expected : List Expected) :
    Except ParseError (List Token) × Savepoints :=
  match TokenStream.mismatch? expected c.ahead with
  | some e => (.error e, c)
  | none => (.ok (c.ahead.take expected.length), c.advance expected.length)

def begin (c : Savepoints) : Savepoints := { c with saved := c.pos :: c.saved }

/-- Forgets the position saved last. Where none is saved, nothing read so far can be undone. -/
def commit (c : Savepoints) : Savepoints :=
  match c.saved with
  | [] => { c with base := c.pos }
  | _ :: saved => { c with saved }

/-- Goes back to the position saved last, or to the base. -/
def rollback (c : Savepoints) : Savepoints :=
  match c.saved with
  | [] => { c with pos := c.base }
  | pos :: saved => { c with pos, saved }

def perform (c : Savepoints) : StreamOp → StreamAnswer × Savepoints
  | .hasMore => (.flag (!c.ahead.isEmpty), c)
  | .lookup => (.token c.ahead.head?, c)
  | .lookupMany n => (.tokens (c.ahead.take n), c)
  | .checkFor expected => (.checked (c.check expected), c)
  | .consume => (.token c.ahead.head?, c.advance 1)
  | .consumeMany n => (.tokens (c.ahead.take n), c.advance n)
  | .consumeExpected expected => let (r, c) := c.consumeExpected expected; (.consumed r, c)
  | .begin => (.done, c.begin)
  | .commit => (.done, c.commit)
  | .rollback => (.done, c.rollback)

def run (c : Savepoints) (ops : List StreamOp) : Savepoints :=
  ops.foldl (fun c op => (c.perform op).2) c

/-- What a sequence of operations shows, up to the first for which there is no room: each answer,
with the position and the number of saved positions after it. -/
def trace (limit : Nat) (ops : List StreamOp) (c : Savepoints) :
    List (Except Panic (StreamAnswer × Nat × Nat)) :=
  Operations.trace (Operations.reserving limit StreamOp.room fun c op =>
    let (answer, c) := c.perform op
    ((answer, c.pos, c.saved.length), c)) ops c

theorem tokens_perform (c : Savepoints) (op : StreamOp) : (c.perform op).2.tokens = c.tokens := by
  cases op with
  | consumeExpected expected =>
    show (c.consumeExpected expected).2.tokens = c.tokens
    unfold consumeExpected
    cases TokenStream.mismatch? expected c.ahead <;> rfl
  | commit =>
    show c.commit.tokens = c.tokens
    unfold commit
    cases c.saved <;> rfl
  | rollback =>
    show c.rollback.tokens = c.tokens
    unfold rollback
    cases c.saved <;> rfl
  | _ => rfl

theorem tokens_run (c : Savepoints) (ops : List StreamOp) : (c.run ops).tokens = c.tokens := by
  induction ops generalizing c with
  | nil => rfl
  | cons op ops ih => exact (ih _).trans (c.tokens_perform op)

end Savepoints

/-! ## Operations on prompt inputs -/

namespace TokenStream

variable {s : TokenStream}

theorem consumes_consumeMany (n : Nat) (s : TokenStream) :
    Consumes (s.consumeMany n).1 s (s.consumeMany n).2 := by
  induction n generalizing s with
  | zero => exact s.consumes_refl
  | succ n ih =>
    have hc := s.consumes_consume
    rcases h : s.consume with ⟨_ | t, s'⟩
    · rw [h] at hc
      simp only [consumeMany, h]
      exact hc
    · rw [h] at hc
      simp only [consumeMany, h]
      exact hc.trans (ih s')

theorem fst_consumeMany (n : Nat) (h : s.input.Prompt) : (s.consumeMany n).1 = s.rest.take n := by
  induction n generalizing s with
  | zero => rfl
  | succ n ih =>
    have hp := s.consumes_consume.prompt_of h
    have hr := s.consumes_consume.rest_eq
    have hf := fst_consume h
    rcases hc : s.consume with ⟨_ | t, s'⟩
    · rw [hc] at hf
      rw [List.head?_eq_none_iff.mp hf.symm]
      simp only [consumeMany, hc, List.take_nil]
    · rw [hc] at hp hr
      simp only [consumeMany, hc, ih hp]
      rw [hr]
      rfl

theorem mismatch?_take (expected : List Expected) (ts : List Token) :
    mismatch? expected (ts.take expected.length) = mismatch? expected ts := by
  induction expected generalizing ts with
  | nil => rfl
  | cons slot slots ih =>
    cases ts with
    | nil => rfl
    | cons t ts =>
      simp only [List.length_cons, List.take_succ_cons, mismatch?, ih]

theorem mismatch?_buffer_fill (h : s.input.Prompt) (expected : List Expected) :
    mismatch? expected (s.fill expected.length).buffer = mismatch? expected s.rest := by
  rw [← mismatch?_take, ← mismatch?_take expected s.rest, take_buffer_fill h (Nat.le_refl _)]

end TokenStream

/-! ## The invariant -/

/-- The records of frames, innermost first, spell the stretches of a list of tokens that end at a
position, at the first floor, at the second, and so on. Each record begins at its floor. -/
def Layered (tokens : List Token) : Nat → List Nat → List (List Token) → Prop
  | _, [], [] => True
  | pos, floor :: floors, record :: records =>
    floor + record.length = pos ∧ record.reverse ++ tokens.drop pos = tokens.drop floor ∧
      Layered tokens floor floors records
  | _, _, _ => False

theorem Layered.length_eq {tokens : List Token} {pos : Nat} {floors : List Nat}
    {records : List (List Token)} (h : Layered tokens pos floors records) :
    records.length = floors.length := by
  induction floors generalizing pos records with
  | nil =>
    cases records with
    | nil => rfl
    | cons => exact h.elim
  | cons floor floors ih =>
    cases records with
    | nil => exact h.elim
    | cons record records => rw [List.length_cons, List.length_cons, ih h.2.2]

/-- A record grows by tokens that come next. -/
theorem Layered.extend {tokens ts : List Token} {pos : Nat} {floors : List Nat}
    {record : List Token} {records : List (List Token)}
    (h : Layered tokens pos floors (record :: records))
    (hts : ts ++ tokens.drop (pos + ts.length) = tokens.drop pos) :
    Layered tokens (pos + ts.length) floors ((ts.reverse ++ record) :: records) := by
  cases floors with
  | nil => exact h.elim
  | cons floor floors =>
    obtain ⟨hlen, hrec, hup⟩ := h
    refine ⟨?_, ?_, hup⟩
    · rw [List.length_append, List.length_reverse]
      omega
    · rw [List.reverse_append, List.reverse_reverse, List.append_assoc, hts, hrec]

/-- The two innermost records become one, which begins at the second floor. -/
theorem Layered.merge {tokens : List Token} {pos floor : Nat} {floors : List Nat}
    {record around : List Token} {records : List (List Token)}
    (h : Layered tokens pos (floor :: floors) (record :: around :: records)) :
    Layered tokens pos floors ((record ++ around) :: records) := by
  obtain ⟨hlen₁, hrec₁, hup⟩ := h
  cases floors with
  | nil => exact hup.elim
  | cons floor' floors =>
    obtain ⟨hlen₂, hrec₂, hup⟩ := hup
    refine ⟨?_, ?_, hup⟩
    · rw [List.length_append]
      omega
    · rw [List.reverse_append, List.append_assoc, hrec₁, hrec₂]

theorem Layered.flatten_eq {tokens : List Token} {pos base : Nat} {saved : List Nat}
    {records : List (List Token)} (h : Layered tokens pos (saved ++ [base]) records) :
    records.flatten.reverse ++ tokens.drop pos = tokens.drop base := by
  induction saved generalizing pos records with
  | nil =>
    match records, h with
    | [record], h =>
      rw [List.flatten_singleton]
      exact h.2.1
  | cons floor saved ih =>
    match records, h with
    | record :: records, h =>
      rw [List.flatten_cons, List.reverse_append, List.append_assoc, h.2.1]
      exact ih h.2.2

namespace Savepoints

/-- **A stream stands where a cursor with savepoints stands.** -/
structure Tracks (c : Savepoints) (s : TokenStream) : Prop where
  prompt : s.input.Prompt
  pos_le : c.pos ≤ c.tokens.length
  index_eq : s.index = c.pos
  rest_eq : s.rest = c.ahead
  layered : Layered c.tokens c.pos (c.saved ++ [c.base]) (s.record :: s.outer)

variable {c : Savepoints} {s s' : TokenStream} {ts : List Token}

theorem tracks_ofTokens (tokens : List Token) :
    (ofTokens tokens).Tracks (TokenStream.ofTokens tokens) :=
  ⟨TokenInput.prompt_tokens tokens, Nat.zero_le _, rfl, rfl, rfl, rfl, trivial⟩

namespace Tracks

theorem length_outer (h : c.Tracks s) : s.outer.length = c.saved.length := by
  have := h.layered.length_eq
  rw [List.length_cons, List.length_append, List.length_singleton] at this
  omega

theorem length_record_le (h : c.Tracks s) : s.record.length ≤ c.pos := by
  have hl := h.layered
  cases hf : c.saved ++ [c.base] with
  | nil => exact absurd hf (by simp)
  | cons floor floors =>
    rw [hf] at hl
    have := hl.1
    omega

theorem fill (h : c.Tracks s) (n : Nat) : c.Tracks (s.fill n) where
  prompt := TokenStream.prompt_fill h.prompt n
  pos_le := h.pos_le
  index_eq := (s.index_fill n).trans h.index_eq
  rest_eq := (s.rest_fill n).trans h.rest_eq
  layered := by rw [s.record_fill, s.outer_fill]; exact h.layered

theorem consumes (h : c.Tracks s) {n : Nat} (hts : ts = c.ahead.take n)
    (hc : TokenStream.Consumes ts s s') : (c.advance n).Tracks s' := by
  have hpos : (c.advance n).pos = c.pos + ts.length := by
    have := h.pos_le
    rw [hts, ahead, List.length_take, List.length_drop]
    simp only [advance]
    omega
  have hrest : s'.rest = c.tokens.drop (c.pos + ts.length) := by
    have hd : (ts ++ s'.rest).drop ts.length = (c.tokens.drop c.pos).drop ts.length := by
      rw [← hc.rest_eq, h.rest_eq, ahead]
    rwa [List.drop_left, List.drop_drop] at hd
  have hahead : ts ++ c.tokens.drop (c.pos + ts.length) = c.tokens.drop c.pos := by
    rw [← hrest, ← hc.rest_eq, h.rest_eq, ahead]
  refine ⟨hc.prompt_of h.prompt, Nat.min_le_right _ _, ?_, ?_, ?_⟩
  · rw [hc.index_eq, h.index_eq, hpos]
  · rw [hrest, ahead, hpos]
    rfl
  · rw [hpos, hc.record_eq, hc.outer_eq]
    exact h.layered.extend hahead

theorem begin (h : c.Tracks s) : c.begin.Tracks s.begin :=
  ⟨h.prompt, h.pos_le, h.index_eq, h.rest_eq, rfl, rfl, h.layered⟩

theorem commit (h : c.Tracks s) : c.commit.Tracks s.commit := by
  have hl := h.layered
  have hlen := h.length_outer
  cases hs : c.saved with
  | nil =>
    have ho : s.outer = [] := List.length_eq_zero_iff.mp (by rw [hlen, hs]; rfl)
    simp only [Savepoints.commit, TokenStream.commit, hs, ho]
    exact ⟨h.prompt, h.pos_le, h.index_eq, h.rest_eq, rfl, rfl, trivial⟩
  | cons floor saved =>
    obtain ⟨around, outer, ho⟩ : ∃ around outer, s.outer = around :: outer :=
      List.exists_cons_of_length_eq_add_one (by rw [hlen, hs]; rfl)
    rw [hs, ho] at hl
    simp only [Savepoints.commit, TokenStream.commit, hs, ho]
    exact ⟨h.prompt, h.pos_le, h.index_eq, h.rest_eq, hl.merge⟩

theorem rollback (h : c.Tracks s) : c.rollback.Tracks s.rollback := by
  have hl := h.layered
  have hlen := h.length_outer
  have hpos := h.pos_le
  have hindex := h.index_eq
  have hrest : s.record.reverse ++ s.buffer ++ s.input.rest = s.record.reverse ++ c.ahead := by
    rw [List.append_assoc, ← h.rest_eq, TokenStream.rest]
  cases hs : c.saved with
  | nil =>
    have ho : s.outer = [] := List.length_eq_zero_iff.mp (by rw [hlen, hs]; rfl)
    rw [hs] at hl
    obtain ⟨hfloor, hrec, -⟩ := hl
    simp only [Savepoints.rollback, TokenStream.rollback, hs, ho]
    refine ⟨h.prompt, ?_, ?_, hrest.trans hrec, rfl, rfl, trivial⟩
    · show c.base ≤ c.tokens.length
      omega
    · show s.index - s.record.length = c.base
      omega
  | cons floor saved =>
    obtain ⟨around, outer, ho⟩ : ∃ around outer, s.outer = around :: outer :=
      List.exists_cons_of_length_eq_add_one (by rw [hlen, hs]; rfl)
    rw [hs, ho] at hl
    obtain ⟨hfloor, hrec, hup⟩ := hl
    simp only [Savepoints.rollback, TokenStream.rollback, hs, ho]
    refine ⟨h.prompt, ?_, ?_, hrest.trans hrec, hup⟩
    · show floor ≤ c.tokens.length
      omega
    · show s.index - s.record.length = floor
      omega

/-- **Every operation has the same answer on both sides, and keeps the invariant.** -/
theorem perform (h : c.Tracks s) (op : StreamOp) :
    (s.perform op).1 = (c.perform op).1 ∧ (c.perform op).2.Tracks (s.perform op).2 := by
  cases op with
  | hasMore =>
    refine ⟨?_, h.fill 1⟩
    show StreamAnswer.flag (!(s.fill 1).buffer.isEmpty) = .flag (!c.ahead.isEmpty)
    rw [← h.rest_eq, TokenStream.isEmpty_buffer_fill h.prompt]
  | lookup =>
    refine ⟨?_, h.fill 1⟩
    show StreamAnswer.token (s.fill 1).buffer.head? = .token c.ahead.head?
    rw [← h.rest_eq, TokenStream.head?_buffer_fill h.prompt]
  | lookupMany n =>
    refine ⟨?_, h.fill n⟩
    show StreamAnswer.tokens ((s.fill n).buffer.take n) = .tokens (c.ahead.take n)
    rw [← h.rest_eq, TokenStream.take_buffer_fill h.prompt (Nat.le_refl n)]
  | checkFor expected =>
    refine ⟨?_, h.fill expected.length⟩
    show StreamAnswer.checked (s.checkFor expected).1 = .checked (c.check expected)
    rw [check, ← h.rest_eq, ← TokenStream.take_buffer_fill h.prompt (Nat.le_refl _)]
    rfl
  | consume =>
    have hf := TokenStream.fst_consume h.prompt
    rw [h.rest_eq] at hf
    refine ⟨congrArg StreamAnswer.token hf, ?_⟩
    refine h.consumes ?_ s.consumes_consume
    rw [hf, List.take_one]
  | consumeMany n =>
    have hf := TokenStream.fst_consumeMany n h.prompt
    rw [h.rest_eq] at hf
    refine ⟨congrArg StreamAnswer.tokens hf, ?_⟩
    exact h.consumes hf (s.consumes_consumeMany n)
  | consumeExpected expected =>
    have hm : TokenStream.mismatch? expected (s.fill expected.length).buffer =
        TokenStream.mismatch? expected c.ahead := by
      rw [TokenStream.mismatch?_buffer_fill h.prompt, h.rest_eq]
    have hfill := h.fill expected.length
    have hf := TokenStream.fst_consumeMany expected.length hfill.prompt
    rw [hfill.rest_eq] at hf
    simp only [TokenStream.perform, Savepoints.perform, TokenStream.consumeExpected,
      Savepoints.consumeExpected, hm]
    cases TokenStream.mismatch? expected c.ahead with
    | some e => exact ⟨rfl, hfill⟩
    | none =>
      refine ⟨congrArg (fun ts => StreamAnswer.consumed (.ok ts)) hf, ?_⟩
      exact hfill.consumes hf (TokenStream.consumes_consumeMany _ _)
  | begin => exact ⟨rfl, h.begin⟩
  | commit => exact ⟨rfl, h.commit⟩
  | rollback => exact ⟨rfl, h.rollback⟩

/-! ## Sequences of operations -/

theorem run (h : c.Tracks s) (ops : List StreamOp) : (c.run ops).Tracks (s.run ops) := by
  induction ops generalizing c s with
  | nil => exact h
  | cons op ops ih => exact ih (h.perform op).2

theorem trace_eq (h : c.Tracks s) (limit : Nat) (ops : List StreamOp) :
    s.trace limit ops = c.trace limit ops := by
  rw [TokenStream.trace_eq, trace]
  refine Operations.trace_eq (fun s c op (h : c.Tracks s) _ => ?_) (fun _ _ => trivial) h
  obtain ⟨hanswer, hnext⟩ := h.perform op
  refine ⟨?_, hnext⟩
  show ((s.perform op).1, (s.perform op).2.index, (s.perform op).2.depth) = _
  rw [hanswer, hnext.index_eq, TokenStream.depth, hnext.length_outer]

end Tracks

end Savepoints

/-- **No sequence of operations tells a stream over a list of tokens from a cursor with
savepoints.** Where there is room for what the operations ask for, none panics. In every state that
is reached, what was committed for good, the records and what remains make up the list, there is one
frame more than open transactions, and a rollback takes away no more than was counted. -/
theorem trace_ofTokens_eq (limit : Nat) (tokens : List Token) (ops : List StreamOp) :
    (TokenStream.ofTokens tokens).trace limit ops =
        (Savepoints.ofTokens tokens).trace limit ops ∧
      ((∃ s, (TokenStream.ofTokens tokens).runWithin limit ops = .ok s) ↔
        ∀ op ∈ ops, op.room ≤ limit) ∧
      ∀ s, (TokenStream.ofTokens tokens).runWithin limit ops = .ok s →
        let c := (Savepoints.ofTokens tokens).run ops
        s.index = c.pos ∧ s.depth = c.saved.length ∧ s.rest = tokens.drop c.pos ∧
          (s.record :: s.outer).length = c.saved.length + 1 ∧
          tokens.take c.base ++ (s.record :: s.outer).flatten.reverse ++ s.rest = tokens ∧
          s.record.length ≤ s.index := by
  refine ⟨(Savepoints.tracks_ofTokens tokens).trace_eq limit ops, ?_, fun s hs => ?_⟩
  · simp only [TokenStream.runWithin, TokenStream.performWithin_eq, Operations.run_eq_ok_iff,
      exists_and_left, exists_eq', and_true]
  rw [TokenStream.runWithin, TokenStream.performWithin_eq, Operations.run_eq_ok_iff] at hs
  obtain ⟨-, rfl⟩ := hs
  have h := (Savepoints.tracks_ofTokens tokens).run ops
  have hc : ((Savepoints.ofTokens tokens).run ops).tokens = tokens := Savepoints.tokens_run _ _
  refine ⟨h.index_eq, h.length_outer, ?_, ?_, ?_, ?_⟩
  · show ((TokenStream.ofTokens tokens).run ops).rest = _
    rw [h.rest_eq, Savepoints.ahead, hc]
  · show (_ :: ((TokenStream.ofTokens tokens).run ops).outer).length = _
    rw [List.length_cons, h.length_outer]
  · have hflat := h.layered.flatten_eq
    rw [hc] at hflat
    show _ ++ _ ++ ((TokenStream.ofTokens tokens).run ops).rest = _
    rw [List.append_assoc, h.rest_eq, Savepoints.ahead, hc]
    exact (congrArg _ hflat).trans (List.take_append_drop _ _)
  · show _ ≤ ((TokenStream.ofTokens tokens).run ops).index
    rw [h.index_eq]
    exact h.length_record_le

theorem trace_of_consumption_undone :
    let a : Token := .ofType "a" "A" .start .start
    let b : Token := .ofType "b" "B" .start .start
    let s := TokenStream.ofTokens [a, b]
    s.trace 8 [.begin, .consume, .rollback, .consumeMany 2, .consumeMany 9, .begin] =
        [.ok (.done, 0, 1), .ok (.token (some a), 1, 1), .ok (.done, 0, 0),
          .ok (.tokens [a, b], 2, 0), .error .capacityOverflow] ∧
      ∃ s', s.runWithin 8 [.begin, .consume] = .ok s' ∧ s'.index = 1 ∧ s'.rest = [b] := by
  intro a b s
  obtain ⟨htrace, -⟩ := trace_ofTokens_eq 8 [a, b]
    [.begin, .consume, .rollback, .consumeMany 2, .consumeMany 9, .begin]
  obtain ⟨-, hroom, hreached⟩ := trace_ofTokens_eq 8 [a, b] [.begin, .consume]
  obtain ⟨s', hs'⟩ := hroom.mpr (by decide)
  obtain ⟨hindex, -, hrest, -⟩ := hreached s' hs'
  exact ⟨htrace, s', hs', hindex, hrest⟩

end ParserKit
