import ParserKit.Proofs.Lexer.Reopening
import ParserKit.Proofs.Operations

/-!
# The size of a window

A cursor reads ahead of what it has moved over, by as much as its window has room for. Seen from
outside it is a bookmark in a text.

* `CursorOp`, `CursorAnswer`, `Cursor.perform`: the operations on a cursor, as data.
* `Cursor.performWithin`: an operation that panics if it asks for more room than there is.
* **`Bookmark`**: a text at hand, and how many of its characters have been moved over.
* `Cursor.OnText`: the source of a cursor is at the place to which what it has read leads.
* **`Bookmark.Tracks`**: the invariant; `Bookmark.Tracks.perform`: every operation keeps it and has
  the same answer on both sides, but for sequences that do not fit the window.
* **`Cursor.trace_of_any_capacity`**: no sequence of operations tells one window size from another.
-/

namespace ParserKit

/-! ## Operations -/

/-- An operation on a cursor. -/
inductive CursorOp where
  | fill
  | peek
  | position
  | isEof
  | startsWith (sequence : List Char)
  | advance
  | consume (n : Nat)

/-- What an operation returns. -/
inductive CursorAnswer where
  | done
  | char (c : Option Char)
  | place (p : Position)
  | flag (b : Bool)
  | located (c : Option Located)
  | span (s : Span)
deriving DecidableEq

/-- An operation that asks for no more characters at once than a window of some size shows. -/
def CursorOp.FitsIn (width : Nat) : CursorOp → Prop
  | .startsWith sequence => sequence.length ≤ width
  | _ => True

/-- The number of characters for which an operation makes room before it starts. -/
def CursorOp.room : CursorOp → Nat
  | .consume n => n
  | _ => 0

instance (width : Nat) : DecidablePred (CursorOp.FitsIn width)
  | .startsWith sequence => inferInstanceAs (Decidable (sequence.length ≤ width))
  | .fill | .peek | .position | .isEof | .advance | .consume _ => isTrue trivial

/-- The answer through a window of some size, by that without a window: a sequence that does not fit
is never seen. -/
def CursorOp.throughWindow (width : Nat) (op : CursorOp) (answer : CursorAnswer) : CursorAnswer :=
  if op.FitsIn width then answer else .flag false

namespace Cursor

def perform (c : Cursor) : CursorOp → CursorAnswer × Cursor
  | .fill => (.done, c.fill)
  | .peek => let (next, c) := c.peek; (.char next, c)
  | .position => let (p, c) := c.position; (.place p, c)
  | .isEof => let (b, c) := c.isEof; (.flag b, c)
  | .startsWith sequence => let (b, c) := c.startsWith sequence; (.flag b, c)
  | .advance => let (next, c) := c.advance; (.located next, c)
  | .consume n => let (span, c) := c.consume n; (.span span, c)

/-- Performs an operation if there is room for what it asks for. -/
def performWithin (limit : Nat) (c : Cursor) : CursorOp → Except Panic (CursorAnswer × Cursor)
  | .consume n => do
    let (span, c) ← c.consumeWithin limit n
    return (.span span, c)
  | op => return c.perform op

def run (limit : Nat) (ops : List CursorOp) (c : Cursor) : Except Panic Cursor :=
  Operations.run (performWithin limit) ops c

def trace (limit : Nat) (ops : List CursorOp) (c : Cursor) : List (Except Panic CursorAnswer) :=
  Operations.trace (performWithin limit) ops c

theorem ofSourceWithin_eq_ok_iff {limit capacity : Nat} {source : Source} {c : Cursor} :
    ofSourceWithin limit source capacity = .ok c ↔
      max 1 capacity ≤ limit ∧ c = ofSource source capacity := by
  unfold ofSourceWithin
  by_cases h : max 1 capacity ≤ limit
  · rw [reserve_eq_ok h, and_iff_right h]
    exact ⟨fun hc => (Except.ok.inj hc).symm, fun hc => congrArg Except.ok hc.symm⟩
  · rw [reserve_eq_error (Nat.not_le.mp h)]
    exact iff_of_false nofun fun hc => h hc.1

theorem performWithin_eq (limit : Nat) :
    performWithin limit = Operations.reserving limit CursorOp.room perform := by
  funext c op
  cases op with
  | consume n =>
    rw [performWithin, consumeWithin, Operations.reserving, CursorOp.room]
    cases reserve limit n <;> rfl
  | _ =>
    simp only [Operations.reserving, CursorOp.room, reserve_zero]
    rfl

theorem moves_position (c : Cursor) : c.Moves 0 c.position.2 := by
  unfold position
  dsimp only
  split <;> exact .fill .refl

end Cursor

/-! ## Bookmarks -/

/-- A text at hand, of which `pos` characters have been moved over. -/
structure Bookmark where
  text : List Char
  pos : Nat

namespace Bookmark

def ofText (text : String) : Bookmark := ⟨text.toList, 0⟩

def place (b : Bookmark) : Position := .after (b.text.take b.pos)

def rest (b : Bookmark) : List Char := b.text.drop b.pos

/-- The characters behind the bookmark, each at the place to which all characters before it lead. -/
def ahead (b : Bookmark) : Span :=
  (b.text.mapIdx fun i c => ⟨c, .after (b.text.take i)⟩).drop b.pos

/-- Moves over `n` characters, or as many as there are. -/
def advance (b : Bookmark) (n : Nat) : Bookmark := { b with pos := min (b.pos + n) b.text.length }

def perform (b : Bookmark) : CursorOp → CursorAnswer × Bookmark
  | .fill => (.done, b)
  | .peek => (.char b.rest.head?, b)
  | .position => (.place b.place, b)
  | .isEof => (.flag b.rest.isEmpty, b)
  | .startsWith sequence => (.flag (decide (sequence ≠ [] ∧ sequence <+: b.rest)), b)
  | .advance => (.located b.ahead.head?, b.advance 1)
  | .consume n => (.span (b.ahead.take n), b.advance n)

/-- The answers to a sequence of operations, up to the first for which there is no room. -/
def trace (limit : Nat) (ops : List CursorOp) (b : Bookmark) : List (Except Panic CursorAnswer) :=
  Operations.trace (Operations.reserving limit CursorOp.room perform) ops b

end Bookmark

theorem locate_after (before text : List Char) :
    locate (.after before) text = text.mapIdx fun i c => ⟨c, .after (before ++ text.take i)⟩ := by
  induction text generalizing before with
  | nil => rfl
  | cons c text ih =>
    rw [locate, ← Position.after_concat, ih, List.mapIdx_cons, List.take_zero, List.append_nil]
    simp only [List.take_succ_cons, List.append_assoc, List.singleton_append]

namespace Bookmark

variable (b : Bookmark)

theorem ahead_eq : b.ahead = (locate .start b.text).drop b.pos :=
  congrArg (List.drop b.pos) (locate_after [] b.text).symm

theorem chars_ahead : b.ahead.chars = b.rest := by
  rw [ahead_eq, Span.chars, List.map_drop, ← Span.chars, chars_locate, rest]

theorem ahead_eq_nil_iff : b.ahead = [] ↔ b.rest = [] := by
  rw [← b.chars_ahead, Span.chars, List.map_eq_nil_iff]

theorem head?_ahead : b.ahead.head? = b.rest.head?.map (⟨·, b.place⟩) := by
  rw [ahead, rest, List.head?_drop, List.head?_drop, List.getElem?_mapIdx, place]

theorem ahead_advance (n : Nat) : (b.advance n).ahead = b.ahead.drop n := by
  have hlen : (locate .start b.text).length = b.text.length := by
    rw [← Span.length_chars, chars_locate]
  rw [b.ahead_eq, List.drop_drop, List.drop_eq_drop_min, hlen]
  exact ahead_eq _

end Bookmark

/-! ## Cursors on a text -/

theorem Source.pull_text (n : Nat) (before rest : List Char) :
    ∃ before' rest', before' ++ rest' = before ++ rest ∧
      ((text ⟨rest, .after before⟩).pull n).2 = .text ⟨rest', .after before'⟩ := by
  induction n generalizing before rest with
  | zero => exact ⟨before, rest, rfl, rfl⟩
  | succ n ih =>
    cases rest with
    | nil => exact ⟨before, [], rfl, rfl⟩
    | cons c cs =>
      obtain ⟨before', rest', happ, hpull⟩ := ih (before ++ [c]) cs
      refine ⟨before', rest', by rw [happ, List.append_assoc, List.singleton_append], ?_⟩
      rw [Position.after_concat] at hpull
      exact hpull

/-- **A cursor on a text**, through a window of size `n` that is not overfull. Its source is at the
place to which the characters that were read from it lead. -/
structure Cursor.OnText (text : List Char) (n : Nat) (c : Cursor) : Prop where
  source_eq : ∃ before rest, before ++ rest = text ∧ c.source = .text ⟨rest, .after before⟩
  capacity_eq : c.capacity = n
  window_le : c.window.length ≤ n

theorem Cursor.kept_onText (text : List Char) (n : Nat) : Kept (OnText text n) where
  fill := by
    rintro c ⟨⟨before, rest, happ, hs⟩, rfl, hw⟩
    obtain ⟨before', rest', happ', hpull⟩ :=
      Source.pull_text (c.capacity - c.window.length) before rest
    refine ⟨⟨before', rest', happ'.trans happ, ?_⟩, by rw [fill_eq], length_window_fill_le hw⟩
    rw [fill_eq, hs]
    exact hpull
  tail := by
    rintro c next window ⟨hs, hc, hw⟩ hcons
    rw [hcons] at hw
    exact ⟨hs, hc, Nat.le_of_succ_le hw⟩

/-! ## The invariant -/

theorem Cursor.Shows.moves {c d : Cursor} {n k : Nat} {text : Span} (h : c.Shows n text)
    (hm : c.Moves k d) : d.Shows n (text.drop k) := by
  induction hm with
  | refl => exact h
  | fill _ ih => exact ih.fill.1
  | take hm hw ih =>
    refine ⟨ih.prompt, ih.room, ?_⟩
    rw [← h.text_eq]
    exact (hm.take hw).ahead_eq

namespace Bookmark

/-- **A bookmark tracks a cursor**: the cursor shows the characters behind the bookmark. Its source
is ahead of the bookmark by the characters in its window. -/
structure Tracks (b : Bookmark) (n : Nat) (c : Cursor) : Prop where
  size_pos : 0 < n
  shows_ahead : c.Shows n b.ahead
  on_text : c.OnText b.text n

theorem tracks_ofText (text : String) (n : Nat) :
    (ofText text).Tracks (max 1 n) (Cursor.ofSource (.ofString text) n) where
  size_pos := Nat.lt_of_lt_of_le Nat.one_pos (Nat.le_max_left 1 n)
  shows_ahead := by
    refine ⟨trivial, Nat.le_refl _, ?_⟩
    rw [ahead_eq]
    rfl
  on_text := ⟨⟨[], text.toList, rfl, rfl⟩, rfl, Nat.zero_le _⟩

namespace Tracks

variable {b : Bookmark} {n : Nat} {c : Cursor} (h : b.Tracks n c)
include h

theorem peek : c.peek.1 = b.rest.head? := by
  obtain ⟨-, m, hm, hw⟩ := h.shows_ahead.fill
  have hpos := h.size_pos
  show c.fill.window.head?.map Located.char = _
  rw [hw, ← b.chars_ahead, Span.chars, List.head?_map, List.head?_take, if_neg (by omega)]

theorem position : c.position.1 = b.place := by
  obtain ⟨hs, m, hm, hw⟩ := h.shows_ahead.fill
  have hpos := h.size_pos
  have hhead : c.fill.window.head? = b.rest.head?.map (⟨·, b.place⟩) := by
    rw [hw, List.head?_take, if_neg (by omega), head?_ahead]
  unfold Cursor.position
  dsimp only
  cases hwin : c.fill.window with
  | cons next window =>
    rw [hwin, List.head?_cons] at hhead
    obtain ⟨_, -, rfl⟩ := Option.map_eq_some_iff.mp hhead.symm
    rfl
  | nil =>
    -- nothing is left, so the source has been read to its end
    have hnil : b.ahead = [] := (h.shows_ahead.window_fill_eq_nil hpos).mp hwin
    obtain ⟨before, rest, happ, hsource⟩ := ((Cursor.kept_onText _ _).fill h.on_text).source_eq
    have hrest : locate (.after before) rest = [] := by
      have htext := hs.text_eq
      rw [hwin, hsource, hnil] at htext
      exact htext
    have hr : rest = [] := by rw [← chars_locate (.after before) rest, hrest, Span.chars_nil]
    rw [hr, List.append_nil] at happ
    have hle : b.text.length ≤ b.pos := List.drop_eq_nil_iff.mp ((b.ahead_eq_nil_iff).mp hnil)
    show c.fill.source.position = b.place
    rw [hsource, happ, place, List.take_of_length_le hle]
    rfl

theorem isEof : c.isEof.1 = b.rest.isEmpty := by
  show c.fill.window.isEmpty = _
  rw [Bool.eq_iff_iff, List.isEmpty_iff, List.isEmpty_iff, ← ahead_eq_nil_iff]
  exact h.shows_ahead.window_fill_eq_nil h.size_pos

/-- A sequence that fits the window is seen where the text has it, and no other is ever seen. -/
theorem startsWith (sequence : List Char) :
    (c.startsWith sequence).1 = true ↔
      sequence.length ≤ n ∧ sequence ≠ [] ∧ sequence <+: b.rest := by
  cases sequence with
  | nil => simp [Cursor.startsWith]
  | cons first more =>
    have hwindow := ((Cursor.kept_onText _ _).fill h.on_text).window_le
    by_cases hlen : (first :: more).length ≤ n
    · obtain ⟨c', hs, -⟩ := h.shows_ahead.startsWith ⟨first, more⟩ hlen
      rw [and_iff_right hlen, and_iff_right (List.cons_ne_nil first more),
        show first :: more = Marker.chars ⟨first, more⟩ from rfl, hs, Marker.begins, b.chars_ahead,
        List.isPrefixOf_iff_prefix]
    · refine iff_of_false (fun hstarts => hlen ?_) fun hfits => hlen hfits.1
      have hprefix : first :: more <+: c.fill.window.chars := List.isPrefixOf_iff_prefix.mp hstarts
      exact Nat.le_trans hprefix.length_le (by rwa [Span.length_chars])

theorem look {d : Cursor} (hm : c.Moves 0 d) : b.Tracks n d :=
  ⟨h.size_pos, h.shows_ahead.moves hm, (Cursor.kept_onText _ _).moves hm h.on_text⟩

/-- **Every operation keeps the invariant**, and has the answer that it has without a window. A
sequence that does not fit the window is the exception. -/
theorem perform (op : CursorOp) :
    (c.perform op).1 = op.throughWindow n (b.perform op).1 ∧
      (b.perform op).2.Tracks n (c.perform op).2 := by
  cases op with
  | fill => exact ⟨rfl, h.look (.fill .refl)⟩
  | peek => exact ⟨congrArg CursorAnswer.char h.peek, h.look (.fill .refl)⟩
  | position => exact ⟨congrArg CursorAnswer.place h.position, h.look c.moves_position⟩
  | isEof => exact ⟨congrArg CursorAnswer.flag h.isEof, h.look (.fill .refl)⟩
  | startsWith sequence =>
    refine ⟨?_, h.look (c.moves_startsWith sequence)⟩
    have hs := h.startsWith sequence
    show CursorAnswer.flag (c.startsWith sequence).1 = _
    unfold CursorOp.throughWindow
    split
    · next hfits =>
      rw [and_iff_right (show sequence.length ≤ n from hfits)] at hs
      exact congrArg CursorAnswer.flag (Bool.eq_iff_iff.mpr (hs.trans decide_eq_true_iff.symm))
    · next hfits =>
      exact congrArg CursorAnswer.flag
        (Bool.eq_false_iff.mpr fun hstarts => hfits (hs.mp hstarts).1)
  | advance =>
    obtain ⟨c', ha, hs⟩ := h.shows_ahead.advance h.size_pos
    obtain ⟨k, hm, -⟩ := c.advances_advance
    have hon := (Cursor.kept_onText _ _).moves hm h.on_text
    rw [ha] at hon
    simp only [Cursor.perform, ha]
    refine ⟨rfl, h.size_pos, ?_, hon⟩
    show c'.Shows n (b.advance 1).ahead
    rwa [ahead_advance, List.drop_one]
  | consume k =>
    obtain ⟨c', hk, hs⟩ := h.shows_ahead.consume k h.size_pos
    obtain ⟨l, hm⟩ := Cursor.moves_consume k c
    have hon := (Cursor.kept_onText _ _).moves hm h.on_text
    rw [hk] at hon
    simp only [Cursor.perform, hk]
    refine ⟨rfl, h.size_pos, ?_, hon⟩
    show c'.Shows n (b.advance k).ahead
    rwa [ahead_advance]

/-! ## Sequences of operations -/

theorem performAll (ops : List CursorOp) :
    ∃ b' : Bookmark, b'.Tracks n (ops.foldl (fun c op => (c.perform op).2) c) := by
  induction ops generalizing b c with
  | nil => exact ⟨b, h⟩
  | cons op ops ih => exact ih (h.perform op).2

theorem trace_of_fits (limit : Nat) {ops : List CursorOp} (hops : ∀ op ∈ ops, op.FitsIn n) :
    c.trace limit ops = b.trace limit ops := by
  rw [Cursor.trace, trace, Cursor.performWithin_eq]
  refine Operations.trace_eq (fun c b op (h : b.Tracks n c) hop => ?_) hops h
  obtain ⟨hanswer, hnext⟩ := h.perform op
  rw [CursorOp.throughWindow, if_pos hop] at hanswer
  exact ⟨hanswer, hnext⟩

end Tracks

end Bookmark

/-- **No sequence of operations tells one window size from another**, as long as no sequence is
asked for that does not fit both windows. The answers are those of one who has the text at hand. A
sequence that does not fit the window is never said to come next. A cursor is made where there is
room for its window, and an operation has an answer where there is room for what it asks for;
otherwise both panic. -/
theorem Cursor.trace_of_any_capacity (limit : Nat) (text : String) (m n : Nat)
    (ops : List CursorOp) :
    ((∃ c, ofSourceWithin limit (.ofString text) m = .ok c) ↔ max 1 m ≤ limit) ∧
    ∀ c d, ofSourceWithin limit (.ofString text) m = .ok c →
      ofSourceWithin limit (.ofString text) n = .ok d →
      ((∀ op ∈ ops, op.FitsIn c.capacity ∧ op.FitsIn d.capacity) →
        c.trace limit ops = d.trace limit ops ∧
          c.trace limit ops = (Bookmark.ofText text).trace limit ops) ∧
      ((∀ op ∈ ops, op.room ≤ limit) →
        ∃ answers : List CursorAnswer, answers.length = ops.length ∧
          c.trace limit ops = answers.map .ok) ∧
      ∀ e, c.run limit ops = .ok e →
        ∀ sequence : List Char, c.capacity < sequence.length →
          (e.startsWith sequence).1 = false := by
  refine ⟨?_, fun c d hc hd => ?_⟩
  · simp only [ofSourceWithin_eq_ok_iff, exists_and_left, exists_eq, and_true]
  obtain ⟨-, rfl⟩ := ofSourceWithin_eq_ok_iff.mp hc
  obtain ⟨-, rfl⟩ := ofSourceWithin_eq_ok_iff.mp hd
  have hc := Bookmark.tracks_ofText text m
  have hd := Bookmark.tracks_ofText text n
  refine ⟨fun hops => ?_, fun hroom => ?_, fun e he sequence hlong => ?_⟩
  · have hct := hc.trace_of_fits limit fun op hop => (hops op hop).1
    have hdt := hd.trace_of_fits limit fun op hop => (hops op hop).2
    exact ⟨hct.trans hdt.symm, hct⟩
  · rw [trace, performWithin_eq]
    exact Operations.trace_of_room hroom
  · rw [run, performWithin_eq, Operations.run_eq_ok_iff] at he
    obtain ⟨-, rfl⟩ := he
    obtain ⟨b, hb⟩ := hc.performAll ops
    refine Bool.eq_false_iff.mpr fun hstarts => ?_
    exact Nat.not_lt.mpr ((hb.startsWith sequence).mp hstarts).1 hlong

theorem Cursor.trace_through_two_windows :
    let c := ofSource (.ofString "(*\né") 2
    let d := ofSource (.ofString "(*\né") 7
    let ops : List CursorOp :=
      [.startsWith ['(', '*'], .consume 3, .position, .peek, .advance, .advance, .position, .isEof]
    ofSourceWithin 9 (.ofString "(*\né") 2 = .ok c ∧
      ofSourceWithin 9 (.ofString "(*\né") 7 = .ok d ∧
      (∀ op ∈ ops, op.FitsIn c.capacity ∧ op.FitsIn d.capacity) ∧
      c.trace 9 ops = d.trace 9 ops ∧
      c.trace 9 ops = [.flag true, .span [⟨'(', ⟨1, 1, 0⟩⟩, ⟨'*', ⟨1, 2, 1⟩⟩, ⟨'\n', ⟨1, 3, 2⟩⟩],
        .place ⟨2, 1, 3⟩, .char (some 'é'), .located (some ⟨'é', ⟨2, 1, 3⟩⟩), .located none,
        .place ⟨2, 2, 4⟩, .flag true].map .ok ∧
      c.trace 9 [.consume 10, .peek] = [.error .capacityOverflow] ∧
      c.run 9 [] = .ok c ∧ c.capacity < 3 ∧ (c.startsWith ['(', '*', '\n']).1 = false := by
  intro c d ops
  have hfits : ∀ op ∈ ops, op.FitsIn c.capacity ∧ op.FitsIn d.capacity := by decide
  obtain ⟨-, htwo⟩ := trace_of_any_capacity 9 "(*\né" 2 7 ops
  obtain ⟨hsame, hdirect⟩ := (htwo c d rfl rfl).1 hfits
  obtain ⟨-, hone⟩ := trace_of_any_capacity 9 "(*\né" 2 2 []
  obtain ⟨-, hover⟩ := trace_of_any_capacity 9 "(*\né" 2 2 [.consume 10, .peek]
  refine ⟨rfl, rfl, hfits, hsame, hdirect.trans ?_, ?_, rfl, by decide, ?_⟩
  · rfl
  · exact ((hover c c rfl rfl).1 (by decide)).2
  · exact (hone c c rfl rfl).2.2 c rfl _ (by decide)

end ParserKit
