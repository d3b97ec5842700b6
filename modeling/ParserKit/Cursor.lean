import ParserKit.Lookahead
import ParserKit.Panic
import ParserKit.Source

/-!
# Cursors

A cursor reads a source through a window of bounded size, so that a few characters ahead are
visible before they are consumed.

* `Cursor.fill`: tops the window up. Every other operation does this first.
* `Cursor.peek`, `Cursor.startsWith`, `Cursor.position`, `Cursor.isEof`: look ahead.
* `Cursor.advance`, `Cursor.consume`: move on.
* `Cursor.ofSourceWithin`, `Cursor.consumeWithin`: first make room for the window, or for the
  characters asked for.
* **`Cursor.Moves`**: what every operation comes to. Properties of cursors that topping up and taking
  a character out keep are shown along it.
* **`Cursor.Advances.size_lt`**: advancing over a character leaves less to read.
-/

namespace ParserKit

/-- A source seen through a window of at most `capacity` characters. -/
structure Cursor where
  source : Source
  window : Span
  capacity : Nat

namespace Cursor

/-- A cursor with an empty window, which has room for at least one character. -/
def ofSource (source : Source) (capacity : Nat) : Cursor := ⟨source, [], max 1 capacity⟩

/-- A cursor for whose window there is room. -/
def ofSourceWithin (limit : Nat) (source : Source) (capacity : Nat) : Except Panic Cursor := do
  reserve limit (max 1 capacity)
  return ofSource source capacity

/-- Reads from the source until the window is full, the source is exhausted, or a gap is met. -/
def fill (c : Cursor) : Cursor :=
  match shortfall c.window c.capacity with
  | 0 => c
  | n + 1 =>
    let (read, source) := c.source.pull (n + 1)
    { c with source, window := c.window ++ read }

theorem fill_eq (c : Cursor) :
    c.fill = { c with
      source := (c.source.pull (c.capacity - c.window.length)).2
      window := c.window ++ (c.source.pull (c.capacity - c.window.length)).1 } := by
  unfold fill
  rw [← shortfall_eq]
  split
  · next h => simp [h, Source.pull]
  · next h => rw [h]

def isEof (c : Cursor) : Bool × Cursor :=
  let c := c.fill
  (c.window.isEmpty, c)

def peek (c : Cursor) : Option Char × Cursor :=
  let c := c.fill
  (c.window.head?.map Located.char, c)

def position (c : Cursor) : Position × Cursor :=
  let c := c.fill
  match c.window with
  | [] => (c.source.position, c)
  | next :: _ => (next.position, c)

/-- Whether the window begins with a sequence. No window begins with the empty sequence. -/
def startsWith (c : Cursor) (sequence : List Char) : Bool × Cursor :=
  if sequence.isEmpty then (false, c)
  else
    let c := c.fill
    (sequence.isPrefixOf c.window.chars, c)

def advance (c : Cursor) : Option Located × Cursor :=
  let c := c.fill
  match c.window with
  | [] => (none, c)
  | next :: window => (some next, { c with window }.fill)

/-- Moves over `n` characters, or as many as there are, once there is room for `n` of them. -/
def consume : Nat → Cursor → Span × Cursor
  | 0, c => ([], c)
  | n + 1, c =>
    match c.advance with
    | (none, c') => ([], c')
    | (some next, c') => let (more, c'') := consume n c'; (next :: more, c'')

/-- Makes room for `n` characters, however many are left, and moves over them. -/
def consumeWithin (limit n : Nat) (c : Cursor) : Except Panic (Span × Cursor) := do
  reserve limit n
  return c.consume n

/-! ### Moves -/

/-- **What reading does to a cursor**: its window is topped up, and characters are taken out of it,
`n` of them. -/
inductive Moves (c : Cursor) : Nat → Cursor → Prop
  | refl : Moves c 0 c
  | fill {n : Nat} {d : Cursor} (h : Moves c n d) : Moves c n d.fill
  | take {n : Nat} {d : Cursor} {next : Located} {window : Span} (h : Moves c n d)
      (hw : d.window = next :: window) : Moves c (n + 1) { d with window }

/-- A move over a character at least, if one is in view. -/
def Advances (c d : Cursor) : Prop := ∃ n, c.Moves n d ∧ (c.window ≠ [] → 0 < n)

theorem length_window_le_fill (c : Cursor) : c.window.length ≤ c.fill.window.length := by
  rw [fill_eq, List.length_append]
  exact Nat.le_add_right _ _

theorem Moves.trans {m n : Nat} {b c d : Cursor} (h : b.Moves m c) (h' : c.Moves n d) :
    b.Moves (m + n) d := by
  induction h' with
  | refl => exact h
  | fill _ ih => exact .fill ih
  | take _ hw ih => exact .take ih hw

theorem Moves.length_window_le {n : Nat} {c d : Cursor} (h : c.Moves n d) :
    c.window.length ≤ d.window.length + n := by
  induction h with
  | refl => exact Nat.le_refl _
  | @fill n d _ ih =>
    have := d.length_window_le_fill
    omega
  | @take n d next window _ hw ih =>
    rw [hw, List.length_cons] at ih
    dsimp only
    omega

theorem Moves.window_ne_nil {c d : Cursor} (h : c.Moves 0 d) (hw : c.window ≠ []) :
    d.window ≠ [] := by
  have hle := h.length_window_le
  have hpos := List.length_pos_iff.mpr hw
  exact List.length_pos_iff.mp (by omega)

theorem Moves.advances {b c d : Cursor} (h : b.Moves 0 c) (h' : c.Advances d) : b.Advances d := by
  obtain ⟨n, hn, hpos⟩ := h'
  exact ⟨0 + n, h.trans hn, fun hw => by have := hpos (h.window_ne_nil hw); omega⟩

theorem Advances.trans {b c d : Cursor} {n : Nat} (h : b.Advances c) (h' : c.Moves n d) :
    b.Advances d := by
  obtain ⟨m, hm, hpos⟩ := h
  exact ⟨m + n, hm.trans h', fun hw => Nat.lt_of_lt_of_le (hpos hw) (Nat.le_add_right m n)⟩

theorem moves_startsWith (c : Cursor) (sequence : List Char) :
    c.Moves 0 (c.startsWith sequence).2 := by
  unfold startsWith
  split
  · exact .refl
  · exact .fill (.refl)

theorem advances_advance (c : Cursor) : c.Advances c.advance.2 := by
  have hfill : c.Moves 0 c.fill := .fill (.refl)
  unfold advance
  dsimp only
  split
  · next h => exact ⟨0, hfill, fun hw => absurd h (hfill.window_ne_nil hw)⟩
  · next next window h => exact ⟨1, .fill (.take hfill h), fun _ => Nat.one_pos⟩

theorem moves_consume (n : Nat) (c : Cursor) : ∃ k, c.Moves k (c.consume n).2 := by
  induction n generalizing c with
  | zero => exact ⟨0, .refl⟩
  | succ n ih =>
    obtain ⟨k, hk, -⟩ := c.advances_advance
    unfold consume
    split
    · next h =>
      rw [h] at hk
      exact ⟨k, hk⟩
    · next h =>
      rw [h] at hk
      obtain ⟨l, hl⟩ := ih _
      exact ⟨k + l, hk.trans hl⟩

theorem advances_consume {n : Nat} (hn : 0 < n) (c : Cursor) : c.Advances (c.consume n).2 := by
  obtain ⟨n, rfl⟩ : ∃ m, n = m + 1 := ⟨n - 1, by omega⟩
  have ha := c.advances_advance
  unfold consume
  split
  · next h => rwa [h] at ha
  · next h =>
    rw [h] at ha
    obtain ⟨k, hk⟩ := moves_consume n _
    exact ha.trans hk

/-! ### Progress -/

/-- How many characters are in the window or still to be read. -/
def size (c : Cursor) : Nat := c.window.length + c.source.size

theorem size_fill_le (c : Cursor) : c.fill.size ≤ c.size := by
  have := Source.size_pull_le (c.capacity - c.window.length) c.source
  rw [fill_eq]
  simp only [size, List.length_append]
  omega

theorem Moves.size_le {n : Nat} {c d : Cursor} (h : c.Moves n d) : d.size + n ≤ c.size := by
  induction h with
  | refl => exact Nat.le_refl _
  | @fill n d _ ih =>
    have := d.size_fill_le
    omega
  | @take n d next window _ hw ih =>
    simp only [size, hw, List.length_cons] at ih ⊢
    omega

/-- **Advancing over a character leaves less to read.** -/
theorem Advances.size_lt {c d : Cursor} (h : c.Advances d) (hw : c.window ≠ []) :
    d.size < c.size := by
  obtain ⟨n, hn, hpos⟩ := h
  have hle := hn.size_le
  have := hpos hw
  omega

end Cursor

end ParserKit
