import ParserKit.Cursor
import ParserKit.Lexer.Classify

/-!
# Scanning

A scanner reads characters until a token is complete. It is in one of three modes: between
delimiters, in a comment, or in a quoted string.

* `Mode`, `Scan`: the state of a scan.
* `Cursor.findMarker`: the first of several rules whose marker comes next.
* `Rules.step`: one step, in the mode of the scan; **`Rules.advances_step`**: it consumes something.
* **`Rules.scan`**: scans until at least one token is complete or nothing is left.

A comment yields nothing, and neither does a comment or a string that is not closed.
-/

namespace ParserKit

/-- What a scanner is inside of. A nested comment counts how many comments are open. -/
inductive Mode where
  | normal
  | comment (type : CommentRule) (depth : Nat)
  | string (type : StringRule)
deriving DecidableEq

/-- The state of a scan: the characters of the token in the making, newest first, and the tokens
that are complete. -/
structure Scan where
  cursor : Cursor
  mode : Mode
  pending : Span
  queue : List Token

namespace Cursor

def findMarker {α : Type} (marker : α → Marker) : List α → Cursor → Option α × Cursor
  | [], c => (none, c)
  | a :: as, c =>
    match c.startsWith (marker a).chars with
    | (true, c') => (some a, c')
    | (false, c') => findMarker marker as c'

theorem moves_findMarker {α : Type} (marker : α → Marker) (as : List α) (c : Cursor) :
    c.Moves 0 (c.findMarker marker as).2 := by
  induction as generalizing c with
  | nil => exact .refl
  | cons a as ih =>
    have hs := c.moves_startsWith (marker a).chars
    unfold findMarker
    split
    · next h => rwa [h] at hs
    · next h =>
      rw [h] at hs
      exact hs.trans (ih _)

end Cursor

namespace Rules

variable (r : Rules)

/-- Completes the pending span, which becomes any number of tokens. -/
def flush (s : Scan) : Scan :=
  if s.pending.isEmpty then s
  else { s with pending := [], queue := s.queue ++ r.classify s.pending.reverse }

def emitString (name : String) (s : Scan) : Scan :=
  match s.pending.reverse with
  | [] => s
  | first :: more =>
    { s with pending := [], queue := s.queue ++ [Span.token name first more] }

def skipMarker (m : Marker) (mode : Mode) (s : Scan) : Scan :=
  { s with cursor := (s.cursor.consume m.length).2, mode }

/-- Moves over a marker and keeps it as part of the pending token. -/
def takeMarker (m : Marker) (mode : Mode) (s : Scan) : Scan :=
  let (span, cursor) := s.cursor.consume m.length
  { s with cursor, mode, pending := span.reverse ++ s.pending }

/-- A step over one character that begins no marker, between delimiters. -/
def stepChar (s : Scan) : Scan :=
  match s.cursor.advance with
  | (none, cursor) => { s with cursor }
  | (some next, cursor) =>
    if r.isWhitespace next.char then r.flush { s with cursor }
    else { s with cursor, pending := next :: s.pending }

/-- A step between delimiters. A comment has precedence over a string. -/
def stepNormal (s : Scan) : Scan :=
  match s.cursor.findMarker CommentRule.start r.comments with
  | (some type, cursor) => skipMarker type.start (.comment type 1) (r.flush { s with cursor })
  | (none, cursor) =>
    match cursor.findMarker StringRule.delimiter r.strings with
    | (some type, cursor) => takeMarker type.delimiter (.string type) (r.flush { s with cursor })
    | (none, cursor) => r.stepChar { s with cursor }

/-- A step in a comment. In a nested one its start is recognised before its end. -/
def stepComment (type : CommentRule) (depth : Nat) (s : Scan) : Scan :=
  match s.cursor.findMarker CommentRule.start (if type.nested then [type] else []) with
  | (some _, cursor) => skipMarker type.start (.comment type (depth + 1)) { s with cursor }
  | (none, cursor) =>
    match cursor.startsWith type.stop.chars with
    | (true, cursor) =>
      let mode := if depth ≤ 1 then .normal else .comment type (depth - 1)
      skipMarker type.stop mode { s with cursor }
    | (false, cursor) => { s with cursor := cursor.advance.2 }

/-- A step in a string. Its escape sequence is recognised before its delimiter. -/
def stepString (type : StringRule) (s : Scan) : Scan :=
  match s.cursor.findMarker id type.escape.toList with
  | (some escape, cursor) => takeMarker escape (.string type) { s with cursor }
  | (none, cursor) =>
    match cursor.startsWith type.delimiter.chars with
    | (true, cursor) =>
      emitString type.name (takeMarker type.delimiter .normal { s with cursor })
    | (false, cursor) =>
      match cursor.advance with
      | (none, cursor) => { s with cursor }
      | (some next, cursor) => { s with cursor, pending := next :: s.pending }

def step (s : Scan) : Scan :=
  match s.mode with
  | .normal => r.stepNormal s
  | .comment type depth => stepComment type depth s
  | .string type => stepString type s

/-! ### Every step consumes something -/

@[simp] theorem cursor_flush (s : Scan) : (r.flush s).cursor = s.cursor := by
  unfold flush; split <;> rfl

@[simp] theorem cursor_emitString (name : String) (s : Scan) :
    (emitString name s).cursor = s.cursor := by
  unfold emitString; split <;> rfl

theorem advances_skipMarker (m : Marker) (mode : Mode) (s : Scan) :
    s.cursor.Advances (skipMarker m mode s).cursor :=
  Cursor.advances_consume (Nat.succ_pos _) _

theorem advances_takeMarker (m : Marker) (mode : Mode) (s : Scan) :
    s.cursor.Advances (takeMarker m mode s).cursor :=
  Cursor.advances_consume (Nat.succ_pos _) _

theorem advances_stepChar (s : Scan) : s.cursor.Advances (r.stepChar s).cursor := by
  have ha := s.cursor.advances_advance
  unfold stepChar
  split
  · next h => rwa [h] at ha
  · next h =>
    rw [h] at ha
    split
    · rwa [cursor_flush]
    · exact ha

theorem advances_stepNormal (s : Scan) : s.cursor.Advances (r.stepNormal s).cursor := by
  have hc := s.cursor.moves_findMarker CommentRule.start r.comments
  unfold stepNormal
  split
  · next type cursor h =>
    rw [h] at hc
    have hm := advances_skipMarker type.start (.comment type 1) (r.flush { s with cursor })
    rw [cursor_flush] at hm
    exact hc.advances hm
  · next cursor h =>
    rw [h] at hc
    have hs := cursor.moves_findMarker StringRule.delimiter r.strings
    split
    · next type cursor h =>
      rw [h] at hs
      have hm := advances_takeMarker type.delimiter (.string type) (r.flush { s with cursor })
      rw [cursor_flush] at hm
      exact (hc.trans hs).advances hm
    · next cursor h =>
      rw [h] at hs
      exact (hc.trans hs).advances (r.advances_stepChar { s with cursor })

theorem advances_stepComment (type : CommentRule) (depth : Nat) (s : Scan) :
    s.cursor.Advances (stepComment type depth s).cursor := by
  have hc := s.cursor.moves_findMarker CommentRule.start (if type.nested then [type] else [])
  unfold stepComment
  split
  · next cursor h =>
    rw [h] at hc
    exact hc.advances (advances_skipMarker _ _ { s with cursor })
  · next cursor h =>
    rw [h] at hc
    have hs := cursor.moves_startsWith type.stop.chars
    split
    · next cursor h =>
      rw [h] at hs
      exact (hc.trans hs).advances (advances_skipMarker _ _ { s with cursor })
    · next cursor h =>
      rw [h] at hs
      exact (hc.trans hs).advances cursor.advances_advance

theorem advances_stepString (type : StringRule) (s : Scan) :
    s.cursor.Advances (stepString type s).cursor := by
  have hc := s.cursor.moves_findMarker id type.escape.toList
  unfold stepString
  split
  · next cursor h =>
    rw [h] at hc
    exact hc.advances (advances_takeMarker _ _ { s with cursor })
  · next cursor h =>
    rw [h] at hc
    have hs := cursor.moves_startsWith type.delimiter.chars
    split
    · next cursor h =>
      rw [h] at hs
      rw [cursor_emitString]
      exact (hc.trans hs).advances (advances_takeMarker _ _ { s with cursor })
    · next cursor h =>
      rw [h] at hs
      have ha := (hc.trans hs).advances cursor.advances_advance
      split
      · next h => rwa [h] at ha
      · next h => rwa [h] at ha

/-- **A step moves over a character at least**, if one is in view. -/
theorem advances_step (s : Scan) : s.cursor.Advances (r.step s).cursor := by
  unfold step
  split
  · exact r.advances_stepNormal s
  · exact advances_stepComment _ _ s
  · exact advances_stepString _ s

/-- Scans until at least one token is complete or nothing is left. At the end, the pending span is
completed, but an open comment or string is dropped. -/
def scan (s : Scan) : Scan :=
  if s.mode = .normal ∧ s.pending = [] ∧ s.queue ≠ [] then s
  else
    let filled := { s with cursor := s.cursor.fill }
    if h : filled.cursor.window = [] then
      match filled.mode with
      | .normal => r.flush filled
      | _ => filled
    else
      have := Nat.lt_of_lt_of_le ((r.advances_step filled).size_lt h) s.cursor.size_fill_le
      scan (r.step filled)
termination_by s.cursor.size

end Rules

end ParserKit
