import Mathlib
import ParserKit.Lexer.Rules
import ParserKit.Proofs.Pattern.Bounds

/-!
# Patterns in a frame

A terminal pattern is read in a frame, which is to make it match whole texts only. The frame is put
around the pattern as a text, so it has to be shown that the pattern does not get out of it.

* `grouped`: a pattern as a group, in the middle of the frame.
* `PatternReader.within`: a reader with further choices around those that are open.
* **`PatternReader.run_append`**: a run over a text with the end of the frame behind it.
* **`Piece.parse_grouped`**, **`Piece.parse_anchored`**: a pattern as a group, alone and between the
  anchors, compared with the pattern on its own.
-/

namespace ParserKit

/-- A pattern as a group. -/
def grouped (pattern : List Char) : List Char := "(?:".toList ++ pattern ++ [')']

theorem anchored_eq (pattern : List Char) : anchored pattern = '^' :: (grouped pattern ++ ['$']) := by
  simp [anchored, grouped]

/-! ## Runs -/

namespace PatternReader

/-- A reader with further choices around those that are open. -/
def within (r : PatternReader) (around : List Layer) : PatternReader :=
  { r with outer := r.outer ++ around }

@[simp] theorem flags_within (r : PatternReader) (around : List Layer) :
    (r.within around).flags = r.flags := rfl

/-- What stands further out does not matter to an item that can be added. -/
theorem add_within {r r' : PatternReader} {item : Item} (h : r.add item = .ok r')
    (around : List Layer) : (r.within around).add item = .ok (r'.within around) := by
  cases item with
  | atom p | setting flags | bar =>
    cases h
    rfl
  | repetition least most isLazy =>
    dsimp only [add, repeatLast, within] at h ⊢
    split at h
    · cases h
      rfl
    · cases h
  | opening kind inner =>
    cases kind with
    | plain | numbered =>
      cases h
      rfl
    | named name =>
      dsimp only [add, within] at h ⊢
      split at h
      · cases h
      · next hname =>
        cases h
        exact if_neg hname
  | closing =>
    cases hr : r.outer with
    | nil =>
      simp only [add, hr] at h
      cases h
    | cons l outer =>
      simp only [add, hr] at h
      cases h
      simp only [add, hr, within, List.cons_append]

theorem run_nil (r : PatternReader) : r.run [] = .ok r := by
  rw [run_eq, nextItem_eq, skip_nil]

theorem run_of_nextItem {r r' : PatternReader} {s rest : List Char} {item : Item}
    (hitem : nextItem r.flags s = .ok (some (item, rest))) (hadd : r.add item = .ok r') :
    r.run s = r'.run rest := by
  rw [run_eq, hitem]
  dsimp only
  rw [hadd]
  rfl

/-- **A run with more text behind.** Whatever stands around it, at the end of the text the
parenthesis in `frameEnd` is read, or it is hidden in a comment. -/
theorem run_append {r r' : PatternReader} {s : List Char} (h : r.run s = .ok r') :
    (∀ n around, (r.within around).run (s ++ frameEnd n) =
      (r'.within around).add .closing >>= fun r'' => r''.run (List.replicate n '$')) ∨
    ∀ n around, (r.within around).run (s ++ frameEnd n) = .ok (r'.within around) := by
  rw [run_eq] at h
  match hnext : nextItem r.flags s with
  | .error f =>
    rw [hnext] at h
    cases h
  | .ok none =>
    rw [hnext] at h
    cases h
    rcases nextItem_append_of_end r.flags hnext with hread | hread
    · exact .inl fun n around => by rw [run_eq, flags_within, hread]
    · exact .inr fun n around => by rw [run_eq, flags_within, hread]
  | .ok (some (item, rest)) =>
    have hlen := length_lt_of_nextItem hnext
    rw [hnext] at h
    cases hadd : r.add item with
    | error f =>
      dsimp only at h
      rw [hadd] at h
      cases h
    | ok r₁ =>
      dsimp only at h
      rw [hadd] at h
      change r₁.run rest = .ok r' at h
      have hstep := add_within hadd
      rcases nextItem_append r.flags hnext with hread | ⟨rfl, hread⟩
      · have hrun (n : Nat) (around : List Layer) : (r.within around).run (s ++ frameEnd n) =
            (r₁.within around).run (rest ++ frameEnd n) :=
          run_of_nextItem (r := r.within around) (hread n) (hstep around)
        simp only [hrun]
        exact run_append h
      · -- a comment behind the item hides the end
        obtain rfl := Except.ok.inj ((run_nil r₁).symm.trans h)
        exact .inr fun n around =>
          (run_of_nextItem (r := r.within around) (hread n) (hstep around)).trans (run_nil _)
termination_by s.length

/-! ## The frame -/

/-- The kinds of the open choices and the flags to go back to behind them, the innermost first. -/
def grounds (r : PatternReader) : List (GroupKind × PatternFlags) :=
  (r.layer :: r.outer).map fun l => (l.kind, l.flags)

/-- The outermost choice of a pattern is no group, and the flags around it are the default ones. -/
def Grounded (r : PatternReader) : Prop := [(GroupKind.plain, ({} : PatternFlags))] <:+ r.grounds

theorem Grounded.add {r r' : PatternReader} {item : Item} (hr : r.Grounded)
    (h : r.add item = .ok r') : r'.Grounded := by
  cases adds_of_add h with
  | atom | setting | bar | repeated => exact hr
  | opened => exact hr.trans (List.suffix_cons _ _)
  | closed houter =>
    have hr : [_] <:+ _ :: (r.outer.map fun l => (l.kind, l.flags)) := hr
    rw [houter] at hr
    rcases List.suffix_cons_iff.mp hr with heq | hsuffix
    · simp at heq
    · exact hsuffix

theorem finish_of_open {r : PatternReader} (hr : r.outer ≠ []) :
    r.finish = .error .unclosedGroup := by
  unfold finish
  rw [if_neg (by simpa using hr)]

theorem finish_of_closed {r : PatternReader} (hr : r.outer = []) : r.finish = .ok r.layer.close := by
  unfold finish
  rw [if_pos (by simpa using hr)]

/-- What stands around the group in the frame: an anchor in front of it. -/
def frameLayer : Layer := ({} : Layer).push ⟨.look .textStart, 0⟩

theorem run_caret (s : List Char) : run {} ('^' :: s) = run { layer := frameLayer } s := by
  have hitem : nextItem {} ('^' :: s) = .ok (some (.atom ⟨.look .textStart, 0⟩, s)) := by
    rw [nextItem_eq]
    rfl
  exact run_of_nextItem (r := {}) hitem rfl

theorem run_dollar (l : Layer) (names : List String) :
    run { layer := l, names } ['$'] = .ok { layer := l.push ⟨.look .textEnd, 0⟩, names } := by
  have hitem : nextItem {} ['$'] = .ok (some (.atom ⟨.look .textEnd, 0⟩, [])) := by
    rw [nextItem_eq, skip_dollar]
    rfl
  exact (run_of_nextItem (r := { layer := l, names }) hitem rfl).trans (run_nil _)

theorem run_opening (l : Layer) (s : List Char) :
    run { layer := l } ('(' :: '?' :: ':' :: s) = (({} : PatternReader).within [l]).run s := by
  have hflags : plain (readFlags {} (':' :: s)) = .ok (.opening .plain {}, s) := by
    rw [plain_readFlags]
    rfl
  have hitem : plain (readItemFrom {} '(' ('?' :: ':' :: s)) = .ok (.opening .plain {}, s) :=
    (plain_bind_ok fun _ _ => rfl).trans ((plain_readGroup_flags {} (by simp) (by simp) (by simp)
      (by simp)).trans hflags)
  have hgroup : nextItem {} ('(' :: '?' :: ':' :: s) = .ok (some (.opening .plain {}, s)) := by
    rw [nextItem_eq]
    change (plain (readItemFrom {} '(' ('?' :: ':' :: s))).map some = _
    rw [hitem]
    rfl
  exact run_of_nextItem (r := { layer := l }) hgroup rfl

/-- The end of the frame closes the group that the frame has opened. -/
theorem add_closing_within {r : PatternReader} (hr : r.outer = []) (hground : r.Grounded)
    (around : Layer) :
    (r.within [around]).add .closing = .ok
      { names := r.names, layer := around.push ⟨r.layer.close.form, r.layer.close.depth + 1⟩ } := by
  obtain ⟨hkind, hflags⟩ : r.layer.kind = .plain ∧ r.layer.flags = {} := by
    unfold Grounded grounds at hground
    rw [hr] at hground
    have := hground.eq_of_length rfl
    simp only [List.map_cons, List.map_nil, List.cons.injEq, Prod.mk.injEq, and_true] at this
    exact ⟨this.1.symm, this.2.symm⟩
  simp only [PatternReader.add, within, hr, List.nil_append, hflags, Layer.closeGroup, hkind]

/-- **A pattern in a group.** The group is a piece of what stands around it, unless its end is
hidden in a comment. -/
theorem run_grouped {p : List Char} {q : Piece} (h : Piece.parse p = .ok q) :
    (Piece.parse (p ++ [')']) = .error .unopenedGroup ∧ ∀ n l, ∃ names,
      run { layer := l } ("(?:".toList ++ p ++ frameEnd n) =
        run { layer := l.push ⟨q.form, q.depth + 1⟩, names } (List.replicate n '$')) ∨
    (Piece.parse (p ++ [')']) = .ok q ∧ ∀ n l,
      run { layer := l } ("(?:".toList ++ p ++ frameEnd n) >>= finish = .error .unclosedGroup) := by
  have hrunOpening (n : Nat) (l : Layer) : run { layer := l } ("(?:".toList ++ p ++ frameEnd n) =
      (({} : PatternReader).within [l]).run (p ++ frameEnd n) := run_opening l (p ++ frameEnd n)
  unfold Piece.parse at h
  cases hrun : run {} p with
  | error f =>
    rw [hrun] at h
    cases h
  | ok r =>
    rw [hrun] at h
    change r.finish = .ok q at h
    have hr : r.outer = [] := by
      by_contra hopen
      cases (finish_of_open hopen).symm.trans h
    obtain rfl := Except.ok.inj ((finish_of_closed hr).symm.trans h)
    have hground : r.Grounded := run_induction (P := Grounded)
      (fun r item r' hr _ hadd => hr.add hadd)
      (show ({} : PatternReader).Grounded from List.suffix_refl _) hrun
    have hbehind : Piece.parse (p ++ [')']) =
        (({} : PatternReader).within []).run (p ++ frameEnd 0) >>= finish := rfl
    have hwithin : r.within [] = r := by simp [within]
    simp only [hrunOpening]
    rcases run_append hrun with hread | hhidden
    · refine .inl ⟨?_, fun n l => ⟨r.names, ?_⟩⟩
      · rw [hbehind, hread, hwithin]
        simp only [add, hr]
        rfl
      · rw [hread, add_closing_within hr hground]
        rfl
    · refine .inr ⟨?_, fun n l => ?_⟩
      · rw [hbehind, hhidden, hwithin]
        exact finish_of_closed hr
      · rw [hhidden]
        exact finish_of_open (List.append_ne_nil_of_right_ne_nil _ (List.cons_ne_nil _ _))

end PatternReader

/-- **A pattern as a group**, which can be read unless a comment hides its end. -/
theorem Piece.parse_grouped {p : List Char} {q : Piece} (h : Piece.parse p = .ok q) :
    (Piece.parse (p ++ [')']) = .error .unopenedGroup ∧
      Piece.parse (grouped p) = .ok ⟨Form.sequence [q.form], q.depth + 1⟩ ∧
      Piece.parse (anchored p) =
        .ok ⟨Form.sequence [.look .textStart, q.form, .look .textEnd], q.depth + 2⟩) ∨
    (Piece.parse (p ++ [')']) = .ok q ∧ Piece.parse (grouped p) = .error .unclosedGroup ∧
      Piece.parse (anchored p) = .error .unclosedGroup) := by
  have hanchored : Piece.parse (anchored p) =
      PatternReader.run { layer := PatternReader.frameLayer } ("(?:".toList ++ p ++ frameEnd 1) >>=
        PatternReader.finish := by
    rw [← PatternReader.run_caret, Piece.parse]
    rfl
  rw [hanchored]
  rcases PatternReader.run_grouped h with ⟨hbehind, hread⟩ | ⟨hbehind, hhidden⟩
  · refine .inl ⟨hbehind, ?_, ?_⟩
    · obtain ⟨names, hrun⟩ := hread 0 {}
      change PatternReader.run {} (grouped p) = _ at hrun
      have hdepth : depthOf [q.depth + 1] = q.depth + 1 := by simp [depthOf]
      rw [Piece.parse, hrun, List.replicate_zero, PatternReader.run_nil]
      rw [← hdepth]
      rfl
    · obtain ⟨names, hrun⟩ := hread 1 PatternReader.frameLayer
      have hdepth : depthOf [0, q.depth + 1, 0] = q.depth + 2 := by simp [depthOf]
      rw [hrun, List.replicate_one, PatternReader.run_dollar]
      rw [← hdepth]
      rfl
  · exact .inr ⟨hbehind, hhidden 0 {}, hhidden 1 _⟩

/-! ## Expressions -/

theorem Expr.parse_eq (text : List Char) :
    Expr.parse text = Piece.parse text >>= fun p =>
      if p.depth ≤ maxDepth then
        if p.form.isTooLarge then .error .tooLarge else .ok p.form.expr
      else .error .nestedTooDeeply := by
  rw [Expr.parse, Form.parse_eq]
  cases Piece.parse text with
  | error f => rfl
  | ok p =>
    dsimp only [bind, Except.bind]
    by_cases hdepth : p.depth ≤ maxDepth
    · rw [if_pos hdepth, if_pos hdepth]
    · rw [if_neg hdepth, if_neg hdepth]

end ParserKit
