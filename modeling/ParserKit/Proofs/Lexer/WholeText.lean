import ParserKit.Proofs.Lexer.Ahead
import ParserKit.Proofs.Lexer.Remaining

/-!
# Lexing a text that is in view as a whole

A lexer without a window, a queue or modes recurses on the rest of the text.

* `CommentRule.close?`, `StringRule.close?`: where a comment or a string ends.
* **`Rules.lexFrom`**, `Rules.lex`: the tokens of a text.
* `Rules.outlook`: the tokens to come, by the mode of a scan; `Rules.Promises.step`: a step of a scan
  keeps them, together with those that are complete.
* **`Rules.tokensFrom_eq_lexFrom`**: scan after scan yields the tokens of the text that the cursor
  shows.
* `Tokenizer.Prompt`: tokenizers that never pause; what their requests return.
-/

namespace ParserKit

/-! ## The lexer -/

/-- What lies after a comment of which `depth` starts are open, if it is closed. In a nested comment
its start is recognised before its end. -/
def CommentRule.close? (t : CommentRule) (depth : Nat) : Span → Option Span
  | [] => none
  | c :: text =>
    if t.nested && t.start.begins (c :: text) then
      t.close? (depth + 1) (text.drop t.start.more.length)
    else if t.stop.begins (c :: text) then
      if depth ≤ 1 then some (text.drop t.stop.more.length)
      else t.close? (depth - 1) (text.drop t.stop.more.length)
    else t.close? depth text
termination_by text => text.length
decreasing_by all_goals simp only [List.length_drop, List.length_cons]; omega

/-- A string without its first delimiter, if it is closed, and what lies after it. Its escape sequence
is recognised before its delimiter. -/
def StringRule.close? (t : StringRule) : Span → Option (Span × Span)
  | [] => none
  | c :: text =>
    match t.escape.filter (·.begins (c :: text)) with
    | some e =>
      (t.close? (text.drop e.more.length)).map fun (body, rest) =>
        (c :: text.take e.more.length ++ body, rest)
    | none =>
      if t.delimiter.begins (c :: text) then
        some (c :: text.take t.delimiter.more.length, text.drop t.delimiter.more.length)
      else (t.close? text).map fun (body, rest) => (c :: body, rest)
termination_by text => text.length
decreasing_by all_goals simp only [List.length_drop, List.length_cons]; omega

theorem CommentRule.suffix_of_close? {t : CommentRule} {depth : Nat} {text rest : Span}
    (h : t.close? depth text = some rest) : rest <:+ text := by
  fun_induction CommentRule.close? t depth text with
  | case1 => cases h
  | case2 depth c text _ ih => exact (ih h).trans ((List.drop_suffix _ _).trans (List.suffix_cons _ _))
  | case3 depth c text =>
    obtain rfl := Option.some.inj h
    exact (List.drop_suffix _ _).trans (List.suffix_cons _ _)
  | case4 depth c text _ _ _ ih =>
    exact (ih h).trans ((List.drop_suffix _ _).trans (List.suffix_cons _ _))
  | case5 depth c text _ _ ih => exact (ih h).trans (List.suffix_cons _ _)

theorem StringRule.append_of_close? {t : StringRule} {text body rest : Span}
    (h : t.close? text = some (body, rest)) : body ++ rest = text := by
  fun_induction StringRule.close? t text generalizing body with
  | case1 => cases h
  | case2 c text e _ ih =>
    obtain ⟨⟨inner, _⟩, hi, heq⟩ := Option.map_eq_some_iff.mp h
    obtain ⟨rfl, rfl⟩ := Prod.mk.inj heq
    rw [List.append_assoc, ih hi, List.cons_append, List.take_append_drop]
  | case3 c text =>
    obtain ⟨rfl, rfl⟩ := Prod.mk.inj (Option.some.inj h)
    rw [List.cons_append, List.take_append_drop]
  | case4 c text _ _ ih =>
    obtain ⟨⟨inner, _⟩, hi, heq⟩ := Option.map_eq_some_iff.mp h
    obtain ⟨rfl, rfl⟩ := Prod.mk.inj heq
    rw [List.cons_append, ih hi]

/-- A span as one token, if it is not empty. -/
def Span.tokens (type : String) : Span → List Token
  | [] => []
  | first :: more => [Span.token type first more]

namespace Rules

variable (r : Rules)

/-- **The tokens of a text**, where `span` is what has been read since the last boundary. A comment
has precedence over a string. What is not closed yields nothing. -/
def lexFrom (span : Span) : Span → List Token
  | [] => r.classify span
  | c :: text =>
    match r.comments.find? (·.start.begins (c :: text)) with
    | some t =>
      r.classify span ++
        match h : t.close? 1 (text.drop t.start.more.length) with
        | some rest =>
          have := (CommentRule.suffix_of_close? h).length_le
          lexFrom [] rest
        | none => []
    | none =>
      match r.strings.find? (·.delimiter.begins (c :: text)) with
      | some t =>
        r.classify span ++
          match h : t.close? (text.drop t.delimiter.more.length) with
          | some (body, rest) =>
            have := congrArg List.length (StringRule.append_of_close? h)
            Span.tokens t.name (c :: text.take t.delimiter.more.length ++ body) ++ lexFrom [] rest
          | none => []
      | none =>
        if c.char ∈ r.whitespace then r.classify span ++ lexFrom [] text
        else lexFrom (span ++ [c]) text
termination_by text => text.length
decreasing_by
  all_goals
    simp only [List.length_append, List.length_drop, List.length_cons] at *
    omega

/-- **The tokens of a text.** -/
def lex (text : String) : List Token := r.lexFrom [] (locate .start text.toList)

/-! ## The size of the window -/

theorem le_foldl_max (ns : List Nat) (k : Nat) : k ≤ ns.foldl max k := by
  induction ns generalizing k with
  | nil => exact Nat.le_refl k
  | cons a ns ih => exact Nat.le_trans (Nat.le_max_left k a) (ih _)

theorem le_foldl_max_of_mem {ns : List Nat} {n : Nat} (h : n ∈ ns) (k : Nat) :
    n ≤ ns.foldl max k := by
  induction ns generalizing k with
  | nil => cases h
  | cons a ns ih =>
    rcases List.mem_cons.mp h with rfl | h
    · exact Nat.le_trans (Nat.le_max_right k n) (le_foldl_max ns _)
    · exact ih h _

theorem lookahead_pos : 0 < r.lookahead := le_foldl_max _ 1

/-- **No marker is longer than the window.** -/
theorem length_le_lookahead {m : Marker} (h : m ∈ r.markers) : m.length ≤ r.lookahead :=
  le_foldl_max_of_mem (List.mem_map_of_mem h) 1

variable {r} in
theorem CommentRule.length_le {t : CommentRule} (h : t ∈ r.comments) :
    t.start.length ≤ r.lookahead ∧ t.stop.length ≤ r.lookahead := by
  have hm : t.start ∈ r.markers ∧ t.stop ∈ r.markers := by
    simp only [markers, List.mem_append, List.mem_flatMap]
    exact ⟨.inl (.inl ⟨t, h, by simp⟩), .inl (.inl ⟨t, h, by simp⟩)⟩
  exact ⟨r.length_le_lookahead hm.1, r.length_le_lookahead hm.2⟩

variable {r} in
theorem StringRule.length_le {t : StringRule} (h : t ∈ r.strings) :
    t.delimiter.length ≤ r.lookahead ∧ ∀ e ∈ t.escape.toList, e.length ≤ r.lookahead := by
  have hm : ∀ m ∈ t.delimiter :: t.escape.toList, m ∈ r.markers := by
    intro m hm
    simp only [markers, List.mem_append, List.mem_flatMap]
    exact .inl (.inr ⟨t, h, hm⟩)
  exact ⟨r.length_le_lookahead (hm _ List.mem_cons_self),
    fun e he => r.length_le_lookahead (hm _ (List.mem_cons_of_mem _ he))⟩

/-! ## The tokens to come -/

@[simp] theorem classify_nil : r.classify [] = [] := by simp [classify, split]

theorem flush_eq (s : Scan) :
    r.flush s = { s with pending := [], queue := s.queue ++ r.classify s.pending.reverse } := by
  unfold flush
  split
  · next h =>
    rcases s with ⟨cursor, mode, _ | _, queue⟩
    · simp
    · cases h
  · rfl

theorem emitString_eq (name : String) (s : Scan) :
    emitString name s =
      { s with pending := [], queue := s.queue ++ Span.tokens name s.pending.reverse } := by
  unfold emitString
  cases h : s.pending.reverse with
  | nil =>
    rcases s with ⟨cursor, mode, _ | _, queue⟩
    · simp [Span.tokens]
    · simp at h
  | cons first more => rfl

/-- The tokens to come of a text, where a scan is in a mode and has read a span since the last
boundary. -/
def outlook (mode : Mode) (span text : Span) : List Token :=
  match mode with
  | .normal => r.lexFrom span text
  | .comment t depth =>
    match t.close? depth text with
    | some rest => r.lexFrom span rest
    | none => []
  | .string t =>
    match t.close? text with
    | some (body, rest) => Span.tokens t.name (span ++ body) ++ r.lexFrom [] rest
    | none => []

theorem lexFrom_cons (span : Span) (c : Located) (text : Span) :
    r.lexFrom span (c :: text) =
      match r.comments.find? (·.start.begins (c :: text)) with
      | some t =>
        r.classify span ++ r.outlook (.comment t 1) [] ((c :: text).drop t.start.length)
      | none =>
        match r.strings.find? (·.delimiter.begins (c :: text)) with
        | some t =>
          r.classify span ++ r.outlook (.string t) ((c :: text).take t.delimiter.length)
            ((c :: text).drop t.delimiter.length)
        | none =>
          if c.char ∈ r.whitespace then r.classify span ++ r.lexFrom [] text
          else r.lexFrom (span ++ [c]) text := by
  rw [lexFrom]
  cases r.comments.find? (·.start.begins (c :: text)) with
  | some t =>
    simp only [outlook, Marker.length, List.drop_succ_cons]
    cases t.close? 1 (text.drop t.start.more.length) <;> rfl
  | none =>
    cases r.strings.find? (·.delimiter.begins (c :: text)) with
    | some t =>
      simp only [outlook, Marker.length, List.drop_succ_cons, List.take_succ_cons]
      cases t.close? (text.drop t.delimiter.more.length) <;> rfl
    | none => rfl

section Cases

variable {r} {c : Located} {text : Span}

theorem lexFrom_comment {t : CommentRule}
    (hc : r.comments.find? (·.start.begins (c :: text)) = some t) (span : Span) :
    r.lexFrom span (c :: text) =
      r.classify span ++ r.outlook (.comment t 1) [] ((c :: text).drop t.start.length) := by
  simp only [lexFrom_cons, hc]

theorem lexFrom_string {t : StringRule}
    (hc : r.comments.find? (·.start.begins (c :: text)) = none)
    (hs : r.strings.find? (·.delimiter.begins (c :: text)) = some t) (span : Span) :
    r.lexFrom span (c :: text) =
      r.classify span ++ r.outlook (.string t) ((c :: text).take t.delimiter.length)
        ((c :: text).drop t.delimiter.length) := by
  simp only [lexFrom_cons, hc, hs]

theorem lexFrom_whitespace (hc : r.comments.find? (·.start.begins (c :: text)) = none)
    (hs : r.strings.find? (·.delimiter.begins (c :: text)) = none)
    (hw : c.char ∈ r.whitespace) (span : Span) :
    r.lexFrom span (c :: text) = r.classify span ++ r.lexFrom [] text := by
  simp only [lexFrom_cons, hc, hs, if_pos hw]

theorem lexFrom_char (hc : r.comments.find? (·.start.begins (c :: text)) = none)
    (hs : r.strings.find? (·.delimiter.begins (c :: text)) = none)
    (hw : c.char ∉ r.whitespace) (span : Span) :
    r.lexFrom span (c :: text) = r.lexFrom (span ++ [c]) text := by
  simp only [lexFrom_cons, hc, hs, if_neg hw]

end Cases

/-- A mode that a scan by these rules can be in. -/
def Allows : Mode → Prop
  | .normal => True
  | .comment t _ => t ∈ r.comments
  | .string t => t ∈ r.strings

/-- **A scan promises tokens**: those that are complete, and those to come of the text that its
cursor shows. -/
structure Promises (s : Scan) (text : Span) (tokens : List Token) : Prop where
  shows_text : s.cursor.Shows r.lookahead text
  allows_mode : r.Allows s.mode
  tokens_eq : s.queue ++ r.outlook s.mode s.pending.reverse text = tokens

theorem outlook_normal (span text : Span) : r.outlook .normal span text = r.lexFrom span text := rfl

theorem outlook_comment_nil (t : CommentRule) (depth : Nat) (span : Span) :
    r.outlook (.comment t depth) span [] = [] := by
  rw [outlook, CommentRule.close?]

theorem outlook_string_nil (t : StringRule) (span : Span) : r.outlook (.string t) span [] = [] := by
  rw [outlook, StringRule.close?]

theorem outlook_comment_cons (t : CommentRule) (depth : Nat) (span : Span) (c : Located)
    (text : Span) :
    r.outlook (.comment t depth) span (c :: text) =
      if t.nested && t.start.begins (c :: text) then
        r.outlook (.comment t (depth + 1)) span ((c :: text).drop t.start.length)
      else if t.stop.begins (c :: text) then
        r.outlook (if depth ≤ 1 then .normal else .comment t (depth - 1)) span
          ((c :: text).drop t.stop.length)
      else r.outlook (.comment t depth) span text := by
  simp only [outlook, Marker.length, List.drop_succ_cons]
  rw [CommentRule.close?]
  by_cases hn : t.nested && t.start.begins (c :: text)
  · simp only [if_pos hn]
  · by_cases hs : t.stop.begins (c :: text)
    · by_cases hd : depth ≤ 1
      · simp only [if_neg hn, if_pos hs, if_pos hd]
      · simp only [if_neg hn, if_pos hs, if_neg hd]
    · simp only [if_neg hn, if_neg hs]

theorem outlook_string_cons (t : StringRule) (span : Span) (c : Located) (text : Span) :
    r.outlook (.string t) span (c :: text) =
      match t.escape.filter (·.begins (c :: text)) with
      | some e =>
        r.outlook (.string t) (span ++ (c :: text).take e.length) ((c :: text).drop e.length)
      | none =>
        if t.delimiter.begins (c :: text) then
          Span.tokens t.name (span ++ (c :: text).take t.delimiter.length) ++
            r.lexFrom [] ((c :: text).drop t.delimiter.length)
        else r.outlook (.string t) (span ++ [c]) text := by
  simp only [outlook, Marker.length, List.drop_succ_cons, List.take_succ_cons]
  rw [StringRule.close?]
  cases t.escape.filter (·.begins (c :: text)) with
  | some e =>
    dsimp only
    cases t.close? (text.drop e.more.length) <;> simp
  | none =>
    by_cases hd : t.delimiter.begins (c :: text)
    · simp only [if_pos hd]
    · simp only [if_neg hd]
      cases t.close? text <;> simp

/-! ## Steps -/

section Step

variable {r} {s : Scan} {c : Located} {text : Span} {tokens : List Token}

theorem Promises.stepChar (hs : s.cursor.Shows r.lookahead (c :: text)) (hm : s.mode = .normal)
    (ht : s.queue ++ (if c.char ∈ r.whitespace then r.classify s.pending.reverse ++ r.lexFrom [] text
      else r.lexFrom (s.pending.reverse ++ [c]) text) = tokens) :
    r.Promises (r.stepChar s) text tokens := by
  obtain ⟨cursor, ha, hs⟩ := hs.advance r.lookahead_pos
  unfold Rules.stepChar
  rw [ha]
  dsimp only [List.head?_cons]
  simp only [Rules.isWhitespace, List.contains_iff_mem]
  by_cases hw : c.char ∈ r.whitespace
  · rw [if_pos hw] at ht ⊢
    rw [flush_eq]
    refine ⟨hs, by rw [hm]; trivial, ?_⟩
    rw [hm, List.append_assoc]
    exact ht
  · rw [if_neg hw] at ht ⊢
    refine ⟨hs, by rw [hm]; trivial, ?_⟩
    rw [hm, List.reverse_cons]
    exact ht

theorem Promises.stepNormal (h : r.Promises s (c :: text) tokens) (hm : s.mode = .normal) :
    ∃ text', r.Promises (r.stepNormal s) text' tokens := by
  obtain ⟨hs, -, ht⟩ := h
  rw [hm, outlook_normal, lexFrom_cons] at ht
  obtain ⟨cursor, hc, hs⟩ := hs.findMarker CommentRule.start r.comments
    fun t ht => (CommentRule.length_le ht).1
  unfold Rules.stepNormal
  rw [hc]
  cases hf : r.comments.find? (·.start.begins (c :: text)) with
  | some t =>
    simp only [hf] at ht
    obtain ⟨cursor', hk, hs⟩ := hs.consume t.start.length r.lookahead_pos
    simp only [skipMarker, flush_eq, hk]
    refine ⟨_, hs, List.mem_of_find?_eq_some hf, ?_⟩
    rw [List.append_assoc]
    exact ht
  | none =>
    simp only [hf] at ht
    obtain ⟨cursor', hc', hs⟩ := hs.findMarker StringRule.delimiter r.strings
      fun t ht => (StringRule.length_le ht).1
    dsimp only
    rw [hc']
    cases hf' : r.strings.find? (·.delimiter.begins (c :: text)) with
    | some t =>
      simp only [hf'] at ht
      obtain ⟨cursor'', hk, hs⟩ := hs.consume t.delimiter.length r.lookahead_pos
      simp only [takeMarker, flush_eq, hk]
      refine ⟨_, hs, List.mem_of_find?_eq_some hf', ?_⟩
      rw [List.append_nil, List.reverse_reverse, List.append_assoc]
      exact ht
    | none =>
      simp only [hf'] at ht
      exact ⟨text, stepChar (s := { s with cursor := cursor' }) hs hm ht⟩

theorem Promises.stepComment {t : CommentRule} {depth : Nat} (h : r.Promises s (c :: text) tokens)
    (hm : s.mode = .comment t depth) :
    ∃ text', r.Promises (Rules.stepComment t depth s) text' tokens := by
  obtain ⟨hs, hr, ht⟩ := h
  rw [hm] at hr ht
  rw [outlook_comment_cons] at ht
  have hlen := CommentRule.length_le hr
  have hfind : (if t.nested then [t] else []).find? (fun a => a.start.begins (c :: text)) =
      if t.nested && t.start.begins (c :: text) then some t else none := by
    cases t.nested <;> simp [List.find?_singleton]
  obtain ⟨cursor, hc, hs⟩ := hs.findMarker CommentRule.start (if t.nested then [t] else []) (by
    cases t.nested <;> simp [hlen.1])
  unfold Rules.stepComment
  rw [hc, hfind]
  by_cases hn : t.nested && t.start.begins (c :: text)
  · rw [if_pos hn] at ht ⊢
    obtain ⟨cursor', hk, hs⟩ := hs.consume t.start.length r.lookahead_pos
    simp only [skipMarker, hk]
    exact ⟨_, hs, hr, ht⟩
  · rw [if_neg hn] at ht ⊢
    obtain ⟨cursor', hb, hs⟩ := hs.startsWith t.stop hlen.2
    dsimp only
    rw [hb]
    cases hbegins : t.stop.begins (c :: text) with
    | true =>
      rw [if_pos hbegins] at ht
      obtain ⟨cursor'', hk, hs⟩ := hs.consume t.stop.length r.lookahead_pos
      simp only [skipMarker, hk]
      refine ⟨_, hs, ?_, ht⟩
      dsimp only
      split
      · trivial
      · exact hr
    | false =>
      rw [if_neg (Bool.eq_false_iff.mp hbegins)] at ht
      obtain ⟨cursor'', ha, hs⟩ := hs.advance r.lookahead_pos
      simp only [ha]
      refine ⟨text, hs, by rw [hm]; exact hr, ?_⟩
      rw [hm]
      exact ht

theorem Promises.stepString {t : StringRule} (h : r.Promises s (c :: text) tokens)
    (hm : s.mode = .string t) : ∃ text', r.Promises (Rules.stepString t s) text' tokens := by
  obtain ⟨hs, hr, ht⟩ := h
  rw [hm] at hr ht
  rw [outlook_string_cons] at ht
  have hlen := StringRule.length_le hr
  have hfind : t.escape.toList.find? (fun a => (id a).begins (c :: text)) =
      t.escape.filter (·.begins (c :: text)) := by
    cases t.escape <;> simp [List.find?_singleton, Option.filter]
  obtain ⟨cursor, hc, hs⟩ := hs.findMarker id t.escape.toList hlen.2
  unfold Rules.stepString
  rw [hc, hfind]
  cases hf : t.escape.filter (·.begins (c :: text)) with
  | some e =>
    simp only [hf] at ht
    obtain ⟨cursor', hk, hs⟩ := hs.consume e.length r.lookahead_pos
    simp only [takeMarker, hk]
    refine ⟨_, hs, hr, ?_⟩
    rw [List.reverse_append, List.reverse_reverse]
    exact ht
  | none =>
    simp only [hf] at ht
    obtain ⟨cursor', hb, hs⟩ := hs.startsWith t.delimiter hlen.1
    dsimp only
    rw [hb]
    cases hbegins : t.delimiter.begins (c :: text) with
    | true =>
      rw [if_pos hbegins] at ht
      obtain ⟨cursor'', hk, hs⟩ := hs.consume t.delimiter.length r.lookahead_pos
      simp only [emitString_eq, takeMarker, hk]
      refine ⟨_, hs, trivial, ?_⟩
      rw [List.reverse_append, List.reverse_reverse, List.append_assoc]
      exact ht
    | false =>
      rw [if_neg (Bool.eq_false_iff.mp hbegins)] at ht
      obtain ⟨cursor'', ha, hs⟩ := hs.advance r.lookahead_pos
      simp only [ha, List.head?_cons]
      refine ⟨text, hs, by rw [hm]; exact hr, ?_⟩
      rw [hm, List.reverse_cons]
      exact ht

/-- **A step keeps what a scan promises.** -/
theorem Promises.step (h : r.Promises s (c :: text) tokens) :
    ∃ text', r.Promises (r.step s) text' tokens := by
  unfold Rules.step
  cases hm : s.mode with
  | normal => exact h.stepNormal hm
  | comment t depth => exact h.stepComment hm
  | string t => exact h.stepString hm

/-- **A scan keeps its promise.** It ends between two tokens, and comes to the end of the text if it
completes none. -/
theorem Promises.scan (h : r.Promises s text tokens) :
    ∃ text', (r.scan s).cursor.Shows r.lookahead text' ∧
      (r.scan s).queue ++ r.lexFrom [] text' = tokens ∧ ((r.scan s).queue = [] → text' = []) := by
  revert text
  fun_induction Rules.scan r s with
  | case1 s hstop =>
    intro text h
    obtain ⟨hm, hp, hq⟩ := hstop
    refine ⟨text, h.shows_text, ?_, fun hnil => absurd hnil hq⟩
    have ht := h.tokens_eq
    rwa [hm, hp] at ht
  | case2 s _ filled hw =>
    rename_i hm
    intro text h
    obtain rfl := (h.shows_text.window_fill_eq_nil r.lookahead_pos).mp hw
    have ht := h.tokens_eq
    rw [show s.mode = .normal from hm, outlook_normal, lexFrom] at ht
    rw [flush_eq]
    refine ⟨[], h.shows_text.fill.1, ?_, fun _ => rfl⟩
    rw [lexFrom, classify_nil, List.append_nil]
    exact ht
  | case3 s _ filled hw =>
    rename_i hm
    intro text h
    obtain rfl := (h.shows_text.window_fill_eq_nil r.lookahead_pos).mp hw
    have ht := h.tokens_eq
    refine ⟨[], h.shows_text.fill.1, ?_, fun _ => rfl⟩
    rw [lexFrom, classify_nil]
    -- what is not closed at the end of the text yields nothing
    have hnil : r.outlook s.mode s.pending.reverse [] = [] := by
      rcases hmode : s.mode with _ | ⟨t, depth⟩ | t
      · exact absurd hmode hm
      · exact r.outlook_comment_nil t depth _
      · exact r.outlook_string_nil t _
    rwa [hnil] at ht
  | case4 s _ filled hw _ =>
    rename_i ih
    rintro (_ | ⟨c, text⟩) ⟨hf, hm, ht⟩
    · exact absurd ((hf.window_fill_eq_nil r.lookahead_pos).mpr rfl) hw
    · obtain ⟨text', hp⟩ := Promises.step (s := filled) ⟨hf.fill.1, hm, ht⟩
      exact ih hp

/-- **Scan after scan yields the tokens of the text that the cursor shows.** -/
theorem tokensFrom_eq_lexFrom {c : Cursor} (h : c.Shows r.lookahead text) :
    r.tokensFrom c = r.lexFrom [] text := by
  induction hk : c.size using Nat.strongRecOn generalizing c text with
  | ind k ih =>
    have hp : r.Promises ⟨c, .normal, [], []⟩ text (r.lexFrom [] text) := ⟨h, trivial, rfl⟩
    obtain ⟨text', hs, ht, hnil⟩ := hp.scan
    rw [tokensFrom]
    by_cases hlt : (r.scan ⟨c, .normal, [], []⟩).cursor.size < c.size
    · simp only [if_pos hlt]
      rw [ih _ (hk ▸ hlt) hs rfl, ht]
    · simp only [if_neg hlt]
      rw [r.scan_eq_self (Nat.not_lt.mp hlt)] at ht hnil ⊢
      rw [hnil rfl, lexFrom, classify_nil] at ht
      exact ht

end Step

end Rules

/-! ## Tokenizers -/

namespace Tokenizer

variable {t : Tokenizer}

/-- A tokenizer that never pauses: its source has no gaps, and its window is as large as its rules
need. -/
def Prompt (t : Tokenizer) : Prop := ∃ text, t.cursor.Shows t.rules.lookahead text

theorem prompt_ofRules (r : Rules) {s : Source} (h : s.Prompt) : (ofRules r s).Prompt :=
  ⟨s.ahead, Cursor.shows_ofSource h _⟩

theorem rest_ofRules (r : Rules) {s : Source} (h : s.Prompt) :
    (ofRules r s).rest = r.lexFrom [] s.ahead :=
  Rules.tokensFrom_eq_lexFrom (Cursor.shows_ofSource h _)

theorem Prompt.prepare (h : t.Prompt) :
    t.prepare.Prompt ∧ (t.prepare.queue = [] → t.rest = []) := by
  obtain ⟨text, hs⟩ := h
  cases hq : t.queue with
  | cons token queue =>
    simp only [Tokenizer.prepare, hq]
    exact ⟨⟨text, hs⟩, fun hnil => by cases hnil⟩
  | nil =>
    have hp : t.rules.Promises ⟨t.cursor, .normal, [], []⟩ text (t.rules.lexFrom [] text) :=
      ⟨hs, trivial, rfl⟩
    obtain ⟨text', hs', ht, hnil⟩ := hp.scan
    simp only [Tokenizer.prepare, hq]
    refine ⟨⟨text', hs'⟩, fun hempty => ?_⟩
    rw [hempty, hnil hempty, Rules.lexFrom, Rules.classify_nil] at ht
    rw [rest, hq, Rules.tokensFrom_eq_lexFrom hs]
    exact ht.symm

theorem Prompt.hasMore (h : t.Prompt) :
    t.hasMore.1 = !t.rest.isEmpty ∧ t.hasMore.2.rest = t.rest ∧ t.hasMore.2.Prompt := by
  obtain ⟨hp, hnil⟩ := h.prepare
  refine ⟨?_, t.rest_hasMore, hp⟩
  show (!t.prepare.queue.isEmpty) = _
  cases hq : t.prepare.queue with
  | nil => rw [hnil hq]
  | cons token queue =>
    rw [← t.rest_prepare, rest, hq]
    rfl

theorem Prompt.next (h : t.Prompt) :
    t.next.1 = t.rest.head? ∧ t.next.2.rest = t.rest.tail ∧ t.next.2.Prompt := by
  obtain ⟨hp, hnil⟩ := h.prepare
  have hrest := t.rest_next
  unfold Tokenizer.next at hrest ⊢
  cases hq : t.prepare.queue with
  | nil =>
    simp only [hq] at hrest ⊢
    rw [hnil hq] at hrest ⊢
    exact ⟨rfl, hrest, hp⟩
  | cons token queue =>
    simp only [hq] at hrest ⊢
    rw [← hrest]
    exact ⟨rfl, rfl, hp⟩

end Tokenizer

end ParserKit
