import Mathlib.Order.Bounds.Defs
import ParserKit.Proofs.Lexer.Ahead
import ParserKit.Proofs.Lexer.Checked

/-!
# What is wrong with a configuration

* `errorOf`: the error of a check; `errorOf_mapM`: the error of a list is that of the first entry
  with one.
* `LexerConfig.markers`, `LexerConfig.sequences`: what must not be empty, in the order of the check.
* **`LexerConfig.errorOf_compile`**: the check reports the first empty sequence and, if there is
  none, the first pattern that is refused.
* `LexerConfig.Yields.isGreatest_lookahead`: the size of the window is that of the longest marker.
* **`LexerConfig.compile_outcome`**: when a check fails, with which error, and what it ensures.
-/

namespace ParserKit

/-! ## Errors of checks -/

/-- The error of a check, if there is one. -/
def errorOf {ε α : Type} : Except ε α → Option ε
  | .ok _ => none
  | .error e => some e

section Checks

variable {ε α β : Type}

theorem errorOf_eq_some_iff {x : Except ε α} {e : ε} : errorOf x = some e ↔ x = .error e := by
  cases x <;> simp [errorOf]

theorem errorOf_eq_none_iff {x : Except ε α} : errorOf x = none ↔ ∃ a, x = .ok a := by
  cases x <;> simp [errorOf]

/-- The error of two checks in a row, of which the second does not depend on the first. -/
theorem errorOf_bind {x : Except ε α} {k : α → Except ε β} {e : Option ε}
    (hk : ∀ a, errorOf (k a) = e) : errorOf (x >>= k) = (errorOf x).or e := by
  cases x with
  | ok a => exact hk a
  | error e' => rfl

theorem errorOf_bind_ok {x : Except ε α} (f : α → β) :
    errorOf (x >>= fun a => .ok (f a)) = errorOf x := by
  cases x <;> rfl

/-- **The error of a list is that of the first entry with one.** -/
theorem errorOf_mapM (f : α → Except ε β) (as : List α) :
    errorOf (as.mapM f) = as.findSome? fun a => errorOf (f a) := by
  induction as with
  | nil => rfl
  | cons a as ih =>
    rw [List.mapM_cons, List.findSome?_cons, ← ih]
    refine (errorOf_bind fun _ => errorOf_bind_ok _).trans ?_
    cases errorOf (f a) <;> rfl

theorem findSome?_single (f : α → Option β) (a : α) : [a].findSome? f = f a := by
  rw [List.findSome?_cons]
  cases f a <;> rfl

theorem findSome?_pair (f : α → Option β) (a b : α) : [a, b].findSome? f = (f a).or (f b) := by
  rw [List.findSome?_cons, findSome?_single]
  cases f a <;> rfl

theorem findSome?_flatMap (g : α → List β) (f : β → Option ε) (as : List α) :
    (as.flatMap g).findSome? f = as.findSome? fun a => (g a).findSome? f := by
  induction as with
  | nil => rfl
  | cons a as ih =>
    rw [List.flatMap_cons, List.findSome?_append, ih, List.findSome?_cons]
    cases (g a).findSome? f <;> rfl

end Checks

/-! ## Sequences -/

/-- The error that a sequence gives rise to, if it is empty. -/
def emptyError (s : SequenceKind × String) : Option LexerError :=
  if s.2 = "" then some (.emptySequence s.1) else none

theorem emptyError_eq_some_iff {s : SequenceKind × String} {kind : SequenceKind} :
    emptyError s = some (.emptySequence kind) ↔ s = (kind, "") := by
  obtain ⟨kind', text⟩ := s
  unfold emptyError
  split <;> simp_all

theorem eq_emptySequence_of_emptyError {s : SequenceKind × String} {e : LexerError}
    (h : emptyError s = some e) : e = .emptySequence s.1 := by
  unfold emptyError at h
  split at h
  · exact (Option.some.inj h).symm
  · cases h

theorem emptyError_eq_none_iff {s : SequenceKind × String} : emptyError s = none ↔ s.2 ≠ "" := by
  unfold emptyError
  split <;> simp_all

theorem errorOf_require (kind : SequenceKind) (text : String) :
    errorOf (Marker.require kind text) = emptyError (kind, text) := by
  cases htext : text.toList with
  | nil =>
    rw [String.toList_eq_nil_iff.mp htext]
    rfl
  | cons first more =>
    have hne : text ≠ "" := fun h => by simp [h] at htext
    rw [Marker.require, htext, emptyError_eq_none_iff.mpr hne]
    rfl

def CommentType.sequences (t : CommentType) : List (SequenceKind × String) :=
  [(.commentStart, t.start), (.commentStop, t.stop)]

/-- The delimiter of a string type and its escape sequence, if it has one. -/
def StringType.sequences (t : StringType) : List (SequenceKind × String) :=
  (.stringDelimiter, t.delimiter) :: t.escape.toList.map (.escape, ·)

theorem CommentType.errorOf_compile (t : CommentType) :
    errorOf t.compile = t.sequences.findSome? emptyError := by
  have hcompile : errorOf t.compile = (errorOf (Marker.require .commentStart t.start)).or
      (errorOf (Marker.require .commentStop t.stop)) :=
    errorOf_bind fun _ => errorOf_bind_ok _
  rw [hcompile, errorOf_require, errorOf_require, sequences, findSome?_pair]

theorem StringType.errorOf_compile (t : StringType) :
    errorOf t.compile = t.sequences.findSome? emptyError := by
  obtain ⟨name, delimiter, _ | escape⟩ := t
  · have hcompile : errorOf (compile ⟨name, delimiter, none⟩) =
        errorOf (Marker.require .stringDelimiter delimiter) :=
      errorOf_bind_ok _
    rw [hcompile, errorOf_require]
    exact (findSome?_single _ _).symm
  · have hcompile : errorOf (compile ⟨name, delimiter, some escape⟩) =
        (errorOf (Marker.require .stringDelimiter delimiter)).or
          (errorOf (Marker.require .escape escape)) :=
      errorOf_bind fun _ => errorOf_bind_ok _
    rw [hcompile, errorOf_require, errorOf_require]
    exact (findSome?_pair _ _ _).symm

theorem Symbol.errorOf_compile (s : Symbol) :
    errorOf s.compile = emptyError (.symbol, s.sequence) := by
  rw [← errorOf_require]
  exact errorOf_bind_ok _

theorem errorOf_compileKeyword (keyword : String) :
    errorOf (compileKeyword keyword) = emptyError (.keyword, keyword) := by
  unfold compileKeyword emptyError
  by_cases h : keyword = ""
  · simp [h, errorOf]
  · simp [h, errorOf]

theorem CommentType.exists_empty_iff (t : CommentType) :
    (∃ kind, (kind, "") ∈ t.sequences) ↔ t.start = "" ∨ t.stop = "" := by
  simp [sequences, exists_or, @eq_comm String ""]

theorem StringType.exists_empty_iff (t : StringType) :
    (∃ kind, (kind, "") ∈ t.sequences) ↔ t.delimiter = "" ∨ t.escape = some "" := by
  simp [sequences, exists_or, @eq_comm String ""]

/-! ## Patterns -/

section Engine

variable [PatternEngine]

/-- A terminal pattern that the engine refuses in the frame that is put around it. -/
def TerminalPattern.Refused (t : TerminalPattern) (fault : PatternError) : Prop :=
  PatternEngine.compile (anchored t.pattern.toList) = .error fault

theorem TerminalPattern.errorOf_compile_eq_some_iff {t : TerminalPattern} {e : LexerError} :
    errorOf t.compile = some e ↔
      ∃ fault, t.Refused fault ∧ .invalidPattern t.pattern fault = e := by
  unfold compile Refused
  cases PatternEngine.compile (anchored t.pattern.toList) <;> simp [errorOf]

theorem TerminalPattern.errorOf_compile_eq_none_iff {t : TerminalPattern} :
    errorOf t.compile = none ↔ ∀ fault, ¬ t.Refused fault := by
  unfold compile Refused
  cases PatternEngine.compile (anchored t.pattern.toList) <;> simp [errorOf]

end Engine

/-! ## Configurations -/

namespace LexerConfig

variable (c : LexerConfig)

/-- The sequences that a scanner looks for, with what they are, in the order of the check. -/
def markers : List (SequenceKind × String) :=
  c.comments.flatMap CommentType.sequences ++ c.strings.flatMap StringType.sequences ++
    c.symbols.map fun s => (.symbol, s.sequence)

/-- All sequences that must not be empty, in the order of the check. -/
def sequences : List (SequenceKind × String) := c.markers ++ c.keywords.map (.keyword, ·)

/-- Some delimiter, escape sequence, symbol or keyword is empty. -/
def HasEmpty : Prop :=
  (∃ t ∈ c.comments, t.start = "" ∨ t.stop = "") ∨
    (∃ t ∈ c.strings, t.delimiter = "" ∨ t.escape = some "") ∨
      (∃ s ∈ c.symbols, s.sequence = "") ∨ "" ∈ c.keywords

theorem mem_sequences_iff {s : SequenceKind × String} :
    s ∈ c.sequences ↔ (∃ t ∈ c.comments, s ∈ t.sequences) ∨ (∃ t ∈ c.strings, s ∈ t.sequences) ∨
      (∃ u ∈ c.symbols, (.symbol, u.sequence) = s) ∨ ∃ k ∈ c.keywords, (.keyword, k) = s := by
  simp only [sequences, markers, List.mem_append, List.mem_flatMap, List.mem_map, or_assoc]

theorem hasEmpty_iff : c.HasEmpty ↔ ∃ kind, (kind, "") ∈ c.sequences := by
  simp only [mem_sequences_iff]
  constructor
  · rintro (⟨t, ht, he⟩ | ⟨t, ht, he⟩ | ⟨u, hu, he⟩ | hk)
    · obtain ⟨kind, hs⟩ := t.exists_empty_iff.mpr he
      exact ⟨kind, .inl ⟨t, ht, hs⟩⟩
    · obtain ⟨kind, hs⟩ := t.exists_empty_iff.mpr he
      exact ⟨kind, .inr (.inl ⟨t, ht, hs⟩)⟩
    · exact ⟨.symbol, .inr (.inr (.inl ⟨u, hu, by rw [he]⟩))⟩
    · exact ⟨.keyword, .inr (.inr (.inr ⟨"", hk, rfl⟩))⟩
  · rintro ⟨kind, ⟨t, ht, hs⟩ | ⟨t, ht, hs⟩ | ⟨u, hu, hs⟩ | ⟨k, hk, hs⟩⟩
    · exact .inl ⟨t, ht, t.exists_empty_iff.mp ⟨kind, hs⟩⟩
    · exact .inr (.inl ⟨t, ht, t.exists_empty_iff.mp ⟨kind, hs⟩⟩)
    · exact .inr (.inr (.inl ⟨u, hu, (Prod.mk.inj hs).2⟩))
    · exact .inr (.inr (.inr ((Prod.mk.inj hs).2 ▸ hk)))

theorem findSome?_emptyError_eq_none_iff :
    c.sequences.findSome? emptyError = none ↔ ¬ c.HasEmpty := by
  rw [List.findSome?_eq_none_iff, hasEmpty_iff]
  constructor
  · rintro h ⟨kind, hmem⟩
    exact emptyError_eq_none_iff.mp (h _ hmem) rfl
  · intro h s hs
    exact emptyError_eq_none_iff.mpr fun he => h ⟨s.1, by rwa [← he]⟩

section Engine

variable [PatternEngine]

/-- **The check reports the first empty sequence**, and, if there is none, the first pattern that is
refused. -/
theorem errorOf_compile :
    errorOf c.compile =
      (c.sequences.findSome? emptyError).or (c.terminals.findSome? fun t => errorOf t.compile) := by
  have hcompile : errorOf c.compile =
      (errorOf (c.comments.mapM CommentType.compile)).or
        ((errorOf (c.strings.mapM StringType.compile)).or
          ((errorOf (c.symbols.mapM Symbol.compile)).or
            ((errorOf (c.keywords.mapM compileKeyword)).or
              (errorOf (c.terminals.mapM TerminalPattern.compile))))) :=
    errorOf_bind fun _ => errorOf_bind fun _ => errorOf_bind fun _ => errorOf_bind fun _ =>
      errorOf_bind_ok _
  rw [hcompile]
  simp only [errorOf_mapM, CommentType.errorOf_compile, StringType.errorOf_compile,
    Symbol.errorOf_compile, errorOf_compileKeyword, sequences, markers, List.findSome?_append,
    findSome?_flatMap, List.findSome?_map, Option.or_assoc, Function.comp_def]

theorem compile_eq_emptySequence_iff {kind : SequenceKind} :
    c.compile = .error (.emptySequence kind) ↔
      ∃ before after, c.sequences = before ++ (kind, "") :: after ∧ ∀ s ∈ before, s.2 ≠ "" := by
  have hpattern : c.terminals.findSome? (fun t => errorOf t.compile) ≠
      some (.emptySequence kind) := by
    intro h
    obtain ⟨t, -, ht⟩ := List.exists_of_findSome?_eq_some h
    obtain ⟨fault, -, he⟩ := TerminalPattern.errorOf_compile_eq_some_iff.mp ht
    cases he
  rw [← errorOf_eq_some_iff, errorOf_compile, Option.or_eq_some_iff,
    or_iff_left fun h => hpattern h.2, List.findSome?_eq_some_iff]
  simp only [emptyError_eq_some_iff, emptyError_eq_none_iff]
  constructor
  · rintro ⟨before, _, after, hs, rfl, hbefore⟩
    exact ⟨before, after, hs, hbefore⟩
  · rintro ⟨before, after, hs, hbefore⟩
    exact ⟨before, _, after, hs, rfl, hbefore⟩

theorem exists_emptySequence_iff :
    (∃ kind, c.compile = .error (.emptySequence kind)) ↔ c.HasEmpty := by
  constructor
  · rintro ⟨kind, h⟩
    obtain ⟨before, after, hs, -⟩ := c.compile_eq_emptySequence_iff.mp h
    exact c.hasEmpty_iff.mpr ⟨kind, by rw [hs]; exact List.mem_append_right _ List.mem_cons_self⟩
  · intro h
    cases hf : c.sequences.findSome? emptyError with
    | none => exact absurd h (c.findSome?_emptyError_eq_none_iff.mp hf)
    | some e =>
      obtain ⟨s, -, hs⟩ := List.exists_of_findSome?_eq_some hf
      obtain rfl := eq_emptySequence_of_emptyError hs
      exact ⟨s.1, errorOf_eq_some_iff.mp (by rw [errorOf_compile, hf, Option.some_or])⟩

theorem compile_eq_invalidPattern_iff {pattern : String} {fault : PatternError} :
    c.compile = .error (.invalidPattern pattern fault) ↔
      ¬ c.HasEmpty ∧ ∃ before t after, c.terminals = before ++ t :: after ∧
        (∀ u ∈ before, ∀ f, ¬ u.Refused f) ∧ t.pattern = pattern ∧ t.Refused fault := by
  have hempty : c.sequences.findSome? emptyError ≠ some (.invalidPattern pattern fault) := by
    intro h
    obtain ⟨s, -, hs⟩ := List.exists_of_findSome?_eq_some h
    cases eq_emptySequence_of_emptyError hs
  rw [← errorOf_eq_some_iff, errorOf_compile, Option.or_eq_some_iff, or_iff_right hempty,
    findSome?_emptyError_eq_none_iff, List.findSome?_eq_some_iff]
  simp only [TerminalPattern.errorOf_compile_eq_some_iff,
    TerminalPattern.errorOf_compile_eq_none_iff, LexerError.invalidPattern.injEq]
  refine and_congr_right fun _ => ?_
  constructor
  · rintro ⟨before, t, after, ht, ⟨_, hrefused, hpattern, rfl⟩, hbefore⟩
    exact ⟨before, t, after, ht, hbefore, hpattern, hrefused⟩
  · rintro ⟨before, t, after, ht, hbefore, hpattern, hrefused⟩
    exact ⟨before, t, after, ht, ⟨fault, hrefused, hpattern, rfl⟩, hbefore⟩

theorem exists_invalidPattern_iff :
    (∃ pattern fault, c.compile = .error (.invalidPattern pattern fault)) ↔
      ¬ c.HasEmpty ∧ ∃ t ∈ c.terminals, ∃ fault, t.Refused fault := by
  constructor
  · rintro ⟨pattern, fault, h⟩
    obtain ⟨hempty, before, t, after, ht, -, -, hrefused⟩ := c.compile_eq_invalidPattern_iff.mp h
    exact ⟨hempty, t, by rw [ht]; exact List.mem_append_right _ List.mem_cons_self, fault, hrefused⟩
  · rintro ⟨hempty, t, ht, fault, hrefused⟩
    cases hf : c.terminals.findSome? fun t => errorOf t.compile with
    | none =>
      have hnone := List.findSome?_eq_none_iff.mp hf t ht
      exact absurd hrefused (TerminalPattern.errorOf_compile_eq_none_iff.mp hnone fault)
    | some e =>
      obtain ⟨u, -, hu⟩ := List.exists_of_findSome?_eq_some hf
      obtain ⟨f, -, rfl⟩ := TerminalPattern.errorOf_compile_eq_some_iff.mp hu
      refine ⟨u.pattern, f, errorOf_eq_some_iff.mp ?_⟩
      rw [errorOf_compile, c.findSome?_emptyError_eq_none_iff.mpr hempty, Option.none_or, hf]

theorem exists_rules (hempty : ¬ c.HasEmpty)
    (hpattern : ∀ t ∈ c.terminals, ∀ fault, ¬ t.Refused fault) : ∃ r, c.compile = .ok r := by
  rw [← errorOf_eq_none_iff, errorOf_compile, c.findSome?_emptyError_eq_none_iff.mpr hempty,
    Option.none_or, List.findSome?_eq_none_iff]
  exact fun t ht => TerminalPattern.errorOf_compile_eq_none_iff.mpr (hpattern t ht)

variable {c}

/-- What the window has to show at once are the markers as they are configured. -/
theorem Yields.markers_eq {r : Rules} (h : c.Yields r) :
    c.markers.map Prod.snd = r.markers.map fun m => String.ofList m.chars := by
  rw [markers, h.comments_eq, h.strings_eq, h.symbols_eq]
  simp [Rules.markers, CommentType.sequences, StringType.sequences, CommentRule.type,
    StringRule.type, SymbolRule.symbol, List.map_flatMap, List.flatMap_map, Function.comp_def,
    Option.toList_map]

/-- **The window shows as many characters as the longest marker has**, and one at least. -/
theorem Yields.isGreatest_lookahead {r : Rules} (h : c.Yields r) :
    IsGreatest {n | n = 1 ∨ ∃ s ∈ c.markers, s.2.length = n} r.lookahead := by
  have hlengths : r.markers.map Marker.length = c.markers.map fun s => s.2.length := by
    have hm := congrArg (List.map String.length) h.markers_eq
    rw [List.map_map, List.map_map] at hm
    exact (List.map_congr_left fun m _ => (String.length_ofList (l := m.chars)).symm).trans hm.symm
  have hmax : (1 :: r.markers.map Marker.length).max? = some r.lookahead := List.max?_cons'
  rw [hlengths] at hmax
  obtain ⟨hmem, hle⟩ := List.max?_eq_some_iff.mp hmax
  simp only [List.mem_cons, List.mem_map] at hmem hle
  exact ⟨hmem, fun n hn => hle n hn⟩

/-- **What the check of a configuration comes to.** It fails with an empty sequence exactly if there
is one, and names what the first of them is; else it fails with a pattern exactly if one is refused,
and names the first of them as it is configured. If it does not fail, the window shows just as many
characters as the longest marker has, and every step of a scan with a character in view consumes one
at least. -/
theorem compile_outcome (c : LexerConfig) :
    ((∃ kind, c.compile = .error (.emptySequence kind)) ↔ c.HasEmpty) ∧
      (∀ kind, c.compile = .error (.emptySequence kind) ↔
        ∃ before after, c.sequences = before ++ (kind, "") :: after ∧ ∀ s ∈ before, s.2 ≠ "") ∧
      ((∃ pattern fault, c.compile = .error (.invalidPattern pattern fault)) ↔
        ¬ c.HasEmpty ∧ ∃ t ∈ c.terminals, ∃ fault, t.Refused fault) ∧
      (∀ pattern fault, c.compile = .error (.invalidPattern pattern fault) ↔
        ¬ c.HasEmpty ∧ ∃ before t after, c.terminals = before ++ t :: after ∧
          (∀ u ∈ before, ∀ f, ¬ u.Refused f) ∧ t.pattern = pattern ∧ t.Refused fault) ∧
      (¬ c.HasEmpty → (∀ t ∈ c.terminals, ∀ fault, ¬ t.Refused fault) →
        ∃ r, c.compile = .ok r ∧
          IsGreatest {n | n = 1 ∨ ∃ s ∈ c.markers, s.2.length = n} r.lookahead ∧
          ∀ s : Scan, s.cursor.window ≠ [] →
            ∃ n, 0 < n ∧ (r.step s).cursor.ahead = s.cursor.ahead.drop n) := by
  refine ⟨c.exists_emptySequence_iff, fun _ => c.compile_eq_emptySequence_iff,
    c.exists_invalidPattern_iff, fun _ _ => c.compile_eq_invalidPattern_iff, ?_⟩
  intro hempty hpattern
  obtain ⟨r, hr⟩ := c.exists_rules hempty hpattern
  refine ⟨r, hr, (compile_eq_ok_iff.mp hr).isGreatest_lookahead, fun s hwindow => ?_⟩
  obtain ⟨n, hm, hpos⟩ := r.advances_step s
  exact ⟨n, hpos hwindow, hm.ahead_eq⟩

end Engine

theorem compile_of_long_escape :
    letI := Expr.engine
    let c : LexerConfig := ((((LexerConfig.addComment {} "(*" "*)" true).addString "S" "'"
      (some "'''")).addSymbol ":=" "ASSIGN").addKeyword "define").addTerminal "[a-z]" "LETTER"
    let d : LexerConfig := (c.addSymbol "" "NOTHING").addKeyword ""
    ¬ c.HasEmpty ∧ (∀ t ∈ c.terminals, ∀ fault, ¬ t.Refused fault) ∧
      (∃ r, c.compile = .ok r ∧ r.lookahead = 3) ∧
      d.compile = .error (.emptySequence .symbol) := by
  intro c d
  let : PatternEngine := Expr.engine
  have hempty : ¬ c.HasEmpty := by
    simp [c, HasEmpty, addComment, addString, addSymbol, addKeyword, addTerminal]
  have hpattern : ∀ t ∈ c.terminals, ∀ fault, ¬ t.Refused fault := by
    intro t ht fault hrefused
    obtain rfl : t = ⟨"[a-z]", "LETTER"⟩ := List.mem_singleton.mp ht
    have haccepted : ∃ occursIn, Expr.engine.compile (anchored "[a-z]".toList) = .ok occursIn :=
      ⟨_, by cbv⟩
    obtain ⟨_, hok⟩ := haccepted
    cases hok.symm.trans hrefused
  obtain ⟨r, hr, hgreatest, -⟩ := (compile_outcome c).2.2.2.2 hempty hpattern
  have hthree : IsGreatest {n | n = 1 ∨ ∃ s ∈ c.markers, s.2.length = n} 3 := by
    refine ⟨.inr ⟨(.escape, "'''"), by decide, by decide⟩, ?_⟩
    have hle : ∀ s ∈ c.markers, s.2.length ≤ 3 := by decide
    rintro n (rfl | ⟨s, hs, rfl⟩)
    · decide
    · exact hle s hs
  exact ⟨hempty, hpattern, ⟨r, hr, hgreatest.unique hthree⟩,
    ((compile_outcome d).2.1 .symbol).mpr
      ⟨c.markers, [(.keyword, "define"), (.keyword, "")], by decide, by decide⟩⟩

end LexerConfig

end ParserKit
