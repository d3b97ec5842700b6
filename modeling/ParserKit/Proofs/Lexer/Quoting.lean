import ParserKit.Proofs.Lexer.Checked
import ParserKit.Proofs.Lexer.Separation

/-!
# Quoting by doubling

A string whose delimiter is one character can hold any text if the character is doubled in it.

* `doubled`, `undoubled`: a text with every `d` doubled, and the text that such a text stands for.
  `quotedBy`: a doubled text in delimiters.
* `StringType.doubling`: the string types whose escape sequence is the doubled delimiter.
* **`StringRule.closes_doubling_iff`**: what such a string is closed by.
* `Rules.lexFrom_quoted`: a lexer that gets to a quoted text.
* **`LexerConfig.tokenize_quoted`**: any text can be quoted in front of any other.
-/

namespace ParserKit

/-! ## Doubling -/

/-- A text with every `d` in it doubled. -/
def doubled (d : Char) : List Char → List Char
  | [] => []
  | c :: text => if c = d then d :: d :: doubled d text else c :: doubled d text

/-- A text with every two `d` in a row made one. -/
def undoubled (d : Char) : List Char → List Char
  | c :: c' :: text =>
    if c = d ∧ c' = d then d :: undoubled d text else c :: undoubled d (c' :: text)
  | text => text

/-- A text in delimiters, with every delimiter in it doubled. -/
def quotedBy (d : Char) (body : List Char) : List Char := d :: (doubled d body ++ [d])

theorem undoubled_cons {d c : Char} (h : c ≠ d) (text : List Char) :
    undoubled d (c :: text) = c :: undoubled d text := by
  cases text with
  | nil => rfl
  | cons c' text => exact if_neg fun hc => h hc.1

/-- **Doubling loses nothing.** -/
theorem undoubled_doubled (d : Char) (body : List Char) : undoubled d (doubled d body) = body := by
  induction body with
  | nil => rfl
  | cons c body ih =>
    unfold doubled
    split
    · next h => rw [undoubled, if_pos ⟨rfl, rfl⟩, ih, h]
    · next h => rw [undoubled_cons h, ih]

/-! ## String types -/

/-- The string type with a delimiter of one character whose escape sequence is two of them. -/
def StringType.doubling (name : String) (d : Char) : StringType :=
  ⟨name, String.singleton d, some (String.ofList [d, d])⟩

def StringRule.doubling (name : String) (d : Char) : StringRule := ⟨name, ⟨d, []⟩, some ⟨d, [d]⟩⟩

theorem StringType.compile_doubling (name : String) (d : Char) :
    (StringType.doubling name d).compile = .ok (.doubling name d) := by
  simp [StringType.doubling, StringType.compile, Marker.require, StringRule.doubling, bind,
    Except.bind]

namespace StringRule

variable {name : String} {d : Char} {text rest : List Char}

/-- **What a string is closed by** if its delimiter is doubled inside: the first delimiter that is
not doubled. So what lies before it is a doubled text. -/
theorem closes_doubling_iff :
    (doubling name d).Closes text rest ↔
      rest.head? ≠ some d ∧ ∃ body, text = doubled d body ++ d :: rest := by
  constructor
  · -- an escape sequence stands for a delimiter in the body, any other character for itself
    intro h
    induction h with
    | @delimiter rest he =>
      have hrest := he ⟨d, [d]⟩ rfl
      refine ⟨fun hd => hrest ?_, [], rfl⟩
      obtain ⟨more, rfl⟩ := List.head?_eq_some_iff.mp hd
      exact ⟨more, rfl⟩
    | @escape e text rest he _ ih =>
      obtain rfl := Option.some.inj he
      obtain ⟨hrest, body, rfl⟩ := ih
      refine ⟨hrest, d :: body, ?_⟩
      rw [doubled, if_pos rfl]
      rfl
    | @char c text rest _ hd _ ih =>
      obtain ⟨hrest, body, rfl⟩ := ih
      refine ⟨hrest, c :: body, ?_⟩
      have hc : c ≠ d := by
        rintro rfl
        exact hd ⟨_, rfl⟩
      rw [doubled, if_neg hc]
      rfl
  · rintro ⟨hrest, body, rfl⟩
    induction body with
    | nil =>
      refine .delimiter fun e he => ?_
      obtain rfl := Option.some.inj he
      rintro ⟨more, hmore⟩
      obtain rfl : d :: more = rest := (List.cons.inj hmore).2
      exact hrest rfl
    | cons c body ih =>
      unfold doubled
      split
      · exact .escape (e := ⟨d, [d]⟩) rfl ih
      · next hc =>
        have hne : ∀ m : List Char, ¬ d :: m <+: c :: (doubled d body ++ d :: rest) := fun m h =>
          hc (List.cons_prefix_cons.mp h).1.symm
        refine .char (fun e he => ?_) (hne []) ih
        obtain rfl := Option.some.inj he
        exact hne [d]

end StringRule

/-! ## Delimiters that begin a text -/

theorem Marker.isPrefixOf_cons_eq_false {m : Marker} {d : Char} (h : m.chars.head? ≠ some d)
    (text : List Char) : m.chars.isPrefixOf (d :: text) = false := by
  rw [← Bool.not_eq_true, List.isPrefixOf_iff_prefix]
  exact fun hp => h (congrArg some (List.cons_prefix_cons.mp hp).1)

/-- Of several string types, of which those before one that doubles `d` begin with other characters,
that one is found where a `d` begins a text. -/
theorem StringRule.find?_doubling {earlier later : List StringType} {rules : List StringRule}
    {name : String} {d : Char}
    (h : List.Forall₂ (fun t u => StringType.compile t = .ok u)
      (earlier ++ .doubling name d :: later) rules)
    (hne : ∀ t ∈ earlier, t.delimiter.toList.head? ≠ some d) (text : List Char) :
    rules.find? (·.delimiter.chars.isPrefixOf (d :: text)) = some (.doubling name d) := by
  induction earlier generalizing rules with
  | nil =>
    rw [List.nil_append, List.forall₂_cons_left_iff] at h
    obtain ⟨rule, rules, hcompile, -, rfl⟩ := h
    obtain rfl := Except.ok.inj (StringType.compile_doubling name d ▸ hcompile)
    exact List.find?_cons_of_pos (by simp [StringRule.doubling, Marker.chars])
  | cons t earlier ih =>
    rw [List.cons_append, List.forall₂_cons_left_iff] at h
    obtain ⟨rule, rules, hcompile, h, rfl⟩ := h
    obtain ⟨hhead, hearlier⟩ := List.forall_mem_cons.mp hne
    obtain rfl := StringType.compile_eq_ok_iff.mp hcompile
    rw [StringRule.type, String.toList_ofList] at hhead
    have hother := Marker.isPrefixOf_cons_eq_false hhead text
    rw [List.find?_cons_of_neg (by rw [hother]; exact Bool.false_ne_true)]
    exact ih h hearlier

namespace LexerConfig.Yields

variable [PatternEngine] {c : LexerConfig} {r : Rules} {d : Char} {name : String}

theorem commentAt_eq_none (h : c.Yields r) (hne : ∀ t ∈ c.comments, t.start.toList.head? ≠ some d)
    (text : List Char) : r.commentAt (d :: text) = none := by
  refine List.find?_eq_none.mpr fun rule hrule => ?_
  obtain ⟨t, ht, hcompile⟩ := exists_of_mem_right h.comments hrule
  have hhead := hne t ht
  obtain rfl := CommentType.compile_eq_ok_iff.mp hcompile
  rw [CommentRule.type, String.toList_ofList] at hhead
  rw [Marker.isPrefixOf_cons_eq_false hhead]
  exact Bool.false_ne_true

theorem stringAt_eq_doubling (h : c.Yields r) {earlier later : List StringType}
    (hstrings : c.strings = earlier ++ .doubling name d :: later)
    (hne : ∀ t ∈ earlier, t.delimiter.toList.head? ≠ some d) (text : List Char) :
    r.stringAt (d :: text) = some (.doubling name d) := by
  have hrules := h.strings
  rw [hstrings] at hrules
  exact StringRule.find?_doubling hrules hne text

end LexerConfig.Yields

/-! ## Quoted texts -/

/-- **A lexer that gets to a quoted text** finds it as one token, and goes on behind it. -/
theorem Rules.lexFrom_quoted {r : Rules} {d : Char} {name : String} {body rest : List Char}
    (hn : r.commentAt (quotedBy d body ++ rest) = none)
    (hs : r.stringAt (quotedBy d body ++ rest) = some (.doubling name d))
    (hrest : rest.head? ≠ some d) (p : Position) (span : Span) :
    r.lexFrom span (locate p (quotedBy d body ++ rest)) =
      r.classify span ++ (Span.tokens name (locate p (quotedBy d body)) ++
        r.lexFrom [] (locate (p.advanceOver (quotedBy d body)) rest)) := by
  have hclosed : (StringRule.doubling name d).Closes (doubled d body ++ [d] ++ rest) rest :=
    StringRule.closes_doubling_iff.mpr ⟨hrest, body, by simp⟩
  have hopening :
      locate p (quotedBy d body) = [⟨d, p⟩] ++ locate (p.advance d) (doubled d body ++ [d]) :=
    rfl
  rw [locate_append, hopening, List.append_assoc]
  refine lexFrom_past_string (t := .doubling name d) rfl ?_ ?_ ?_ span
  · simpa [quotedBy] using hn
  · simpa [quotedBy] using hs
  · simpa using hclosed

theorem tokens_quoted (name : String) (d : Char) (body : List Char) (p : Position) :
    Span.tokens name (locate p (quotedBy d body)) =
      [.ofType (String.ofList (quotedBy d body)) name p (p.advanceOver (d :: doubled d body))] := by
  have hchars : Span.chars (locate p (quotedBy d body)) = quotedBy d body := chars_locate p _
  have hsplit : locate p (quotedBy d body) =
      ⟨d, p⟩ :: (locate (p.advance d) (doubled d body) ++
        [⟨d, p.advanceOver (d :: doubled d body)⟩]) :=
    congrArg (_ :: ·) (locate_append (p.advance d) (doubled d body) [d])
  rw [hsplit] at hchars ⊢
  rw [Span.tokens, Span.token, Span.content, hchars]
  simp

namespace LexerConfig

/-- **Any text can be quoted in front of any other** by a string type whose delimiter is doubled
inside, if no comment and no string type declared before begins with the same character. The first
token is the quoted text, and the text that it stands for is read from what lies between its
delimiters. The tokens after it are those of the other text, with their places counted from
there. -/
theorem tokenize_quoted [PatternEngine] (c : LexerConfig) {r : Rules} (hc : c.compile = .ok r)
    {d : Char} {name : String} {earlier later : List StringType}
    (hstrings : c.strings = earlier ++ .doubling name d :: later)
    (hcomments : ∀ t ∈ c.comments, t.start.toList.head? ≠ some d)
    (hearlier : ∀ t ∈ earlier, t.delimiter.toList.head? ≠ some d) (body : List Char) {rest : String}
    (hrest : rest.toList.head? ≠ some d) :
    ∃ ts, c.tokenize rest = .ok ts ∧
      c.tokenize (String.ofList (quotedBy d body) ++ rest) =
        .ok (.ofType (String.ofList (quotedBy d body)) name .start (.after (d :: doubled d body)) ::
          ts.map (Token.relocate (Position.after (quotedBy d body)).countedFrom)) ∧
      undoubled d (quotedBy d body).tail.dropLast = body := by
  have h := compile_eq_ok_iff.mp hc
  have hplace (text : List Char) : Position.start.advanceOver text = .after text :=
    Position.advanceOver_after [] text
  refine ⟨_, c.tokenize_eq hc rest, ?_, ?_⟩
  · rw [c.tokenize_eq hc, Rules.lex, String.toList_append, String.toList_ofList,
      Rules.lexFrom_quoted (h.commentAt_eq_none hcomments _)
        (h.stringAt_eq_doubling hstrings hearlier _) hrest, Rules.classify_nil,
      List.nil_append, tokens_quoted, Rules.lexFrom_locate, hplace, hplace]
    rfl
  · rw [quotedBy, List.tail_cons, List.dropLast_concat, undoubled_doubled]

theorem quoted_in_front_of_word :
    letI := Expr.engine
    let commented : LexerConfig := LexerConfig.addComment {} "/*" "*/" true
    let c := (commented.addString "T" "\"" none).addString "S" "'" (some "''")
    ∃ r, c.compile = .ok r ∧
      c.strings = [⟨"T", "\"", none⟩] ++ StringType.doubling "S" '\'' :: [] ∧
      (∀ t ∈ c.comments, t.start.toList.head? ≠ some '\'') ∧
      (∀ t ∈ [StringType.mk "T" "\"" none], t.delimiter.toList.head? ≠ some '\'') ∧
      "b".toList.head? ≠ some '\'' ∧
      c.tokenize "b" = .ok [.ofType "b" "terminal" ⟨1, 1, 0⟩ ⟨1, 1, 0⟩] ∧
      c.tokenize "'a /*''\n'''b" = .ok [.ofType "'a /*''\n'''" "S" ⟨1, 1, 0⟩ ⟨2, 3, 10⟩,
        .ofType "b" "terminal" ⟨2, 4, 11⟩ ⟨2, 4, 11⟩] ∧
      undoubled '\'' "a /*''\n''".toList = "a /*'\n'".toList := by
  intro commented c
  let : PatternEngine := Expr.engine
  let r : Rules := ⟨" \t\r\n".toList, true, false, [⟨⟨'/', ['*']⟩, ⟨'*', ['/']⟩, true⟩],
    [⟨"T", ⟨'"', []⟩, none⟩, .doubling "S" '\''], [], [], []⟩
  have hc : c.compile = .ok r := rfl
  have hstrings : c.strings = [⟨"T", "\"", none⟩] ++ StringType.doubling "S" '\'' :: [] := rfl
  have hcomments : ∀ t ∈ c.comments, t.start.toList.head? ≠ some '\'' := by decide
  have hearlier : ∀ t ∈ [StringType.mk "T" "\"" none], t.delimiter.toList.head? ≠ some '\'' := by
    decide
  have hrest : "b".toList.head? ≠ some '\'' := by decide
  obtain ⟨ts, hts, hquoted⟩ :=
    c.tokenize_quoted hc hstrings hcomments hearlier "a /*'\n'".toList hrest
  have hword : c.tokenize "b" = .ok [.ofType "b" "terminal" ⟨1, 1, 0⟩ ⟨1, 1, 0⟩] := by cbv
  obtain rfl := Except.ok.inj (hts.symm.trans hword)
  exact ⟨r, hc, hstrings, hcomments, hearlier, hrest, hword, hquoted⟩

end LexerConfig

end ParserKit
