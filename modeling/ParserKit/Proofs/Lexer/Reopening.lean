import ParserKit.Proofs.Lexer.Lossless
import ParserKit.Proofs.Lexer.Requests

/-!
# Tokenizers that are opened again

* `Cursor.Kept`: properties of a cursor that reading keeps (`Cursor.Kept.moves`); `Cursor.Kept.step`,
  **`Cursor.Kept.scan`**: so do a step and a whole scan.
* `Cursor.OnFile`: a cursor on a file, which may be open or not.
* `TokenizerCall`, `Tokenizer.performAll`: histories of calls to a tokenizer.
* **`LexerConfig.trace_reopened`**: what a tokenizer on a file gives when it is opened again. The
  characters that are left in its window come first.
-/

namespace ParserKit

/-! ## What reading keeps -/

/-- A property of cursors is kept if a cursor may top its window up and take a character out of it. -/
structure Cursor.Kept (P : Cursor → Prop) : Prop where
  fill : ∀ {c : Cursor}, P c → P c.fill
  tail : ∀ {c : Cursor} {next window}, P c → c.window = next :: window → P { c with window }

namespace Cursor.Kept

variable {P : Cursor → Prop} (h : Kept P)
include h

/-- **Reading keeps it**, whatever it comes to. -/
theorem moves {n : Nat} {c d : Cursor} (hm : c.Moves n d) (hc : P c) : P d := by
  induction hm with
  | refl => exact hc
  | fill _ ih => exact h.fill ih
  | take _ hw ih => exact h.tail ih hw

theorem step {r : Rules} {s : Scan} (hs : P s.cursor) : P (r.step s).cursor := by
  obtain ⟨n, hm, -⟩ := r.advances_step s
  exact h.moves hm hs

/-- **A scan keeps what reading keeps.** -/
theorem scan {r : Rules} {s : Scan} (hs : P s.cursor) : P (r.scan s).cursor := by
  fun_induction Rules.scan r s with
  | case1 => exact hs
  | case2 s _ filled =>
    rw [Rules.cursor_flush]
    exact h.fill hs
  | case3 s _ filled => exact h.fill hs
  | case4 s _ filled _ _ ih => exact ih (h.step (h.fill hs))

theorem answer {t : Tokenizer} (ht : P t.cursor) (request : TokenRequest) :
    P (t.answer request).2.cursor := by
  have hp : P t.prepare.cursor := by
    unfold Tokenizer.prepare
    split
    · exact h.scan ht
    · exact ht
  cases request with
  | hasMore => exact hp
  | next =>
    show P t.next.2.cursor
    unfold Tokenizer.next
    dsimp only
    split
    · exact hp
    · exact hp

end Cursor.Kept

/-! ## Cursors on a file -/

namespace Source

theorem pull_file (entry : FileEntry) (opened : Option Reader) (n : Nat) :
    ∃ opened', ((file entry opened).pull n).2 = file entry opened' := by
  induction n generalizing opened with
  | zero => exact ⟨opened, rfl⟩
  | succ n ih =>
    rcases opened with _ | ⟨_ | ⟨c, cs⟩, p⟩
    · exact ⟨none, rfl⟩
    · exact ⟨some ⟨[], p⟩, rfl⟩
    · exact ih (some ⟨cs, p.advance c⟩)

theorem length_pull_le (s : Source) (n : Nat) : (s.pull n).1.length ≤ n := by
  induction n generalizing s with
  | zero => exact Nat.le_refl 0
  | succ n ih =>
    unfold pull
    split
    · split
      · exact Nat.succ_le_succ (ih _)
      · exact Nat.zero_le _
    · exact Nat.zero_le _

end Source

/-- **A cursor on a file**, which may be open or not, through a window of size `n` that is not
overfull. -/
structure Cursor.OnFile (entry : FileEntry) (n : Nat) (c : Cursor) : Prop where
  source_eq : ∃ opened, c.source = .file entry opened
  capacity_eq : c.capacity = n
  window_le : c.window.length ≤ n

theorem Cursor.length_window_fill_le {c : Cursor} (h : c.window.length ≤ c.capacity) :
    c.fill.window.length ≤ c.capacity := by
  have := c.source.length_pull_le (c.capacity - c.window.length)
  rw [fill_eq, List.length_append]
  omega

theorem Cursor.kept_onFile (entry : FileEntry) (n : Nat) : Kept (OnFile entry n) where
  fill := by
    rintro c ⟨⟨opened, hs⟩, rfl, hw⟩
    refine ⟨?_, by rw [fill_eq], length_window_fill_le hw⟩
    rw [fill_eq, hs]
    exact Source.pull_file entry opened _
  tail := by
    rintro c next window ⟨hs, hc, hw⟩ hcons
    rw [hcons] at hw
    exact ⟨hs, hc, Nat.le_of_succ_le hw⟩

/-! ## Histories -/

/-- A call to a tokenizer. -/
inductive TokenizerCall where
  | acquire
  | release
  | ask (request : TokenRequest)

/-- The token that a request returns, if it returns one. -/
def TokenAnswer.given : TokenAnswer → Option Token
  | .flag _ => none
  | .token t => t

theorem given_answersFrom_prefix (tokens : List Token) (requests : List TokenRequest) :
    (answersFrom tokens requests).filterMap TokenAnswer.given <+: tokens := by
  induction requests generalizing tokens with
  | nil => exact List.nil_prefix
  | cons request requests ih =>
    cases request with
    | hasMore => exact ih tokens
    | next =>
      cases tokens with
      | nil => exact ih []
      | cons token tokens => exact List.cons_prefix_cons.mpr ⟨rfl, ih tokens⟩

namespace Tokenizer

/-- The state after a call, whether it succeeds or not. -/
def perform (t : Tokenizer) : TokenizerCall → Tokenizer
  | .acquire => t.acquire.2
  | .release => t.release
  | .ask request => (t.answer request).2

def performAll (t : Tokenizer) (calls : List TokenizerCall) : Tokenizer := calls.foldl perform t

theorem rules_answer (t : Tokenizer) (request : TokenRequest) :
    (t.answer request).2.rules = t.rules := by
  have hp : t.prepare.rules = t.rules := by
    unfold prepare
    split <;> rfl
  cases request with
  | hasMore => exact hp
  | next =>
    show t.next.2.rules = t.rules
    unfold next
    dsimp only
    split <;> exact hp

/-- **A tokenizer on a file with a text**, at any time between its calls. -/
structure OnFile (r : Rules) (text : String) (t : Tokenizer) : Prop where
  rules_eq : t.rules = r
  cursor : t.cursor.OnFile (.bytes text.toUTF8) r.lookahead

theorem onFile_ofRules (r : Rules) (text : String) :
    (ofRules r (.ofFile (.bytes text.toUTF8))).OnFile r text :=
  ⟨rfl, ⟨none, rfl⟩, Nat.max_eq_right r.lookahead_pos, Nat.zero_le _⟩

namespace OnFile

variable {r : Rules} {text : String} {t : Tokenizer}

/-- An acquired tokenizer has dropped its tokens, but not the characters in view. -/
theorem acquire_eq (h : t.OnFile r text) :
    t.acquire = (.ok (), ⟨⟨.file (.bytes text.toUTF8) (some (.ofString text)), t.cursor.window,
      r.lookahead⟩, r, []⟩) := by
  obtain ⟨hr, ⟨opened, hs⟩, hc, -⟩ := h
  have ha : (Source.file (.bytes text.toUTF8) opened).acquire =
      .ok (.file (.bytes text.toUTF8) (some (.ofString text))) := by
    rw [Source.acquire, FileEntry.read_toUTF8]
    rfl
  simp only [acquire, hs, ha, hc, hr]

theorem perform (h : t.OnFile r text) (call : TokenizerCall) : (t.perform call).OnFile r text := by
  cases call with
  | acquire =>
    show t.acquire.2.OnFile r text
    rw [h.acquire_eq]
    exact ⟨rfl, ⟨_, rfl⟩, rfl, h.cursor.window_le⟩
  | release =>
    obtain ⟨hr, ⟨opened, hs⟩, hc, hw⟩ := h
    exact ⟨hr, ⟨none, congrArg Source.release hs⟩, hc, hw⟩
  | ask request =>
    exact ⟨(t.rules_answer request).trans h.rules_eq, (Cursor.kept_onFile _ _).answer h.cursor request⟩

theorem performAll (h : t.OnFile r text) (calls : List TokenizerCall) :
    (t.performAll calls).OnFile r text := by
  induction calls generalizing t with
  | nil => exact h
  | cons call calls ih => exact ih (h.perform call)

/-- **An acquired tokenizer gives the tokens of what is left in view and the text after it.** -/
theorem trace_acquire (h : t.OnFile r text) (requests : List TokenRequest) :
    t.acquire.2.trace requests =
      answersFrom (r.lexFrom [] (t.cursor.window ++ locate .start text.toList)) requests := by
  have hshows : t.acquire.2.cursor.Shows t.acquire.2.rules.lookahead
      (t.cursor.window ++ locate .start text.toList) := by
    rw [h.acquire_eq]
    exact ⟨trivial, Nat.le_refl _, rfl⟩
  rw [Prompt.trace_eq ⟨_, hshows⟩, rest, Rules.tokensFrom_eq_lexFrom hshows, h.acquire_eq]
  rfl

end OnFile

/-! ### Nothing left in view -/

theorem Prompt.window_prepare {t : Tokenizer} (h : t.Prompt) (hq : t.prepare.queue = []) :
    t.prepare.cursor.window = [] := by
  cases htq : t.queue with
  | cons token queue =>
    simp only [Tokenizer.prepare, htq] at hq
    cases hq
  | nil =>
    obtain ⟨text, hs⟩ := h
    have hp : t.rules.Promises ⟨t.cursor, .normal, [], []⟩ text (t.rules.lexFrom [] text) :=
      ⟨hs, trivial, rfl⟩
    obtain ⟨text', hs', -, hnil⟩ := hp.scan
    simp only [Tokenizer.prepare, htq] at hq ⊢
    obtain rfl := hnil hq
    exact (List.append_eq_nil_iff.mp hs'.text_eq).1

theorem Prompt.window_answer {t : Tokenizer} (h : t.Prompt) {request : TokenRequest}
    (hn : (t.answer request).1 = .flag false ∨ (t.answer request).1 = .token none) :
    (t.answer request).2.cursor.window = [] := by
  cases request with
  | hasMore =>
    refine h.window_prepare ?_
    rcases hn with hn | hn
    · have hempty : (!t.prepare.queue.isEmpty) = false := TokenAnswer.flag.inj hn
      simpa using hempty
    · cases hn
  | next =>
    rcases hn with hn | hn
    · cases hn
    · replace hn : t.next.1 = none := TokenAnswer.token.inj hn
      show t.next.2.cursor.window = []
      unfold Tokenizer.next at hn ⊢
      dsimp only at hn ⊢
      split at hn
      · next hq => exact h.window_prepare hq
      · cases hn

theorem window_performAll (t : Tokenizer) {calls : List TokenizerCall}
    (h : ∀ request, .ask request ∉ calls) :
    (t.performAll calls).cursor.window = t.cursor.window := by
  induction calls generalizing t with
  | nil => rfl
  | cons call calls ih =>
    refine (ih (t.perform call) fun request hm => h request (List.mem_cons_of_mem _ hm)).trans ?_
    cases call with
    | acquire =>
      show t.acquire.2.cursor.window = _
      unfold acquire
      split <;> rfl
    | release => rfl
    | ask request => exact absurd List.mem_cons_self (h request)

theorem OnFile.prompt {r : Rules} {text : String} {t : Tokenizer} (h : t.OnFile r text) :
    t.Prompt := by
  obtain ⟨hr, ⟨opened, hs⟩, hc, -⟩ := h
  exact ⟨_, (congrArg Source.Prompt hs).mpr trivial, Nat.le_of_eq (by rw [hr, hc]), rfl⟩

end Tokenizer

/-! ## Opening a file again -/

/-- **A tokenizer on a file that is opened again does not start over.** Its complete tokens are
dropped, but the characters that are left in its window come before those of the file. It starts over
where there are none: when no token was asked for before, or the last request found none. -/
theorem LexerConfig.trace_reopened [PatternEngine] (c : LexerConfig) {r : Rules}
    (h : c.compile = .ok r) (text : String) :
    ∃ t tokens, c.tokenizer (.ofFile (.bytes text.toUTF8)) = .ok t ∧ c.tokenize text = .ok tokens ∧
      ∀ history,
        let s := t.performAll history
        s.acquire.1 = .ok () ∧ s.cursor.window.length ≤ r.lookahead ∧
        (∀ requests, s.acquire.2.trace requests =
          answersFrom (r.lexFrom [] (s.cursor.window ++ locate .start text.toList)) requests) ∧
        (s.cursor.window = [] →
          ∀ requests, (s.acquire.2.trace requests).filterMap TokenAnswer.given <+: tokens) ∧
        (∀ before idle, (∀ request, .ask request ∉ idle) →
          (history = idle ∨ ∃ request, history = before ++ .ask request :: idle ∧
            (((t.performAll before).answer request).1 = .flag false ∨
              ((t.performAll before).answer request).1 = .token none)) → s.cursor.window = []) := by
  have ht := Tokenizer.onFile_ofRules r text
  refine ⟨_, _, by rw [tokenizer, h]; rfl, c.tokenize_eq h text, fun history => ?_⟩
  have hs := ht.performAll history
  refine ⟨by rw [hs.acquire_eq], hs.cursor.window_le, hs.trace_acquire, fun hw requests => ?_, ?_⟩
  · rw [hs.trace_acquire, hw]
    exact given_answersFrom_prefix _ requests
  · rintro before idle hidle (rfl | ⟨request, rfl, hn⟩)
    · exact Tokenizer.window_performAll _ hidle
    · have hprompt := (ht.performAll before).prompt
      rw [Tokenizer.performAll, List.foldl_append, List.foldl_cons]
      exact (Tokenizer.window_performAll _ hidle).trans (hprompt.window_answer hn)

theorem reopened_after_the_end :
    letI := Expr.engine
    let c : LexerConfig := {}
    ∃ r, c.compile = .ok r ∧ ∃ t tokens, c.tokenizer (.ofFile (.bytes "ab cd".toUTF8)) = .ok t ∧
      c.tokenize "ab cd" = .ok tokens ∧
      ((t.performAll [.acquire, .ask .next, .ask .next, .ask .next, .release]).acquire.2.trace
        [.next, .hasMore, .next, .next]).filterMap TokenAnswer.given <+: tokens := by
  intro c
  let : PatternEngine := Expr.engine
  let r : Rules := ⟨" \t\r\n".toList, true, false, [], [], [], [], []⟩
  have hnone : ((Tokenizer.ofRules r (.ofFile (.bytes "ab cd".toUTF8))).performAll
      [.acquire, .ask .next, .ask .next]).next.1 = none := by
    decide +kernel
  obtain ⟨t, tokens, ht, htokens, hall⟩ := c.trace_reopened (r := r) rfl "ab cd"
  obtain rfl := Except.ok.inj ht
  obtain ⟨-, -, -, hgiven, hleft⟩ := hall [.acquire, .ask .next, .ask .next, .ask .next, .release]
  refine ⟨r, rfl, _, tokens, ht, htokens, hgiven ?_ _⟩
  exact hleft [.acquire, .ask .next, .ask .next] [.release] (by simp)
    (.inr ⟨.next, rfl, .inr (congrArg TokenAnswer.token hnone)⟩)

/-- A character in view when a file is opened again becomes part of the first token. -/
theorem reopened_before_the_end :
    letI := Expr.engine
    ∃ t tokens, LexerConfig.tokenizer {} (.ofFile (.bytes "ab cd".toUTF8)) = .ok t ∧
      LexerConfig.tokenize {} "ab cd" = .ok tokens ∧
      ¬ ((t.performAll [.acquire, .ask .next]).acquire.2.trace [.next]).filterMap
        TokenAnswer.given <+: tokens := by
  let : PatternEngine := Expr.engine
  let r : Rules := ⟨" \t\r\n".toList, true, false, [], [], [], [], []⟩
  have hgiven : (((Tokenizer.ofRules r (.ofFile (.bytes "ab cd".toUTF8))).performAll
      [.acquire, .ask .next]).acquire.2.trace [.next]).filterMap TokenAnswer.given =
        [.ofType "cab" "terminal" ⟨1, 4, 3⟩ ⟨1, 2, 1⟩] := by
    decide +kernel
  have htokens : r.lex "ab cd" = [.ofType "ab" "terminal" ⟨1, 1, 0⟩ ⟨1, 2, 1⟩,
      .ofType "cd" "terminal" ⟨1, 4, 3⟩ ⟨1, 5, 4⟩] := by
    decide +kernel
  refine ⟨.ofRules r (.ofFile (.bytes "ab cd".toUTF8)), r.lex "ab cd", rfl,
    LexerConfig.tokenize_eq {} rfl "ab cd", ?_⟩
  rw [htokens, hgiven]
  decide

end ParserKit
