import ParserKit.Pattern.Escape

/-!
# Reading with more text behind

The readers of a pattern are compared on a text and on the same text with the end of a group behind
it, which is `frameEnd`. What is read from the text alone is read from the longer text as well, with
the end of the group left over, except that a comment which is still open hides it. Which of the two
it is does not depend on what stands behind the group.

* `plain`: what a reader returns, with the rest as a plain text.
* **`Extends`**: how the results compare, for a text and for the text with `frameEnd` behind it.
  `Extends.bind` passes from one reader to the next.
* **`extends_readEscape`**: escape sequences.
-/

namespace ParserKit

/-- What stands behind a pattern in its frame: the end of the group, and anchors behind it. -/
def frameEnd (anchors : Nat) : List Char := ')' :: List.replicate anchors '$'

/-! ## Results of readers -/

section Plain

variable {α β : Type} {P Q : List Char → Prop}

/-- What a reader returns, with the rest as a plain text. -/
def plain (o : Except PatternFault (α × { r : List Char // P r })) :
    Except PatternFault (α × List Char) := o.map fun x => (x.1, x.2.val)

@[simp] theorem plain_ok (a : α) (r : { r : List Char // P r }) :
    plain (.ok (a, r)) = .ok (a, r.val) := rfl

@[simp] theorem plain_error (f : PatternFault) :
    plain (.error f : Except PatternFault (α × { r : List Char // P r })) = .error f := rfl

theorem property_of_plain {o : Except PatternFault (α × { r : List Char // P r })} {a : α}
    {r : List Char} (h : plain o = .ok (a, r)) : P r := by
  cases o with
  | error f => cases h
  | ok x =>
    cases h
    exact x.2.property

/-- One reader after another, when the second one only depends on the rest as a text. -/
theorem plain_bind {o : Except PatternFault (α × { r : List Char // P r })}
    {k : α × { r : List Char // P r } → Except PatternFault (β × { r : List Char // Q r })}
    (k' : α → List Char → Except PatternFault (β × List Char))
    (h : ∀ a r, plain (k (a, r)) = k' a r.val) :
    plain (o >>= k) = plain o >>= fun x => k' x.1 x.2 := by
  cases o with
  | error f => rfl
  | ok x => exact h x.1 x.2

theorem plain_bind_ok {o : Except PatternFault (α × { r : List Char // P r })}
    {k : α × { r : List Char // P r } → Except PatternFault (α × { r : List Char // Q r })}
    (h : ∀ a r, plain (k (a, r)) = .ok (a, r.val)) : plain (o >>= k) = plain o := by
  cases o with
  | error f => rfl
  | ok x => exact h x.1 x.2

end Plain

/-! ## Comparing two results -/

section Extends

variable {α β : Type}

/-- How the result for a text and those for the text with `frameEnd` behind it compare. -/
def Extends (o : Except PatternFault (α × List Char))
    (o' : Nat → Except PatternFault (α × List Char)) : Prop :=
  ∀ a r, o = .ok (a, r) →
    (∀ n, o' n = .ok (a, r ++ frameEnd n)) ∨ (r = [] ∧ ∀ n, o' n = .ok (a, []))

theorem extends_ok (a : α) (r : List Char) :
    Extends (.ok (a, r)) fun n => .ok (a, r ++ frameEnd n) := by
  rintro _ _ ⟨⟩
  exact .inl fun _ => rfl

theorem extends_error (f : PatternFault) (o' : Nat → Except PatternFault (α × List Char)) :
    Extends (.error f) o' := fun _ _ h => nomatch h

theorem extends_self {o : Except PatternFault (α × List Char)}
    (h : ∀ a r, o = .ok (a, r) → r = []) : Extends o fun _ => o := by
  intro a r ho
  obtain rfl := h a r ho
  exact .inr ⟨rfl, fun _ => ho⟩

/-- **One reader after another.** The second one leaves nothing where the first one left nothing. -/
theorem Extends.bind {o : Except PatternFault (α × List Char)}
    {o' : Nat → Except PatternFault (α × List Char)}
    {k : α → List Char → Except PatternFault (β × List Char)} (h : Extends o o')
    (hk : ∀ a r, o = .ok (a, r) → Extends (k a r) fun n => k a (r ++ frameEnd n))
    (hnil : ∀ a b r, k a [] = .ok (b, r) → r = []) :
    Extends (o >>= fun x => k x.1 x.2) fun n => o' n >>= fun x => k x.1 x.2 := by
  match o with
  | .ok (a, r) =>
    rcases h a r rfl with hread | ⟨rfl, hread⟩
    · obtain rfl : o' = _ := funext hread
      exact hk a r rfl
    · obtain rfl : o' = _ := funext hread
      exact extends_self (hnil a)
  | .error f => exact extends_error f _

theorem Extends.map {o : Except PatternFault (α × List Char)}
    {o' : Nat → Except PatternFault (α × List Char)} (g : α → Except PatternFault β)
    (h : Extends o o') :
    Extends (o >>= fun x => g x.1 >>= fun b => .ok (b, x.2))
      fun n => o' n >>= fun x => g x.1 >>= fun b => .ok (b, x.2) := by
  refine Extends.bind (k := fun a r => g a >>= fun b => .ok (b, r)) h (fun a r _ => ?_)
    fun a b r hr => ?_
  · cases g a with
    | error f => exact extends_error f _
    | ok b => exact extends_ok b r
  · cases hg : g a with
    | error f => rw [hg] at hr; cases hr
    | ok b => rw [hg] at hr; cases hr; rfl

theorem Extends.rename {P Q : List Char → Prop} {P' Q' : Nat → List Char → Prop}
    {o : Except PatternFault (α × { r : List Char // P r })}
    {o' : (n : Nat) → Except PatternFault (α × { r : List Char // P' n r })}
    {k : α × { r : List Char // P r } → Except PatternFault (β × { r : List Char // Q r })}
    {k' : (n : Nat) → α × { r : List Char // P' n r } →
      Except PatternFault (β × { r : List Char // Q' n r })}
    (g : α → β) (h : Extends (plain o) fun n => plain (o' n))
    (hk : ∀ a r, plain (k (a, r)) = .ok (g a, r.val))
    (hk' : ∀ n a r, plain (k' n (a, r)) = .ok (g a, r.val)) :
    Extends (plain (o >>= k)) fun n => plain (o' n >>= k' n) := by
  have hrest (n : Nat) := plain_bind (o := o' n) (fun a r => .ok (g a, r)) (hk' n)
  simp only [plain_bind (fun a r => .ok (g a, r)) hk, hrest]
  exact h.map fun a => .ok (g a)

end Extends

/-! ## Blanks -/

theorem skipBlanks_anchors (n : Nat) : skipBlanks true (List.replicate n '$') = [] := by
  induction n with
  | zero => rfl
  | succ n ih => exact ih

theorem skipBlanks_append (inComment : Bool) (s : List Char) :
    (∀ n, skipBlanks inComment (s ++ frameEnd n) = skipBlanks inComment s ++ frameEnd n) ∨
      (skipBlanks inComment s = [] ∧ ∀ n, skipBlanks inComment (s ++ frameEnd n) = []) := by
  induction s generalizing inComment with
  | nil =>
    cases inComment with
    | false => exact .inl fun _ => rfl
    | true => exact .inr ⟨rfl, skipBlanks_anchors⟩
  | cons c s ih =>
    simp only [List.cons_append, skipBlanks]
    split
    · exact ih _
    split
    · exact ih _
    split
    · exact ih _
    · exact .inl fun _ => rfl

/-- Skipping blanks leaves `frameEnd` over, or it hides it in a comment. -/
theorem skip_append (verbose : Bool) (s : List Char) :
    (∀ n, skip verbose (s ++ frameEnd n) = skip verbose s ++ frameEnd n) ∨
      (skip verbose s = [] ∧ ∀ n, skip verbose (s ++ frameEnd n) = []) := by
  unfold skip
  split
  · exact skipBlanks_append false s
  · exact .inl fun _ => rfl

theorem skip_nil (verbose : Bool) : skip verbose [] = [] := by cases verbose <;> rfl

theorem skip_dollar (verbose : Bool) : skip verbose ['$'] = ['$'] := by cases verbose <;> decide

section Skip

variable {α : Type} (verbose : Bool) (s : List Char)

theorem extends_skip_at (k : List Char → Except PatternFault (α × List Char))
    (hk : Extends (k (skip verbose s)) fun n => k (skip verbose s ++ frameEnd n))
    (hnil : ∀ a r, k [] = .ok (a, r) → r = []) :
    Extends (k (skip verbose s)) fun n => k (skip verbose (s ++ frameEnd n)) := by
  rcases skip_append verbose s with h | ⟨h, h'⟩
  · simpa only [h] using hk
  · simpa only [h, h'] using extends_self hnil

theorem extends_skip {k : List Char → Except PatternFault (α × List Char)}
    (hk : ∀ r, Extends (k r) fun n => k (r ++ frameEnd n))
    (hnil : ∀ a r, k [] = .ok (a, r) → r = []) :
    Extends (k (skip verbose s)) fun n => k (skip verbose (s ++ frameEnd n)) :=
  extends_skip_at verbose s k (hk _) hnil

end Skip

/-- A reader that returns no more than it was given leaves nothing of nothing. -/
theorem eq_nil_of_plain {α : Type} {o : Except PatternFault (α × { r : List Char // r.length ≤ 0 })}
    {a : α} {r : List Char} (h : plain o = .ok (a, r)) : r = [] :=
  List.eq_nil_of_length_eq_zero (Nat.le_zero.mp (property_of_plain h))

/-- With `frameEnd` behind it a text begins with the same character, and with none of those that
have a meaning of their own if it is empty. -/
theorem append_frameEnd_ne {c : Char} {s : List Char} (hs : ∀ t, s ≠ c :: t) (hc : ')' ≠ c)
    (n : Nat) (t : List Char) : s ++ frameEnd n ≠ c :: t := by
  cases s with
  | nil => exact fun h => hc (List.cons.inj h).1
  | cons d s => exact fun h => hs s (by rw [(List.cons.inj h).1])

theorem span_append {p : Char → Bool} {s : List Char} (t : List Char) (h : s.dropWhile p ≠ []) :
    (s ++ t).takeWhile p = s.takeWhile p ∧ (s ++ t).dropWhile p = s.dropWhile p ++ t := by
  induction s with
  | nil => exact absurd rfl h
  | cons c s ih =>
    by_cases hc : p c = true
    · rw [List.dropWhile_cons_of_pos hc] at h
      simpa [List.takeWhile_cons, List.dropWhile_cons, hc] using ih h
    · simp [hc]

theorem head?_append_frameEnd (s : List Char) {d : Char} (hd : d ≠ ')') (n : Nat) :
    ((s ++ frameEnd n).head? == some d) = (s.head? == some d) := by
  cases s with
  | nil => simpa [frameEnd] using hd.symm
  | cons c s => rfl

theorem head?_skip_append (verbose : Bool) (s : List Char) {d : Char} (hd : d ≠ ')') (n : Nat) :
    (skip verbose (s ++ frameEnd n)).head? = some d ↔ (skip verbose s).head? = some d := by
  rcases skip_append verbose s with h | ⟨h, h'⟩
  · have := head?_append_frameEnd (skip verbose s) hd n
    rw [Bool.eq_iff_iff, beq_iff_eq, beq_iff_eq] at this
    rw [h, this]
  · rw [h, h']

theorem dropBlanks_append (s : List Char) (n : Nat) :
    (s ++ frameEnd n).dropWhile isBlank = s.dropWhile isBlank ++ frameEnd n := by
  rw [List.dropWhile_append]
  split
  · next h =>
    rw [List.isEmpty_iff.mp h, List.nil_append]
    exact List.dropWhile_cons_of_neg (by decide)
  · rfl

/-! ## Escape sequences -/

section Escapes

variable (verbose : Bool)

theorem plain_readHexDigits_succ (digits value : Nat) (c : Char) (s : List Char) :
    plain (readHexDigits verbose (digits + 1) value (c :: s)) =
      match hexValue c with
      | none => .error .badCodePoint
      | some digit => plain (readHexDigits verbose digits (16 * value + digit) (skip verbose s)) := by
  rw [readHexDigits]
  cases hexValue c with
  | none => rfl
  | some digit => exact plain_bind_ok fun a r => rfl

theorem extends_readHexDigits (digits value : Nat) (s : List Char) :
    Extends (plain (readHexDigits verbose digits value s))
      fun n => plain (readHexDigits verbose digits value (s ++ frameEnd n)) := by
  induction digits generalizing value s with
  | zero => exact extends_ok value s
  | succ digits ih =>
    cases s with
    | nil => exact extends_error .unfinishedEscape _
    | cons c s =>
      simp only [List.cons_append, plain_readHexDigits_succ]
      cases hexValue c with
      | none => exact extends_error _ _
      | some digit => exact extends_skip verbose s (ih _) fun a r => eq_nil_of_plain

theorem plain_readHexBraced (value : Option Nat) (s : List Char) :
    plain (readHexBraced verbose value s) =
      match skip verbose s with
      | [] => .error .unfinishedEscape
      | c :: t =>
        if c = '}' then
          match value with
          | some n => .ok (n, skip verbose t)
          | none => .error .badCodePoint
        else
          match hexValue c with
          | none => .error .badCodePoint
          | some digit => plain (readHexBraced verbose (some (16 * value.getD 0 + digit)) t) := by
  rw [readHexBraced]
  split
  · next h => rw [h]; rfl
  · next c t h =>
    conv => rhs; rw [h]
    dsimp only
    split
    · cases value <;> rfl
    · cases hexValue c with
      | none => rfl
      | some digit => exact plain_bind_ok fun a r => rfl

theorem extends_readHexBraced (value : Option Nat) (s : List Char) :
    Extends (plain (readHexBraced verbose value s))
      fun n => plain (readHexBraced verbose value (s ++ frameEnd n)) := by
  have hbehind (n : Nat) := plain_readHexBraced verbose value (s ++ frameEnd n)
  simp only [hbehind]
  rw [plain_readHexBraced]
  have hlen := length_skip_le verbose s
  rcases skip_append verbose s with h | ⟨h, -⟩
  · simp only [h]
    cases hskip : skip verbose s with
    | nil => exact extends_error .unfinishedEscape _
    | cons c t =>
      dsimp only [List.cons_append]
      split
      · cases value with
        | none => exact extends_error _ _
        | some code => exact extends_skip verbose t (extends_ok code) (by rintro _ _ ⟨⟩; rfl)
      · cases hexValue c with
        | none => exact extends_error _ _
        | some digit => exact extends_readHexBraced _ t
  · rw [h]
    exact extends_error _ _
termination_by s.length
decreasing_by
  rw [hskip, List.length_cons] at hlen
  omega

theorem plain_readCodePoint (digits : Nat) (s : List Char) :
    plain (readCodePoint verbose digits s) =
      match skip verbose s with
      | [] => .error .unfinishedEscape
      | c :: t =>
        (if c = '{' then plain (readHexBraced verbose none t)
          else plain (readHexDigits verbose digits 0 (c :: t))) >>= fun x =>
            charOfCodePoint x.1 >>= fun char => .ok (char, x.2) := by
  rw [readCodePoint]
  split
  · next h => rw [h]; rfl
  · next c t h =>
    conv => rhs; rw [h]
    dsimp only
    by_cases hc : c = '{'
    · rw [if_pos hc, if_pos hc]
      refine plain_bind (fun n r => charOfCodePoint n >>= fun char => .ok (char, r)) fun n r => ?_
      dsimp only
      cases charOfCodePoint n <;> rfl
    · rw [if_neg hc, if_neg hc]
      refine plain_bind (fun n r => charOfCodePoint n >>= fun char => .ok (char, r)) fun n r => ?_
      dsimp only
      cases charOfCodePoint n <;> rfl

theorem extends_readCodePoint (digits : Nat) (s : List Char) :
    Extends (plain (readCodePoint verbose (digits + 1) s))
      fun n => plain (readCodePoint verbose (digits + 1) (s ++ frameEnd n)) := by
  simp only [plain_readCodePoint]
  rcases skip_append verbose s with h | ⟨h, -⟩
  · simp only [h]
    cases skip verbose s with
    | nil => exact extends_error .unfinishedEscape _
    | cons c t =>
      refine Extends.map charOfCodePoint ?_
      split
      · exact extends_readHexBraced verbose none t
      · exact extends_readHexDigits verbose (digits + 1) 0 (c :: t)
  · rw [h]
    exact extends_error _ _

theorem plain_readBoundaryName (name : List Char) (c : Char) (t : List Char) :
    plain (readBoundaryName verbose name (c :: t)) =
      if isBoundaryNameChar c then plain (readBoundaryName verbose (c :: name) (skip verbose t))
      else if c = '}' then
        match namedBoundary (String.ofList name.reverse) with
        | some a => .ok (a, t)
        | none => .error .unfinishedEscape
      else .error .unfinishedEscape := by
  rw [readBoundaryName]
  split
  · exact plain_bind_ok fun a r => rfl
  split
  · cases namedBoundary (String.ofList name.reverse) <;> rfl
  · rfl

theorem plain_readBoundaryName_nil (name : List Char) :
    plain (readBoundaryName verbose name []) = .error .unfinishedEscape := by
  rw [readBoundaryName]
  rfl

theorem extends_readBoundaryName (name : List Char) (s : List Char) :
    Extends (plain (readBoundaryName verbose name s))
      fun n => plain (readBoundaryName verbose name (s ++ frameEnd n)) := by
  match s with
  | [] =>
    rw [plain_readBoundaryName_nil]
    exact extends_error _ _
  | c :: t =>
    simp only [List.cons_append, plain_readBoundaryName verbose name c]
    split
    · have hlen := length_skip_le verbose t
      exact extends_skip_at verbose t (fun r => plain (readBoundaryName verbose (c :: name) r))
        (extends_readBoundaryName (c :: name) (skip verbose t)) fun a r => eq_nil_of_plain
    split
    · cases namedBoundary (String.ofList name.reverse) with
      | none => exact extends_error _ _
      | some a => exact extends_ok a t
    · exact extends_error _ _
termination_by s.length
decreasing_by
  simp only [List.length_cons]
  omega

theorem plain_readBoundary_brace (t : List Char) :
    plain (readBoundary verbose ('{' :: t)) =
      match skip verbose t with
      | [] => .error .unfinishedEscape
      | c :: u =>
        if isBoundaryNameChar c then plain (readBoundaryName verbose [] (c :: u))
        else .ok (.wordBoundary, '{' :: t) := by
  rw [readBoundary]
  split
  · next h => rw [h]; rfl
  · next c u h =>
    conv => rhs; rw [h]
    dsimp only
    split
    · exact plain_bind_ok fun a r => rfl
    · rfl

theorem plain_readBoundary_other {s : List Char} (hs : ∀ t, s ≠ '{' :: t) :
    plain (readBoundary verbose s) = .ok (.wordBoundary, s) := by
  unfold readBoundary
  split
  · next t => exact absurd rfl (hs t)
  · rfl

theorem extends_readBoundary (s : List Char) :
    Extends (plain (readBoundary verbose s))
      fun n => plain (readBoundary verbose (s ++ frameEnd n)) := by
  by_cases hs : ∃ t, s = '{' :: t
  · obtain ⟨t, rfl⟩ := hs
    simp only [List.cons_append, plain_readBoundary_brace]
    rcases skip_append verbose t with h | ⟨h, -⟩
    · simp only [h]
      cases skip verbose t with
      | nil => exact extends_error _ _
      | cons c u =>
        dsimp only [List.cons_append]
        split
        · exact extends_readBoundaryName verbose [] (c :: u)
        · exact extends_ok _ ('{' :: t)
    · rw [h]
      exact extends_error _ _
  · rw [not_exists] at hs
    have hbehind (n : Nat) := plain_readBoundary_other verbose (append_frameEnd_ne hs (by decide) n)
    simp only [plain_readBoundary_other verbose hs, hbehind]
    exact extends_ok _ s

/-- **Escape sequences with more text behind.** -/
theorem extends_readEscape (s : List Char) :
    Extends (plain (readEscape verbose s)) fun n => plain (readEscape verbose (s ++ frameEnd n)) := by
  cases s with
  | nil => exact extends_error _ _
  | cons c t =>
    simp only [List.cons_append]
    unfold readEscape
    dsimp only
    split
    -- the code points, the boundary `\b`, and what is escaped only for itself
    case h_1 | h_2 | h_3 =>
      exact (extends_readCodePoint verbose _ t).rename .literal (fun _ _ => rfl) (fun _ _ _ => rfl)
    case h_21 =>
      exact (extends_readBoundary verbose t).rename .look (fun _ _ => rfl) (fun _ _ _ => rfl)
    case h_22 =>
      split
      · exact extends_error _ _
      split
      · exact extends_ok _ t
      · exact extends_error _ _
    all_goals exact extends_ok _ t

end Escapes

end ParserKit
