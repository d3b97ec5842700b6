import ParserKit.Pattern.Bracket
import ParserKit.Proofs.Pattern.Reading

/-!
# Reading bracketed classes with more text behind

The readers of bracketed classes, compared on a text and on the same text with `frameEnd` behind it.
No bracket opens in `frameEnd`, and no hyphen stands there, so each item ends where it did.

* `extends_readBracketStart`: the sign of a negation, and the items that are literal only at the
  beginning.
* `readClassName_append`: named classes.
* `extends_readClassItem`, `extends_readClassPart`: what stands between brackets.
* **`extends_readClass`**: a class.
-/

namespace ParserKit

variable (verbose caseless : Bool)

/-! ## The beginning of a bracket -/

def hyphens (b : OpenBracket) (s : List Char) : Except PatternFault (OpenBracket × List Char) :=
  plain (.ok (readHyphens verbose b s))

theorem hyphens_hyphen (b : OpenBracket) (t : List Char) :
    hyphens verbose b ('-' :: t) = hyphens verbose (b.addChar '-') (skip verbose t) := by
  rw [hyphens, readHyphens]
  rfl

theorem hyphens_other (b : OpenBracket) {s : List Char} (hs : ∀ t, s ≠ '-' :: t) :
    hyphens verbose b s = .ok (b, s) := by
  rw [hyphens, readHyphens]
  · rfl
  · exact hs

theorem hyphens_nil {b b' : OpenBracket} {r : List Char} (h : hyphens verbose b [] = .ok (b', r)) :
    r = [] := eq_nil_of_plain h

theorem extends_hyphens (b : OpenBracket) (s : List Char) :
    Extends (hyphens verbose b s) fun n => hyphens verbose b (s ++ frameEnd n) := by
  by_cases hs : ∃ t, s = '-' :: t
  · obtain ⟨t, ht⟩ := hs
    have hlen : (skip verbose t).length < s.length := by
      rw [ht, List.length_cons]
      exact Nat.lt_succ_of_le (length_skip_le verbose t)
    simp only [ht, List.cons_append, hyphens_hyphen]
    exact extends_skip_at verbose t (hyphens verbose (b.addChar '-'))
      (extends_hyphens (b.addChar '-') (skip verbose t)) fun _ _ => hyphens_nil verbose
  · rw [not_exists] at hs
    have hbehind (n : Nat) := hyphens_other verbose b (append_frameEnd_ne hs (by decide) n)
    simp only [hyphens_other verbose b hs, hbehind]
    exact extends_ok b s
termination_by s.length

/-- The hyphens at the beginning of a bracket, with the sign of a negation in front or without. -/
def bracketHyphens (first : List Char) : Except PatternFault (OpenBracket × List Char) :=
  let negated := first.head? == some '^'
  hyphens verbose { negated } (if negated then skip verbose first.tail else first)

theorem extends_bracketHyphens (first : List Char) :
    Extends (bracketHyphens verbose first) fun n => bracketHyphens verbose (first ++ frameEnd n) := by
  cases first with
  | nil => exact extends_hyphens verbose _ []
  | cons c t =>
    simp only [bracketHyphens, List.cons_append, List.head?_cons, List.tail_cons]
    by_cases hc : c = '^'
    · simp only [hc, beq_self_eq_true, if_true]
      exact extends_skip verbose t (extends_hyphens verbose _) fun _ _ => hyphens_nil verbose
    · have hneg : (some c == some '^') = false := by simpa using hc
      simp only [hneg, Bool.false_eq_true, if_false]
      exact extends_hyphens verbose _ (c :: t)

/-- A closing bracket with which a bracket begins is an item of it. -/
def takeFirstBracket (b : OpenBracket) (s : List Char) : OpenBracket × List Char :=
  match s, b.depths with
  | ']' :: t, [] => (b.addChar ']', skip verbose t)
  | s, _ => (b, s)

theorem takeFirstBracket_bracket {b : OpenBracket} {s t : List Char} (hs : s = ']' :: t)
    (hdepths : b.depths = []) :
    takeFirstBracket verbose b s = (b.addChar ']', skip verbose t) := by
  simp only [takeFirstBracket, hs, hdepths]

theorem takeFirstBracket_other {b : OpenBracket} {s : List Char}
    (h : ∀ t, s = ']' :: t → b.depths ≠ []) : takeFirstBracket verbose b s = (b, s) := by
  unfold takeFirstBracket
  split
  · next hdepths => exact absurd hdepths (h _ rfl)
  · rfl

theorem extends_takeFirstBracket (b : OpenBracket) (s : List Char) :
    Extends (.ok (takeFirstBracket verbose b s))
      fun n => .ok (takeFirstBracket verbose b (s ++ frameEnd n)) := by
  by_cases h : ∃ t, s = ']' :: t ∧ b.depths = []
  · obtain ⟨t, rfl, hdepths⟩ := h
    simp only [List.cons_append, takeFirstBracket_bracket verbose rfl hdepths]
    exact extends_skip verbose t (extends_ok _) (by rintro _ _ ⟨⟩; rfl)
  · have hs : ∀ t, s = ']' :: t → b.depths ≠ [] := fun t ht hdepths => h ⟨t, ht, hdepths⟩
    have happ (n : Nat) : ∀ t, s ++ frameEnd n = ']' :: t → b.depths ≠ [] := by
      intro t ht
      by_cases hb : ∃ u, s = ']' :: u
      · exact hs _ hb.choose_spec
      · exact absurd ht (append_frameEnd_ne (not_exists.mp hb) (by decide) n t)
    have hbehind (n : Nat) := takeFirstBracket_other verbose (happ n)
    simp only [takeFirstBracket_other verbose hs, hbehind]
    exact extends_ok b s

theorem plain_readBracketStart (s : List Char) :
    plain (.ok (readBracketStart verbose s)) =
      bracketHyphens verbose (skip verbose s) >>= fun x =>
        .ok (takeFirstBracket verbose x.1 x.2) := by
  unfold readBracketStart bracketHyphens hyphens
  dsimp only [plain_ok]
  split
  · next t hrest hdepths =>
    exact congrArg Except.ok (takeFirstBracket_bracket verbose hrest hdepths).symm
  · next hother => exact congrArg Except.ok (takeFirstBracket_other verbose hother).symm

theorem extends_readBracketStart (s : List Char) :
    Extends (plain (.ok (readBracketStart verbose s)))
      fun n => plain (.ok (readBracketStart verbose (s ++ frameEnd n))) := by
  simp only [plain_readBracketStart]
  refine Extends.bind (k := fun b r => .ok (takeFirstBracket verbose b r))
    (extends_skip verbose s (extends_bracketHyphens verbose) fun b r h => hyphens_nil verbose h)
    (fun b r _ => extends_takeFirstBracket verbose b r) ?_
  rintro a b r h
  cases h
  rfl

/-! ## Named classes -/

def classNameBody (t : List Char) : Bool × List Char :=
  let negated := t.head? == some '^'
  (negated, if negated then t.tail else t)

theorem classNameBody_append (t : List Char) (n : Nat) :
    classNameBody (t ++ frameEnd n) =
      ((classNameBody t).1, (classNameBody t).2 ++ frameEnd n) := by
  cases t with
  | nil => rfl
  | cons c t =>
    by_cases hc : c = '^'
    · rw [hc]; rfl
    · simp [classNameBody, hc]

theorem readClassName_colon (t : List Char) :
    (readClassName caseless (':' :: t)).map (fun x => (x.1, x.2.val)) =
      match (classNameBody t).2.dropWhile (· != ':') with
      | ':' :: ']' :: rest =>
        (CharSet.ofClassName
          (String.ofList ((classNameBody t).2.takeWhile (· != ':')))).map fun set =>
            (CharSet.negateIf (classNameBody t).1 (set.foldIf caseless), rest)
      | _ => none := by
  rw [readClassName]
  split
  · next rest h =>
    rw [show (classNameBody t).2.dropWhile (· != ':') = ':' :: ']' :: rest from h]
    exact Option.map_map ..
  · next hother =>
    split
    · next rest h => exact absurd h (hother rest)
    · rfl

theorem readClassName_other {s : List Char} (hs : ∀ t, s ≠ ':' :: t) :
    readClassName caseless s = none := by
  rw [readClassName]
  exact hs

theorem dropWhile_frameEnd {d : Char} (hclose : d ≠ ')') (hanchor : d ≠ '$') (n : Nat) :
    (frameEnd n).dropWhile (· != d) = [] := by
  simp [frameEnd, hclose.symm, hanchor.symm]

theorem readClassName_append (s : List Char) (n : Nat) :
    (readClassName caseless (s ++ frameEnd n)).map (fun x => (x.1, x.2.val)) =
      (readClassName caseless s).map fun x => (x.1, x.2.val ++ frameEnd n) := by
  by_cases hs : ∃ t, s = ':' :: t
  · obtain ⟨t, rfl⟩ := hs
    have hmap : (readClassName caseless (':' :: t)).map (fun x => (x.1, x.2.val ++ frameEnd n)) =
        ((readClassName caseless (':' :: t)).map fun x => (x.1, x.2.val)).map
          fun x => (x.1, x.2 ++ frameEnd n) := by rw [Option.map_map]; rfl
    rw [hmap, List.cons_append, readClassName_colon, readClassName_colon, classNameBody_append]
    dsimp only
    generalize classNameBody t = body
    by_cases hnil : body.2.dropWhile (· != ':') = []
    · have hdrop : (body.2 ++ frameEnd n).dropWhile (· != ':') = [] := by
        rw [List.dropWhile_append, hnil, if_pos List.isEmpty_nil,
          dropWhile_frameEnd (by decide) (by decide)]
      rw [hdrop, hnil]
      rfl
    · obtain ⟨htake, hdrop⟩ := span_append (frameEnd n) hnil
      rw [htake, hdrop]
      generalize body.2.dropWhile (· != ':') = d at hnil
      match d with
      | [x] => by_cases hx : x = ':' <;> simp [frameEnd, hx]
      | x :: y :: rest =>
        by_cases hx : x = ':'
        · by_cases hy : y = ']'
          · simp only [hx, hy, List.cons_append, Option.map_map]
            rfl
          · simp [hx, hy]
        · simp [hx]
  · rw [not_exists] at hs
    rw [readClassName_other caseless hs,
      readClassName_other caseless (append_frameEnd_ne hs (by decide) n)]
    rfl

/-! ## Items -/

theorem afterHyphen_append (s : List Char) {d : Char} (hd : d ≠ ')') (n : Nat) :
    (afterHyphen verbose (s ++ frameEnd n) == some d) = (afterHyphen verbose s == some d) := by
  unfold afterHyphen
  split
  · rw [dropBlanks_append]
    generalize s.dropWhile isBlank = t
    cases t with
    | nil => exact head?_append_frameEnd [] hd n
    | cons c t =>
      by_cases hc : c = '#'
      · subst hc
        simp only [List.cons_append, dropBlanks_append]
        exact head?_append_frameEnd _ hd n
      · simp [hc]
  · exact head?_append_frameEnd s hd n

theorem plain_readClassAtom_char {c : Char} (hc : c ≠ '\\') (t : List Char) :
    plain (readClassAtom verbose (c :: t)) = .ok (.literal c, t) := by
  rw [readClassAtom]
  · rfl
  · exact fun h => hc h

theorem extends_readClassAtom (s : List Char) :
    Extends (plain (readClassAtom verbose s))
      fun n => plain (readClassAtom verbose (s ++ frameEnd n)) := by
  cases s with
  | nil => exact extends_error _ _
  | cons c t =>
    by_cases hc : c = '\\'
    · subst hc
      exact (extends_readEscape verbose t).rename id (fun _ _ => rfl) (fun _ _ _ => rfl)
    · simp only [List.cons_append, plain_readClassAtom_char verbose hc]
      exact extends_ok _ t

def itemOf : Escape → Except PatternFault CharSet
  | .literal c => .ok (CharSet.single c)
  | .set s => .ok s
  | .look _ => .error .badClassItem

def rangeOf : Escape → Escape → Except PatternFault CharSet
  | .literal lo, .literal hi =>
    if lo ≤ hi then .ok (CharSet.ofRange lo hi) else .error .badClassRange
  | _, _ => .error .badClassRange

/-- The rest of an item whose first character or escape sequence has been read. -/
def readItemAfter (first : Escape) (s : List Char) : Except PatternFault (CharSet × List Char) :=
  match skip verbose s with
  | '-' :: t =>
    if afterHyphen verbose t == some ']' || afterHyphen verbose t == some '-' then
      itemOf first >>= fun set => .ok (set, s)
    else
      plain (readClassAtom verbose (skip verbose t)) >>= fun x =>
        rangeOf first x.1 >>= fun set => .ok (set, x.2)
  | _ => itemOf first >>= fun set => .ok (set, s)

theorem readItemAfter_hyphen (first : Escape) {s t : List Char} (h : skip verbose s = '-' :: t) :
    readItemAfter verbose first s =
      if afterHyphen verbose t == some ']' || afterHyphen verbose t == some '-' then
        itemOf first >>= fun set => .ok (set, s)
      else
        plain (readClassAtom verbose (skip verbose t)) >>= fun x =>
          rangeOf first x.1 >>= fun set => .ok (set, x.2) := by
  simp only [readItemAfter, h]

theorem readItemAfter_other (first : Escape) {s : List Char} (h : ∀ t, skip verbose s ≠ '-' :: t) :
    readItemAfter verbose first s = itemOf first >>= fun set => .ok (set, s) := by
  unfold readItemAfter
  split
  · next t ht => exact absurd ht (h t)
  · rfl

theorem plain_readClassItem (s : List Char) :
    plain (readClassItem verbose s) =
      plain (readClassAtom verbose s) >>= fun x => readItemAfter verbose x.1 x.2 := by
  rw [readClassItem]
  refine plain_bind (readItemAfter verbose) fun first rest => ?_
  dsimp only
  split
  · next t h =>
    rw [readItemAfter_hyphen verbose first h]
    split
    · cases first <;> rfl
    · refine plain_bind (fun last r => rangeOf first last >>= fun set => .ok (set, r))
        fun last r => ?_
      cases first with
      | literal lo =>
        cases last with
        | literal hi =>
          dsimp only [rangeOf]
          split <;> rfl
        | _ => rfl
      | _ => rfl
  · next hother =>
    rw [readItemAfter_other verbose first hother]
    cases first <;> rfl

theorem extends_itemOf (e : Escape) (s : List Char) :
    Extends (itemOf e >>= fun set => .ok (set, s))
      fun n => itemOf e >>= fun set => .ok (set, s ++ frameEnd n) := by
  cases itemOf e with
  | error f => exact extends_error f _
  | ok set => exact extends_ok set s

theorem extends_readRange (first : Escape) (t : List Char) :
    Extends
      (plain (readClassAtom verbose (skip verbose t)) >>= fun x =>
        rangeOf first x.1 >>= fun set => .ok (set, x.2))
      fun n => plain (readClassAtom verbose (skip verbose (t ++ frameEnd n))) >>= fun x =>
        rangeOf first x.1 >>= fun set => .ok (set, x.2) :=
  (extends_skip verbose t (extends_readClassAtom verbose) fun _ _ h => nomatch h).map (rangeOf first)

theorem extends_readItemAfter (first : Escape) (s : List Char) :
    Extends (readItemAfter verbose first s)
      fun n => readItemAfter verbose first (s ++ frameEnd n) := by
  by_cases hs : ∃ t, skip verbose s = '-' :: t
  · obtain ⟨t, ht⟩ := hs
    have happ (n : Nat) : skip verbose (s ++ frameEnd n) = '-' :: (t ++ frameEnd n) := by
      rcases skip_append verbose s with h | ⟨h, -⟩
      · rw [h, ht, List.cons_append]
      · rw [h] at ht
        cases ht
    have hbehind (n : Nat) := readItemAfter_hyphen verbose first (happ n)
    have hafter {d : Char} (hd : d ≠ ')') (n : Nat) := afterHyphen_append verbose t hd n
    simp only [readItemAfter_hyphen verbose first ht, hbehind, hafter (d := ']') (by decide),
      hafter (d := '-') (by decide)]
    split
    · exact extends_itemOf first s
    · exact extends_readRange verbose first t
  · have happ (n : Nat) (t : List Char) : skip verbose (s ++ frameEnd n) ≠ '-' :: t := by
      rcases skip_append verbose s with h | ⟨-, h⟩
      · rw [h]
        exact append_frameEnd_ne (not_exists.mp hs) (by decide) n t
      · rw [h]
        exact fun h => nomatch h
    have hbehind (n : Nat) := readItemAfter_other verbose first (happ n)
    simp only [readItemAfter_other verbose first (not_exists.mp hs), hbehind]
    exact extends_itemOf first s

theorem rest_of_readItemAfter {first : Escape} {s r : List Char} {set : CharSet}
    (h : ∀ t, skip verbose s ≠ '-' :: t) (hr : readItemAfter verbose first s = .ok (set, r)) :
    r = s := by
  rw [readItemAfter_other verbose first h] at hr
  cases hset : itemOf first with
  | error f => rw [hset] at hr; cases hr
  | ok set => rw [hset] at hr; cases hr; rfl

theorem extends_readClassItem (s : List Char) :
    Extends (plain (readClassItem verbose s))
      fun n => plain (readClassItem verbose (s ++ frameEnd n)) := by
  simp only [plain_readClassItem]
  refine Extends.bind (extends_readClassAtom verbose s)
    (fun first r _ => extends_readItemAfter verbose first r) ?_
  intro first set r hr
  exact rest_of_readItemAfter verbose (by rw [skip_nil]; exact fun t h => nomatch h) hr

/-! ## Parts of a bracket -/

theorem extends_readSetPart (s : List Char) :
    Extends (plain (readSetPart verbose s)) fun n => plain (readSetPart verbose (s ++ frameEnd n)) :=
  (extends_readClassItem verbose s).rename .set (fun _ _ => rfl) (fun _ _ _ => rfl)

theorem plain_readClassPart_opening (t : List Char) :
    plain (readClassPart verbose caseless ('[' :: t)) =
      match (readClassName caseless t).map fun x => (x.1, x.2.val) with
      | some (set, r) => .ok (.set set, r)
      | none => plain (.ok (readBracketStart verbose t)) >>= fun x => .ok (.opening x.1, x.2) := by
  rw [readClassPart]
  cases readClassName caseless t <;> rfl

theorem plain_readClassPart_one {c : Char} (hclose : c ≠ ']') (hopen : c ≠ '[') :
    plain (readClassPart verbose caseless [c]) = plain (readSetPart verbose [c]) := by
  rw [readClassPart]
  · exact fun h => nomatch h
  · exact fun t h => hclose (List.cons.inj h).1
  · exact fun t h => hopen (List.cons.inj h).1
  · exact fun c c' t h => nomatch (List.cons.inj h).2

theorem plain_readClassPart_two {c : Char} (hclose : c ≠ ']') (hopen : c ≠ '[') (c' : Char)
    (t : List Char) :
    plain (readClassPart verbose caseless (c :: c' :: t)) =
      match setOperation c with
      | some op =>
        if c = c' then .ok (.operation op, t) else plain (readSetPart verbose (c :: c' :: t))
      | none => plain (readSetPart verbose (c :: c' :: t)) := by
  rw [readClassPart]
  · cases setOperation c with
    | none => rfl
    | some op =>
      dsimp only
      split <;> rfl
  · exact fun h => hclose h
  · exact fun h => hopen h

theorem extends_readClassPart (s : List Char) :
    Extends (plain (readClassPart verbose caseless s))
      fun n => plain (readClassPart verbose caseless (s ++ frameEnd n)) := by
  match s with
  | [] => exact extends_error _ _
  | c :: t =>
    by_cases hclose : c = ']'
    · subst hclose
      exact extends_ok _ t
    by_cases hopen : c = '['
    · subst hopen
      simp only [List.cons_append, plain_readClassPart_opening, readClassName_append]
      cases readClassName caseless t with
      | some x => exact extends_ok _ _
      | none => exact (extends_readBracketStart verbose t).map fun b => .ok (ClassPart.opening b)
    match t with
    | [] =>
      have hbehind (n : Nat) : plain (readClassPart verbose caseless ([c] ++ frameEnd n)) =
          plain (readSetPart verbose ([c] ++ frameEnd n)) := by
        rw [List.cons_append, List.nil_append, frameEnd,
          plain_readClassPart_two verbose caseless hclose hopen]
        cases hop : setOperation c with
        | none => rfl
        | some op =>
          have hparen : c ≠ ')' := by
            rintro rfl
            cases hop
          exact if_neg hparen
      simp only [plain_readClassPart_one verbose caseless hclose hopen, hbehind]
      exact extends_readSetPart verbose [c]
    | c' :: t =>
      simp only [List.cons_append, plain_readClassPart_two verbose caseless hclose hopen]
      cases setOperation c with
      | none => exact extends_readSetPart verbose (c :: c' :: t)
      | some op =>
        dsimp only
        split
        · exact extends_ok _ t
        · exact extends_readSetPart verbose (c :: c' :: t)

/-! ## Brackets -/

def readBracketAfter (outer : List OpenBracket) (b : OpenBracket) (part : ClassPart)
    (s : List Char) : Except PatternFault (Bracketed × List Char) :=
  match part with
  | .set set => plain (readBracket verbose caseless outer (b.add ⟨set, 0⟩) s)
  | .opening inner => plain (readBracket verbose caseless (b :: outer) inner s)
  | .operation op => plain (readBracket verbose caseless outer (b.operate caseless op) s)
  | .closing =>
    match outer with
    | [] => .ok (b.close caseless, s)
    | around :: outer =>
      plain (readBracket verbose caseless outer (around.add (b.close caseless)) s)

theorem plain_readBracket (outer : List OpenBracket) (b : OpenBracket) (s : List Char) :
    plain (readBracket verbose caseless outer b s) =
      plain (readClassPart verbose caseless (skip verbose s)) >>= fun x =>
        readBracketAfter verbose caseless outer b x.1 x.2 := by
  rw [readBracket]
  refine plain_bind (readBracketAfter verbose caseless outer b) fun part rest => ?_
  cases part with
  | set set => exact plain_bind_ok fun _ _ => rfl
  | opening inner => exact plain_bind_ok fun _ _ => rfl
  | operation op => exact plain_bind_ok fun _ _ => rfl
  | closing =>
    cases outer with
    | nil => rfl
    | cons around outer => exact plain_bind_ok fun _ _ => rfl

theorem readBracket_nil (outer : List OpenBracket) (b : OpenBracket) :
    plain (readBracket verbose caseless outer b []) = .error .unclosedClass := by
  rw [plain_readBracket, skip_nil]
  rfl

theorem extends_readBracket (outer : List OpenBracket) (b : OpenBracket) (s : List Char) :
    Extends (plain (readBracket verbose caseless outer b s))
      fun n => plain (readBracket verbose caseless outer b (s ++ frameEnd n)) := by
  have hbehind (n : Nat) := plain_readBracket verbose caseless outer b (s ++ frameEnd n)
  simp only [hbehind]
  rw [plain_readBracket]
  refine Extends.bind (extends_skip verbose s (extends_readClassPart verbose caseless) ?_) ?_ ?_
  · exact fun part r h => nomatch h
  · intro part r hpart
    have hlen : r.length < s.length :=
      Nat.lt_of_lt_of_le (property_of_plain hpart) (length_skip_le verbose s)
    cases part with
    | set set => exact extends_readBracket outer _ r
    | opening inner => exact extends_readBracket (b :: outer) inner r
    | operation op => exact extends_readBracket outer _ r
    | closing =>
      cases outer with
      | nil => exact extends_ok _ r
      | cons around outer => exact extends_readBracket outer _ r
  · intro part value r h
    cases part with
    | set set | opening inner | operation op =>
      simp only [readBracketAfter, readBracket_nil] at h
      cases h
    | closing =>
      cases outer with
      | nil => cases h; rfl
      | cons around outer =>
        simp only [readBracketAfter, readBracket_nil] at h
        cases h
termination_by s.length

/-- **Bracketed classes with more text behind.** -/
theorem extends_readClass (s : List Char) :
    Extends (plain (readClass verbose caseless s))
      fun n => plain (readClass verbose caseless (s ++ frameEnd n)) := by
  have hclass (s : List Char) : plain (readClass verbose caseless s) =
      plain (.ok (readBracketStart verbose s)) >>= fun x =>
        plain (readBracket verbose caseless [] x.1 x.2) := by
    rw [readClass]
    exact plain_bind_ok fun _ _ => rfl
  simp only [hclass]
  refine Extends.bind (extends_readBracketStart verbose s)
    (fun b r _ => extends_readBracket verbose caseless [] b r) ?_
  exact fun b value r h => absurd h (by rw [readBracket_nil]; exact fun h => nomatch h)

end ParserKit
