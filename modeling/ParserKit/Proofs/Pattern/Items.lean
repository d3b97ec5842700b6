import ParserKit.Pattern.Item
import ParserKit.Proofs.Pattern.Classes

/-!
# Reading items with more text behind

The readers of items, compared on a text and on the same text with `frameEnd` behind it.

* `extends_readCount`, `extends_readGroup`: repetition counts and the beginnings of groups.
* **`nextItem_append`**: an item.
-/

namespace ParserKit

/-! ## Repetition counts -/

section Counts

variable (verbose swap : Bool)

def decimal (value : Option Nat) (s : List Char) : Except PatternFault (Option Nat × List Char) :=
  plain (.ok (readDecimal verbose value s))

theorem decimal_nil (value : Option Nat) : decimal verbose value [] = .ok (value, []) := by
  rw [decimal, readDecimal]
  rfl

theorem decimal_cons (value : Option Nat) (c : Char) (t : List Char) :
    decimal verbose value (c :: t) =
      if c.isDigit then
        decimal verbose (some (10 * value.getD 0 + (c.toNat - '0'.toNat))) (skip verbose t)
      else .ok (value, skip verbose ((c :: t).dropWhile isBlank)) := by
  rw [decimal, readDecimal]
  split <;> rfl

theorem extends_decimal (value : Option Nat) (s : List Char) :
    Extends (decimal verbose value s) fun n => decimal verbose value (s ++ frameEnd n) := by
  match s with
  | [] =>
    have hbehind (n : Nat) : decimal verbose value ([] ++ frameEnd n) = .ok (value, frameEnd n) := by
      rw [List.nil_append, frameEnd, decimal_cons, if_neg (by decide)]
      cases verbose <;> rfl
    simp only [decimal_nil, hbehind]
    exact extends_ok value []
  | c :: t =>
    simp only [List.cons_append, decimal_cons verbose value c]
    split
    · have hlen := length_skip_le verbose t
      exact extends_skip_at verbose t (decimal verbose _) (extends_decimal _ (skip verbose t))
        fun a r => eq_nil_of_plain
    · simp only [← List.cons_append, dropBlanks_append]
      exact extends_skip verbose _ (extends_ok value) (by rintro _ _ ⟨⟩; rfl)
termination_by s.length
decreasing_by
  simp only [List.length_cons]
  omega

def boundOf : Option Nat → Except PatternFault Nat
  | some n => if n ≤ maxCount then .ok n else .error .badCount
  | none => .error .badCount

theorem plain_readBound (s : List Char) :
    plain (readBound verbose s) =
      decimal verbose none (s.dropWhile isBlank) >>= fun x =>
        boundOf x.1 >>= fun n => .ok (n, x.2) := by
  unfold readBound decimal
  rcases readDecimal verbose none (s.dropWhile isBlank) with ⟨value, rest⟩
  cases value with
  | none => rfl
  | some n =>
    change _ = boundOf (some n) >>= fun n => .ok (n, rest.val)
    dsimp only [boundOf]
    split <;> rfl

theorem extends_readBound (s : List Char) :
    Extends (plain (readBound verbose s)) fun n => plain (readBound verbose (s ++ frameEnd n)) := by
  simp only [plain_readBound, dropBlanks_append]
  exact (extends_decimal verbose none _).map boundOf

theorem plain_readLazy_other {s : List Char} (hs : ∀ t, s ≠ '?' :: t) :
    plain (.ok (readLazy swap s)) = .ok (swap, s) := by
  rw [readLazy]
  · rfl
  · exact hs

theorem extends_readLazy (s : List Char) :
    Extends (plain (.ok (readLazy swap s)))
      fun n => plain (.ok (readLazy swap (s ++ frameEnd n))) := by
  by_cases hs : ∃ t, s = '?' :: t
  · obtain ⟨t, rfl⟩ := hs
    exact extends_ok _ t
  · have hs := not_exists.mp hs
    have hbehind (n : Nat) := plain_readLazy_other swap (append_frameEnd_ne hs (by decide) n)
    simp only [plain_readLazy_other swap hs, hbehind]
    exact extends_ok swap s

theorem plain_readCountEnd_brace (t : List Char) :
    plain (readCountEnd verbose swap ('}' :: t)) = plain (.ok (readLazy swap (skip verbose t))) :=
  rfl

theorem plain_readCountEnd_other {s : List Char} (hs : ∀ t, s ≠ '}' :: t) :
    plain (readCountEnd verbose swap s) = .error .badCount := by
  rw [readCountEnd]
  · rfl
  · exact hs

theorem extends_readCountEnd (s : List Char) :
    Extends (plain (readCountEnd verbose swap s))
      fun n => plain (readCountEnd verbose swap (s ++ frameEnd n)) := by
  by_cases hs : ∃ t, s = '}' :: t
  · obtain ⟨t, rfl⟩ := hs
    simp only [List.cons_append, plain_readCountEnd_brace]
    exact extends_skip verbose t (extends_readLazy swap) fun a r => eq_nil_of_plain
  · rw [plain_readCountEnd_other verbose swap (not_exists.mp hs)]
    exact extends_error _ _

def repetitionOf (least : Nat) (most : Option Nat) (isLazy : Bool) : Except PatternFault Item :=
  if ∀ m ∈ most, least ≤ m then .ok (.repetition least most isLazy) else .error .badCount

theorem repetitionOf_none (least : Nat) (isLazy : Bool) :
    repetitionOf least none isLazy = .ok (.repetition least none isLazy) := by
  simp [repetitionOf]

theorem repetitionOf_some (least most : Nat) (isLazy : Bool) :
    repetitionOf least (some most) isLazy =
      if least ≤ most then .ok (.repetition least (some most) isLazy) else .error .badCount := by
  simp [repetitionOf]

/-- The rest of a repetition count whose lower bound has been read. -/
def readCountAfter (least : Nat) (s : List Char) : Except PatternFault (Item × List Char) :=
  match s with
  | ',' :: t =>
    if (skip verbose t).head? = some '}' then
      plain (readCountEnd verbose swap (skip verbose t)) >>= fun x =>
        repetitionOf least none x.1 >>= fun item => .ok (item, x.2)
    else
      plain (readBound verbose (skip verbose t)) >>= fun y =>
        plain (readCountEnd verbose swap y.2) >>= fun x =>
          repetitionOf least (some y.1) x.1 >>= fun item => .ok (item, x.2)
  | s =>
    plain (readCountEnd verbose swap s) >>= fun x =>
      repetitionOf least (some least) x.1 >>= fun item => .ok (item, x.2)

theorem readCountAfter_comma (least : Nat) {s t : List Char} (h : s = ',' :: t) :
    readCountAfter verbose swap least s =
      if (skip verbose t).head? = some '}' then
        plain (readCountEnd verbose swap (skip verbose t)) >>= fun x =>
          repetitionOf least none x.1 >>= fun item => .ok (item, x.2)
      else
        plain (readBound verbose (skip verbose t)) >>= fun y =>
          plain (readCountEnd verbose swap y.2) >>= fun x =>
            repetitionOf least (some y.1) x.1 >>= fun item => .ok (item, x.2) := by
  rw [h]
  rfl

theorem readCountAfter_other (least : Nat) {s : List Char} (h : ∀ t, s ≠ ',' :: t) :
    readCountAfter verbose swap least s =
      plain (readCountEnd verbose swap s) >>= fun x =>
        repetitionOf least (some least) x.1 >>= fun item => .ok (item, x.2) := by
  unfold readCountAfter
  split
  · exact absurd rfl (h _)
  · rfl

theorem plain_readCount (s : List Char) :
    plain (readCount verbose swap s) =
      plain (readBound verbose (skip verbose s)) >>= fun x =>
        readCountAfter verbose swap x.1 x.2 := by
  rw [readCount]
  refine plain_bind (readCountAfter verbose swap) fun least rest => ?_
  dsimp only
  split
  · next t h =>
    rw [readCountAfter_comma verbose swap least h]
    split
    · refine plain_bind (fun isLazy r => repetitionOf least none isLazy >>= fun item =>
        .ok (item, r)) fun isLazy r => ?_
      rw [repetitionOf_none]
      rfl
    · refine plain_bind (fun most r => plain (readCountEnd verbose swap r) >>= fun x =>
        repetitionOf least (some most) x.1 >>= fun item => .ok (item, x.2)) fun most r => ?_
      refine plain_bind (fun isLazy r => repetitionOf least (some most) isLazy >>= fun item =>
        .ok (item, r)) fun isLazy r => ?_
      dsimp only
      rw [repetitionOf_some]
      split <;> rfl
  · next hother =>
    rw [readCountAfter_other verbose swap least hother]
    refine plain_bind (fun isLazy r => repetitionOf least (some least) isLazy >>= fun item =>
      .ok (item, r)) fun isLazy r => ?_
    rw [repetitionOf_some, if_pos (Nat.le_refl least)]
    rfl

theorem extends_readCountAfter (least : Nat) (s : List Char) :
    Extends (readCountAfter verbose swap least s)
      fun n => readCountAfter verbose swap least (s ++ frameEnd n) := by
  by_cases hs : ∃ t, s = ',' :: t
  · obtain ⟨t, rfl⟩ := hs
    have hhead := head?_skip_append verbose t (d := '}') (by decide)
    simp only [List.cons_append, readCountAfter_comma verbose swap least rfl, hhead]
    split
    · exact (extends_skip verbose t (extends_readCountEnd verbose swap) fun _ _ => nofun).map
        (repetitionOf least none)
    · refine Extends.bind (k := fun most r => plain (readCountEnd verbose swap r) >>= fun x =>
          repetitionOf least (some most) x.1 >>= fun item => .ok (item, x.2))
        (extends_skip verbose t (extends_readBound verbose) fun a r => eq_nil_of_plain) ?_ ?_
      · intro most r _
        exact (extends_readCountEnd verbose swap r).map (repetitionOf least (some most))
      · exact fun most item r => nofun
  · have hs := not_exists.mp hs
    have hbehind (n : Nat) :=
      readCountAfter_other verbose swap least (append_frameEnd_ne hs (by decide) n)
    simp only [readCountAfter_other verbose swap least hs, hbehind]
    exact (extends_readCountEnd verbose swap s).map (repetitionOf least (some least))

theorem extends_readCount (s : List Char) :
    Extends (plain (readCount verbose swap s))
      fun n => plain (readCount verbose swap (s ++ frameEnd n)) := by
  simp only [plain_readCount]
  refine Extends.bind
    (extends_skip verbose s (extends_readBound verbose) fun a r => eq_nil_of_plain)
    (fun least r _ => extends_readCountAfter verbose swap least r) ?_
  exact fun least item r => nofun

end Counts

/-! ## Groups -/

section Groups

variable (flags : PatternFlags)

def nameOf (name : List Char) : Except PatternFault String :=
  if name.head?.any isNameStart && name.all isNameChar then .ok (String.ofList name)
  else .error .badGroupName

theorem plain_readGroupName (s : List Char) :
    plain (readGroupName s) =
      match s.dropWhile (· != '>') with
      | [] => .error .badGroupName
      | _ :: rest => nameOf (s.takeWhile (· != '>')) >>= fun name => .ok (name, rest) := by
  unfold readGroupName
  dsimp only
  split
  · next h => rw [h]; rfl
  · next h =>
    conv => rhs; rw [h]
    dsimp only [nameOf]
    split <;> rfl

theorem extends_readGroupName (s : List Char) :
    Extends (plain (readGroupName s)) fun n => plain (readGroupName (s ++ frameEnd n)) := by
  simp only [plain_readGroupName]
  by_cases hnil : s.dropWhile (· != '>') = []
  · rw [hnil]
    exact extends_error _ _
  · have hspan (n : Nat) := span_append (frameEnd n) hnil
    obtain ⟨c, rest, hrest⟩ := List.exists_cons_of_ne_nil hnil
    simp only [hspan, hrest, List.cons_append]
    cases nameOf (s.takeWhile (· != '>')) with
    | error f => exact extends_error f _
    | ok name => exact extends_ok name rest

/-- Whether a character belongs to a change of flags. -/
def isInChange (c : Char) : Bool := c != ':' && c != ')'

/-- A change of flags that is ended by some character: a group, or an item of its own. -/
def changeItem (letters : List Char) (sign : Char) : Except PatternFault Item :=
  match flags.change letters with
  | none => .error .badFlags
  | some flags' =>
    if sign = ':' then .ok (.opening .plain flags')
    else if letters.isEmpty then .error .missingOperand
    else .ok (.setting flags')

theorem plain_readFlags (s : List Char) :
    plain (readFlags flags s) =
      match s.dropWhile isInChange with
      | [] => .error .unclosedGroup
      | sign :: rest => changeItem flags (s.takeWhile isInChange) sign >>= fun item =>
        .ok (item, rest) := by
  have hinChange : (fun c : Char => c != ':' && c != ')') = isInChange := rfl
  unfold readFlags
  dsimp only
  split
  · next h =>
    rw [hinChange] at h
    rw [h]
    rfl
  · next sign rest h =>
    rw [hinChange] at h
    rw [h, ← hinChange]
    dsimp only [changeItem]
    generalize s.takeWhile (fun c => c != ':' && c != ')') = letters
    cases flags.change letters with
    | none => rfl
    | some flags' =>
      dsimp only
      split
      · rfl
      split <;> rfl

theorem extends_readFlags (s : List Char) :
    Extends (plain (readFlags flags s)) fun n => plain (readFlags flags (s ++ frameEnd n)) := by
  simp only [plain_readFlags]
  by_cases hnil : s.dropWhile isInChange = []
  · rw [hnil]
    exact extends_error _ _
  · have hspan (n : Nat) := span_append (frameEnd n) hnil
    obtain ⟨sign, rest, hrest⟩ := List.exists_cons_of_ne_nil hnil
    simp only [hspan, hrest, List.cons_append]
    cases changeItem flags (s.takeWhile isInChange) sign with
    | error f => exact extends_error f _
    | ok item => exact extends_ok item rest

theorem plain_readGroup_numbered {s : List Char} (hs : ∀ t, s ≠ '?' :: t) :
    plain (readGroup flags s) = .ok (.opening .numbered flags, s) := by
  rw [readGroup]
  · rfl
  all_goals exact fun t h => hs _ h

theorem plain_readGroup_lookAhead {c : Char} (hc : c = '=' ∨ c = '!') (t : List Char) :
    plain (readGroup flags ('?' :: c :: t)) = .error .lookAround := by
  rcases hc with rfl | rfl <;> rfl

theorem plain_readGroup_lookBehind {c : Char} (hc : c = '=' ∨ c = '!') (t : List Char) :
    plain (readGroup flags ('?' :: '<' :: c :: t)) = .error .lookAround := by
  rcases hc with rfl | rfl <;> rfl

theorem plain_readGroup_name {t : List Char} (hequal : ∀ u, t ≠ '=' :: u)
    (hnot : ∀ u, t ≠ '!' :: u) :
    plain (readGroup flags ('?' :: '<' :: t)) =
      plain (readGroupName t) >>= fun x => .ok (Item.opening (.named x.1) flags, x.2) := by
  rw [readGroup]
  · exact plain_bind (fun name r => .ok (Item.opening (.named name) flags, r)) fun _ _ => rfl
  · exact hequal
  · exact hnot

theorem plain_readGroup_named (t : List Char) :
    plain (readGroup flags ('?' :: 'P' :: '<' :: t)) =
      plain (readGroupName t) >>= fun x => .ok (Item.opening (.named x.1) flags, x.2) := by
  rw [readGroup]
  exact plain_bind (fun name r => .ok (Item.opening (.named name) flags, r)) fun _ _ => rfl

theorem plain_readGroup_flags {t : List Char} (hequal : ∀ u, t ≠ '=' :: u)
    (hnot : ∀ u, t ≠ '!' :: u) (hangle : ∀ u, t ≠ '<' :: u) (hname : ∀ u, t ≠ 'P' :: '<' :: u) :
    plain (readGroup flags ('?' :: t)) = plain (readFlags flags t) := by
  rw [readGroup]
  · exact plain_bind_ok fun _ _ => rfl
  · exact hequal
  · exact hnot
  · exact fun u => hangle _
  · exact fun u => hangle _
  · exact hname
  · exact hangle

theorem extends_readGroup_name (t : List Char) :
    Extends (plain (readGroupName t) >>= fun x => .ok (Item.opening (.named x.1) flags, x.2))
      fun n => plain (readGroupName (t ++ frameEnd n)) >>= fun x =>
        .ok (Item.opening (.named x.1) flags, x.2) :=
  (extends_readGroupName t).map fun name => .ok (Item.opening (.named name) flags)

theorem extends_readGroup (s : List Char) :
    Extends (plain (readGroup flags s)) fun n => plain (readGroup flags (s ++ frameEnd n)) := by
  by_cases hs : ∃ t, s = '?' :: t
  case neg =>
    have hs := not_exists.mp hs
    have hbehind (n : Nat) := plain_readGroup_numbered flags (append_frameEnd_ne hs (by decide) n)
    simp only [plain_readGroup_numbered flags hs, hbehind]
    exact extends_ok _ s
  obtain ⟨t, rfl⟩ := hs
  by_cases hahead : ∃ c u, (c = '=' ∨ c = '!') ∧ t = c :: u
  case pos =>
    obtain ⟨c, u, hc, rfl⟩ := hahead
    rw [plain_readGroup_lookAhead flags hc]
    exact extends_error _ _
  have hequal (u : List Char) : t ≠ '=' :: u := fun h => hahead ⟨_, u, .inl rfl, h⟩
  have hnot (u : List Char) : t ≠ '!' :: u := fun h => hahead ⟨_, u, .inr rfl, h⟩
  by_cases hangle : ∃ u, t = '<' :: u
  case pos =>
    obtain ⟨u, rfl⟩ := hangle
    by_cases hbehind : ∃ c v, (c = '=' ∨ c = '!') ∧ u = c :: v
    · obtain ⟨c, v, hc, rfl⟩ := hbehind
      rw [plain_readGroup_lookBehind flags hc]
      exact extends_error _ _
    · have hequal (v : List Char) : u ≠ '=' :: v := fun h => hbehind ⟨_, v, .inl rfl, h⟩
      have hnot (v : List Char) : u ≠ '!' :: v := fun h => hbehind ⟨_, v, .inr rfl, h⟩
      have hname (n : Nat) := plain_readGroup_name flags
        (append_frameEnd_ne hequal (by decide) n) (append_frameEnd_ne hnot (by decide) n)
      simp only [List.cons_append, plain_readGroup_name flags hequal hnot, hname]
      exact extends_readGroup_name flags u
  have hangle := not_exists.mp hangle
  by_cases hname : ∃ u, t = 'P' :: '<' :: u
  case pos =>
    obtain ⟨u, rfl⟩ := hname
    simp only [List.cons_append, plain_readGroup_named flags]
    exact extends_readGroup_name flags u
  have hname := not_exists.mp hname
  have hname' (n : Nat) (u : List Char) : t ++ frameEnd n ≠ 'P' :: '<' :: u := by
    match t with
    | [] => exact fun h => nomatch h
    | [c] => exact fun h => by cases h
    | c :: d :: v =>
      intro h
      cases h
      exact hname v rfl
  have hbehind (n : Nat) := plain_readGroup_flags flags (append_frameEnd_ne hequal (by decide) n)
    (append_frameEnd_ne hnot (by decide) n) (append_frameEnd_ne hangle (by decide) n) (hname' n)
  simp only [List.cons_append, plain_readGroup_flags flags hequal hnot hangle hname, hbehind]
  exact extends_readFlags flags t

end Groups

/-! ## Items -/

section Items

variable (flags : PatternFlags)

theorem extends_sign (least : Nat) (most : Option Nat) (t : List Char) :
    Extends
      (plain (.ok (readLazy flags.swapGreed t)) >>= fun x =>
        .ok (Item.repetition least most x.1) >>= fun item => .ok (item, x.2))
      fun n => plain (.ok (readLazy flags.swapGreed (t ++ frameEnd n))) >>= fun x =>
        .ok (Item.repetition least most x.1) >>= fun item => .ok (item, x.2) :=
  (extends_readLazy flags.swapGreed t).map fun isLazy => .ok (Item.repetition least most isLazy)

theorem extends_readItemFrom (c : Char) (t : List Char) :
    Extends (plain (readItemFrom flags c t))
      fun n => plain (readItemFrom flags c (t ++ frameEnd n)) := by
  unfold readItemFrom
  dsimp only
  split
  -- the repetition signs, a count, a group, a class and an escape sequence
  case h_6 | h_7 | h_8 => exact extends_sign flags _ _ t
  case h_9 =>
    exact (extends_readCount flags.verbose flags.swapGreed t).rename id (fun _ _ => rfl)
      (fun _ _ _ => rfl)
  case h_10 =>
    refine Extends.rename id (extends_skip flags.verbose t
      (k := fun r => plain (readGroup flags r)) (extends_readGroup flags)
      fun _ _ => eq_nil_of_plain) (fun _ _ => rfl) (fun _ _ _ => rfl)
  case h_11 =>
    exact (extends_readClass flags.verbose flags.caseless t).rename
      (fun value => .atom ⟨Form.ofSet value.set, value.depth⟩) (fun _ _ => rfl) (fun _ _ _ => rfl)
  case h_12 =>
    exact (extends_readEscape flags.verbose t).rename (fun e => .atom (flags.escaped e))
      (fun _ _ => rfl) (fun _ _ _ => rfl)
  all_goals exact extends_ok _ t

def nextItem (s : List Char) : Except PatternFault (Option (Item × List Char)) :=
  (readItem flags s).map (Option.map fun x => (x.1, x.2.val))

theorem nextItem_eq (s : List Char) :
    nextItem flags s =
      match skip flags.verbose s with
      | [] => .ok none
      | c :: t => (plain (readItemFrom flags c t)).map some := by
  unfold nextItem readItem
  split
  · next h => rw [h]; rfl
  · next c t h =>
    conv => rhs; rw [h]
    dsimp only
    cases readItemFrom flags c t <;> rfl

/-- **An item with more text behind** is the same one. -/
theorem nextItem_append {s r : List Char} {item : Item}
    (h : nextItem flags s = .ok (some (item, r))) :
    (∀ n, nextItem flags (s ++ frameEnd n) = .ok (some (item, r ++ frameEnd n))) ∨
      (r = [] ∧ ∀ n, nextItem flags (s ++ frameEnd n) = .ok (some (item, []))) := by
  rw [nextItem_eq] at h
  simp only [nextItem_eq]
  cases hskip : skip flags.verbose s with
  | nil =>
    rw [hskip] at h
    cases h
  | cons c t =>
    have happ (n : Nat) : skip flags.verbose (s ++ frameEnd n) = c :: (t ++ frameEnd n) := by
      rcases skip_append flags.verbose s with happ | ⟨hnil, -⟩
      · rw [happ, hskip, List.cons_append]
      · cases hnil.symm.trans hskip
    rw [hskip] at h
    dsimp only at h
    simp only [happ]
    cases hitem : plain (readItemFrom flags c t) with
    | error f =>
      rw [hitem] at h
      cases h
    | ok x =>
      rw [hitem] at h
      cases h
      rcases extends_readItemFrom flags c t item r hitem with hread | ⟨rfl, hread⟩
      · exact .inl fun n => congrArg (Except.map some) (hread n)
      · exact .inr ⟨rfl, fun n => congrArg (Except.map some) (hread n)⟩

/-- At the end of a text, the item behind it is the parenthesis in `frameEnd`, unless a comment hides
it. -/
theorem nextItem_append_of_end {s : List Char} (h : nextItem flags s = .ok none) :
    (∀ n, nextItem flags (s ++ frameEnd n) = .ok (some (.closing, List.replicate n '$'))) ∨
      ∀ n, nextItem flags (s ++ frameEnd n) = .ok none := by
  rw [nextItem_eq] at h
  simp only [nextItem_eq]
  cases hskip : skip flags.verbose s with
  | nil =>
    rcases skip_append flags.verbose s with happ | ⟨-, hhidden⟩
    · exact .inl fun n => by rw [happ, hskip]; rfl
    · exact .inr fun n => by rw [hhidden]
  | cons c t =>
    rw [hskip] at h
    dsimp only at h
    cases hitem : plain (readItemFrom flags c t) <;> rw [hitem] at h <;> cases h

end Items

end ParserKit
