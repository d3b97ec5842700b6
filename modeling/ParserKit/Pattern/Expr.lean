import ParserKit.Pattern.Assertion
import ParserKit.Pattern.CharSet
import Std.Data.HashSet

/-!
# Pattern expressions

* **`Expr`**: the regular expressions with assertions and counted repetition.
* `Expr.counted`: repetition, where a repetition of a repetition becomes one if their counts allow
  it.
* `Expr.nullable`, `Expr.residuals`: whether an expression matches the empty text at a place, and
  what is left to match after one character.
* **`Expr.occursIn`**: whether some part of a text matches. The text is read once, and the work per
  character does not grow with what has been read.
-/

namespace ParserKit

/-- A regular expression with assertions. -/
inductive Expr where
  | empty
  | set (s : CharSet)
  | look (a : Assertion)
  | concat (e f : Expr)
  | either (e f : Expr)
  | repeated (least : Nat) (most : Option Nat) (e : Expr)
deriving DecidableEq

/-- Two expressions that are one object in memory are equal. -/
instance : DecidableEq Expr := fun e f => withPtrEqDecEq e f fun _ => instDecidableEqExpr e f

namespace Expr

/-- A number that depends on the upper nodes of an expression only. -/
def fingerprint : Nat → Expr → UInt64
  | 0, _ => 1
  | _ + 1, empty => 2
  | _ + 1, set s => mixHash 3 (hash s.head?)
  | _ + 1, look _ => 4
  | n + 1, concat e f => mixHash 5 (mixHash (e.fingerprint n) (f.fingerprint n))
  | n + 1, either e f => mixHash 6 (mixHash (e.fingerprint n) (f.fingerprint n))
  | n + 1, repeated least most e => mixHash (hash least) (mixHash (hash most) (e.fingerprint n))

instance : Hashable Expr := ⟨fingerprint 3⟩

/-- One after the other, where nothing is added to the empty expression. -/
def andThen : Expr → Expr → Expr
  | empty, f => f
  | e, empty => e
  | e, f => concat e f

/-- Whether the multiples of the counts from `least` to `most`, taken from `times` times on, leave
no count out. -/
def leavesNoGap (times least : Nat) : Option Nat → Bool
  | none => 1 ≤ times || least ≤ 1
  | some most => least ≤ times * (most - least) + 1

/-- The product of two upper bounds. -/
def productBound : Option Nat → Option Nat → Option Nat
  | some m, some n => some (m * n)
  | _, _ => none

/-- At least `least` and at most `most` times; without `most` there is no upper bound. -/
def counted (least : Nat) (most : Option Nat) (e : Expr) : Expr :=
  match e with
  | repeated least' most' f =>
    if most = some least ∨ leavesNoGap least least' most' then
      repeated (least * least') (productBound most most') f
    else repeated least most e
  | _ => repeated least most e

/-! ## Matching -/

/-- Whether the empty text matches between two characters. -/
def nullable (before after : Option Char) : Expr → Bool
  | empty => true
  | set _ => false
  | look a => a.holds before after
  | concat e f => e.nullable before after && f.nullable before after
  | either e f => e.nullable before after || f.nullable before after
  | repeated least _ e => least == 0 || e.nullable before after

/-- What is left to be repeated after one round that a character begins. If the empty text matches
before it, then all rounds that are not needed may have come before this one. -/
def nextRounds (nullable : Bool) (e : Expr) : List Expr :=
  match e with
  | repeated least most f =>
    if most = some 1 then []
    else if least = 0 ∧ most = none then [e]
    else [repeated (if nullable then 0 else least - 1) (most.map (· - 1)) f]
  | _ => []

/-- What may remain to be matched once `c` has been read after the character `before`: a text that
begins with `c` matches the expression and then everything in `rest` if its tail matches one of the
residuals, from its first expression to its last. -/
def residuals (before : Option Char) (c : Char) : Expr → List Expr → List (List Expr)
  | empty, _ => []
  | set s, rest => if s.mem c then [rest] else []
  | look _, _ => []
  | concat e f, rest =>
    e.residuals before c (f :: rest) ++
      if e.nullable before (some c) then f.residuals before c rest else []
  | either e f, rest => e.residuals before c rest ++ f.residuals before c rest
  | r@(repeated _ most e), rest =>
    if most = some 0 then []
    else e.residuals before c (r.nextRounds (e.nullable before (some c)) ++ rest)

def nullableAll (before after : Option Char) (es : List Expr) : Bool :=
  es.all (nullable before after)

/-- The residuals of a sequence of expressions. -/
def residualsAll (before : Option Char) (c : Char) : List Expr → List (List Expr)
  | [] => []
  | e :: rest =>
    e.residuals before c rest ++
      if e.nullable before (some c) then residualsAll before c rest else []

/-- Whether every match has to begin where the text begins. -/
def anchored : Expr → Bool
  | look .textStart => true
  | concat e _ => e.anchored
  | either e f => e.anchored && f.anchored
  | repeated least _ e => least != 0 && e.anchored
  | _ => false

theorem nullable_of_anchored {e : Expr} (h : e.anchored) (c : Char) (after : Option Char) :
    e.nullable (some c) after = false := by
  induction e with
  | empty => simp [anchored] at h
  | set s => simp [anchored] at h
  | look a => cases a <;> simp [anchored, nullable, Assertion.holds] at h ⊢
  | concat e f ihe _ => simp [nullable, ihe h]
  | either e f ihe ihf =>
    simp only [anchored, Bool.and_eq_true] at h
    simp [nullable, ihe h.1, ihf h.2]
  | repeated least most e ih =>
    simp only [anchored, Bool.and_eq_true, bne_iff_ne] at h
    simp [nullable, h.1, ih h.2]

/-- **An anchored expression cannot begin to match behind the start of the text.** -/
theorem residuals_of_anchored {e : Expr} (h : e.anchored) (b c : Char) (rest : List Expr) :
    e.residuals (some b) c rest = [] := by
  induction e generalizing rest with
  | empty => simp [anchored] at h
  | set s => simp [anchored] at h
  | look a => rfl
  | concat e f ihe _ => simp [residuals, ihe h, nullable_of_anchored (e := e) h]
  | either e f ihe ihf =>
    simp only [anchored, Bool.and_eq_true] at h
    simp [residuals, ihe h.1, ihf h.2]
  | repeated least most e ih =>
    simp only [anchored, Bool.and_eq_true] at h
    simp [residuals, ih h.2]

def distinct (states : List (List Expr)) : List (List Expr) :=
  if states.length ≤ 16 then states.eraseDups else (Std.HashSet.ofList states).toList

theorem mem_distinct {states : List (List Expr)} {s : List Expr} :
    s ∈ distinct states ↔ s ∈ states := by
  unfold distinct
  split
  · exact List.mem_eraseDups
  · rw [Std.HashSet.mem_toList, Std.HashSet.mem_ofList, List.contains_iff_mem]

/-- The states after one more character, where an attempt may begin before it. -/
def advance (e : Expr) (before : Option Char) (c : Char) (states : List (List Expr)) :
    List (List Expr) :=
  distinct (([e] :: states).flatMap (residualsAll before c))

/-- Whether nothing that follows can lead to a match any more. -/
def hopeless (e : Expr) (before : Option Char) (states : List (List Expr)) : Bool :=
  states.isEmpty && before.isSome && e.anchored

/-- Whether one of the states matches a beginning of the text, or `e` matches a part of it. The
states are what remains of attempts that began further left. -/
def search (e : Expr) : Option Char → List (List Expr) → List Char → Bool
  | before, states, [] => ([e] :: states).any (nullableAll before none)
  | before, states, c :: cs =>
    if e.hopeless before states then false
    else
      ([e] :: states).any (nullableAll before (some c)) ||
        search e (some c) (e.advance before c states) cs

/-- **Whether some part of a text matches.** -/
def occursIn (e : Expr) (text : List Char) : Bool := e.search none [] text

end Expr

end ParserKit
