import ParserKit.Pattern.Parse
import ParserKit.Proofs.Pattern.Forms
import ParserKit.Proofs.Pattern.Items

/-!
# What has been read is in order

A repetition count is read only if it does not ask for more rounds than it allows. So the expression
of every pattern that can be read is bounded, and the search finds what it matches.

* `bounded_of_nextItem`: an item whose counts are in order.
* `PatternReader.Adds`: what an item does to a reader.
* `PatternReader.run_eq`, **`PatternReader.run_induction`**: one item of a run, and what a run keeps
  because each of its items does.
* `Piece.parse`: the piece that a text denotes, however deep it is nested.
* **`Piece.bounded_of_parse`**: its expression is bounded.
-/

namespace ParserKit

/-! ## Items -/

section Items

variable (flags : PatternFlags)

/-- Whether the counts of an item are in order, in itself and in what it contains. -/
def Item.Bounded : Item → Prop
  | .atom p => p.form.expr.Bounded
  | .repetition least most _ => ∀ m ∈ most, least ≤ m
  | _ => True

theorem bind_eq_ok {α β : Type} {o : Except PatternFault α} {k : α → Except PatternFault β} {b : β}
    (h : (o >>= k) = .ok b) : ∃ a, o = .ok a ∧ k a = .ok b := by
  cases o with
  | error f => cases h
  | ok a => exact ⟨a, rfl, h⟩

theorem plain_bind_eq_ok {α β : Type} {P Q : List Char → Prop}
    {o : Except PatternFault (α × { r : List Char // P r })}
    {k : α × { r : List Char // P r } → Except PatternFault (β × { r : List Char // Q r })}
    {b : β} {r : List Char} (h : plain (o >>= k) = .ok (b, r)) :
    ∃ x, o = .ok x ∧ plain (k x) = .ok (b, r) := by
  cases o with
  | error f => cases h
  | ok x => exact ⟨x, rfl, h⟩

theorem bounded_of_repetitionOf {least : Nat} {most : Option Nat} {isLazy : Bool} {item : Item}
    (h : repetitionOf least most isLazy = .ok item) : item.Bounded := by
  unfold repetitionOf at h
  split at h
  · cases h
    assumption
  · cases h

theorem bounded_of_readCountAfter {verbose swap : Bool} {least : Nat} {s r : List Char}
    {item : Item} (h : readCountAfter verbose swap least s = .ok (item, r)) : item.Bounded := by
  have hclose {most : Option Nat} {o : Except PatternFault (Bool × List Char)}
      (h : (o >>= fun x => repetitionOf least most x.1 >>= fun item => .ok (item, x.2)) =
        .ok (item, r)) : item.Bounded := by
    obtain ⟨x, -, h⟩ := bind_eq_ok h
    obtain ⟨item', hitem, h⟩ := bind_eq_ok h
    cases h
    exact bounded_of_repetitionOf hitem
  by_cases hs : ∃ t, s = ',' :: t
  · obtain ⟨t, rfl⟩ := hs
    rw [readCountAfter_comma verbose swap least rfl] at h
    split at h
    · exact hclose h
    · obtain ⟨y, -, h⟩ := bind_eq_ok h
      exact hclose h
  · rw [readCountAfter_other verbose swap least (not_exists.mp hs)] at h
    exact hclose h

theorem bounded_of_readFlags {s r : List Char} {item : Item}
    (h : plain (readFlags flags s) = .ok (item, r)) : item.Bounded := by
  rw [plain_readFlags] at h
  split at h
  · cases h
  · obtain ⟨item', hitem, h⟩ := bind_eq_ok h
    cases h
    unfold changeItem at hitem
    split at hitem
    · cases hitem
    split at hitem
    · cases hitem
      trivial
    split at hitem
    · cases hitem
    · cases hitem
      trivial

theorem bounded_of_readGroup {s r : List Char} {item : Item}
    (h : plain (readGroup flags s) = .ok (item, r)) : item.Bounded := by
  unfold readGroup at h
  split at h
  case h_5 | h_6 =>
    obtain ⟨x, -, hx⟩ := plain_bind_eq_ok h
    cases hx
    trivial
  case h_7 =>
    rw [plain_bind_ok fun _ _ => rfl] at h
    exact bounded_of_readFlags flags h
  case h_8 =>
    cases h
    trivial
  all_goals cases h

theorem bounded_of_readItemFrom {c : Char} {t r : List Char} {item : Item}
    (h : plain (readItemFrom flags c t) = .ok (item, r)) : item.Bounded := by
  unfold readItemFrom at h
  dsimp only at h
  split at h
  case h_9 =>
    rw [plain_bind_ok fun _ _ => rfl, plain_readCount] at h
    obtain ⟨x, -, hx⟩ := bind_eq_ok h
    exact bounded_of_readCountAfter hx
  case h_10 =>
    rw [plain_bind_ok fun _ _ => rfl] at h
    exact bounded_of_readGroup flags h
  case h_11 =>
    obtain ⟨x, -, hx⟩ := plain_bind_eq_ok h
    cases hx
    exact Form.bounded_ofSet _
  case h_12 =>
    obtain ⟨⟨e, rest⟩, -, hx⟩ := plain_bind_eq_ok h
    cases hx
    cases e with
    | literal c => exact Form.bounded_ofSet _
    | set s => exact Form.bounded_ofSet s
    | look a => trivial
  case h_6 | h_7 | h_8 =>
    cases h
    simp [Item.Bounded]
  all_goals
    cases h
    first | trivial | exact Form.bounded_ofSet _

/-- **The items of a pattern have their counts in order.** -/
theorem bounded_of_nextItem {s r : List Char} {item : Item}
    (h : nextItem flags s = .ok (some (item, r))) : item.Bounded := by
  rw [nextItem_eq] at h
  split at h
  · cases h
  · next c t _ =>
    cases hitem : plain (readItemFrom flags c t) with
    | ok x =>
      rw [hitem] at h
      cases h
      exact bounded_of_readItemFrom flags hitem
    | error f =>
      rw [hitem] at h
      cases h

end Items

/-! ## Runs -/

def Piece.Bounded (p : Piece) : Prop := p.form.expr.Bounded

theorem Piece.bounded_sequence {ps : List Piece} (h : ∀ p ∈ ps, p.Bounded) :
    (Piece.sequence ps).Bounded :=
  Form.bounded_sequence fun f hf => by
    obtain ⟨p, hp, rfl⟩ := List.mem_map.mp hf
    exact h p hp

theorem Piece.bounded_choice {ps : List Piece} (h : ∀ p ∈ ps, p.Bounded) :
    (Piece.choice ps).Bounded :=
  Form.bounded_choice fun f hf => by
    obtain ⟨p, hp, rfl⟩ := List.mem_map.mp hf
    exact h p hp

namespace Layer

/-- Whether all pieces of an unfinished choice are bounded. -/
def Bounded (l : Layer) : Prop :=
  (∀ p ∈ l.branches, p.Bounded) ∧ ∀ p ∈ l.parts, p.toPiece.Bounded

variable {l : Layer}

theorem Bounded.push (h : l.Bounded) {p : Piece} (hp : p.Bounded) : (l.push p).Bounded :=
  ⟨h.1, List.forall_mem_cons.mpr ⟨hp, h.2⟩⟩

theorem Bounded.branch (h : l.Bounded) : l.branch.Bounded :=
  Piece.bounded_sequence fun p hp => by
    obtain ⟨part, hpart, rfl⟩ := List.mem_map.mp hp
    exact h.2 part (List.mem_reverse.mp hpart)

theorem Bounded.nextBranch (h : l.Bounded) : l.nextBranch.Bounded :=
  ⟨List.forall_mem_cons.mpr ⟨h.branch, h.1⟩, List.forall_mem_nil _⟩

theorem Bounded.close (h : l.Bounded) : l.close.Bounded := by
  unfold Layer.close
  split
  · exact h.branch
  · refine Piece.bounded_choice fun p hp => ?_
    rcases List.mem_cons.mp (List.mem_reverse.mp hp) with rfl | hp
    · exact h.branch
    · exact h.1 p hp

theorem Bounded.closeGroup (h : l.Bounded) : l.closeGroup.Bounded := by
  have hclose := h.close
  unfold Layer.closeGroup
  dsimp only
  split
  · exact hclose
  · exact hclose
  · exact hclose

end Layer

namespace PatternReader

theorem run_eq (r : PatternReader) (s : List Char) :
    r.run s =
      match nextItem r.flags s with
      | .error f => .error f
      | .ok none => .ok r
      | .ok (some (item, rest)) => r.add item >>= fun r' => r'.run rest := by
  rw [run, nextItem]
  cases readItem r.flags s with
  | error f => rfl
  | ok o => cases o <;> rfl

theorem length_lt_of_nextItem {flags : PatternFlags} {s rest : List Char} {item : Item}
    (h : nextItem flags s = .ok (some (item, rest))) : rest.length < s.length := by
  unfold nextItem at h
  cases hr : readItem flags s with
  | error f => rw [hr] at h; cases h
  | ok o =>
    rw [hr] at h
    cases o with
    | none => cases h
    | some x =>
      cases h
      exact x.2.property

/-- **What every item keeps, a run keeps.** -/
theorem run_induction {P : PatternReader → Prop}
    (hadd : ∀ r item r', P r → item.Bounded → r.add item = .ok r' → P r') {r r' : PatternReader}
    {s : List Char} (hr : P r) (hrun : r.run s = .ok r') : P r' := by
  rw [run_eq] at hrun
  match hnext : nextItem r.flags s with
  | .error f =>
    rw [hnext] at hrun
    cases hrun
  | .ok none =>
    rw [hnext] at hrun
    cases hrun
    exact hr
  | .ok (some (item, rest)) =>
    rw [hnext] at hrun
    have hlen := length_lt_of_nextItem hnext
    obtain ⟨r₁, hr₁, hrun⟩ := bind_eq_ok hrun
    exact run_induction hadd (hadd r item r₁ hr (bounded_of_nextItem r.flags hnext) hr₁) hrun
termination_by s.length

/-- **What an item does to a reader,** where it does something. The names of groups are left open,
since they only decide whether there is a fault. -/
inductive Adds (r : PatternReader) : Item → PatternReader → Prop
  | atom (p : Piece) : Adds r (.atom p) { r with layer := r.layer.push p }
  | setting (flags : PatternFlags) :
    Adds r (.setting flags)
      { r with flags, layer := { r.layer with parts := .setting :: r.layer.parts } }
  | bar : Adds r .bar { r with layer := r.layer.nextBranch }
  | repeated {least : Nat} {most : Option Nat} {isLazy : Bool} {p : Piece} {parts : List Part}
    (h : r.layer.parts = .piece p :: parts) :
    Adds r (.repetition least most isLazy) { r with layer := { r.layer with
      parts := .piece ⟨p.form.rounds least most isLazy, p.depth + 1⟩ :: parts } }
  | opened (kind : GroupKind) (inner : PatternFlags) (names : List String) :
    Adds r (.opening kind inner) { r.openGroup kind inner with names }
  | closed {around : Layer} {outer : List Layer} (h : r.outer = around :: outer) :
    Adds r .closing
      { r with flags := r.layer.flags, layer := around.push r.layer.closeGroup, outer }

theorem adds_of_add {r r' : PatternReader} {item : Item} (h : r.add item = .ok r') :
    r.Adds item r' := by
  cases item with
  | atom p =>
    cases h
    exact .atom p
  | setting flags =>
    cases h
    exact .setting flags
  | bar =>
    cases h
    exact .bar
  | repetition least most isLazy =>
    dsimp only [add, repeatLast] at h
    split at h
    · next hparts =>
      cases h
      exact .repeated hparts
    · cases h
  | opening kind inner =>
    cases kind with
    | plain | numbered =>
      cases h
      exact .opened _ inner r.names
    | named name =>
      dsimp only [add] at h
      split at h
      · cases h
      · cases h
        exact .opened _ inner (name :: r.names)
  | closing =>
    dsimp only [add] at h
    split at h
    · cases h
    · next houter =>
      cases h
      exact .closed houter

def Bounded (r : PatternReader) : Prop := r.layer.Bounded ∧ ∀ l ∈ r.outer, l.Bounded

theorem Bounded.add {r r' : PatternReader} {item : Item} (hr : r.Bounded) (hitem : item.Bounded)
    (h : r.add item = .ok r') : r'.Bounded := by
  cases adds_of_add h with
  | atom p => exact ⟨hr.1.push hitem, hr.2⟩
  | setting flags => exact ⟨⟨hr.1.1, List.forall_mem_cons.mpr ⟨trivial, hr.1.2⟩⟩, hr.2⟩
  | bar => exact ⟨hr.1.nextBranch, hr.2⟩
  | repeated hparts =>
    have hall := List.forall_mem_cons.mp (hparts ▸ hr.1.2)
    exact ⟨⟨hr.1.1, List.forall_mem_cons.mpr ⟨Form.bounded_rounds hitem hall.1, hall.2⟩⟩, hr.2⟩
  | opened kind inner names =>
    exact ⟨⟨List.forall_mem_nil _, List.forall_mem_nil _⟩, List.forall_mem_cons.mpr hr⟩
  | closed houter =>
    have hall := List.forall_mem_cons.mp (houter ▸ hr.2)
    exact ⟨hall.1.push hr.1.closeGroup, hall.2⟩

end PatternReader

/-- The piece that a text denotes, however deep it is nested. -/
def Piece.parse (text : List Char) : Except PatternFault Piece := do
  let r ← PatternReader.run {} text
  r.finish

theorem Form.parse_eq (text : List Char) :
    Form.parse text = Piece.parse text >>= fun p =>
      if p.depth ≤ maxDepth then .ok p.form else .error .nestedTooDeeply := by
  unfold Form.parse Piece.parse
  cases PatternReader.run {} text <;> rfl

/-- **The expression of a pattern that can be read is bounded.** -/
theorem Piece.bounded_of_parse {text : List Char} {p : Piece} (h : Piece.parse text = .ok p) :
    p.Bounded := by
  obtain ⟨r, hrun, hfinish⟩ := bind_eq_ok h
  have hr : r.Bounded := PatternReader.run_induction (P := PatternReader.Bounded)
    (fun r item r' hr hitem hadd => hr.add hitem hadd)
    ⟨⟨List.forall_mem_nil _, List.forall_mem_nil _⟩, List.forall_mem_nil _⟩ hrun
  unfold PatternReader.finish at hfinish
  split at hfinish
  · cases hfinish
    exact hr.1.close
  · cases hfinish

end ParserKit
