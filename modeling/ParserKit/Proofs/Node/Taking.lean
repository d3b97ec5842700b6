import Mathlib.Data.List.Basic
import ParserKit.Node.Basic

/-!
# Taking children one by one

* `Node.takeChild_eq_ok_iff`, `Node.takeChild_eq_error_iff`: when there is a child to take, which one
  is taken, and what is left.
* `Node.takeEach`: takes children until there is none left.
* **`Node.takeEach_eq_takeChildrenById`**: taking children one by one is taking all of them at once.
-/

namespace ParserKit

namespace Node

theorem hasId_iff {id : String} {c : Node} : hasId id c = true ↔ c.id = some id := beq_iff_eq

/-! ## Taking one child -/

section One

variable {n child rest : Node} {id : String}

/-- **The child that is taken is the first one with the id**, which it loses. Nothing else
changes. -/
theorem takeChild_eq_ok_iff :
    n.takeChild id = (.ok child, rest) ↔
      ∃ before old after, n.children = before ++ old :: after ∧ (∀ c ∈ before, c.id ≠ some id) ∧
        old.id = some id ∧ child = { old with id := none } ∧
        rest = { n with children := before ++ after } := by
  unfold takeChild
  constructor
  · intro h
    split at h
    · next old hfind =>
      obtain ⟨hold, before, after, hsplit, hbefore⟩ := List.find?_eq_some_iff_append.mp hfind
      obtain ⟨hchild, rfl⟩ := Prod.mk.inj h
      obtain rfl := Except.ok.inj hchild
      have hne : ∀ c ∈ before, ¬ hasId id c = true := by simpa using hbefore
      refine ⟨before, old, after, hsplit, fun c hc => hasId_iff.not.mp (hne c hc),
        hasId_iff.mp hold, rfl, ?_⟩
      rw [hsplit, List.eraseP_append_right _ hne, List.eraseP_cons_of_pos hold]
    · cases h
  · rintro ⟨before, old, after, hsplit, hbefore, hold, rfl, rfl⟩
    have hne : ∀ c ∈ before, ¬ hasId id c = true := fun c hc => hasId_iff.not.mpr (hbefore c hc)
    have hfind : n.children.find? (hasId id) = some old :=
      List.find?_eq_some_iff_append.mpr
        ⟨hasId_iff.mpr hold, before, after, hsplit, by simpa using hne⟩
    rw [hfind, hsplit, List.eraseP_append_right _ hne,
      List.eraseP_cons_of_pos (hasId_iff.mpr hold)]
    rfl

/-- **It is an error to take a child if there is none**, and the node stays as it is. -/
theorem takeChild_eq_error_iff {e : ParseError} :
    n.takeChild id = (.error e, rest) ↔ n.childrenById id = [] ∧ rest = n ∧
      e = .malformedTransform ("node '" ++ n.name ++ "' has no child with id '" ++ id ++ "'") := by
  have hnone : n.children.find? (hasId id) = none ↔ n.childrenById id = [] := by
    rw [childrenById, List.find?_eq_none, List.filter_eq_nil_iff]
  rw [← hnone, takeChild]
  cases n.children.find? (hasId id) with
  | some child => simp
  | none => simp [eq_comm, and_comm]

end One

/-! ## Taking one child after another -/

theorem length_children_takeChild {n child rest : Node} {id : String}
    (h : n.takeChild id = (.ok child, rest)) : rest.children.length < n.children.length := by
  obtain ⟨before, old, after, hsplit, -, -, -, rfl⟩ := takeChild_eq_ok_iff.mp h
  rw [hsplit, List.length_append, List.length_append, List.length_cons]
  omega

/-- **Takes children with an id one after another**, until there is none left. Yields them together
with the node that is left. -/
def takeEach (n : Node) (id : String) : List Node × Node :=
  match h : n.takeChild id with
  | (.ok child, rest) =>
    have := length_children_takeChild h
    let (children, left) := takeEach rest id
    (child :: children, left)
  | (.error _, rest) => ([], rest)
termination_by n.children.length

theorem takeChildrenById_of_ok {n child rest : Node} {id : String}
    (h : n.takeChild id = (.ok child, rest)) :
    n.takeChildrenById id =
      (child :: (rest.takeChildrenById id).1, (rest.takeChildrenById id).2) := by
  obtain ⟨before, old, after, hsplit, hbefore, hold, rfl, rfl⟩ := takeChild_eq_ok_iff.mp h
  have hne : ∀ c ∈ before, ¬ hasId id c = true := fun c hc => hasId_iff.not.mpr (hbefore c hc)
  have hnone : before.filter (hasId id) = [] := List.filter_eq_nil_iff.mpr hne
  have hpos : hasId id old = true := hasId_iff.mpr hold
  simp [takeChildrenById, hsplit, hnone, hpos, clearId]

theorem takeChildrenById_of_nil {n : Node} {id : String} (h : n.childrenById id = []) :
    n.takeChildrenById id = ([], n) := by
  have hkept : n.children.filter (fun c => !hasId id c) = n.children := by
    rw [childrenById, List.filter_eq_nil_iff] at h
    exact List.filter_eq_self.mpr fun c hc => by simpa using h c hc
  rw [takeChildrenById, ← childrenById, h, hkept]
  cases n
  rfl

/-- **Taking children one by one is taking all of them at once.** Either way one gets the children
with the id in their order, each as it was but for the id, and what is left is the node with the
other children in their order. A call that finds no child leaves the node as it is. -/
theorem takeEach_eq_takeChildrenById (n : Node) (id : String) :
    n.takeEach id = n.takeChildrenById id ∧
      (n.takeEach id).1 = (n.childrenById id).map (fun c => { c with id := none }) ∧
      (n.takeEach id).2 = { n with children := n.children.filter fun c => c.id != some id } ∧
      ∀ e rest, n.takeChild id = (.error e, rest) → rest = n := by
  have heq : n.takeEach id = n.takeChildrenById id := by
    fun_induction takeEach n id with
    | case1 n child rest h _ children left hrest ih =>
      rw [takeChildrenById_of_ok h, ← ih, hrest]
    | case2 n e rest h =>
      obtain ⟨hnil, rfl, -⟩ := takeChild_eq_error_iff.mp h
      exact (takeChildrenById_of_nil hnil).symm
  refine ⟨heq, by rw [heq]; rfl, by rw [heq]; rfl, fun e rest h => ?_⟩
  exact (takeChild_eq_error_iff.mp h).2.1

theorem takeEach_of_mixed_ids :
    let item (name : String) (id : Option String) : Node := ⟨name, "", .empty, id, []⟩
    let others : Node := ⟨"list", "", .empty, some "a", [item "y" none, item "w" (some "b")]⟩
    let n : Node := { others with
      children := [item "x" (some "a"), item "y" none, item "z" (some "a"), item "w" (some "b")] }
    n.takeEach "a" = ([item "x" none, item "z" none], others) ∧
      ∃ e rest, others.takeChild "a" = (.error e, rest) ∧ rest = others := by
  intro item others n
  obtain ⟨-, htaken, hleft, -⟩ := takeEach_eq_takeChildrenById n "a"
  have herror : others.takeChild "a" =
      (.error (.malformedTransform "node 'list' has no child with id 'a'"), others) :=
    takeChild_eq_error_iff.mpr ⟨rfl, rfl, rfl⟩
  exact ⟨Prod.ext htaken hleft, _, others, herror,
    (takeEach_eq_takeChildrenById others "a").2.2.2 _ others herror⟩

end Node

end ParserKit
