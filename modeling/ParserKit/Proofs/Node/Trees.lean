import Mathlib.Data.List.Forall2
import ParserKit.Node.Basic
import ParserKit.Proofs.OrderedMap

/-!
# Trees

* `Node.induct`: induction over trees.
* **`Node.same_iff`**: trees are equal if what their roots hold is equal and their children are, one
  by one. `Node.same_refl`: a tree equals itself.
-/

namespace ParserKit

namespace Node

theorem induct {motive : Node → Prop} (node : ∀ n, (∀ c ∈ n.children, motive c) → motive n)
    (n : Node) : motive n :=
  @Node.rec motive (fun ns => ∀ c ∈ ns, motive c) (fun _ _ _ _ _ ih => node _ ih)
    (List.forall_mem_nil _) (fun _ _ hhead htail => List.forall_mem_cons.mpr ⟨hhead, htail⟩) n

theorem sameAll_iff {ns ms : List Node} :
    sameAll ns ms = true ↔ List.Forall₂ (fun c d => c.same d = true) ns ms := by
  induction ns generalizing ms with
  | nil => cases ms <;> simp [sameAll]
  | cons n ns ih => cases ms <;> simp [sameAll, ih]

/-- **Trees are equal if what their roots hold is equal, and their children are, one by one.** Of
the attributes only the values count, not their order. -/
theorem same_iff {n m : Node} : n.same m = true ↔ n.name = m.name ∧ n.text = m.text ∧
    (∀ key, n.attr? key = m.attr? key) ∧ n.id = m.id ∧
    List.Forall₂ (fun c d => c.same d = true) n.children m.children := by
  cases n
  cases m
  simp only [same, Bool.and_eq_true, beq_iff_eq, sameAll_iff, OrderedMap.same_iff, and_assoc, attr?]

theorem same_refl (n : Node) : n.same n = true := by
  induction n using induct with
  | node n ih => exact same_iff.mpr ⟨rfl, rfl, fun _ => rfl, rfl, List.forall₂_same.mpr ih⟩

end Node

end ParserKit
