import Mathlib.Data.List.Nodup
import ParserKit.Proofs.Node.Trees

/-!
# Tours of trees

* `Visit`: something is entered or left.
* `Place`: a place in a tree; `Node.atPlace?`: the node there.
* `Node.Reaches`: the places above which no children are skipped.
* `Node.Encloses`: between entering and leaving a place comes all that is below it.
* **`Node.IsTour`**: which places are visited, and in which order.
* `Node.tour`: the places that a walk visits. `Node.mem_tour_iff`, `Node.preorder_tour`,
  `Node.encloses_tour`, `Node.nodup_tour`: each part of what makes it a tour.
* **`Node.isTour_tour`**: it is one.
-/

namespace ParserKit

/-! ## Visits -/

/-- Something is entered or left. -/
inductive Visit (α : Type) where
  | enter (subject : α)
  | leave (subject : α)
deriving DecidableEq

namespace Visit

variable {α β : Type}

def subject : Visit α → α
  | enter a => a
  | leave a => a

def entered? : Visit α → Option α
  | enter a => some a
  | leave _ => none

def map (f : α → β) : Visit α → Visit β
  | enter a => enter (f a)
  | leave a => leave (f a)

@[simp] theorem subject_map (f : α → β) (v : Visit α) : (v.map f).subject = f v.subject := by
  cases v <;> rfl

@[simp] theorem entered?_map (f : α → β) (v : Visit α) : (v.map f).entered? = v.entered?.map f := by
  cases v <;> rfl

theorem map_comp_map {γ : Type} (f : α → β) (g : β → γ) : map g ∘ map f = map (g ∘ f) := by
  funext v
  cases v <;> rfl

theorem exists_map_eq {f : α → β} {a : α} {v : Visit β} (h : v.subject = f a) :
    ∃ u : Visit α, u.subject = a ∧ u.map f = v := by
  cases v with
  | enter b => exact ⟨enter a, rfl, congrArg enter h.symm⟩
  | leave b => exact ⟨leave a, rfl, congrArg leave h.symm⟩

theorem mem_filterMap_entered?_iff {tour : List (Visit α)} {a : α} :
    a ∈ tour.filterMap entered? ↔ enter a ∈ tour := by
  rw [List.mem_filterMap]
  constructor
  · rintro ⟨_ | _, hv, ha⟩
    · exact Option.some.inj ha ▸ hv
    · cases ha
  · exact fun h => ⟨_, h, rfl⟩

end Visit

/-- A place in a tree: the indices of the children through which it is reached from the root. -/
abbrev Place := List Nat

namespace Node

/-- The node at a place. -/
def atPlace? (n : Node) : Place → Option Node
  | [] => some n
  | i :: p => n.children[i]?.bind fun c => c.atPlace? p

variable {skip : Node → Bool} {n : Node}

/-- **A place is reached** if there is a node, and no children are skipped at a node above it. -/
def Reaches (n : Node) (skip : Node → Bool) (p : Place) : Prop :=
  (n.atPlace? p).isSome = true ∧
    ∀ q m, q <+: p → q ≠ p → n.atPlace? q = some m → skip m = false

theorem reaches_nil : n.Reaches skip [] :=
  ⟨rfl, fun _ _ hq hne => absurd (List.prefix_nil.mp hq) hne⟩

theorem reaches_cons_iff {i : Nat} {p : Place} : n.Reaches skip (i :: p) ↔
    skip n = false ∧ ∃ c, n.children[i]? = some c ∧ c.Reaches skip p := by
  constructor
  · rintro ⟨hsome, habove⟩
    obtain ⟨c, hc⟩ : ∃ c, n.children[i]? = some c := by
      cases hc : n.children[i]? with
      | none => simp [atPlace?, hc] at hsome
      | some c => exact ⟨c, rfl⟩
    refine ⟨habove [] n (List.nil_prefix) (List.cons_ne_nil i p).symm rfl, c, hc, ?_, ?_⟩
    · simpa [atPlace?, hc] using hsome
    · intro q m hq hne hm
      refine habove (i :: q) m (List.cons_prefix_cons.mpr ⟨rfl, hq⟩) (by simpa using hne) ?_
      simpa [atPlace?, hc] using hm
  · rintro ⟨hskip, c, hc, hsome, habove⟩
    refine ⟨by simpa [atPlace?, hc] using hsome, ?_⟩
    rintro (_ | ⟨j, q⟩) m hq hne hm
    · obtain rfl : n = m := Option.some.inj hm
      exact hskip
    · obtain ⟨rfl, hqp⟩ := List.cons_prefix_cons.mp hq
      exact habove q m hqp (by simpa using hne) (by simpa [atPlace?, hc] using hm)

/-! ## Tours -/

/-- **A place encloses what is below it**: it is entered and left, between that comes all that is
about places below it, and nothing else. -/
def Encloses (p : Place) (tour : List (Visit Place)) : Prop :=
  ∃ before inside after, tour = before ++ .enter p :: (inside ++ .leave p :: after) ∧
    (∀ v ∈ inside, p <+: v.subject ∧ v.subject ≠ p) ∧ ∀ v ∈ before ++ after, ¬ p <+: v.subject

/-- **A tour** of a tree in which the children of some nodes are skipped: each place that is reached
is entered once, above what is below it and in the order of children, and it is left once, after
all that is below it. -/
structure IsTour (n : Node) (skip : Node → Bool) (tour : List (Visit Place)) : Prop where
  nodup : tour.Nodup
  mem_iff : ∀ v, v ∈ tour ↔ n.Reaches skip v.subject
  preorder : (tour.filterMap Visit.entered?).Pairwise (· < ·)
  nested : ∀ p, n.Reaches skip p → Encloses p tour

namespace Encloses

variable {p : Place} {tour : List (Visit Place)}

theorem map_cons (h : Encloses p tour) (i : Nat) :
    Encloses (i :: p) (tour.map (Visit.map (i :: ·))) := by
  obtain ⟨before, inside, after, rfl, hinside, houtside⟩ := h
  refine ⟨before.map (Visit.map (i :: ·)), inside.map (Visit.map (i :: ·)),
    after.map (Visit.map (i :: ·)), by simp [Visit.map], ?_, ?_⟩
  · rw [List.forall_mem_map]
    intro u hu
    obtain ⟨hbelow, hne⟩ := hinside u hu
    rw [Visit.subject_map]
    exact ⟨List.cons_prefix_cons.mpr ⟨rfl, hbelow⟩, fun h => hne (List.cons.inj h).2⟩
  · rw [← List.map_append, List.forall_mem_map]
    intro u hu
    rw [Visit.subject_map, List.cons_prefix_cons]
    exact fun h => houtside u hu h.2

theorem append (h : Encloses p tour) {left right : List (Visit Place)}
    (hleft : ∀ v ∈ left, ¬ p <+: v.subject) (hright : ∀ v ∈ right, ¬ p <+: v.subject) :
    Encloses p (left ++ (tour ++ right)) := by
  obtain ⟨before, inside, after, rfl, hinside, houtside⟩ := h
  obtain ⟨hbefore, hafter⟩ := List.forall_mem_append.mp houtside
  refine ⟨left ++ before, inside, after ++ right, by simp, hinside, ?_⟩
  exact List.forall_mem_append.mpr ⟨List.forall_mem_append.mpr ⟨hleft, hbefore⟩,
    List.forall_mem_append.mpr ⟨hafter, hright⟩⟩

theorem count_le_one {v : Visit Place} (h : Encloses v.subject tour) : tour.count v ≤ 1 := by
  obtain ⟨before, inside, after, rfl, hinside, houtside⟩ := h
  have hin : v ∉ inside := fun h => (hinside v h).2 rfl
  have hbefore : v ∉ before := fun h => houtside v (List.mem_append_left _ h) List.prefix_rfl
  have hafter : v ∉ after := fun h => houtside v (List.mem_append_right _ h) List.prefix_rfl
  simp only [List.count_append, List.count_cons, List.count_eq_zero_of_not_mem hin,
    List.count_eq_zero_of_not_mem hbefore, List.count_eq_zero_of_not_mem hafter]
  cases v <;> simp [Visit.subject]

end Encloses

/-! ## The places that a walk visits -/

mutual

/-- The places that a walk visits, if it passes over the children of some nodes. -/
def tour (skip : Node → Bool) : Node → List (Visit Place)
  | ⟨name, text, attrs, id, children⟩ =>
    let n : Node := ⟨name, text, attrs, id, children⟩
    .enter [] :: ((if skip n then [] else tourAll skip 0 children) ++ [.leave []])

/-- The places that it visits from the child with index `i` on. -/
def tourAll (skip : Node → Bool) (i : Nat) : List Node → List (Visit Place)
  | [] => []
  | n :: ns => (tour skip n).map (Visit.map (i :: ·)) ++ tourAll skip (i + 1) ns

end

theorem tour_eq (n : Node) : n.tour skip =
    .enter [] :: ((if skip n then [] else tourAll skip 0 n.children) ++ [.leave []]) := by
  cases n
  rw [tour]

theorem tourAll_append (i : Nat) (ns ms : List Node) :
    tourAll skip i (ns ++ ms) = tourAll skip i ns ++ tourAll skip (i + ns.length) ms := by
  induction ns generalizing i with
  | nil => rfl
  | cons n ns ih =>
    rw [List.cons_append, tourAll, tourAll, ih, List.append_assoc, List.length_cons,
      Nat.add_right_comm, Nat.add_assoc]

theorem mem_tourAll_iff {i : Nat} {ns : List Node} {v : Visit Place} : v ∈ tourAll skip i ns ↔
    ∃ (j : Nat) (c : Node) (u : Visit Place),
      ns[j]? = some c ∧ u ∈ c.tour skip ∧ u.map ((i + j) :: ·) = v := by
  induction ns generalizing i with
  | nil => simp [tourAll]
  | cons n ns ih =>
    rw [tourAll, List.mem_append, List.mem_map, ih]
    constructor
    · rintro (⟨u, hu, rfl⟩ | ⟨j, c, u, hj, hu, rfl⟩)
      · exact ⟨0, n, u, rfl, hu, rfl⟩
      · exact ⟨j + 1, c, u, hj, hu, by rw [Nat.add_assoc, Nat.add_comm 1]⟩
    · rintro ⟨_ | j, c, u, hj, hu, rfl⟩
      · obtain rfl : n = c := Option.some.inj hj
        exact .inl ⟨u, hu, rfl⟩
      · exact .inr ⟨j, c, u, hj, hu, by rw [Nat.add_assoc, Nat.add_comm 1]⟩

theorem mem_tour_iff (n : Node) (v : Visit Place) :
    v ∈ n.tour skip ↔ n.Reaches skip v.subject := by
  induction n using induct generalizing v with
  | node n ih =>
    rw [tour_eq, List.mem_cons, List.mem_append, List.mem_singleton]
    constructor
    · rintro (rfl | hbelow | rfl)
      · exact reaches_nil
      · split at hbelow
        · cases hbelow
        · next hskip =>
          obtain ⟨j, c, u, hc, hu, rfl⟩ := mem_tourAll_iff.mp hbelow
          rw [Visit.subject_map, Nat.zero_add, reaches_cons_iff]
          exact ⟨Bool.eq_false_iff.mpr hskip, c, hc, (ih c (List.mem_of_getElem? hc) u).mp hu⟩
      · exact reaches_nil
    · intro h
      cases hp : v.subject with
      | nil => cases v with
        | enter p => exact .inl (congrArg Visit.enter hp)
        | leave p => exact .inr (.inr (congrArg Visit.leave hp))
      | cons i p =>
        rw [hp] at h
        obtain ⟨hskip, c, hc, hreach⟩ := reaches_cons_iff.mp h
        obtain ⟨u, rfl, rfl⟩ := Visit.exists_map_eq hp
        rw [if_neg (Bool.eq_false_iff.mp hskip)]
        refine .inr (.inl (mem_tourAll_iff.mpr ⟨i, c, u, hc, ?_, by rw [Nat.zero_add]⟩))
        exact (ih c (List.mem_of_getElem? hc) u).mpr hreach

theorem filterMap_entered?_map_cons (i : Nat) (tour : List (Visit Place)) :
    (tour.map (Visit.map (i :: ·))).filterMap Visit.entered? =
      (tour.filterMap Visit.entered?).map (i :: ·) := by
  rw [List.filterMap_map, List.map_filterMap]
  exact List.filterMap_congr fun v _ => v.entered?_map _

/-- The first index of what is entered from the child with index `i` on. -/
theorem le_of_entered_tourAll {i : Nat} {ns : List Node} {p : Place}
    (hp : p ∈ (tourAll skip i ns).filterMap Visit.entered?) : ∃ j q, i ≤ j ∧ p = j :: q := by
  obtain ⟨j, c, u, -, -, hu⟩ := mem_tourAll_iff.mp (Visit.mem_filterMap_entered?_iff.mp hp)
  exact ⟨i + j, u.subject, Nat.le_add_right i j,
    (congrArg Visit.subject hu).symm.trans (Visit.subject_map _ u)⟩

theorem preorder_tourAll (i : Nat) {ns : List Node}
    (h : ∀ n ∈ ns, ((n.tour skip).filterMap Visit.entered?).Pairwise (· < ·)) :
    ((tourAll skip i ns).filterMap Visit.entered?).Pairwise (· < ·) := by
  induction ns generalizing i with
  | nil => exact .nil
  | cons n ns ih =>
    obtain ⟨hn, hns⟩ := List.forall_mem_cons.mp h
    rw [tourAll, List.filterMap_append, filterMap_entered?_map_cons, List.pairwise_append,
      List.pairwise_map]
    refine ⟨hn.imp fun hlt => List.cons_lt_cons_iff.mpr (.inr ⟨rfl, hlt⟩), ih (i + 1) hns, ?_⟩
    -- what is below a later child has a higher first index
    intro p hp q hq
    obtain ⟨p, -, rfl⟩ := List.mem_map.mp hp
    obtain ⟨j, q, hj, rfl⟩ := le_of_entered_tourAll hq
    exact List.cons_lt_cons_iff.mpr (.inl hj)

theorem preorder_tour (n : Node) : ((n.tour skip).filterMap Visit.entered?).Pairwise (· < ·) := by
  induction n using induct with
  | node n ih =>
    have hroot : (n.tour skip).filterMap Visit.entered? =
        [] :: (if skip n then [] else tourAll skip 0 n.children).filterMap Visit.entered? := by
      rw [tour_eq]
      change [] :: List.filterMap Visit.entered? (_ ++ _) = _
      rw [List.filterMap_append]
      exact congrArg _ (List.append_nil _)
    rw [hroot, List.pairwise_cons]
    split
    · exact ⟨List.forall_mem_nil _, .nil⟩
    · refine ⟨fun p hp => ?_, preorder_tourAll 0 ih⟩
      obtain ⟨j, q, -, rfl⟩ := le_of_entered_tourAll hp
      exact List.nil_lt_cons j q

theorem not_prefix_of_mem_tourAll {i k : Nat} {ns : List Node} {p : Place} {v : Visit Place}
    (hk : k < i ∨ i + ns.length ≤ k) (hv : v ∈ tourAll skip i ns) : ¬ k :: p <+: v.subject := by
  obtain ⟨j, c, u, hc, -, rfl⟩ := mem_tourAll_iff.mp hv
  obtain ⟨hj, -⟩ := List.getElem?_eq_some_iff.mp hc
  intro hbelow
  rw [Visit.subject_map, List.cons_prefix_cons] at hbelow
  omega

theorem encloses_tour (n : Node) {p : Place} (hp : n.Reaches skip p) :
    Encloses p (n.tour skip) := by
  induction n using induct generalizing p with
  | node n ih =>
    cases p with
    | nil =>
      refine ⟨[], if skip n then [] else tourAll skip 0 n.children, [], n.tour_eq, fun v hv => ?_,
        List.forall_mem_nil _⟩
      split at hv
      · cases hv
      · obtain ⟨j, c, u, -, -, rfl⟩ := mem_tourAll_iff.mp hv
        rw [Visit.subject_map]
        exact ⟨List.nil_prefix, List.cons_ne_nil _ _⟩
    | cons i p =>
      obtain ⟨hskip, c, hc, hreach⟩ := reaches_cons_iff.mp hp
      have hchild : Encloses p (c.tour skip) := ih c (List.mem_of_getElem? hc) hreach
      obtain ⟨left, right, hchildren, rfl⟩ : ∃ left right,
          n.children = left ++ c :: right ∧ left.length = i := by
        obtain ⟨hi, rfl⟩ := List.getElem?_eq_some_iff.mp hc
        exact ⟨_, _, (List.take_append_drop i n.children).symm.trans
          (congrArg _ (List.drop_eq_getElem_cons hi)), List.length_take_of_le (Nat.le_of_lt hi)⟩
      -- the tour of the child stands between those of the children to its left and to its right
      have htour : n.tour skip = .enter [] :: tourAll skip 0 left ++
          ((c.tour skip).map (Visit.map (left.length :: ·)) ++
            (tourAll skip (left.length + 1) right ++ [.leave []])) := by
        rw [tour_eq, if_neg (Bool.eq_false_iff.mp hskip), hchildren, tourAll_append, tourAll,
          Nat.zero_add]
        simp
      have hroot : ¬ left.length :: p <+: [] := fun h => List.cons_ne_nil _ _ (List.prefix_nil.mp h)
      rw [htour]
      refine (hchild.map_cons left.length).append ?_ ?_
      · exact List.forall_mem_cons.mpr ⟨hroot, fun v hv =>
          not_prefix_of_mem_tourAll (.inr (Nat.le_of_eq (Nat.zero_add _))) hv⟩
      · exact List.forall_mem_append.mpr ⟨fun v hv =>
          not_prefix_of_mem_tourAll (.inl (Nat.lt_succ_self _)) hv,
          List.forall_mem_singleton.mpr hroot⟩

theorem nodup_tour (n : Node) : (n.tour skip).Nodup := by
  rw [List.nodup_iff_count_le_one]
  intro v
  by_cases hv : v ∈ n.tour skip
  · exact (n.encloses_tour ((n.mem_tour_iff v).mp hv)).count_le_one
  · rw [List.count_eq_zero_of_not_mem hv]
    exact Nat.zero_le 1

theorem isTour_tour (n : Node) : n.IsTour skip (n.tour skip) where
  nodup := n.nodup_tour
  mem_iff := n.mem_tour_iff
  preorder := n.preorder_tour
  nested _ hp := n.encloses_tour hp

end Node

end ParserKit
