import ParserKit.Node.Walk
import ParserKit.Proofs.Node.Tours

/-!
# The events of a walk

* `WalkEvent`: a node is entered or left; `Visitor.handle`: what a visitor makes of it.
* `Node.events`: the events of a walk, as `Visitor.recording` lists them.
* `Visitor.DecidesBy`: the node alone decides how the walk goes on. `Visitor.unstopped`: the visitor
  that descends instead of stopping.
* `Node.visits`: the events of a walk that is not stopped. **`Node.walkFrom_eq_run`**: a walk goes
  through them until it is stopped. `Node.visits_eq_tour`: they are at the places of a tour.
* **`Node.walk_events`**: a walk with a stop is the first part of the walk without it, and a walk
  without a stop is a tour of the tree.
-/

namespace ParserKit

/-! ## Events -/

/-- What a visitor is told of: a node is entered or left, and its parent, if it has one. -/
abbrev WalkEvent := Visit (Node × Option Node)

/-- A list up to and including the first member with a property; the whole of it if there is
none. -/
def throughFirst {α : Type} (p : α → Bool) : List α → List α
  | [] => []
  | a :: l => if p a then [a] else a :: throughFirst p l

theorem throughFirst_eq_self {α : Type} {p : α → Bool} {l : List α}
    (h : ∀ a ∈ throughFirst p l, p a = false) : throughFirst p l = l := by
  induction l with
  | nil => rfl
  | cons a l ih =>
    rw [throughFirst] at h ⊢
    split at h
    · next ha => exact absurd ((h a List.mem_cons_self).symm.trans ha) Bool.false_ne_true
    · next ha => rw [if_neg ha, ih fun b hb => h b (List.mem_cons_of_mem a hb)]

/-! ## Visitors -/

/-- How the walk goes on instead, if it is not to be stopped. -/
def Walk.unstopped : Walk → Walk
  | .stop => .descend
  | w => w

theorem Walk.unstopped_beq_skipChildren (w : Walk) :
    (w.unstopped == .skipChildren) = (w == .skipChildren) := by
  cases w <;> rfl

theorem Walk.unstopped_beq_stop (w : Walk) : (w.unstopped == .stop) = false := by
  cases w <;> rfl

namespace Visitor

variable {σ : Type}

def handle (v : Visitor σ) (s : σ) : WalkEvent → σ
  | .enter (n, parent) => (v.enter s n parent).2
  | .leave (n, parent) => v.leave s n parent

/-- The visitor that does the same, and keeps a list of the events. -/
def recording (v : Visitor σ) : Visitor (σ × List WalkEvent) where
  enter s n parent :=
    ((v.enter s.1 n parent).1, (v.enter s.1 n parent).2, s.2 ++ [.enter (n, parent)])
  leave s n parent := (v.leave s.1 n parent, s.2 ++ [.leave (n, parent)])

/-- The visitor that does the same, and descends instead of stopping. -/
def unstopped (v : Visitor σ) : Visitor σ where
  enter s n parent := ((v.enter s n parent).1.unstopped, (v.enter s n parent).2)
  leave := v.leave

/-- The node alone decides how the walk goes on. -/
def DecidesBy (v : Visitor σ) (choice : Node → Walk) : Prop :=
  ∀ s n parent, (v.enter s n parent).1 = choice n

variable {v : Visitor σ} {choice : Node → Walk}

theorem DecidesBy.recording (h : v.DecidesBy choice) : v.recording.DecidesBy choice :=
  fun s n parent => h s.1 n parent

theorem DecidesBy.unstopped (h : v.DecidesBy choice) :
    v.unstopped.DecidesBy fun n => (choice n).unstopped :=
  fun s n parent => congrArg Walk.unstopped (h s n parent)

theorem DecidesBy.enter_eq (h : v.DecidesBy choice) (s : σ) (n : Node) (parent : Option Node) :
    v.enter s n parent = (choice n, v.handle s (.enter (n, parent))) :=
  Prod.ext (h s n parent) rfl

theorem foldl_handle_recording (s : σ) (before events : List WalkEvent) :
    events.foldl v.recording.handle (s, before) = (events.foldl v.handle s, before ++ events) := by
  induction events generalizing s before with
  | nil => rw [List.append_nil]; rfl
  | cons e events ih =>
    have hstep : v.recording.handle (s, before) e = (v.handle s e, before ++ [e]) := by
      cases e <;> rfl
    rw [List.foldl_cons, List.foldl_cons, hstep, ih, List.append_assoc, List.singleton_append]

end Visitor

/-! ## What is visited -/

/-- Whether a walk that decides by `choice` is stopped at an event. -/
def stops (choice : Node → Walk) : WalkEvent → Bool
  | .enter (n, _) => choice n == .stop
  | .leave _ => false

/-- Whether a walk that decides by `choice` passes over the children of a node. -/
def skips (choice : Node → Walk) (n : Node) : Bool := choice n == .skipChildren

namespace Visitor

variable {σ : Type} (v : Visitor σ) (choice : Node → Walk)

/-- Tells a visitor of events until one of them stops the walk. The result tells whether it goes
on. -/
def run : List WalkEvent → σ → Bool × σ
  | [], s => (true, s)
  | e :: events, s =>
    if stops choice e then (false, v.handle s e) else run events (v.handle s e)

theorem run_append (events events' : List WalkEvent) (s : σ) :
    v.run choice (events ++ events') s = match v.run choice events s with
      | (false, s) => (false, s)
      | (true, s) => v.run choice events' s := by
  induction events generalizing s with
  | nil => rfl
  | cons e events ih =>
    rw [List.cons_append, run, run, ih]
    split <;> rfl

theorem run_eq (events : List WalkEvent) (s : σ) : v.run choice events s =
    (!events.any (stops choice), (throughFirst (stops choice) events).foldl v.handle s) := by
  induction events generalizing s with
  | nil => rfl
  | cons e events ih =>
    rw [run, throughFirst, List.any_cons, ih]
    cases stops choice e <;> rfl

end Visitor

namespace Node

variable {σ : Type} {v : Visitor σ} {choice : Node → Walk} {skip : Node → Bool}

/-- The events of a walk from its beginning to its end or to the first stop. -/
def events (v : Visitor σ) (n : Node) (s : σ) : List WalkEvent := (n.walk v.recording (s, [])).2

mutual

/-- The events of a walk that is not stopped and passes over the children of some nodes. -/
def visits (skip : Node → Bool) (parent : Option Node) : Node → List WalkEvent
  | ⟨name, text, attrs, id, children⟩ =>
    let n : Node := ⟨name, text, attrs, id, children⟩
    .enter (n, parent) ::
      ((if skip n then [] else visitsAll skip n children) ++ [.leave (n, parent)])

def visitsAll (skip : Node → Bool) (parent : Node) : List Node → List WalkEvent
  | [] => []
  | n :: ns => visits skip (some parent) n ++ visitsAll skip parent ns

end

theorem visits_eq (parent : Option Node) (n : Node) : visits skip parent n =
    .enter (n, parent) ::
      ((if skip n then [] else visitsAll skip n n.children) ++ [.leave (n, parent)]) := by
  cases n
  rw [visits]

theorem walkFrom_eq (parent : Option Node) (n : Node) (s : σ) : walkFrom v parent n s =
    match v.enter s n parent with
    | (.stop, s) => (false, s)
    | (.skipChildren, s) => (true, v.leave s n parent)
    | (.descend, s) =>
      match walkAll v n n.children s with
      | (false, s) => (false, s)
      | (true, s) => (true, v.leave s n parent) := by
  cases n
  unfold walkFrom
  rfl

theorem walkAll_eq_run {parent : Node} {ns : List Node}
    (h : ∀ n ∈ ns, ∀ s, walkFrom v (some parent) n s =
      v.run choice (visits skip (some parent) n) s) (s : σ) :
    walkAll v parent ns s = v.run choice (visitsAll skip parent ns) s := by
  induction ns generalizing s with
  | nil => rfl
  | cons n ns ih =>
    obtain ⟨hn, hns⟩ := List.forall_mem_cons.mp h
    rw [walkAll, visitsAll, hn, Visitor.run_append]
    obtain ⟨goesOn, s'⟩ := v.run choice (visits skip (some parent) n) s
    cases goesOn with
    | false => rfl
    | true => exact ih hns s'

/-- **A walk goes through the visits until it is stopped.** -/
theorem walkFrom_eq_run (h : v.DecidesBy choice) (parent : Option Node) (n : Node) (s : σ) :
    walkFrom v parent n s = v.run choice (visits (skips choice) parent n) s := by
  induction n using induct generalizing parent s with
  | node n ih =>
    have hall := walkAll_eq_run fun c hc => ih c hc (some n)
    rw [walkFrom_eq, visits_eq, h.enter_eq, Visitor.run, stops, skips]
    cases choice n with
    | stop => rfl
    | skipChildren => rfl
    | descend =>
      -- after a stop below the node it is not left: `run_append` drops all that comes next
      rw [if_neg (by decide), if_neg (by decide), Visitor.run_append, ← hall]
      rfl

theorem walk_eq (h : v.DecidesBy choice) (n : Node) (s : σ) : n.walk v s =
    (throughFirst (stops choice) (visits (skips choice) none n)).foldl v.handle s := by
  rw [walk, walkFrom_eq_run h, Visitor.run_eq]

theorem events_eq (h : v.DecidesBy choice) (n : Node) (s : σ) :
    n.events v s = throughFirst (stops choice) (visits (skips choice) none n) := by
  rw [events, walk_eq h.recording, Visitor.foldl_handle_recording, List.nil_append]

theorem events_unstopped (h : v.DecidesBy choice) (n : Node) (s : σ) :
    n.events v.unstopped s = visits (skips choice) none n := by
  have hskips : skips (fun m => (choice m).unstopped) = skips choice :=
    funext fun m => (choice m).unstopped_beq_skipChildren
  have hstops (e : WalkEvent) : stops (fun m => (choice m).unstopped) e = false := by
    cases e with
    | enter subject => exact (choice subject.1).unstopped_beq_stop
    | leave subject => rfl
  rw [events_eq h.unstopped, hskips, throughFirst_eq_self fun e _ => hstops e]

/-! ## Where the events of a walk are -/

/-- The node at a place and its parent. The root has the given one. -/
def spot? (n : Node) (parent : Option Node) (p : Place) : Option (Node × Option Node) :=
  (n.atPlace? p).map fun m => (m, if p = [] then parent else n.atPlace? p.dropLast)

theorem spot?_cons {n c : Node} {i : Nat} (hc : n.children[i]? = some c) (parent : Option Node)
    (p : Place) : n.spot? parent (i :: p) = c.spot? (some n) p := by
  cases p with
  | nil => simp [spot?, atPlace?, hc]
  | cons j p => simp [spot?, atPlace?, hc]

theorem visitsAll_eq_tourAll {n : Node} {ns : List Node} {i : Nat} (parent : Option Node)
    (hns : ∀ j c, ns[j]? = some c → n.children[i + j]? = some c)
    (h : ∀ c ∈ ns, (visits skip (some n) c).map (Visit.map some) =
      (c.tour skip).map (Visit.map (c.spot? (some n)))) :
    (visitsAll skip n ns).map (Visit.map some) =
      (tourAll skip i ns).map (Visit.map (n.spot? parent)) := by
  induction ns generalizing i with
  | nil => rfl
  | cons c ns ih =>
    obtain ⟨hc, hrest⟩ := List.forall_mem_cons.mp h
    have hspot : n.spot? parent ∘ (i :: ·) = c.spot? (some n) :=
      funext fun p => spot?_cons (hns 0 c rfl) parent p
    have hnext (j : Nat) (d : Node) (hd : ns[j]? = some d) :
        n.children[i + 1 + j]? = some d := by
      rw [Nat.add_assoc, Nat.add_comm 1]
      exact hns (j + 1) d hd
    rw [visitsAll, tourAll, List.map_append, List.map_append, hc, ih hnext hrest, List.map_map,
      Visit.map_comp_map, hspot]

/-- **What a walk visits is at the places of a tour.** -/
theorem visits_eq_tour (n : Node) (parent : Option Node) :
    (visits skip parent n).map (Visit.map some) =
      (n.tour skip).map (Visit.map (n.spot? parent)) := by
  induction n using induct generalizing parent with
  | node n ih =>
    have hbelow : (visitsAll skip n n.children).map (Visit.map some) =
        (tourAll skip 0 n.children).map (Visit.map (n.spot? parent)) :=
      visitsAll_eq_tourAll parent (fun j c hc => (Nat.zero_add j).symm ▸ hc)
        fun c hc => ih c hc (some n)
    rw [visits_eq, tour_eq, List.map_cons, List.map_cons, List.map_append, List.map_append]
    split
    · rfl
    · rw [hbelow]
      rfl

/-- **A walk tells its visitor of the events up to and including the first stop**, of those of which
it tells if the visitor descends instead. If it is not stopped, the events are a tour of the tree:
each node that is not below a skipped one is entered and left once, with its parent. -/
theorem walk_events (h : v.DecidesBy choice) (n : Node) (s : σ) :
    n.walk v s = (n.events v s).foldl v.handle s ∧
      n.events v s = throughFirst (stops choice) (n.events v.unstopped s) ∧
      ((∀ e ∈ n.events v s, stops choice e = false) →
        ∃ tour, n.IsTour (skips choice) tour ∧
          (n.events v s).map (Visit.map some) = tour.map (Visit.map (n.spot? none))) := by
  rw [events_unstopped h, walk_eq h, events_eq h]
  refine ⟨rfl, rfl, fun hnone => ⟨n.tour (skips choice), n.isTour_tour, ?_⟩⟩
  rw [throughFirst_eq_self hnone, visits_eq_tour]

theorem walk_past_conj :
    let item (name : String) (children : List Node) : Node := ⟨name, "", .empty, none, children⟩
    let n := item "disj" [item "conj" [item "a" []], item "b" []]
    let choice (m : Node) : Walk :=
      if m.name = "conj" then .skipChildren else if m.name = "a" then .stop else .descend
    let v : Visitor (List String) :=
      { enter := fun names m _ => (choice m, names ++ [m.name]), leave := fun names _ _ => names }
    v.DecidesBy choice ∧ n.walk v [] = ["disj", "conj", "b"] ∧
      n.walk v [] = (n.events v []).foldl v.handle [] ∧
      n.events v [] = throughFirst (stops choice) (n.events v.unstopped []) ∧
      (∀ e ∈ n.events v [], stops choice e = false) ∧
      ∃ tour, n.IsTour (skips choice) tour ∧
        (n.events v []).map (Visit.map some) = tour.map (Visit.map (n.spot? none)) := by
  intro item n choice v
  have h : v.DecidesBy choice := fun _ _ _ => rfl
  have hnone : ∀ e ∈ n.events v [], stops choice e = false := by
    have hany : (n.events v []).any (stops choice) = false := rfl
    simpa using hany
  obtain ⟨hwalk, hevents, htour⟩ := walk_events h n []
  exact ⟨h, rfl, hwalk, hevents, hnone, htour hnone⟩

end Node

end ParserKit
