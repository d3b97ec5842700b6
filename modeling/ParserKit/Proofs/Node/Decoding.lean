import ParserKit.Proofs.Node.Tags

/-!
# Trees read back from their markup

* `unescapeMarkup`: the text that an escaped text stands for.
* `Node.ofElement?`: the node of an element, by its opening tag, its text and its children.
* `Decoding`, `Decoding.step`: the elements that are open between two tags, and what a tag changes.
  `Decoding.run_tags`: the tags of a node add just this node.
* `Node.ofXml?`: the tree of a markup. **`Node.ofXml?_toXml`**: markup loses nothing of a tree.
-/

namespace ParserKit

/-! ## Texts -/

def unescapeMarkup : List Char → List Char
  | '&' :: 'a' :: 'm' :: 'p' :: ';' :: s => '&' :: unescapeMarkup s
  | '&' :: 'l' :: 't' :: ';' :: s => '<' :: unescapeMarkup s
  | '&' :: 'g' :: 't' :: ';' :: s => '>' :: unescapeMarkup s
  | '&' :: 'q' :: 'u' :: 'o' :: 't' :: ';' :: s => '"' :: unescapeMarkup s
  | '&' :: 'a' :: 'p' :: 'o' :: 's' :: ';' :: s => '\'' :: unescapeMarkup s
  | c :: s => c :: unescapeMarkup s
  | [] => []

theorem unescapeMarkup_append (c : Char) (s : List Char) :
    unescapeMarkup (escapeMarkup c ++ s) = c :: unescapeMarkup s := by
  unfold escapeMarkup
  split
  · rfl
  · rfl
  · rfl
  · rfl
  · rfl
  · next hamp _ _ _ _ =>
    rw [List.singleton_append, unescapeMarkup]
    all_goals exact fun _ h => absurd h hamp

def decodeText (s : List Char) : String := .ofList (unescapeMarkup s)

/-- **A text is read back from its escaped form.** -/
theorem decodeText_markupText (s : String) : decodeText (markupText s) = s := by
  have h : ∀ cs : List Char, unescapeMarkup (cs.flatMap escapeMarkup) = cs := by
    intro cs
    induction cs with
    | nil => rfl
    | cons c cs ih => rw [List.flatMap_cons, unescapeMarkup_append, ih]
  rw [decodeText, markupText, h, String.ofList_toList]

/-- The text that stands before the children of an element, by what stands between its opening tag
and the first child: it has a line end and `blanks` blanks on either side, unless it is empty. -/
def innerText (blanks : Nat) (s : List Char) : List Char :=
  (s.take (s.length - (blanks + 1))).drop (blanks + 1)

namespace Node

theorem innerText_textLines (indent depth : Nat) (text : String) :
    innerText (depth * indent) (textLines indent depth text) = markupText text := by
  have hpadding : (padding indent depth).length = depth * indent := List.length_replicate
  rw [innerText, textLines, markupLine]
  split
  · next htext =>
    rw [String.isEmpty_iff] at htext
    subst htext
    rw [List.nil_append, List.length_cons, hpadding, Nat.sub_self]
    rfl
  · have hsplit :
        '\n' :: (padding indent depth ++ markupText text ++ ['\n'] ++ padding indent depth) =
        '\n' :: padding indent depth ++ markupText text ++ ('\n' :: padding indent depth) := by simp
    rw [hsplit, List.length_append, List.length_cons, hpadding, Nat.add_sub_cancel, List.take_left,
      List.drop_left' (by rw [List.length_cons, hpadding])]

/-! ## Elements -/

/-- The node of an element, by the name and the attributes in its opening tag, its text and its
children. The attribute `id` is the id of the node. -/
def ofElement? (name : String) (attrs : List (String × List Char)) (text : List Char)
    (children : List Node) : Option Node :=
  let entries := attrs.map fun e => (e.1, decodeText e.2)
  let others := entries.filter fun e => e.1 != "id"
  if h : (others.map Prod.fst).Nodup then
    some ⟨name, decodeText text, ⟨others, h⟩, entries.lookup "id", children⟩
  else none

theorem map_tagAttrs (attrs : OrderedMap String) (id : Option String) :
    (tagAttrs attrs id).map (fun e => (e.1, decodeText e.2)) =
      attrs.entries ++ id.toList.map fun value => ("id", value) := by
  simp [tagAttrs, Function.comp_def, decodeText_markupText]

/-- **A node is read back from its name, its attributes, its text and its children.** -/
theorem ofElement?_eq (name text : String) (attrs : OrderedMap String) (id : Option String)
    (children : List Node) (h : "id" ∉ attrs.names) :
    ofElement? name (tagAttrs attrs id) (markupText text) children =
      some ⟨name, text, attrs, id, children⟩ := by
  have hne : ∀ e ∈ attrs.entries, e.1 ≠ "id" := by
    intro e he hid
    exact h (hid ▸ List.mem_map_of_mem he)
  have hothers : ((attrs.entries ++ id.toList.map fun value => ("id", value)).filter
      fun e => e.1 != "id") = attrs.entries := by
    rw [List.filter_append, List.filter_eq_self.mpr fun e he => bne_iff_ne.mpr (hne e he)]
    cases id <;> simp
  have hid : (attrs.entries ++ id.toList.map fun value => ("id", value)).lookup "id" = id := by
    rw [List.lookup_append, List.lookup_eq_none_iff.mpr fun e he => bne_iff_ne.mpr (hne e he).symm]
    cases id <;> simp
  rw [ofElement?, map_tagAttrs, decodeText_markupText]
  simp only [hothers, hid]
  exact dif_pos attrs.nodup

end Node

/-! ## Open elements -/

/-- An element whose closing tag is still to come: what stands in its opening tag and behind it, and
the nodes before it, last first. -/
structure OpenElement where
  name : String
  attrs : List (String × List Char)
  behind : List Char
  before : List Node

/-- The elements that are open between two tags, innermost first, and the nodes that are complete in
the innermost of them, last first. -/
structure Decoding where
  opened : List OpenElement
  nodes : List Node

namespace Decoding

variable {indent : Nat} {n : Node} {ns : List Node}

/-- What a tag changes. Its depth is the number of elements that are open around it. -/
def step (indent : Nat) (d : Decoding) : Tag × List Char → Option Decoding
  | (.single name attrs, _) =>
    (Node.ofElement? name attrs [] []).map fun n => { d with nodes := n :: d.nodes }
  | (.opening name attrs, behind) => some ⟨⟨name, attrs, behind, d.nodes⟩ :: d.opened, []⟩
  | (.closing name, _) =>
    match d.opened with
    | [] => none
    | e :: opened =>
      if e.name = name then
        let text :=
          if d.nodes.isEmpty then e.behind else innerText ((opened.length + 1) * indent) e.behind
        (Node.ofElement? name e.attrs text d.nodes.reverse).map fun n => ⟨opened, n :: e.before⟩
      else none

def run (indent : Nat) (d : Decoding) (tags : List (Tag × List Char)) : Option Decoding :=
  tags.foldlM (step indent) d

theorem run_cons (d : Decoding) (e : Tag × List Char) (tags : List (Tag × List Char)) :
    d.run indent (e :: tags) = (d.step indent e).bind fun d => d.run indent tags :=
  List.foldlM_cons

theorem run_append (d : Decoding) (tags tags' : List (Tag × List Char)) :
    d.run indent (tags ++ tags') = (d.run indent tags).bind fun d => d.run indent tags' :=
  List.foldlM_append

section

variable {name text : String} {attrs : OrderedMap String} {id : Option String} {behind : List Char}

theorem step_single (d : Decoding) (h : "id" ∉ attrs.names) :
    d.step indent (.single name (Node.tagAttrs attrs id), behind) =
      some ⟨d.opened, ⟨name, "", attrs, id, []⟩ :: d.nodes⟩ := by
  have hnode := Node.ofElement?_eq name "" attrs id [] h
  rw [markupText, String.toList_empty, List.flatMap_nil] at hnode
  rw [step, hnode]
  rfl

theorem step_closing {opened : List OpenElement} {before nodes : List Node} {after : List Char}
    (h : "id" ∉ attrs.names)
    (htext : (if nodes.isEmpty then behind else innerText ((opened.length + 1) * indent) behind) =
      markupText text) :
    step indent ⟨⟨name, Node.tagAttrs attrs id, behind, before⟩ :: opened, nodes⟩
        (.closing name, after) =
      some ⟨opened, ⟨name, text, attrs, id, nodes.reverse⟩ :: before⟩ := by
  rw [step]
  dsimp only
  rw [if_pos rfl, htext, Node.ofElement?_eq name text attrs id nodes.reverse h]
  rfl

end

theorem run_tagsAll (next : List Char) (h : ∀ n ∈ ns, ∀ (d : Decoding) (behind : List Char),
      d.run indent (n.tags indent d.opened.length behind) = some ⟨d.opened, n :: d.nodes⟩) :
    ∀ d : Decoding, d.run indent (Node.tagsAll indent d.opened.length ns next) =
      some ⟨d.opened, ns.reverse ++ d.nodes⟩ := by
  induction ns with
  | nil => exact fun _ => rfl
  | cons n ns ih =>
    rw [List.forall_mem_cons] at h
    intro d
    have hrest := ih h.2 ⟨d.opened, n :: d.nodes⟩
    rw [Node.tagsAll, run_append, h.1, Option.bind_some, hrest, List.reverse_cons,
      List.append_assoc]
    rfl

/-- **The tags of a node add just this node**, and close what they open. -/
theorem run_tags (h : n.All fun m => "id" ∉ m.attrs.names) : ∀ (d : Decoding) (behind : List Char),
    d.run indent (n.tags indent d.opened.length behind) = some ⟨d.opened, n :: d.nodes⟩ := by
  induction h with
  | @node n here _ ih =>
    obtain ⟨name, text, attrs, id, children⟩ := n
    intro d behind
    rw [Node.tags]
    split
    · next hchildren =>
      rw [List.isEmpty_iff] at hchildren
      subst hchildren
      split
      · next htext =>
        rw [String.isEmpty_iff] at htext
        subst htext
        rw [run_cons, step_single d here]
        rfl
      · rw [run_cons, step, Option.bind_some, run_cons, step_closing here rfl]
        rfl
    · next hchildren =>
      -- The children are complete when the closing tag comes, and the depth is as it was.
      have hbelow := run_tagsAll (padding indent d.opened.length) ih
        ⟨⟨name, Node.tagAttrs attrs id, Node.textLines indent (d.opened.length + 1) text,
          d.nodes⟩ :: d.opened, []⟩
      rw [List.length_cons, List.append_nil] at hbelow
      have hnodes : ¬children.reverse.isEmpty = true := by rwa [List.isEmpty_reverse]
      rw [run_cons, step, Option.bind_some, run_append, hbelow, Option.bind_some, run_cons,
        step_closing here (by rw [if_neg hnodes, Node.innerText_textLines]), List.reverse_reverse]
      rfl

end Decoding

/-! ## Trees -/

namespace Node

/-- **The tree of a markup** that is indented by `indent` blanks for each level. -/
def ofXml? (indent : Nat) (s : String) : Option Node := do
  let m ← Markup.read? s
  match ← Decoding.run indent ⟨[], []⟩ m.tags with
  | ⟨[], [n]⟩ => some n
  | _ => none

/-- **Markup loses nothing of a tree**: if the names in it can stand in tags and no attribute is
called `id`, it is read back from its markup. So trees with the same markup are the same. -/
theorem ofXml?_toXml (indent : Nat) :
    (∀ n : Node, n.WellNamed → n.All (fun m => "id" ∉ m.attrs.names) →
      ofXml? indent (n.toXml indent) = some n) ∧
    ∀ n m : Node, n.WellNamed → n.All (fun k => "id" ∉ k.attrs.names) → m.WellNamed →
      m.All (fun k => "id" ∉ k.attrs.names) → n.toXml indent = m.toXml indent → n = m := by
  have hread : ∀ n : Node, n.WellNamed → n.All (fun m => "id" ∉ m.attrs.names) →
      ofXml? indent (n.toXml indent) = some n := by
    intro n hnames hid
    have hrun : Decoding.run indent ⟨[], []⟩ (n.tags indent 0 ['\n']) = some ⟨[], [n]⟩ :=
      Decoding.run_tags hid ⟨[], []⟩ ['\n']
    rw [ofXml?, ← render_toMarkup, Markup.read?_render (valid_toMarkup indent hnames),
      Option.bind_eq_bind, Option.bind_some, toMarkup, hrun]
    rfl
  refine ⟨hread, fun n m hn hn' hm hm' heq => ?_⟩
  have hsame := hread n hn hn'
  rw [heq, hread m hm hm'] at hsame
  exact (Option.some.inj hsame).symm

/-- An element with a text of two lines, which begin and end with blanks, and two children. -/
theorem ofXml?_of_paragraph :
    ofXml? 2 "<p k=\"&apos;\" id=\"1\">\n   a\n \n  <b/>\n  <c>&amp;&lt;</c>\n</p>\n" =
      some ⟨"p", " a\n ", ⟨[("k", "'")], by decide⟩, some "1",
        [⟨"b", "", .empty, none, []⟩, ⟨"c", "&<", .empty, none, []⟩]⟩ := by
  let b : Node := ⟨"b", "", .empty, none, []⟩
  let c : Node := ⟨"c", "&<", .empty, none, []⟩
  let p : Node := ⟨"p", " a\n ", ⟨[("k", "'")], by decide⟩, some "1", [b, c]⟩
  have hnames : p.WellNamed := by
    have hb : b.WellNamed := .node (by decide) (List.forall_mem_nil _)
    have hc : c.WellNamed := .node (by decide) (List.forall_mem_nil _)
    exact .node (by decide) (List.forall_mem_cons.mpr ⟨hb, List.forall_mem_singleton.mpr hc⟩)
  have hid : p.All fun m => "id" ∉ m.attrs.names := by
    have hb : b.All fun m => "id" ∉ m.attrs.names := .node (by decide) (List.forall_mem_nil _)
    have hc : c.All fun m => "id" ∉ m.attrs.names := .node (by decide) (List.forall_mem_nil _)
    exact .node (by decide) (List.forall_mem_cons.mpr ⟨hb, List.forall_mem_singleton.mpr hc⟩)
  have htext : p.toXml 2 =
      "<p k=\"&apos;\" id=\"1\">\n   a\n \n  <b/>\n  <c>&amp;&lt;</c>\n</p>\n" :=
    (render_toMarkup 2 p).symm
  rw [← htext]
  exact (ofXml?_toXml 2).1 p hnames hid

end Node

end ParserKit
