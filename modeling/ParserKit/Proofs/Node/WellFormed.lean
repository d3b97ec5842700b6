import ParserKit.Proofs.Node.Tags

/-!
# Well-formed markup

* `Markup.Nested`: every opening tag is closed by a tag of the same name, in proper nesting.
  `Node.nested_toMarkup`: this holds for the markup of every tree.
* `Markup.Distinct`: no tag carries two attributes of the same name. `Node.distinct_toMarkup_iff`:
  this holds just for the markup of trees in which no node has both an id and an attribute called
  `id`.
* **`Node.toXml_wellFormed`**: what is well-formed in the markup of a tree.
* `Node.repeated_id`: an element that carries the attribute `id` twice.
-/

namespace ParserKit

namespace Markup

/-- The names of the elements that are open behind a tag, innermost first. A closing tag closes the
innermost one, which must have its name. -/
def nest (opened : List String) : Tag → Option (List String)
  | .opening name _ => some (name :: opened)
  | .single _ _ => some opened
  | .closing name => if opened.head? = some name then some opened.tail else none

/-- The names of the elements that are open behind several tags. -/
def nestAll (opened : List String) (tags : List (Tag × List Char)) : Option (List String) :=
  tags.foldlM (fun opened e => nest opened e.1) opened

/-- **Every opening tag is closed by a tag of the same name, in proper nesting.** -/
def Nested (m : Markup) : Prop := nestAll [] m.tags = some []

/-- **No tag carries two attributes of the same name.** -/
def Distinct (m : Markup) : Prop := ∀ e ∈ m.tags, (e.1.attrs.map Prod.fst).Nodup

theorem nestAll_cons (opened : List String) (e : Tag × List Char)
    (tags : List (Tag × List Char)) :
    nestAll opened (e :: tags) = (nest opened e.1).bind fun opened => nestAll opened tags :=
  List.foldlM_cons

theorem nestAll_append (opened : List String) (tags tags' : List (Tag × List Char)) :
    nestAll opened (tags ++ tags') =
      (nestAll opened tags).bind fun opened => nestAll opened tags' :=
  List.foldlM_append

end Markup

namespace Node

variable {indent depth : Nat} {n : Node} {ns : List Node}

/-! ## Nesting -/

theorem nestAll_tagsAll (next : List Char)
    (h : ∀ n ∈ ns, ∀ (opened : List String) (behind : List Char),
      Markup.nestAll opened (n.tags indent depth behind) = some opened) :
    ∀ opened : List String,
      Markup.nestAll opened (tagsAll indent depth ns next) = some opened := by
  induction ns with
  | nil => exact fun _ => rfl
  | cons n ns ih =>
    rw [List.forall_mem_cons] at h
    intro opened
    rw [tagsAll, Markup.nestAll_append, h.1, Option.bind_some, ih h.2]

/-- The tags of a node close just what they open. -/
theorem nestAll_tags (indent : Nat) (n : Node) :
    ∀ (depth : Nat) (opened : List String) (behind : List Char),
      Markup.nestAll opened (n.tags indent depth behind) = some opened := by
  induction n using induct with
  | node n ih =>
    obtain ⟨name, text, attrs, id, children⟩ := n
    intro depth opened behind
    have hclosing : Markup.nest (name :: opened) (.closing name) = some opened := if_pos rfl
    rw [tags]
    split
    · split
      · rw [Markup.nestAll_cons, Markup.nest]
        rfl
      · rw [Markup.nestAll_cons, Markup.nest, Option.bind_some, Markup.nestAll_cons, hclosing]
        rfl
    · have hbelow := nestAll_tagsAll (padding indent depth) (fun m hm => ih m hm (depth + 1))
        (name :: opened)
      rw [Markup.nestAll_cons, Markup.nest, Option.bind_some, Markup.nestAll_append, hbelow,
        Option.bind_some, Markup.nestAll_cons, hclosing]
      rfl

theorem nested_toMarkup (indent : Nat) (n : Node) : (n.toMarkup indent).Nested :=
  nestAll_tags indent n 0 [] ['\n']

/-! ## Attributes -/

section

variable {P : List (String × List Char) → Prop}

theorem forall_tagsAll_iff (next : List Char) (h : ∀ n ∈ ns, ∀ behind : List Char,
      (∀ e ∈ n.tags indent depth behind, P e.1.attrs) ↔
        n.All fun m => P (tagAttrs m.attrs m.id)) :
    (∀ e ∈ tagsAll indent depth ns next, P e.1.attrs) ↔
      ∀ n ∈ ns, n.All fun m => P (tagAttrs m.attrs m.id) := by
  induction ns with
  | nil => exact iff_of_true (List.forall_mem_nil _) (List.forall_mem_nil _)
  | cons n ns ih =>
    rw [List.forall_mem_cons] at h
    rw [tagsAll, List.forall_mem_append, List.forall_mem_cons, h.1, ih h.2]

/-- A property that holds of no attributes holds of the attributes of all tags of a node just if it
holds of those of each node below it. -/
theorem forall_tags_iff (hnone : P []) (indent : Nat) (n : Node) :
    ∀ (depth : Nat) (behind : List Char),
      (∀ e ∈ n.tags indent depth behind, P e.1.attrs) ↔
        n.All fun m => P (tagAttrs m.attrs m.id) := by
  induction n using induct with
  | node n ih =>
    obtain ⟨name, text, attrs, id, children⟩ := n
    intro depth behind
    have hclosing : P (Tag.closing name).attrs := hnone
    have hbelow := forall_tagsAll_iff (padding indent depth) fun m hm => ih m hm (depth + 1)
    rw [all_iff, tags]
    split
    · next hchildren =>
      rw [List.isEmpty_iff] at hchildren
      subst hchildren
      split
      · rw [List.forall_mem_singleton, and_iff_left (List.forall_mem_nil _)]
        rfl
      · rw [List.forall_mem_cons, List.forall_mem_singleton, and_iff_left hclosing,
          and_iff_left (List.forall_mem_nil _)]
        rfl
    · rw [List.forall_mem_cons, List.forall_mem_append, List.forall_mem_singleton,
        and_iff_left hclosing, hbelow]
      rfl

end

theorem nodup_tagAttrs_iff (attrs : OrderedMap String) (id : Option String) :
    ((tagAttrs attrs id).map Prod.fst).Nodup ↔ (id ≠ none → "id" ∉ attrs.names) := by
  have hnames : attrs.names.Nodup := attrs.nodup
  have hmap : (tagAttrs attrs id).map Prod.fst = attrs.names ++ id.toList.map fun _ => "id" := by
    rw [tagAttrs, List.map_append, List.map_map, List.map_map]
    rfl
  rw [hmap]
  cases id with
  | none => simp [hnames]
  | some value => simp [List.nodup_append, hnames, List.forall_mem_ne']

theorem distinct_toMarkup_iff (indent : Nat) (n : Node) :
    (n.toMarkup indent).Distinct ↔ n.All fun m => m.id ≠ none → "id" ∉ m.attrs.names := by
  have h := forall_tags_iff (P := fun attrs => (attrs.map Prod.fst).Nodup) List.nodup_nil indent n 0
    ['\n']
  simp only [nodup_tagAttrs_iff] at h
  exact h

/-! ## Well-formedness -/

/-- **What is well-formed in the markup of a tree** whose names can stand in tags: it is read as
tags and texts in which every markup character is escaped, and every opening tag is closed by a
matching one in proper nesting. No tag carries an attribute twice just if no node of the tree has
both an id and an attribute called `id`. -/
theorem toXml_wellFormed (indent : Nat) (h : n.WellNamed) :
    ∃ m : Markup, Markup.read? (n.toXml indent) = some m ∧ m.render = n.toXml indent ∧ m.Valid ∧
      m.Nested ∧ (m.Distinct ↔ n.All fun k => k.id ≠ none → "id" ∉ k.attrs.names) := by
  have hvalid := valid_toMarkup indent h
  have hread := Markup.read?_render hvalid
  rw [render_toMarkup] at hread
  exact ⟨n.toMarkup indent, hread, render_toMarkup indent n, hvalid, nested_toMarkup indent n,
    distinct_toMarkup_iff indent n⟩

theorem wellFormed_of_list :
    let item : Node := ⟨"item", "", ⟨[("id", "&")], by decide⟩, none, []⟩
    let list : Node := ⟨"list", "a<b", .empty, some "1", [item]⟩
    list.WellNamed ∧ ∃ m : Markup, Markup.read? (list.toXml 2) = some m ∧
      m.render = list.toXml 2 ∧ m.Valid ∧ m.Nested ∧ m.Distinct := by
  intro item list
  have hitem : item.WellNamed := .node (by decide) (List.forall_mem_nil _)
  have hlist : list.WellNamed := .node (by decide) (List.forall_mem_singleton.mpr hitem)
  have hid : item.All fun k => k.id ≠ none → "id" ∉ k.attrs.names :=
    .node (by decide) (List.forall_mem_nil _)
  have hids : list.All fun k => k.id ≠ none → "id" ∉ k.attrs.names :=
    .node (by decide) (List.forall_mem_singleton.mpr hid)
  obtain ⟨m, hread, hrender, hvalid, hnested, hdistinct⟩ := toXml_wellFormed 2 hlist
  exact ⟨hlist, m, hread, hrender, hvalid, hnested, hdistinct.mpr hids⟩

/-- **An element that carries the attribute `id` twice**, so that its markup is not well-formed: it
has an attribute of this name, and an id. -/
theorem repeated_id :
    let n := ((ofName "item").setAttr "id" "user-value").setId "routing"
    n.WellNamed ∧ n.toXml 0 = "<item id=\"user-value\" id=\"routing\"/>\n" ∧
      ¬∃ m : Markup, m.render = n.toXml 0 ∧ m.Valid ∧ m.Nested ∧ m.Distinct := by
  intro n
  have hnames : n.WellNamed := .node (by decide) (List.forall_mem_nil _)
  refine ⟨hnames, (render_toMarkup 0 n).symm, ?_⟩
  rintro ⟨m, hm, hvalid, -, hdistinct⟩
  have hread := Markup.read?_render hvalid
  rw [hm, ← render_toMarkup, Markup.read?_render (valid_toMarkup 0 hnames)] at hread
  cases hread
  obtain ⟨here, -⟩ := all_iff.mp ((distinct_toMarkup_iff 0 n).mp hdistinct)
  exact here (by decide) (by decide)

end Node

end ParserKit
