import ParserKit.Node.ToJson
import ParserKit.Proofs.Json.Same
import ParserKit.Proofs.Node.Trees

/-!
# Trees and their documents

* `same_attrsToJson_iff`: the documents of attributes are the same if the attributes are.
* `Node.documentFields`: the fields of the document of a tree, each of which is there once;
  `Node.lookup_documentFields` looks them up.
* **`Node.same_toJson_iff`**: trees have the same document, up to the order of fields, just if they
  are equal. An id is no attribute of that name.
-/

namespace ParserKit

/-! ## Attributes -/

theorem lookup_map_ofText (entries : List (String × String)) (name : String) :
    (entries.map fun e => (e.1, Json.ofText e.2)).lookup name =
      (entries.lookup name).map Json.ofText := by
  induction entries with
  | nil => rfl
  | cons e entries ih =>
    obtain ⟨k, v⟩ := e
    rw [List.map_cons, OrderedMap.lookup_entry_cons, OrderedMap.lookup_entry_cons, ih]
    split <;> rfl

theorem rel_map_ofText_iff {o o' : Option String} :
    Option.Rel Json.Same (o.map .ofText) (o'.map .ofText) ↔ o = o' := by
  cases o <;> cases o' <;> simp [Json.same_ofText_iff]

/-- **Attributes are the same if their documents are.** -/
theorem same_attrsToJson_iff {attrs attrs' : OrderedMap String} :
    (attrsToJson attrs).Same (attrsToJson attrs') ↔ ∀ key, attrs.get? key = attrs'.get? key := by
  have hnames (attrs : OrderedMap String) :
      ((attrs.entries.map fun e => (e.1, Json.ofText e.2)).map Prod.fst).Nodup := by
    rw [List.map_map]
    exact attrs.nodup
  rw [attrsToJson, attrsToJson, Json.same_ofFields_iff (hnames attrs) (hnames attrs')]
  refine forall_congr' fun key => ?_
  rw [lookup_map_ofText, lookup_map_ofText, rel_map_ofText_iff]
  rfl

namespace Node

/-! ## The fields of a document -/

def documentFields (n : Node) : List (String × Json) :=
  [("name", .ofText n.name), ("text", .ofText n.text), ("attrs", attrsToJson n.attrs)] ++
    n.id.toList.map (fun id => ("id", .ofText id)) ++ [("children", .array (n.children.map toJson))]

theorem allToJson_eq (ns : List Node) : allToJson ns = ns.map toJson := by
  induction ns with
  | nil => rfl
  | cons n ns ih => rw [allToJson, ih, List.map_cons]

theorem toJson_eq (n : Node) : n.toJson = .ofFields n.documentFields := by
  cases n
  rw [toJson, allToJson_eq]
  rfl

theorem nodup_documentFields (n : Node) : (n.documentFields.map Prod.fst).Nodup := by
  unfold documentFields
  cases n.id <;> simp

theorem lookup_documentFields (n : Node) (name : String) : n.documentFields.lookup name =
    if name = "name" then some (.ofText n.name)
    else if name = "text" then some (.ofText n.text)
    else if name = "attrs" then some (attrsToJson n.attrs)
    else if name = "id" then n.id.map .ofText
    else if name = "children" then some (.array (n.children.map toJson))
    else none := by
  have hid : (n.id.toList.map fun id => ("id", Json.ofText id)).lookup name =
      if name = "id" then n.id.map .ofText else none := by
    cases n.id <;> simp [OrderedMap.lookup_entry_cons]
  simp only [documentFields, List.cons_append, List.nil_append, OrderedMap.lookup_entry_cons,
    List.lookup_append, hid, List.lookup_nil]
  by_cases h : name = "id"
  · simp [h]
  · simp [h]

/-! ## Trees with the same document -/

variable {n m : Node}

theorem same_toJson_iff_fields : n.toJson.Same m.toJson ↔ n.name = m.name ∧ n.text = m.text ∧
    (∀ key, n.attr? key = m.attr? key) ∧ n.id = m.id ∧
    List.Forall₂ (fun c d => c.toJson.Same d.toJson) n.children m.children := by
  have hchildren : (Json.array (n.children.map toJson)).Same (.array (m.children.map toJson)) ↔
      List.Forall₂ (fun c d => c.toJson.Same d.toJson) n.children m.children := by
    rw [Json.same_array_iff, List.forall₂_map_left_iff, List.forall₂_map_right_iff]
  rw [toJson_eq, toJson_eq, Json.same_ofFields_iff n.nodup_documentFields m.nodup_documentFields]
  simp only [lookup_documentFields]
  constructor
  · intro h
    have hname := h "name"
    have htext := h "text"
    have hattrs := h "attrs"
    have hid := h "id"
    have hbelow := h "children"
    simp only [↓reduceIte, String.reduceEq, Option.rel_some_some] at hname htext hattrs hid hbelow
    exact ⟨Json.same_ofText_iff.mp hname, Json.same_ofText_iff.mp htext,
      same_attrsToJson_iff.mp hattrs, rel_map_ofText_iff.mp hid, hchildren.mp hbelow⟩
  · rintro ⟨hname, htext, hattrs, hid, hbelow⟩ name
    split_ifs
    · exact .some (Json.same_ofText_iff.mpr hname)
    · exact .some (Json.same_ofText_iff.mpr htext)
    · exact .some (same_attrsToJson_iff.mpr hattrs)
    · exact rel_map_ofText_iff.mpr hid
    · exact .some (hchildren.mpr hbelow)
    · exact .none

theorem forall₂_congr_of_mem {R S : Node → Node → Prop} {ns ms : List Node}
    (h : ∀ c ∈ ns, ∀ d, R c d ↔ S c d) : List.Forall₂ R ns ms ↔ List.Forall₂ S ns ms := by
  rw [List.forall₂_iff_zip, List.forall₂_iff_zip]
  refine and_congr_right fun _ => forall₂_congr fun c d => imp_congr_right fun hcd => ?_
  exact h c (List.of_mem_zip hcd).1 d

theorem same_toJson_iff_same (n m : Node) : n.toJson.Same m.toJson ↔ n.same m = true := by
  induction n using induct generalizing m with
  | node n ih => rw [same_toJson_iff_fields, same_iff, forall₂_congr_of_mem ih]

/-- **Trees have the same document, up to the order of fields, just if they are equal**: attributes
are compared by their values, children one by one. To give a node an id and to give it an attribute
of that name is the same only where both were there before. -/
theorem same_toJson_iff (n m : Node) :
    (n.toJson.Same m.toJson ↔ n.same m = true) ∧
      (n.same m = true ↔ n.name = m.name ∧ n.text = m.text ∧
        (∀ key, n.attr? key = m.attr? key) ∧ n.id = m.id ∧
        List.Forall₂ (fun c d => c.same d = true) n.children m.children) ∧
      ∀ id, (n.setId id).toJson.Same (n.setAttr "id" id).toJson ↔
        n.id = some id ∧ n.attr? "id" = some id := by
  refine ⟨same_toJson_iff_same n m, same_iff, fun id => ?_⟩
  have hattr (key : String) :
      (n.setAttr "id" id).attr? key = if key = "id" then some id else n.attr? key :=
    OrderedMap.get?_insert n.attrs "id" key id
  rw [same_toJson_iff_same, same_iff]
  constructor
  · rintro ⟨-, -, hattrs, hid, -⟩
    exact ⟨hid.symm, (hattrs "id").trans (by rw [hattr, if_pos rfl])⟩
  · rintro ⟨hid, hkey⟩
    refine ⟨rfl, rfl, fun key => ?_, hid.symm, List.forall₂_same.mpr fun c _ => c.same_refl⟩
    rw [hattr]
    split
    · next h => exact h ▸ hkey
    · rfl

end Node

end ParserKit
