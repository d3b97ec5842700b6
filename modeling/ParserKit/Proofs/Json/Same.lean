import Mathlib.Data.List.Forall2
import ParserKit.Json.Basic

/-!
# Documents up to the order of fields

* `Json.filter_eq_lookup`: in an object where no name occurs twice, the values of a name are what
  is looked up.
* **`Json.Same`**: documents that differ in the order of fields only.
* `Json.same_ofText_iff`, `Json.same_array_iff`, `Json.same_object_iff`: what it says of each shape
  of a document.
* **`Json.same_ofFields_iff`**: objects are compared by looking up each name.
-/

namespace ParserKit

namespace Json

/-! ## The values of a name -/

variable {given : List (String × Json)} {name : String}

theorem valuesOf_map (name : String) (fields : List (String × Json)) :
    valuesOf name (fields.map fun f => (some f.1, f.2)) =
      (fields.filter fun f => f.1 == name).map Prod.snd := by
  rw [valuesOf, List.filter_map, List.map_map]
  rfl

theorem filter_eq_lookup (hnodup : (given.map Prod.fst).Nodup) :
    (given.filter fun f => f.1 == name).map Prod.snd = (given.lookup name).toList := by
  induction given with
  | nil => rfl
  | cons f given ih =>
    rw [List.map_cons, List.nodup_cons] at hnodup
    rw [List.filter_cons, List.lookup_cons]
    by_cases hf : f.1 = name
    · subst hf
      have hnone : given.lookup f.1 = none :=
        List.lookup_eq_none_iff.mpr fun g hg =>
          bne_iff_ne.mpr fun heq => hnodup.1 (heq ▸ List.mem_map_of_mem hg)
      simp [ih hnodup.2, hnone]
    · rw [if_neg (by simpa using hf), beq_false_of_ne (Ne.symm hf)]
      exact ih hnodup.2

/-! ## Documents that are the same -/

/-- **Documents are the same** if they differ in the order of fields only: each name has the same
values in both, in the same order. -/
inductive Same : Json → Json → Prop
  | null : Same .null .null
  | bool (value : Bool) : Same (.bool value) (.bool value)
  | number (literal : String) : Same (.number literal) (.number literal)
  | string (text : Option String) : Same (.string text) (.string text)
  | array {items items' : List Json} (h : List.Forall₂ Same items items') :
    Same (.array items) (.array items')
  | object {fields fields' : List (Option String × Json)}
    (h : ∀ name, List.Forall₂ Same ((fields.filter fun f => f.1 == name).map Prod.snd)
      ((fields'.filter fun f => f.1 == name).map Prod.snd)) :
    Same (.object fields) (.object fields')

theorem same_ofText_iff {s t : String} : (ofText s).Same (ofText t) ↔ s = t := by
  constructor
  · intro h
    cases h
    rfl
  · rintro rfl
    exact .string _

theorem same_array_iff {items items' : List Json} :
    (array items).Same (array items') ↔ List.Forall₂ Same items items' :=
  ⟨fun | .array h => h, .array⟩

theorem same_object_iff {fields fields' : List (Option String × Json)} :
    (object fields).Same (object fields') ↔
      ∀ name, List.Forall₂ Same ((fields.filter fun f => f.1 == name).map Prod.snd)
        ((fields'.filter fun f => f.1 == name).map Prod.snd) :=
  ⟨fun | .object h => h, .object⟩

theorem forall₂_toList_iff {R : Json → Json → Prop} {o o' : Option Json} :
    List.Forall₂ R o.toList o'.toList ↔ Option.Rel R o o' := by
  cases o <;> cases o' <;> simp

/-- **Objects are the same if each name has the same value in both**, where no name occurs twice. -/
theorem same_ofFields_iff {fields fields' : List (String × Json)}
    (h : (fields.map Prod.fst).Nodup) (h' : (fields'.map Prod.fst).Nodup) :
    (ofFields fields).Same (ofFields fields') ↔
      ∀ name, Option.Rel Same (fields.lookup name) (fields'.lookup name) := by
  have hvalues (name : String) (fields : List (String × Json)) (h : (fields.map Prod.fst).Nodup) :
      ((fields.map fun f => (some f.1, f.2)).filter fun f => f.1 == some name).map Prod.snd =
        (fields.lookup name).toList := (valuesOf_map name fields).trans (filter_eq_lookup h)
  have hnone (fields : List (String × Json)) :
      (fields.map fun f => (some f.1, f.2)).filter (fun f => f.1 == none) = [] := by
    rw [List.filter_eq_nil_iff, List.forall_mem_map]
    exact fun f _ => Bool.false_ne_true
  rw [ofFields, ofFields, same_object_iff]
  constructor
  · intro hall name
    rw [← forall₂_toList_iff, ← hvalues name fields h, ← hvalues name fields' h']
    exact hall (some name)
  · rintro hall (_ | name)
    · rw [hnone, hnone]
      exact .nil
    · rw [hvalues name fields h, hvalues name fields' h', forall₂_toList_iff]
      exact hall name

end Json

end ParserKit
