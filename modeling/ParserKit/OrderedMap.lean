/-!
# Maps in insertion order

* **`OrderedMap`**: a finite map from names to values which keeps the order of insertion. No name
  occurs twice; this is part of the type.
* `OrderedMap.get?`, `OrderedMap.insert`, `OrderedMap.erase`: look-up and change. A new value for a
  name that is present takes the place of the old one.
* `OrderedMap.same`: equality as maps, without regard to order.
-/

namespace ParserKit

variable {β : Type}

/-! ## Lists of entries -/

/-- Sets the value of a name in a list of entries, at its old place or at the end. -/
def setEntry (name : String) (value : β) : List (String × β) → List (String × β)
  | [] => [(name, value)]
  | (n, v) :: rest =>
    if n = name then (n, value) :: rest else (n, v) :: setEntry name value rest

theorem mem_names_setEntry {name n : String} {value : β} {entries : List (String × β)} :
    n ∈ (setEntry name value entries).map Prod.fst ↔ n = name ∨ n ∈ entries.map Prod.fst := by
  induction entries with
  | nil => simp [setEntry]
  | cons e rest ih =>
    obtain ⟨m, v⟩ := e
    unfold setEntry
    split
    · next h => subst h; simp
    · simp only [List.map_cons, List.mem_cons, ih]
      constructor
      · rintro (h | h | h)
        · exact .inr (.inl h)
        · exact .inl h
        · exact .inr (.inr h)
      · rintro (h | h | h)
        · exact .inr (.inl h)
        · exact .inl h
        · exact .inr (.inr h)

theorem nodup_setEntry {name : String} {value : β} {entries : List (String × β)}
    (h : (entries.map Prod.fst).Nodup) : ((setEntry name value entries).map Prod.fst).Nodup := by
  induction entries with
  | nil => simp [setEntry]
  | cons e rest ih =>
    obtain ⟨m, v⟩ := e
    simp only [List.map_cons, List.nodup_cons] at h
    unfold setEntry
    split
    · simpa using h
    · next hne =>
      simp only [List.map_cons, List.nodup_cons, mem_names_setEntry]
      exact ⟨fun hm => hm.elim hne h.1, ih h.2⟩

/-! ## Maps -/

/-- A finite map from names to values in insertion order. -/
structure OrderedMap (β : Type) where
  entries : List (String × β)
  nodup : (entries.map Prod.fst).Nodup

namespace OrderedMap

def empty : OrderedMap β := ⟨[], List.Pairwise.nil⟩

instance : Inhabited (OrderedMap β) := ⟨empty⟩

def names (m : OrderedMap β) : List String := m.entries.map Prod.fst

def values (m : OrderedMap β) : List β := m.entries.map Prod.snd

def get? (m : OrderedMap β) (name : String) : Option β := m.entries.lookup name

def contains (m : OrderedMap β) (name : String) : Bool := m.names.contains name

/-- Sets the value of a name, at its old place or at the end. -/
def insert (m : OrderedMap β) (name : String) (value : β) : OrderedMap β :=
  ⟨setEntry name value m.entries, nodup_setEntry m.nodup⟩

/-- Removes a name; the others keep their order. -/
def erase (m : OrderedMap β) (name : String) : OrderedMap β :=
  ⟨m.entries.filter fun e => e.1 != name,
    m.nodup.sublist (List.filter_sublist.map Prod.fst)⟩

def size (m : OrderedMap β) : Nat := m.entries.length

def same [BEq β] (m n : OrderedMap β) : Bool :=
  m.size == n.size && m.entries.all fun e => n.get? e.1 == some e.2

end OrderedMap

end ParserKit
