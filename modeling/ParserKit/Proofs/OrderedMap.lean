import Mathlib.Data.List.Nodup
import Mathlib.Data.List.Perm.Subperm
import ParserKit.OrderedMap

/-!
# Look-up in ordered maps

* `OrderedMap.get?_insert`, `OrderedMap.contains_eq`, `OrderedMap.mem_entries_iff`: the entries of a
  map, by what is looked up in it.
* **`OrderedMap.perm_entries`**: maps with the same values have the same entries, in some order.
* **`OrderedMap.same_iff`**: equality of maps, by what is looked up in them.
-/

namespace ParserKit

namespace OrderedMap

variable {β : Type} {m m' : OrderedMap β} {name n : String} {value : β}

theorem lookup_entry_cons (k n : String) (v : β) (entries : List (String × β)) :
    ((k, v) :: entries).lookup n = if n = k then some v else entries.lookup n := by
  rw [List.lookup_cons]
  by_cases hn : n = k
  · simp [hn]
  · rw [beq_false_of_ne hn, if_neg hn]

theorem lookup_setEntry (entries : List (String × β)) :
    (setEntry name value entries).lookup n = if n = name then some value else entries.lookup n := by
  induction entries with
  | nil => exact lookup_entry_cons name n value []
  | cons entry entries ih =>
    obtain ⟨k, v⟩ := entry
    unfold setEntry
    split
    · next hk =>
      subst hk
      rw [lookup_entry_cons, lookup_entry_cons]
      split <;> rfl
    · next hk =>
      rw [lookup_entry_cons, lookup_entry_cons, ih]
      by_cases hn : n = k
      · subst hn
        simp [hk]
      · simp [hn]

theorem get?_insert (m : OrderedMap β) (name n : String) (value : β) :
    (m.insert name value).get? n = if n = name then some value else m.get? n :=
  lookup_setEntry m.entries

theorem contains_eq (m : OrderedMap β) (name : String) :
    m.contains name = (m.get? name).isSome := by
  unfold contains names get?
  induction m.entries with
  | nil => rfl
  | cons entry entries ih =>
    obtain ⟨k, v⟩ := entry
    rw [lookup_entry_cons, List.map_cons, List.contains_cons, ih]
    by_cases hk : name = k
    · simp [hk]
    · simp [hk]

theorem mem_entries_iff : (name, value) ∈ m.entries ↔ m.get? name = some value := by
  obtain ⟨entries, hnodup⟩ := m
  unfold get?
  dsimp only
  induction entries with
  | nil => simp
  | cons entry entries ih =>
    obtain ⟨k, v⟩ := entry
    rw [List.map_cons, List.nodup_cons] at hnodup
    rw [lookup_entry_cons, List.mem_cons, ih hnodup.2]
    by_cases hk : name = k
    · subst hk
      have hnone : entries.lookup name ≠ some value := fun h =>
        hnodup.1 (List.mem_map.mpr ⟨_, (ih hnodup.2).mpr h, rfl⟩)
      simp [hnone, eq_comm]
    · simp [hk]

/-- **Maps with the same values have the same entries**, in some order. -/
theorem perm_entries (h : ∀ name, m.get? name = m'.get? name) : m.entries.Perm m'.entries := by
  refine (List.perm_ext_iff_of_nodup (List.Nodup.of_map _ m.nodup)
    (List.Nodup.of_map _ m'.nodup)).mpr ?_
  rintro ⟨name, value⟩
  rw [mem_entries_iff, mem_entries_iff, h]

/-- **Maps are the same if every name has the same value in both.** -/
theorem same_iff [BEq β] [LawfulBEq β] :
    m.same m' = true ↔ ∀ name, m.get? name = m'.get? name := by
  simp only [same, Bool.and_eq_true, beq_iff_eq, List.all_eq_true]
  constructor
  · rintro ⟨hsize, hall⟩
    -- a map that has all entries of another one, and no more entries than that, has the same
    have hsub : m.entries ⊆ m'.entries := fun e he => mem_entries_iff.mpr (hall e he)
    have hperm : m.entries.Perm m'.entries :=
      ((List.Nodup.of_map _ m.nodup).subperm hsub).perm_of_length_le (Nat.le_of_eq hsize.symm)
    intro name
    refine Option.ext fun value => ?_
    rw [← mem_entries_iff, ← mem_entries_iff, hperm.mem_iff]
  · intro h
    exact ⟨(perm_entries h).length_eq, fun e he => by rw [← h, mem_entries_iff.mp he]⟩

end OrderedMap

end ParserKit
