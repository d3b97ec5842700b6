import ParserKit.Lexer.Tokenizer

/-!
# The tokens that a tokenizer still has to give

* `Rules.tokensFrom`: the tokens that scans yield one after the other, from a cursor on.
* **`Tokenizer.rest`**: all tokens to come. At a gap of the source a scan ends, and the next request
  starts a new one; the tokens after the gap are among those to come.
* `Tokenizer.rest_prepare`, `Tokenizer.rest_next`: requests take tokens from the front of it.
-/

namespace ParserKit

/-! ## Reads that yield nothing -/

theorem Source.size_next_of_none {s s' : Source} (hm : s.hasMore) (h : s.next = (none, s')) :
    s'.size < s.size := by
  rcases s with ⟨⟨_ | _, _⟩⟩ | ⟨_, _ | ⟨_ | _, _⟩⟩ | ⟨_ | ⟨_ | _, _⟩, _, _⟩ <;>
    simp [next, hasMore, Reader.next, Reader.hasMore] at h hm
  simp [← h, size]

theorem Source.pull_eq_self {n : Nat} {s : Source} (hr : (s.pull n).1 = [])
    (hs : s.size ≤ (s.pull n).2.size) : s.pull n = ([], s) := by
  cases n with
  | zero => rfl
  | succ n =>
    unfold pull at hr hs ⊢
    by_cases hm : s.hasMore
    · rw [if_pos hm] at hr hs ⊢
      rcases hn : s.next with ⟨_ | c, s'⟩
      · rw [hn] at hs
        exact absurd (size_next_of_none hm hn) (Nat.not_lt.mpr hs)
      · rw [hn] at hr
        exact absurd hr (by simp)
    · rw [if_neg hm]

theorem Cursor.fill_eq_self {c : Cursor} (hw : c.fill.window = []) (hs : c.size ≤ c.fill.size) :
    c.fill = c := by
  rw [fill_eq] at hw hs ⊢
  generalize c.capacity - c.window.length = n at hw hs ⊢
  obtain ⟨hc, hr⟩ := List.append_eq_nil_iff.mp hw
  simp only [size, hc, hr, List.append_nil, List.length_nil, Nat.zero_add] at hs
  rw [Source.pull_eq_self hr hs]
  simp only [List.append_nil]

namespace Rules

variable (r : Rules)

/-! ## Scans that make no progress -/

theorem size_scan_le (s : Scan) : (r.scan s).cursor.size ≤ s.cursor.size := by
  fun_induction scan r s with
  | case1 => exact Nat.le_refl _
  | case2 s _ filled => rw [cursor_flush]; exact s.cursor.size_fill_le
  | case3 s _ filled => exact s.cursor.size_fill_le
  | case4 s _ filled _ hlt ih => exact Nat.le_trans ih (Nat.le_of_lt hlt)

theorem scan_eq_self {c : Cursor} (h : c.size ≤ (r.scan ⟨c, .normal, [], []⟩).cursor.size) :
    r.scan ⟨c, .normal, [], []⟩ = ⟨c, .normal, [], []⟩ := by
  rw [scan, if_neg (by simp)] at h ⊢
  by_cases hw : c.fill.window = []
  · simp only [hw, dite_true, flush, List.isEmpty_nil, if_true] at h ⊢
    rw [Cursor.fill_eq_self hw h]
  · simp only [hw, dite_false] at h
    refine absurd (Nat.lt_of_lt_of_le ?_ h) (Nat.lt_irrefl _)
    refine Nat.lt_of_le_of_lt (r.size_scan_le _) (Nat.lt_of_lt_of_le ?_ c.size_fill_le)
    exact (r.advances_step ⟨c.fill, .normal, [], []⟩).size_lt hw

/-! ## The tokens of scan after scan -/

/-- The tokens that scans yield from a cursor on, until one gets nowhere. -/
def tokensFrom (c : Cursor) : List Token :=
  let s := r.scan ⟨c, .normal, [], []⟩
  if s.cursor.size < c.size then s.queue ++ tokensFrom s.cursor else s.queue
termination_by c.size

theorem tokensFrom_eq (c : Cursor) :
    r.tokensFrom c = (r.scan ⟨c, .normal, [], []⟩).queue ++
      r.tokensFrom (r.scan ⟨c, .normal, [], []⟩).cursor := by
  by_cases h : (r.scan ⟨c, .normal, [], []⟩).cursor.size < c.size
  · conv => lhs; rw [tokensFrom]
    exact if_pos h
  · rw [r.scan_eq_self (Nat.not_lt.mp h), List.nil_append]

end Rules

namespace Tokenizer

/-- **All tokens to come**: those that are complete, and those of the scans to come. -/
def rest (t : Tokenizer) : List Token := t.queue ++ t.rules.tokensFrom t.cursor

theorem rest_prepare (t : Tokenizer) : t.prepare.rest = t.rest := by
  cases hq : t.queue with
  | nil =>
    simp only [prepare, hq, rest, List.nil_append]
    exact (t.rules.tokensFrom_eq t.cursor).symm
  | cons token queue => simp only [prepare, hq]

theorem rest_hasMore (t : Tokenizer) : t.hasMore.2.rest = t.rest := t.rest_prepare

theorem rest_next (t : Tokenizer) : t.next.1.toList ++ t.next.2.rest = t.rest := by
  rw [← t.rest_prepare]
  cases hq : t.prepare.queue with
  | nil => simp only [next, hq, Option.toList_none, List.nil_append]
  | cons token queue =>
    simp only [next, hq, rest, Option.toList_some, List.cons_append, List.nil_append]

end Tokenizer

end ParserKit
