import ParserKit.Lexer.Scan

/-!
# The characters that lie ahead

* `locate_append`: the places of two texts in a row.
* `Source.ahead`: the characters that a source still has to give; `Source.Prompt`: a source without
  gaps.
* `Source.pull_append_ahead`, `Source.pull_of_prompt`: reading takes characters from the front.
* `Cursor.ahead`, **`Cursor.Moves.ahead_eq`**: so does a cursor that moves.
* **`Cursor.Shows`**: a cursor reads a text through a window of sufficient size. What its operations
  return is then a matter of the text alone (`Cursor.Shows.startsWith`, `Cursor.Shows.findMarker`,
  `Cursor.Shows.advance`, `Cursor.Shows.consume`).
-/

namespace ParserKit

/-! ## Located texts -/

@[simp] theorem Span.chars_nil : Span.chars [] = [] := rfl

@[simp] theorem Span.chars_cons (c : Located) (s : Span) : Span.chars (c :: s) = c.char :: s.chars := rfl

@[simp] theorem Span.chars_append (s t : Span) : Span.chars (s ++ t) = s.chars ++ t.chars :=
  List.map_append

@[simp] theorem Span.length_chars (s : Span) : s.chars.length = s.length := List.length_map _

theorem Span.chars_take (s : Span) (n : Nat) : Span.chars (s.take n) = s.chars.take n := List.map_take

@[simp] theorem chars_locate (p : Position) (text : List Char) : (locate p text).chars = text := by
  induction text generalizing p with
  | nil => rfl
  | cons c text ih => simp only [locate, Span.chars_cons, ih]

theorem locate_append (p : Position) (text more : List Char) :
    locate p (text ++ more) = locate p text ++ locate (p.advanceOver text) more := by
  induction text generalizing p with
  | nil => rfl
  | cons c text ih => exact congrArg (_ :: ·) (ih _)

def Marker.begins (m : Marker) (s : Span) : Bool := m.chars.isPrefixOf s.chars

@[simp] theorem Marker.length_chars (m : Marker) : m.chars.length = m.length := rfl

/-! ## Sources -/

theorem FileEntry.read_toUTF8 (text : String) : (FileEntry.bytes text.toUTF8).read = .ok text := by
  have h : String.fromUTF8? text.toUTF8 = some text := dif_pos text.isValidUTF8
  simp only [FileEntry.read, h]

namespace Source

/-- The characters that a source still has to give. The gaps of a feed take no place. -/
def ahead : Source → Span
  | .text r => locate r.position r.rest
  | .file _ (some r) => locate r.position r.rest
  | .file _ none => []
  | .feed arrivals p _ => locate p (arrivals.filterMap id)

theorem ahead_of_next_some {s s' : Source} {c : Char} (h : s.next = (some c, s')) :
    s.ahead = ⟨c, s.position⟩ :: s'.ahead := by
  rcases s with ⟨⟨_ | _, _⟩⟩ | ⟨_, _ | ⟨_ | _, _⟩⟩ | ⟨_ | ⟨_ | _, _⟩, _, _⟩ <;>
    simp [next, Reader.next] at h <;> obtain ⟨rfl, rfl⟩ := h <;> rfl

theorem ahead_of_next_none {s s' : Source} (h : s.next = (none, s')) : s'.ahead = s.ahead := by
  rcases s with ⟨⟨_ | _, _⟩⟩ | ⟨_, _ | ⟨_ | _, _⟩⟩ | ⟨_ | ⟨_ | _, _⟩, _, _⟩ <;>
    simp [next, Reader.next] at h <;> subst h <;> rfl

theorem pull_append_ahead (n : Nat) (s : Source) : (s.pull n).1 ++ (s.pull n).2.ahead = s.ahead := by
  induction n generalizing s with
  | zero => rfl
  | succ n ih =>
    unfold pull
    split
    · split
      · next c s' h => exact (congrArg (_ :: ·) (ih s')).trans (ahead_of_next_some h).symm
      · next h => exact ahead_of_next_none h
    · rfl

/-- A source that has no gaps. -/
def Prompt : Source → Prop
  | .feed arrivals _ _ => none ∉ arrivals
  | _ => True

variable {s : Source}

theorem hasMore_of_nil (h : s.Prompt) (ha : s.ahead = []) : s.hasMore = false := by
  rcases s with ⟨⟨_ | _, _⟩⟩ | ⟨_, _ | ⟨_ | _, _⟩⟩ | ⟨_ | ⟨_ | _, _⟩, _, _⟩ <;>
    simp_all [ahead, locate, hasMore, Reader.hasMore, Prompt]

theorem next_of_cons {a : Located} {rest : Span} (h : s.Prompt) (ha : s.ahead = a :: rest) :
    s.hasMore = true ∧ s.position = a.position ∧
      ∃ s', s.next = (some a.char, s') ∧ s'.ahead = rest ∧ s'.Prompt := by
  rcases s with ⟨⟨_ | ⟨c, cs⟩, p⟩⟩ | ⟨entry, _ | ⟨_ | ⟨c, cs⟩, p⟩⟩ |
    ⟨_ | ⟨_ | c, arrivals⟩, p, refusal⟩
  case text.cons | file.some.cons =>
    obtain ⟨rfl, rfl⟩ := List.cons.inj ha
    exact ⟨rfl, rfl, _, rfl, rfl, trivial⟩
  case feed.cons.some =>
    obtain ⟨rfl, rfl⟩ := List.cons.inj ha
    exact ⟨rfl, rfl, _, rfl, rfl, fun hm => h (List.mem_cons_of_mem _ hm)⟩
  case feed.cons.none => exact absurd List.mem_cons_self h
  all_goals cases ha

/-- **Reading takes characters from the front.** -/
theorem pull_of_prompt (n : Nat) (h : s.Prompt) :
    (s.pull n).1 = s.ahead.take n ∧ (s.pull n).2.ahead = s.ahead.drop n ∧ (s.pull n).2.Prompt := by
  induction n generalizing s with
  | zero => exact ⟨rfl, rfl, h⟩
  | succ n ih =>
    unfold pull
    cases ha : s.ahead with
    | nil =>
      rw [hasMore_of_nil h ha]
      exact ⟨rfl, ha, h⟩
    | cons a rest =>
      obtain ⟨hm, hpos, s', hn, ha', hp'⟩ := next_of_cons h ha
      obtain ⟨h₁, h₂, h₃⟩ := ih hp'
      simp only [hm, hn, if_true, h₁, ha', hpos]
      exact ⟨rfl, h₂.trans (by rw [ha']; rfl), h₃⟩

end Source

/-! ## Cursors -/

namespace Cursor

/-- The characters in view, and those that the source still has to give. -/
def ahead (c : Cursor) : Span := c.window ++ c.source.ahead

theorem ahead_fill (c : Cursor) : c.fill.ahead = c.ahead := by
  rw [fill_eq, ahead, List.append_assoc, Source.pull_append_ahead, ahead]

/-- **A move over characters takes them from the front.** -/
theorem Moves.ahead_eq {n : Nat} {c d : Cursor} (h : c.Moves n d) : d.ahead = c.ahead.drop n := by
  induction h with
  | refl => rfl
  | @fill n d _ ih => rw [ahead_fill, ih]
  | @take n d next window _ hw ih =>
    rw [← List.tail_drop, ← ih, ahead, ahead, hw, List.cons_append, List.tail_cons]

/-- **A cursor reads a text** through a window that shows `n` characters or more. -/
structure Shows (c : Cursor) (n : Nat) (text : Span) : Prop where
  prompt : c.source.Prompt
  room : n ≤ c.capacity
  text_eq : c.window ++ c.source.ahead = text

variable {c : Cursor} {n : Nat} {text : Span}

theorem shows_ofSource {s : Source} (h : s.Prompt) (n : Nat) : (ofSource s n).Shows n s.ahead :=
  ⟨h, Nat.le_max_right 1 n, List.nil_append _⟩

namespace Shows

variable (h : c.Shows n text)
include h

theorem fill : c.fill.Shows n text ∧ ∃ m, n ≤ m ∧ c.fill.window = text.take m := by
  have hroom := h.room
  obtain ⟨h₁, h₂, h₃⟩ := Source.pull_of_prompt (c.capacity - c.window.length) h.prompt
  rw [fill_eq, h₁]
  refine ⟨⟨h₃, h.room, ?_⟩, c.window.length + (c.capacity - c.window.length), by omega, ?_⟩
  · rw [h₂, List.append_assoc, List.take_append_drop]
    exact h.text_eq
  · rw [← h.text_eq, List.take_length_add_append]

theorem window_fill_eq_nil (hn : 0 < n) : c.fill.window = [] ↔ text = [] := by
  obtain ⟨-, m, hm, hw⟩ := h.fill
  rw [hw, List.take_eq_nil_iff]
  exact or_iff_right (by omega)

/-- **The window is large enough to tell whether a marker comes next.** -/
theorem startsWith (m : Marker) (hm : m.length ≤ n) :
    ∃ c', c.startsWith m.chars = (m.begins text, c') ∧ c'.Shows n text := by
  obtain ⟨hf, k, hk, hw⟩ := h.fill
  refine ⟨c.fill, Prod.ext ?_ rfl, hf⟩
  show m.chars.isPrefixOf c.fill.window.chars = m.begins text
  rw [hw, Bool.eq_iff_iff, Marker.begins, List.isPrefixOf_iff_prefix, List.isPrefixOf_iff_prefix,
    Span.chars_take, List.prefix_take_iff, Marker.length_chars]
  exact and_iff_left (Nat.le_trans hm hk)

theorem findMarker {α : Type} (marker : α → Marker) (as : List α)
    (hm : ∀ a ∈ as, (marker a).length ≤ n) :
    ∃ c', c.findMarker marker as = (as.find? fun a => (marker a).begins text, c') ∧
      c'.Shows n text := by
  induction as generalizing c with
  | nil => exact ⟨c, rfl, h⟩
  | cons a as ih =>
    obtain ⟨c', hs, hc'⟩ := h.startsWith (marker a) (hm a List.mem_cons_self)
    unfold Cursor.findMarker
    rw [List.find?_cons, hs]
    cases (marker a).begins text with
    | true => exact ⟨c', rfl, hc'⟩
    | false => exact ih hc' fun b hb => hm b (List.mem_cons_of_mem a hb)

theorem advance (hn : 0 < n) : ∃ c', c.advance = (text.head?, c') ∧ c'.Shows n text.tail := by
  obtain ⟨hf, m, hm, hw⟩ := h.fill
  obtain ⟨m, rfl⟩ : ∃ k, m = k + 1 := ⟨m - 1, by omega⟩
  unfold Cursor.advance
  cases text with
  | nil =>
    rw [List.take_nil] at hw
    exact ⟨c.fill, by simp only [hw, List.head?_nil], hf⟩
  | cons a rest =>
    rw [List.take_succ_cons] at hw
    have hrest : ({ c.fill with window := rest.take m } : Cursor).Shows n rest := by
      refine ⟨hf.prompt, hf.room, ?_⟩
      have ht := hf.text_eq
      rw [hw, List.cons_append] at ht
      exact (List.cons.inj ht).2
    exact ⟨_, by simp only [hw, List.head?_cons], hrest.fill.1⟩

theorem consume (k : Nat) (hn : 0 < n) :
    ∃ c', c.consume k = (text.take k, c') ∧ c'.Shows n (text.drop k) := by
  induction k generalizing c text with
  | zero => exact ⟨c, rfl, h⟩
  | succ k ih =>
    obtain ⟨c', ha, hc'⟩ := h.advance hn
    unfold Cursor.consume
    rw [ha]
    cases text with
    | nil => exact ⟨c', rfl, hc'⟩
    | cons a rest =>
      obtain ⟨c'', hk, hc''⟩ := ih hc'
      exact ⟨c'', by simp only [List.head?_cons, hk, List.tail_cons, List.take_succ_cons], hc''⟩

end Shows

end Cursor

end ParserKit
