import ParserKit.Json.Printer
import ParserKit.Json.Reader

/-!
# Reading what was written

* `readText_renderText`: a string in quotes is read as what it denotes, whatever its characters are.
* `readNumber_append`: a number ends before whatever may stand behind a value.
* `Json.Written`: a value whose numbers are written as such.
* **`Json.parse_render`**: the text of a value is read as that value.
-/

namespace ParserKit

/-! ## Strings -/

theorem hexUnit_hexDigit : ∀ n < 0x20,
    hexUnit '0' '0' (hexDigit (n / 16)) (hexDigit (n % 16)) = some n := by decide

theorem joinUnits_cons (c : Char) (units : List Nat) :
    joinUnits (c.toNat :: units) = (joinUnits units).map (c :: ·) := by
  have hvalid : c.toNat.isValidChar := c.valid
  have hunit : isHighUnit c.toNat = false ∧ isLowUnit c.toNat = false := by
    simp only [Nat.isValidChar] at hvalid
    simp only [isHighUnit, isLowUnit, Bool.and_eq_false_iff, decide_eq_false_iff_not]
    omega
  cases units <;> simp [joinUnits, hunit]

theorem joinUnits_map (s : List Char) : joinUnits (s.map Char.toNat) = some s := by
  induction s with
  | nil => rfl
  | cons c s ih => rw [List.map_cons, joinUnits_cons, ih, Option.map_some]

/-- The three ways in which a character is written inside a string. -/
theorem escapeJson_cases (c : Char) :
    (∃ d, unescapeJson d = some c ∧ escapeJson c = ['\\', d]) ∨
      (c.toNat < 0x20 ∧ escapeJson c =
        ['\\', 'u', '0', '0', hexDigit (c.toNat / 16), hexDigit (c.toNat % 16)]) ∨
      (c ≠ '"' ∧ c ≠ '\\' ∧ ¬ c.toNat < 0x20 ∧ escapeJson c = [c]) := by
  unfold escapeJson
  split
  · next h => exact .inl ⟨'"', by rw [h]; rfl, rfl⟩
  split
  · next h => exact .inl ⟨'\\', by rw [h]; rfl, rfl⟩
  split
  · next h => exact .inl ⟨'n', by rw [h]; rfl, rfl⟩
  split
  · next h => exact .inl ⟨'r', by rw [h]; rfl, rfl⟩
  split
  · next h => exact .inl ⟨'t', by rw [h]; rfl, rfl⟩
  split
  · next h => exact .inl ⟨'b', by rw [h]; rfl, rfl⟩
  split
  · next h => exact .inl ⟨'f', by rw [h]; rfl, rfl⟩
  split
  · next h => exact .inr (.inl ⟨h, rfl⟩)
  · next hquote hslash _ _ _ _ _ hlow => exact .inr (.inr ⟨hquote, hslash, hlow, rfl⟩)

theorem readUnits_escapeJson (c : Char) (s : List Char) :
    readUnits (escapeJson c ++ s) = (readUnits s).map fun x => (c.toNat :: x.1, x.2) := by
  rw [Option.map_eq_bind]
  rcases escapeJson_cases c with ⟨d, hd, hc⟩ | ⟨hlow, hc⟩ | ⟨hquote, hslash, hlow, hc⟩
  · have hu : d ≠ 'u' := by
      rintro rfl
      cases hd
    rw [hc, List.cons_append, List.singleton_append, readUnits, hd]
    · rfl
    · rintro _ _ _ _ _ ⟨⟩
      exact absurd rfl hu
  · rw [hc]
    simp only [List.cons_append, List.nil_append, readUnits, hexUnit_hexDigit _ hlow]
    rfl
  · rw [hc, List.singleton_append, readUnits]
    · rw [if_neg (by simp [hlow, hslash])]
      rfl
    all_goals grind

/-- **A string is read as what it denotes.** -/
theorem readText_renderText (text : Option String) (s : List Char) :
    readText ((renderText text).tail ++ s) = some (text, s) := by
  cases text with
  | none => rfl
  | some text =>
    have hunits (cs : List Char) :
        readUnits (cs.flatMap escapeJson ++ '"' :: s) = some (cs.map Char.toNat, s) := by
      induction cs with
      | nil => rfl
      | cons c cs ih =>
        rw [List.flatMap_cons, List.append_assoc, readUnits_escapeJson, ih]
        rfl
    simp only [renderText, List.cons_append, List.tail_cons, List.append_assoc, List.nil_append]
    rw [readText, hunits, Option.map_some]
    dsimp only
    rw [joinUnits_map, Option.map_some, String.ofList_toList]

/-! ## Numbers -/

/-- What may stand behind a value. -/
inductive EndsValue : List Char → Prop
  | nil : EndsValue []
  | comma (s : List Char) : EndsValue (',' :: s)
  | bracket (s : List Char) : EndsValue (']' :: s)
  | brace (s : List Char) : EndsValue ('}' :: s)

/-- Reads the digits of a number after its sign, which is put in front of them. -/
def readUnsigned (minus s : List Char) : Option (String × List Char) := do
  let (whole, s) ← readWhole s
  let (fraction, s) ← readFraction s
  let (exponent, s) ← readExponent s
  some (String.ofList (minus ++ whole ++ fraction ++ exponent), s)

theorem readNumber_unsigned {c : Char} (hc : c ≠ '-') (s : List Char) :
    readNumber (c :: s) = readUnsigned [] (c :: s) := by
  unfold readNumber
  split
  next heq =>
  split at heq
  · next h => exact absurd (List.cons.inj h).1 hc
  · cases heq
    rfl

section Numbers

variable {t : List Char} (ht : EndsValue t)
include ht

theorem span_digits_append (s : List Char) :
    (s ++ t).takeWhile Char.isDigit = s.takeWhile Char.isDigit ∧
      (s ++ t).dropWhile Char.isDigit = s.dropWhile Char.isDigit ++ t := by
  induction s with
  | nil => cases ht <;> exact ⟨rfl, rfl⟩
  | cons c s ih => cases hc : c.isDigit <;> simp [hc, ih]

theorem readDigits_append (s : List Char) :
    readDigits (s ++ t) = (readDigits s).map fun x => (x.1, x.2 ++ t) := by
  unfold readDigits
  rw [(span_digits_append ht s).1, (span_digits_append ht s).2]
  split <;> rfl

theorem readWhole_append (s : List Char) :
    readWhole (s ++ t) = (readWhole s).map fun x => (x.1, x.2 ++ t) := by
  cases s with
  | nil => cases ht <;> rfl
  | cons c s =>
    by_cases hc : c = '0'
    · rw [hc]
      rfl
    · have h0 (u : List Char) : readWhole (c :: u) = readDigits (c :: u) :=
        readWhole.eq_2 _ fun _ h => hc (List.cons.inj h).1
      rw [List.cons_append, h0, h0, ← List.cons_append, readDigits_append ht]

theorem readFraction_append (s : List Char) :
    readFraction (s ++ t) = (readFraction s).map fun x => (x.1, x.2 ++ t) := by
  cases s with
  | nil => cases ht <;> rfl
  | cons c s =>
    by_cases hc : c = '.'
    · rw [hc, List.cons_append, readFraction, readFraction, readDigits_append ht, Option.map_map,
        Option.map_map]
      rfl
    · have h0 (u : List Char) : readFraction (c :: u) = some ([], c :: u) :=
        readFraction.eq_2 _ fun _ h => hc (List.cons.inj h).1
      rw [List.cons_append, h0, h0]
      rfl

theorem readSign_append (s : List Char) :
    readSign (s ++ t) = ((readSign s).1, (readSign s).2 ++ t) := by
  cases s with
  | nil => cases ht <;> rfl
  | cons c s =>
    by_cases hplus : c = '+'
    · rw [hplus]
      rfl
    by_cases hminus : c = '-'
    · rw [hminus]
      rfl
    have h0 (u : List Char) : readSign (c :: u) = ([], c :: u) :=
      readSign.eq_3 _ (fun _ h => hplus (List.cons.inj h).1) fun _ h => hminus (List.cons.inj h).1
    rw [List.cons_append, h0, h0]
    rfl

theorem readExponent_append (s : List Char) :
    readExponent (s ++ t) = (readExponent s).map fun x => (x.1, x.2 ++ t) := by
  cases s with
  | nil => cases ht <;> rfl
  | cons c s =>
    rw [List.cons_append, readExponent, readExponent]
    split
    · rw [readSign_append ht]
      dsimp only
      rw [readDigits_append ht, Option.map_map, Option.map_map]
      rfl
    · rfl

theorem readUnsigned_append (minus s : List Char) :
    readUnsigned minus (s ++ t) = (readUnsigned minus s).map fun x => (x.1, x.2 ++ t) := by
  unfold readUnsigned
  rw [readWhole_append ht]
  cases readWhole s with
  | none => rfl
  | some x =>
    simp only [Option.map_some, Option.bind_eq_bind, Option.bind_some, readFraction_append ht]
    cases readFraction x.2 with
    | none => rfl
    | some y =>
      simp only [Option.map_some, Option.bind_some, readExponent_append ht]
      cases readExponent y.2 <;> rfl

/-- **A number ends before whatever may stand behind a value.** -/
theorem readNumber_append (s : List Char) :
    readNumber (s ++ t) = (readNumber s).map fun x => (x.1, x.2 ++ t) := by
  cases s with
  | nil => cases ht <;> rfl
  | cons c s =>
    by_cases hc : c = '-'
    · rw [hc]
      exact readUnsigned_append ht ['-'] s
    · rw [List.cons_append, readNumber_unsigned hc, readNumber_unsigned hc]
      exact readUnsigned_append ht [] (c :: s)

end Numbers

/-! ## Values -/

/-- A value whose numbers are written as such. -/
inductive Json.Written : Json → Prop
  | null : Written .null
  | bool (value : Bool) : Written (.bool value)
  | number {literal : String} (h : readNumber literal.toList = some (literal, [])) :
    Written (.number literal)
  | string (text : Option String) : Written (.string text)
  | array {items : List Json} (h : ∀ item ∈ items, Written item) : Written (.array items)
  | object {fields : List (Option String × Json)} (h : ∀ f ∈ fields, Written f.2) :
    Written (.object fields)

/-- The characters with which a number begins. -/
def BeginsNumber (c : Char) : Prop := c = '-' ∨ c.isDigit = true

theorem BeginsNumber.ne {c d : Char} (hc : BeginsNumber c) (hd : ¬ BeginsNumber d) : c ≠ d := by
  rintro rfl
  exact hd hc

instance (c : Char) : Decidable (BeginsNumber c) := inferInstanceAs (Decidable (_ ∨ _))

theorem BeginsNumber.not_blank {c : Char} (hc : BeginsNumber c) : isJsonBlank c = false := by
  simp only [isJsonBlank, Bool.or_eq_false_iff, beq_eq_false_iff_ne]
  exact ⟨⟨⟨hc.ne (by decide), hc.ne (by decide)⟩, hc.ne (by decide)⟩, hc.ne (by decide)⟩

theorem beginsNumber_of_readNumber {s : List Char} {x : String × List Char}
    (h : readNumber s = some x) : ∃ c u, s = c :: u ∧ BeginsNumber c := by
  cases s with
  | nil => cases h
  | cons c u =>
    refine ⟨c, u, rfl, ?_⟩
    by_cases hc : c = '-'
    · exact .inl hc
    · cases hdigit : c.isDigit with
      | true => exact .inr hdigit
      | false =>
        have hwhole : readWhole (c :: u) = none := by
          rw [readWhole.eq_2]
          · simp [readDigits, hdigit]
          · rintro _ ⟨⟩
            cases hdigit
        rw [readNumber_unsigned hc, readUnsigned, hwhole] at h
        cases h

theorem skipJsonBlanks_cons {c : Char} (hc : isJsonBlank c = false) (s : List Char) :
    skipJsonBlanks (c :: s) = c :: s := by
  rw [skipJsonBlanks, List.dropWhile_cons, hc]
  rfl

theorem readValue_number {c : Char} (hc : BeginsNumber c) (n : Nat) (s : List Char) :
    readValue (n + 1) (c :: s) = (readNumber (c :: s)).map fun x => (.number x.1, x.2) := by
  rw [readValue, skipJsonBlanks_cons hc.not_blank]
  split
  case h_7 => rfl
  all_goals next h => exact absurd (List.cons.inj h).1 (hc.ne (by decide))

theorem readValue_array {s : List Char} (hs : ∀ u, skipJsonBlanks s ≠ ']' :: u) (n : Nat) :
    readValue (n + 1) ('[' :: s) = (readItems n s).map fun x => (.array x.1, x.2) := by
  rw [readValue, skipJsonBlanks_cons (by decide)]
  split
  case h_5 h =>
    cases h
    split
    · next u h => exact absurd h (hs u)
    · rfl
  case h_7 hother _ => exact (hother s rfl).elim
  all_goals next h => exact absurd (List.cons.inj h).1 (by decide)

theorem readValue_object {s : List Char} (hs : ∀ u, skipJsonBlanks s ≠ '}' :: u) (n : Nat) :
    readValue (n + 1) ('{' :: s) = (readFields n s).map fun x => (.object x.1, x.2) := by
  rw [readValue, skipJsonBlanks_cons (by decide)]
  split
  case h_6 h =>
    cases h
    split
    · next u h => exact absurd h (hs u)
    · rfl
  case h_7 hother => exact (hother s rfl).elim
  all_goals next h => exact absurd (List.cons.inj h).1 (by decide)

namespace Json

theorem Written.render_eq {j : Json} (h : j.Written) :
    ∃ c s, j.render = c :: s ∧ isJsonBlank c = false ∧ c ≠ ']' := by
  cases h with
  | null => exact ⟨_, _, render.eq_1, rfl, by decide⟩
  | bool value => cases value <;> exact ⟨_, _, by rw [render], rfl, by decide⟩
  | number h =>
    obtain ⟨c, s, hs, hc⟩ := beginsNumber_of_readNumber h
    exact ⟨c, s, by rw [render, hs], hc.not_blank, hc.ne (by decide)⟩
  | string text => cases text <;> exact ⟨_, _, by rw [render]; rfl, rfl, by decide⟩
  | @array items _ =>
    cases items with
    | nil => exact ⟨_, _, by rw [render], rfl, by decide⟩
    | cons item items => exact ⟨_, _, by rw [render]; rfl, rfl, by decide⟩
  | @object fields _ =>
    cases fields with
    | nil => exact ⟨_, _, by rw [render], rfl, by decide⟩
    | cons f fields => exact ⟨_, _, by rw [render]; rfl, rfl, by decide⟩

theorem renderText_eq (text : Option String) : renderText text = '"' :: (renderText text).tail := by
  cases text <;> rfl

theorem endsValue_renderItems (items : List Json) (t : List Char) :
    EndsValue (renderItems items ++ t) := by
  cases items with
  | nil =>
    rw [renderItems]
    exact .bracket t
  | cons item items =>
    rw [renderItems]
    exact .comma _

theorem endsValue_renderFields (fields : List (Option String × Json)) (t : List Char) :
    EndsValue (renderFields fields ++ t) := by
  cases fields with
  | nil =>
    rw [renderFields]
    exact .brace t
  | cons f fields =>
    rw [renderFields]
    exact .comma _

/-- The texts that are read back within a given depth: those of values, of the items of arrays, and
of the fields of objects, if the depth is no less than their length. -/
structure ReadsBack (n : Nat) : Prop where
  value : ∀ {j : Json}, j.Written → j.render.length ≤ n → ∀ {t}, EndsValue t →
    readValue n (j.render ++ t) = some (j, t)
  items : ∀ {item : Json} {items : List Json}, (∀ i ∈ item :: items, i.Written) →
    (item.render ++ renderItems items).length ≤ n → ∀ t,
      readItems n (item.render ++ renderItems items ++ t) = some (item :: items, t)
  fields : ∀ {f : Option String × Json} {fields : List (Option String × Json)},
    (∀ g ∈ f :: fields, g.2.Written) →
    (renderText f.1 ++ ':' :: f.2.render ++ renderFields fields).length ≤ n → ∀ t,
      readFields n (renderText f.1 ++ ':' :: f.2.render ++ renderFields fields ++ t) =
        some (f :: fields, t)

namespace ReadsBack

variable {n : Nat} (h : ReadsBack n)
include h

theorem value_succ {j : Json} (hj : j.Written) (hn : j.render.length ≤ n + 1) {t : List Char}
    (ht : EndsValue t) : readValue (n + 1) (j.render ++ t) = some (j, t) := by
  cases hj with
  | null =>
    rw [render]
    rfl
  | bool value => cases value <;> rw [render] <;> rfl
  | @number literal hl =>
    obtain ⟨c, s, hs, hc⟩ := beginsNumber_of_readNumber hl
    rw [render]
    rw [hs] at hl ⊢
    rw [List.cons_append, readValue_number hc, ← List.cons_append, readNumber_append ht, hl]
    rfl
  | string text =>
    rw [render, renderText_eq]
    change (readText ((renderText text).tail ++ t)).map _ = _
    rw [readText_renderText]
    rfl
  | @array items hitems =>
    cases items with
    | nil =>
      rw [render]
      rfl
    | cons item items =>
      obtain ⟨c, s, hs, hc, hclose⟩ := (hitems item List.mem_cons_self).render_eq
      rw [render, List.cons_append] at hn ⊢
      rw [List.cons_append, readValue_array, h.items hitems (Nat.le_of_succ_le_succ hn)]
      · rfl
      · rw [hs, List.cons_append, List.cons_append, skipJsonBlanks_cons hc]
        rintro u ⟨⟩
        exact hclose rfl
  | @object fields hfields =>
    cases fields with
    | nil =>
      rw [render]
      rfl
    | cons f fields =>
      rw [render] at hn ⊢
      simp only [List.cons_append] at hn ⊢
      rw [readValue_object, h.fields hfields (Nat.le_of_succ_le_succ hn)]
      · rfl
      · rw [renderText_eq, List.cons_append, List.cons_append, List.cons_append,
          skipJsonBlanks_cons rfl]
        rintro u ⟨⟩

theorem items_succ {item : Json} {items : List Json} (hitems : ∀ i ∈ item :: items, i.Written)
    (hn : (item.render ++ renderItems items).length ≤ n + 1) (t : List Char) :
    readItems (n + 1) (item.render ++ renderItems items ++ t) = some (item :: items, t) := by
  have hitem := hitems item List.mem_cons_self
  rw [List.length_append] at hn
  cases items with
  | nil =>
    rw [renderItems, List.length_singleton] at hn
    rw [readItems, List.append_assoc, h.value hitem (by omega) (endsValue_renderItems [] t),
      renderItems]
    rfl
  | cons next items =>
    rw [renderItems, List.cons_append, List.length_cons] at hn
    rw [readItems, List.append_assoc,
      h.value hitem (by omega) (endsValue_renderItems (next :: items) t), renderItems]
    change (readItems n (next.render ++ renderItems items ++ t)).bind _ = _
    rw [h.items (fun i hi => hitems i (List.mem_cons_of_mem _ hi)) (by omega)]
    rfl

theorem fields_succ {f : Option String × Json} {fields : List (Option String × Json)}
    (hfields : ∀ g ∈ f :: fields, g.2.Written)
    (hn : (renderText f.1 ++ ':' :: f.2.render ++ renderFields fields).length ≤ n + 1)
    (t : List Char) :
    readFields (n + 1) (renderText f.1 ++ ':' :: f.2.render ++ renderFields fields ++ t) =
      some (f :: fields, t) := by
  obtain ⟨name, value⟩ := f
  dsimp only at hn ⊢
  have hvalue : value.Written := hfields (name, value) List.mem_cons_self
  have hlen : value.render.length + (renderFields fields).length ≤ n := by
    rw [renderText_eq] at hn
    simp only [List.length_append, List.length_cons] at hn
    omega
  rw [List.append_assoc, List.append_assoc, renderText_eq, List.cons_append, List.cons_append]
  change (readText ((renderText name).tail ++ _)).bind _ = _
  rw [readText_renderText]
  change (readValue n (value.render ++ (renderFields fields ++ t))).bind _ = _
  rw [h.value hvalue (by omega) (endsValue_renderFields fields t)]
  cases fields with
  | nil =>
    rw [renderFields]
    rfl
  | cons next fields =>
    obtain ⟨name', value'⟩ := next
    rw [renderFields, List.cons_append, List.cons_append, List.length_cons] at hlen
    have hrest := h.fields (f := (name', value'))
      (fun g hg => hfields g (List.mem_cons_of_mem _ hg)) (by dsimp only; omega) t
    rw [renderFields]
    change (readFields n
      (renderText name' ++ ':' :: value'.render ++ renderFields fields ++ t)).bind _ = _
    rw [hrest]
    rfl

theorem succ : ReadsBack (n + 1) where
  value hj hn _ ht := h.value_succ hj hn ht
  items := h.items_succ
  fields := h.fields_succ

end ReadsBack

theorem readsBack (n : Nat) : ReadsBack n := by
  induction n with
  | zero =>
    -- no text is empty
    refine ⟨fun hj hn => ?_, fun hitems hn => ?_, fun hfields hn => ?_⟩
    · obtain ⟨c, s, hs, -⟩ := hj.render_eq
      simp [hs] at hn
    · obtain ⟨c, s, hs, -⟩ := (hitems _ List.mem_cons_self).render_eq
      simp [hs] at hn
    · simp at hn
  | succ n ih => exact ih.succ

/-- **The text of a value is read as that value.** -/
theorem parse_render {j : Json} (hj : j.Written) : parse (String.ofList j.render) = some j := by
  have hread := (readsBack (2 * j.render.length + 2)).value hj (by omega) EndsValue.nil
  rw [List.append_nil] at hread
  simp only [parse, String.toList_ofList, hread]
  rfl

end Json

end ParserKit
