import ParserKit.Pattern.Expr

/-!
# What an expression matches

An expression is searched for by residuals, one character at a time. Here it is said without any
search which parts of a text an expression matches, given the characters around the part, and the
search is shown to find exactly these.

* `Matching`: a condition on a part of a text and on the characters around it, with
  `Matching.andThen` and `Matching.times` for one after the other and for rounds.
* **`Expr.Matches`**: what an expression matches.
* `Expr.Bounded`: the expressions whose repetition counts are in order.
* `nullable_iff`, `exists_residual_iff`: an empty match, and a match that a character begins.
* **`occursIn_iff`**: the search finds a part of a text that matches if there is one.
-/

namespace ParserKit

/-! ## Places in a text -/

/-- The character after a place at which a text begins, where `z` stands behind the text. -/
def charAfter (w : List Char) (z : Option Char) : Option Char := w.head?.or z

/-- The character before a place at which a text ends, where `b` stands in front of the text. -/
def charBefore (b : Option Char) (w : List Char) : Option Char := w.foldl (fun _ c => some c) b

@[simp] theorem charAfter_nil (z : Option Char) : charAfter [] z = z := rfl

@[simp] theorem charAfter_cons (c : Char) (w : List Char) (z : Option Char) :
    charAfter (c :: w) z = some c := rfl

@[simp] theorem charAfter_append (u v : List Char) (z : Option Char) :
    charAfter (u ++ v) z = charAfter u (charAfter v z) := by
  simp only [charAfter, List.head?_append, Option.or_assoc]

@[simp] theorem charBefore_nil (b : Option Char) : charBefore b [] = b := rfl

@[simp] theorem charBefore_cons (b : Option Char) (c : Char) (w : List Char) :
    charBefore b (c :: w) = charBefore (some c) w := rfl

@[simp] theorem charBefore_append (b : Option Char) (u v : List Char) :
    charBefore b (u ++ v) = charBefore (charBefore b u) v := List.foldl_append

theorem charAfter_eq_none {w : List Char} {z : Option Char} (h : charAfter w z = none) :
    w = [] := by
  cases w with
  | nil => rfl
  | cons c w => cases h

theorem charBefore_eq_none {b : Option Char} {w : List Char} (h : charBefore b w = none) :
    w = [] := by
  induction w generalizing b with
  | nil => rfl
  | cons c w ih =>
    obtain rfl := ih h
    cases h

/-! ## Conditions on parts of a text -/

/-- A condition on a part of a text, given the characters before and after the part. -/
abbrev Matching := Option Char → List Char → Option Char → Prop

namespace Matching

/-- The empty text, wherever it stands. -/
def nothing : Matching := fun _ w _ => w = []

/-- A part that can be cut in two. -/
def andThen (M N : Matching) : Matching := fun b w z =>
  ∃ u v, w = u ++ v ∧ M b u (charAfter v z) ∧ N (charBefore b u) v z

/-- A number of rounds, one after the other. -/
def times (M : Matching) : Nat → Matching
  | 0 => nothing
  | n + 1 => M.andThen (M.times n)

theorem nothing_andThen (M : Matching) : nothing.andThen M = M := by
  funext b w z
  refine propext ⟨?_, fun h => ⟨[], w, rfl, rfl, h⟩⟩
  rintro ⟨u, v, rfl, rfl, h⟩
  exact h

theorem andThen_nothing (M : Matching) : M.andThen nothing = M := by
  funext b w z
  refine propext ⟨?_, fun h => ⟨w, [], (List.append_nil w).symm, h, rfl⟩⟩
  rintro ⟨u, v, rfl, h, rfl⟩
  rwa [List.append_nil]

theorem andThen_assoc (M N K : Matching) : (M.andThen N).andThen K = M.andThen (N.andThen K) := by
  funext b w z
  refine propext ⟨?_, ?_⟩
  · rintro ⟨_, v, rfl, ⟨u₁, u₂, rfl, hM, hN⟩, hK⟩
    exact ⟨u₁, u₂ ++ v, List.append_assoc .., by rwa [charAfter_append],
      u₂, v, rfl, hN, by rwa [charBefore_append] at hK⟩
  · rintro ⟨u, _, rfl, hM, v₁, v₂, rfl, hN, hK⟩
    exact ⟨u ++ v₁, v₂, (List.append_assoc ..).symm,
      ⟨u, v₁, rfl, by rwa [charAfter_append] at hM, hN⟩, by rwa [charBefore_append]⟩

theorem andThen_nil_iff {M N : Matching} {b z : Option Char} :
    M.andThen N b [] z ↔ M b [] z ∧ N b [] z := by
  refine ⟨?_, fun h => ⟨[], [], rfl, h.1, h.2⟩⟩
  rintro ⟨u, v, huv, hM, hN⟩
  obtain ⟨rfl, rfl⟩ := List.nil_eq_append_iff.mp huv
  exact ⟨hM, hN⟩

/-- What has to follow on a character that begins a part. -/
def behind (M : Matching) (b : Option Char) (c : Char) : Matching := fun _ w z => M b (c :: w) z

theorem andThen_cons_iff {M N : Matching} {b z : Option Char} {c : Char} {w : List Char} :
    M.andThen N b (c :: w) z ↔
      (M.behind b c).andThen N (some c) w z ∨ (M b [] (some c) ∧ N b (c :: w) z) := by
  constructor
  · rintro ⟨u, v, huv, hM, hN⟩
    cases u with
    | nil =>
      obtain rfl : c :: w = v := huv
      exact .inr ⟨hM, hN⟩
    | cons c' u =>
      obtain ⟨rfl, rfl⟩ := List.cons.inj huv
      exact .inl ⟨u, v, rfl, hM, hN⟩
  · rintro (⟨u, v, rfl, hM, hN⟩ | ⟨hM, hN⟩)
    · exact ⟨c :: u, v, rfl, hM, hN⟩
    · exact ⟨[], c :: w, rfl, hM, hN⟩

theorem times_nil_iff {M : Matching} {n : Nat} {b z : Option Char} :
    M.times n b [] z ↔ n = 0 ∨ M b [] z := by
  induction n with
  | zero => simp [times, nothing]
  | succ n ih =>
    rw [times, andThen_nil_iff, ih]
    constructor
    · exact fun h => .inr h.1
    · rintro (h | h)
      · exact absurd h n.succ_ne_zero
      · exact ⟨h, .inr h⟩

theorem times_add {M : Matching} {b z : Option Char} {c : Char} {w : List Char}
    (hM : M b [] (some c)) (i : Nat) {n : Nat} (h : M.times n b (c :: w) z) :
    M.times (i + n) b (c :: w) z := by
  induction i with
  | zero => rwa [Nat.zero_add]
  | succ i ih =>
    rw [Nat.succ_add]
    exact ⟨[], c :: w, rfl, hM, ih⟩

/-- Of the rounds that match a text, the first one that is not empty begins with the first character
of the text. All rounds before it are empty. -/
theorem times_cons {M : Matching} {n : Nat} {b z : Option Char} {c : Char} {w : List Char}
    (h : M.times n b (c :: w) z) :
    ∃ m < n, (m + 1 = n ∨ M b [] (some c)) ∧ (M.behind b c).andThen (M.times m) (some c) w z := by
  induction n with
  | zero => cases h
  | succ n ih =>
    rcases andThen_cons_iff.mp h with hfirst | ⟨hM, hN⟩
    · exact ⟨n, n.lt_succ_self, .inl rfl, hfirst⟩
    · obtain ⟨m, hm, -, hfirst⟩ := ih hN
      exact ⟨m, Nat.lt_succ_of_lt hm, .inr hM, hfirst⟩

/-- What has to follow on a character that begins two parts, when more is to come behind them. -/
theorem behind_andThen {M N K : Matching} {b z : Option Char} {c : Char} {w : List Char} :
    ((M.andThen N).behind b c).andThen K (some c) w z ↔
      (M.behind b c).andThen (N.andThen K) (some c) w z ∨
        (M b [] (some c) ∧ (N.behind b c).andThen K (some c) w z) := by
  rw [← andThen_assoc]
  constructor
  · rintro ⟨u, v, huv, hMN, hK⟩
    rcases andThen_cons_iff.mp hMN with h | ⟨hM, hN⟩
    · exact .inl ⟨u, v, huv, h, hK⟩
    · exact .inr ⟨hM, u, v, huv, hN, hK⟩
  · rintro (⟨u, v, huv, h, hK⟩ | ⟨hM, u, v, huv, hN, hK⟩)
    · exact ⟨u, v, huv, andThen_cons_iff.mpr (.inl h), hK⟩
    · exact ⟨u, v, huv, andThen_cons_iff.mpr (.inr ⟨hM, hN⟩), hK⟩

theorem or_andThen {M N K : Matching} {b z : Option Char} {w : List Char} :
    Matching.andThen (fun b w z => M b w z ∨ N b w z) K b w z ↔
      M.andThen K b w z ∨ N.andThen K b w z := by
  simp only [andThen, or_and_right, and_or_left, exists_or]

end Matching

namespace Expr

/-! ## Matches of an expression -/

/-- **What an expression matches.** -/
def Matches : Expr → Matching
  | empty => .nothing
  | set s => fun _ w _ => ∃ c, w = [c] ∧ s.mem c
  | look a => fun b w z => w = [] ∧ a.holds b z
  | concat e f => e.Matches.andThen f.Matches
  | either e f => fun b w z => e.Matches b w z ∨ f.Matches b w z
  | repeated least most e => fun b w z =>
    ∃ n, least ≤ n ∧ (∀ m ∈ most, n ≤ m) ∧ e.Matches.times n b w z

/-- What expressions match one after the other. -/
def MatchesAll (es : List Expr) : Matching := es.foldr (fun e M => e.Matches.andThen M) .nothing

@[simp] theorem matchesAll_nil : MatchesAll [] = .nothing := rfl

@[simp] theorem matchesAll_cons (e : Expr) (es : List Expr) :
    MatchesAll (e :: es) = e.Matches.andThen (MatchesAll es) := rfl

theorem matchesAll_append (es fs : List Expr) :
    MatchesAll (es ++ fs) = (MatchesAll es).andThen (MatchesAll fs) := by
  induction es with
  | nil => exact (Matching.nothing_andThen _).symm
  | cons e es ih =>
    rw [List.cons_append, matchesAll_cons, ih, matchesAll_cons, Matching.andThen_assoc]

theorem matchesAll_singleton (e : Expr) : MatchesAll [e] = e.Matches := Matching.andThen_nothing _

theorem matches_andThen (e f : Expr) : (e.andThen f).Matches = e.Matches.andThen f.Matches := by
  unfold andThen
  split
  · exact (Matching.nothing_andThen _).symm
  · exact (Matching.andThen_nothing _).symm
  · rfl

/-- Whether no repetition asks for more rounds than it allows. -/
def Bounded : Expr → Prop
  | concat e f | either e f => e.Bounded ∧ f.Bounded
  | repeated least most e => (∀ m ∈ most, least ≤ m) ∧ e.Bounded
  | _ => True

/-! ## One character at a time -/

/-- **The empty text is matched where `nullable` says so.** -/
theorem nullable_iff {e : Expr} (he : e.Bounded) {b z : Option Char} :
    e.nullable b z = true ↔ e.Matches b [] z := by
  induction e with
  | empty => simp [nullable, Matches, Matching.nothing]
  | set s => simp [nullable, Matches]
  | look a => simp [nullable, Matches]
  | concat e f ihe ihf =>
    rw [nullable, Bool.and_eq_true, ihe he.1, ihf he.2]
    exact Matching.andThen_nil_iff.symm
  | either e f ihe ihf =>
    rw [nullable, Bool.or_eq_true, ihe he.1, ihf he.2]
    exact Iff.rfl
  | repeated least most e ih =>
    rw [nullable, Bool.or_eq_true, beq_iff_eq, ih he.2]
    constructor
    · exact fun h => ⟨least, Nat.le_refl _, he.1, Matching.times_nil_iff.mpr h⟩
    · rintro ⟨n, hn, -, h⟩
      refine (Matching.times_nil_iff.mp h).imp_left fun h0 => ?_
      exact Nat.le_zero.mp (Nat.le_trans hn (Nat.le_of_eq h0))

/-- The rounds that may follow on the first one which is not empty. If a round can be empty where
this one begins, then there is no lower bound left. -/
theorem matchesAll_nextRounds {least : Nat} {most : Option Nat} {e : Expr} (isNullable : Bool)
    (hbound : ∀ m ∈ most, least ≤ m) (h0 : most ≠ some 0) {b z : Option Char} {w : List Char} :
    MatchesAll (nextRounds isNullable (repeated least most e)) b w z ↔
      ∃ m, (isNullable = true ∨ least ≤ m + 1) ∧ (∀ k ∈ most, m < k) ∧
        e.Matches.times m b w z := by
  rw [nextRounds]
  by_cases h1 : most = some 1
  · subst h1
    rw [if_pos rfl]
    simp only [Option.mem_some_iff, forall_eq', Nat.lt_one_iff] at hbound ⊢
    constructor
    · exact fun h => ⟨0, .inr hbound, rfl, h⟩
    · rintro ⟨m, -, rfl, h⟩
      exact h
  rw [if_neg h1]
  by_cases hall : least = 0 ∧ most = none
  · rw [if_pos hall, matchesAll_singleton]
    obtain ⟨rfl, rfl⟩ := hall
    simp [Matches]
  · rw [if_neg hall, matchesAll_singleton]
    refine exists_congr fun m => ?_
    have hleast :
        (if isNullable then 0 else least - 1) ≤ m ↔ isNullable = true ∨ least ≤ m + 1 := by
      cases isNullable <;> simp
    have hmost : (∀ k ∈ most.map (· - 1), m ≤ k) ↔ ∀ k ∈ most, m < k := by
      cases most with
      | none => simp
      | some k =>
        have : k ≠ 0 := fun h => h0 (h ▸ rfl)
        simp only [Option.map_some, Option.mem_some_iff, forall_eq']
        omega
    rw [hleast, hmost]

/-- A repetition matches a text that is not empty in a first round and in those that may follow. -/
theorem repeated_matches_cons {least : Nat} {most : Option Nat} {e : Expr}
    (he : (repeated least most e).Bounded) (h0 : most ≠ some 0) {b z : Option Char} {c : Char}
    {w : List Char} :
    (repeated least most e).Matches b (c :: w) z ↔
      (e.Matches.behind b c).andThen
        (MatchesAll (nextRounds (e.nullable b (some c)) (repeated least most e))) (some c) w z := by
  constructor
  · rintro ⟨n, hleast, hmost, h⟩
    obtain ⟨m, hmn, hempty, u, v, huv, hfirst, hrest⟩ := Matching.times_cons h
    refine ⟨u, v, huv, hfirst, (matchesAll_nextRounds _ he.1 h0).mpr ⟨m, ?_, ?_, hrest⟩⟩
    · refine hempty.symm.imp (nullable_iff he.2).mpr fun hm => ?_
      exact Nat.le_trans hleast (Nat.le_of_eq hm.symm)
    · exact fun k hk => Nat.lt_of_lt_of_le hmn (hmost k hk)
  · rintro ⟨u, v, huv, hfirst, hnext⟩
    obtain ⟨m, hm, hmost, hrest⟩ := (matchesAll_nextRounds _ he.1 h0).mp hnext
    have hrounds : e.Matches.times (m + 1) b (c :: w) z :=
      Matching.andThen_cons_iff.mpr (.inl ⟨u, v, huv, hfirst, hrest⟩)
    rcases hm with hnull | hleast
    · -- the rounds that are missing for the lower bound are empty ones in front
      refine ⟨least - (m + 1) + (m + 1), by omega, fun k hk => ?_,
        Matching.times_add ((nullable_iff he.2).mp hnull) _ hrounds⟩
      have := hmost k hk
      have := he.1 k hk
      omega
    · exact ⟨m + 1, hleast, fun k hk => hmost k hk, hrounds⟩

/-- **The residuals describe the matches that a character begins.** -/
theorem exists_residual_iff {e : Expr} (he : e.Bounded) {b z : Option Char} {c : Char}
    {rest : List Expr} {w : List Char} :
    (∃ s ∈ e.residuals b c rest, MatchesAll s (some c) w z) ↔
      (e.Matches.behind b c).andThen (MatchesAll rest) (some c) w z := by
  induction e generalizing rest w z with
  | empty => simp [residuals, Matches, Matching.andThen, Matching.behind, Matching.nothing]
  | look a => simp [residuals, Matches, Matching.andThen, Matching.behind]
  | set s =>
    have hset : (set s).Matches.behind b c = fun _ w _ => w = [] ∧ s.mem c = true := by
      funext _ w z
      refine propext ⟨?_, fun h => ⟨c, by rw [h.1], h.2⟩⟩
      rintro ⟨c', h, hs⟩
      obtain ⟨rfl, rfl⟩ := List.cons.inj h
      exact ⟨rfl, hs⟩
    rw [hset, residuals]
    constructor
    · rintro ⟨rest', hmem, h⟩
      split at hmem
      · obtain rfl := List.mem_singleton.mp hmem
        exact ⟨[], w, rfl, ⟨rfl, ‹_›⟩, h⟩
      · cases hmem
    · rintro ⟨u, v, rfl, ⟨rfl, hs⟩, h⟩
      exact ⟨rest, by rw [if_pos hs]; exact List.mem_singleton_self rest, h⟩
  | either e f ihe ihf =>
    simp only [residuals, List.mem_append, or_and_right, exists_or, ihe he.1, ihf he.2]
    exact Matching.or_andThen.symm
  | concat e f ihe ihf =>
    have hsecond : (∃ s ∈ if e.nullable b (some c) then f.residuals b c rest else [],
        MatchesAll s (some c) w z) ↔
          e.Matches b [] (some c) ∧
            (f.Matches.behind b c).andThen (MatchesAll rest) (some c) w z := by
      rw [← nullable_iff he.1, ← ihf he.2]
      by_cases hnull : e.nullable b (some c) = true <;> simp [hnull]
    simp only [residuals, List.mem_append, or_and_right, exists_or, ihe he.1, hsecond,
      matchesAll_cons]
    exact Matching.behind_andThen.symm
  | repeated least most e ih =>
    by_cases h0 : most = some 0
    · subst h0
      simp only [residuals, if_true, List.not_mem_nil, false_and, exists_false, false_iff]
      rintro ⟨u, v, -, ⟨n, -, hn, h⟩, -⟩
      obtain rfl := Nat.le_zero.mp (hn 0 rfl)
      cases h
    · rw [residuals, if_neg h0, ih he.2, matchesAll_append, ← Matching.andThen_assoc]
      simp only [Matching.andThen, Matching.behind, repeated_matches_cons he h0]

/-! ## Sequences of expressions -/

def AllBounded (es : List Expr) : Prop := ∀ e ∈ es, e.Bounded

theorem allBounded_cons {e : Expr} {es : List Expr} :
    AllBounded (e :: es) ↔ e.Bounded ∧ AllBounded es := List.forall_mem_cons

theorem allBounded_append {es fs : List Expr} :
    AllBounded (es ++ fs) ↔ AllBounded es ∧ AllBounded fs := List.forall_mem_append

theorem nullableAll_iff {es : List Expr} (hes : AllBounded es) {b z : Option Char} :
    nullableAll b z es = true ↔ MatchesAll es b [] z := by
  induction es with
  | nil => exact ⟨fun _ => rfl, fun _ => rfl⟩
  | cons e es ih =>
    obtain ⟨he, hes⟩ := allBounded_cons.mp hes
    rw [matchesAll_cons, Matching.andThen_nil_iff, ← nullable_iff he, ← ih hes]
    exact Bool.and_eq_true_iff

theorem exists_residualAll_iff {es : List Expr} (hes : AllBounded es) {b z : Option Char} {c : Char}
    {w : List Char} :
    (∃ s ∈ residualsAll b c es, MatchesAll s (some c) w z) ↔ MatchesAll es b (c :: w) z := by
  induction es with
  | nil => simp [residualsAll, Matching.nothing]
  | cons e es ih =>
    obtain ⟨he, hes⟩ := allBounded_cons.mp hes
    rw [matchesAll_cons, Matching.andThen_cons_iff, ← exists_residual_iff he, ← nullable_iff he,
      ← ih hes]
    by_cases hnull : e.nullable b (some c) = true <;>
      simp [residualsAll, hnull, or_and_right, exists_or]

theorem allBounded_nextRounds {least : Nat} {most : Option Nat} {e : Expr} (isNullable : Bool)
    (he : (repeated least most e).Bounded) :
    AllBounded (nextRounds isNullable (repeated least most e)) := by
  rw [nextRounds]
  split
  · exact List.forall_mem_nil _
  split
  · exact List.forall_mem_singleton.mpr he
  · refine List.forall_mem_singleton.mpr ⟨fun k hk => ?_, he.2⟩
    obtain ⟨m, hm, rfl⟩ := Option.map_eq_some_iff.mp hk
    have := he.1 m hm
    split <;> omega

theorem allBounded_of_mem_residuals {e : Expr} (he : e.Bounded) {b : Option Char} {c : Char}
    {rest : List Expr} (hrest : AllBounded rest) : ∀ s ∈ e.residuals b c rest, AllBounded s := by
  induction e generalizing rest with
  | empty => exact List.forall_mem_nil _
  | look a => exact List.forall_mem_nil _
  | set s =>
    rw [residuals]
    split
    · exact List.forall_mem_singleton.mpr hrest
    · exact List.forall_mem_nil _
  | either e f ihe ihf => exact List.forall_mem_append.mpr ⟨ihe he.1 hrest, ihf he.2 hrest⟩
  | concat e f ihe ihf =>
    refine List.forall_mem_append.mpr ⟨ihe he.1 (allBounded_cons.mpr ⟨he.2, hrest⟩), ?_⟩
    split
    · exact ihf he.2 hrest
    · exact List.forall_mem_nil _
  | repeated least most e ih =>
    rw [residuals]
    split
    · exact List.forall_mem_nil _
    · exact ih he.2 (allBounded_append.mpr ⟨allBounded_nextRounds _ he, hrest⟩)

theorem allBounded_of_mem_residualsAll {es : List Expr} (hes : AllBounded es) {b : Option Char}
    {c : Char} : ∀ s ∈ residualsAll b c es, AllBounded s := by
  induction es with
  | nil => exact List.forall_mem_nil _
  | cons e es ih =>
    obtain ⟨he, hes⟩ := allBounded_cons.mp hes
    refine List.forall_mem_append.mpr ⟨allBounded_of_mem_residuals he hes, ?_⟩
    split
    · exact ih hes
    · exact List.forall_mem_nil _

/-! ## The search -/

variable {e : Expr} {b : Option Char} {c : Char} {states : List (List Expr)} {text : List Char}

/-- Whether one of the states matches a beginning of a text. -/
def Continues (states : List (List Expr)) (b : Option Char) (text : List Char) : Prop :=
  ∃ s ∈ states, ∃ u v, text = u ++ v ∧ MatchesAll s b u (charAfter v none)

/-- Whether some part of a text matches. -/
def Occurs (e : Expr) (b : Option Char) (text : List Char) : Prop :=
  ∃ x u v, text = x ++ u ++ v ∧ e.Matches (charBefore b x) u (charAfter v none)

theorem any_nullableAll_iff (hstates : ∀ s ∈ states, AllBounded s) {z : Option Char} :
    states.any (nullableAll b z) = true ↔ ∃ s ∈ states, MatchesAll s b [] z := by
  rw [List.any_eq_true]
  exact exists_congr fun s => and_congr_right fun hs => nullableAll_iff (hstates s hs)

theorem continues_nil_iff : Continues states b [] ↔ ∃ s ∈ states, MatchesAll s b [] none := by
  refine exists_congr fun s => and_congr_right fun _ => ⟨?_, fun h => ⟨[], [], rfl, h⟩⟩
  rintro ⟨u, v, huv, h⟩
  obtain ⟨rfl, rfl⟩ := List.nil_eq_append_iff.mp huv
  exact h

theorem continues_cons_iff (hstates : ∀ s ∈ states, AllBounded s) :
    Continues states b (c :: text) ↔
      (∃ s ∈ states, MatchesAll s b [] (some c)) ∨
        Continues (states.flatMap (residualsAll b c)) (some c) text := by
  constructor
  · rintro ⟨s, hs, u, v, huv, h⟩
    cases u with
    | nil =>
      obtain rfl : c :: text = v := huv
      exact .inl ⟨s, hs, h⟩
    | cons c' u =>
      obtain ⟨rfl, rfl⟩ := List.cons.inj huv
      obtain ⟨s', hs', h'⟩ := (exists_residualAll_iff (hstates s hs)).mpr h
      exact .inr ⟨s', List.mem_flatMap.mpr ⟨s, hs, hs'⟩, u, v, rfl, h'⟩
  · rintro (⟨s, hs, h⟩ | ⟨s', hs', u, v, rfl, h⟩)
    · exact ⟨s, hs, [], c :: text, rfl, h⟩
    · obtain ⟨s, hs, hs'⟩ := List.mem_flatMap.mp hs'
      exact ⟨s, hs, c :: u, v, rfl, (exists_residualAll_iff (hstates s hs)).mp ⟨s', hs', h⟩⟩

theorem occurs_cons_iff :
    Occurs e b (c :: text) ↔ Continues [[e]] b (c :: text) ∨ Occurs e (some c) text := by
  simp only [Continues, List.mem_singleton, exists_eq_left, matchesAll_singleton]
  constructor
  · rintro ⟨x, u, v, hxuv, h⟩
    cases x with
    | nil => exact .inl ⟨u, v, hxuv, h⟩
    | cons c' x =>
      obtain ⟨rfl, rfl⟩ := List.cons.inj hxuv
      exact .inr ⟨x, u, v, rfl, h⟩
  · rintro (⟨u, v, huv, h⟩ | ⟨x, u, v, rfl, h⟩)
    · exact ⟨[], u, v, huv, h⟩
    · exact ⟨c :: x, u, v, rfl, h⟩

theorem occurs_nil_iff : Occurs e b [] ↔ Continues [[e]] b [] := by
  simp only [Continues, List.mem_singleton, exists_eq_left, matchesAll_singleton]
  constructor
  · rintro ⟨x, u, v, hxuv, h⟩
    obtain ⟨hxu, rfl⟩ := List.nil_eq_append_iff.mp hxuv
    obtain ⟨rfl, rfl⟩ := List.nil_eq_append_iff.mp hxu.symm
    exact ⟨[], [], rfl, h⟩
  · rintro ⟨u, v, huv, h⟩
    exact ⟨[], u, v, huv, h⟩

/-- An anchored expression matches nowhere behind the start of the text. -/
theorem not_matches_of_anchored (he : e.Bounded) (h : e.anchored) {z : Option Char} :
    ¬ e.Matches (some c) text z := by
  intro hm
  cases text with
  | nil =>
    rw [← nullable_iff he, nullable_of_anchored h] at hm
    cases hm
  | cons d text =>
    have hall : MatchesAll [e] (some c) (d :: text) z := by rwa [matchesAll_singleton]
    obtain ⟨s, hs, -⟩ := (exists_residualAll_iff (List.forall_mem_singleton.mpr he)).mpr hall
    simp [residualsAll, residuals_of_anchored h, nullable_of_anchored h] at hs

theorem not_occurs_of_anchored (he : e.Bounded) (h : e.anchored) : ¬ Occurs e (some c) text := by
  rintro ⟨x, u, v, -, hm⟩
  obtain ⟨d, hd⟩ : ∃ d, charBefore (some c) x = some d := by
    refine Option.ne_none_iff_exists'.mp fun hnone => ?_
    rw [charBefore_eq_none hnone] at hnone
    cases hnone
  exact not_matches_of_anchored he h (hd ▸ hm)

theorem continues_advance_iff :
    Continues (e.advance b c states) (some c) text ↔
      Continues (([e] :: states).flatMap (residualsAll b c)) (some c) text := by
  simp only [Continues, advance, mem_distinct]

theorem continues_entry_iff :
    Continues ([e] :: states) b text ↔ Continues states b text ∨ Continues [[e]] b text := by
  simp only [Continues, List.mem_cons, List.not_mem_nil, or_false, or_and_right, exists_or]
  exact or_comm

/-- **The search finds what the states go on with, and each part that matches.** -/
theorem search_iff (he : e.Bounded) (hstates : ∀ s ∈ states, AllBounded s) :
    e.search b states text = true ↔ Continues states b text ∨ Occurs e b text := by
  induction text generalizing b states with
  | nil =>
    have hentry := List.forall_mem_cons.mpr ⟨List.forall_mem_singleton.mpr he, hstates⟩
    rw [search, any_nullableAll_iff hentry, ← continues_nil_iff, continues_entry_iff,
      occurs_nil_iff]
  | cons c text ih =>
    have hentry : ∀ s ∈ [e] :: states, AllBounded s :=
      List.forall_mem_cons.mpr ⟨List.forall_mem_singleton.mpr he, hstates⟩
    have hnext : ∀ s ∈ e.advance b c states, AllBounded s := by
      intro s hs
      obtain ⟨s', hs', hs⟩ := List.mem_flatMap.mp (mem_distinct.mp hs)
      exact allBounded_of_mem_residualsAll (hentry s' hs') s hs
    rw [search]
    by_cases hh : e.hopeless b states = true
    · rw [if_pos hh]
      simp only [hopeless, Bool.and_eq_true, List.isEmpty_iff, Option.isSome_iff_exists] at hh
      obtain ⟨⟨rfl, d, rfl⟩, ha⟩ := hh
      simpa [Continues] using not_occurs_of_anchored he ha
    · rw [if_neg hh, Bool.or_eq_true, any_nullableAll_iff hentry, ih hnext, continues_advance_iff,
        ← or_assoc, ← continues_cons_iff hentry, continues_entry_iff, or_assoc, ← occurs_cons_iff]

/-- **The search finds a part of a text that matches if there is one.** -/
theorem occursIn_iff (he : e.Bounded) :
    e.occursIn text = true ↔
      ∃ x u v, text = x ++ u ++ v ∧ e.Matches (charBefore none x) u (charAfter v none) := by
  rw [occursIn, search_iff he (List.forall_mem_nil _)]
  refine or_iff_right ?_
  rintro ⟨s, hs, -⟩
  cases hs

theorem look_andThen_iff {a : Assertion} {M : Matching} {z : Option Char} :
    (look a).Matches.andThen M b text z ↔ a.holds b (charAfter text z) = true ∧ M b text z := by
  constructor
  · rintro ⟨u, v, rfl, ⟨rfl, ha⟩, hM⟩
    exact ⟨ha, hM⟩
  · rintro ⟨ha, hM⟩
    exact ⟨[], text, rfl, ⟨rfl, ha⟩, hM⟩

theorem andThen_look_iff {a : Assertion} {M : Matching} {z : Option Char} :
    M.andThen (look a).Matches b text z ↔ M b text z ∧ a.holds (charBefore b text) z = true := by
  constructor
  · rintro ⟨u, v, rfl, hM, rfl, ha⟩
    simpa using ⟨hM, ha⟩
  · rintro ⟨hM, ha⟩
    exact ⟨text, [], (List.append_nil text).symm, hM, rfl, ha⟩

end Expr

end ParserKit
