import ParserKit.Pattern.Form
import ParserKit.Proofs.Pattern.Matching

/-!
# What a normal form matches

* **`Form.matches_sequence`**: that a sequence is one flat list, with letters that meet in one word,
  changes nothing about what it matches.
* `Form.bounded_sequence`, `Form.bounded_choice`, `Form.bounded_rounds`: forms are made of parts so
  that no repetition asks for more rounds than it allows.
-/

namespace ParserKit

namespace Form

/-! ## Sequences -/

theorem matches_exprOfAll (fs : List Form) :
    (exprOfAll fs).Matches = Expr.MatchesAll (fs.map expr) := by
  induction fs with
  | nil => rfl
  | cons f fs ih => rw [exprOfAll, Expr.matches_andThen, ih, List.map_cons, Expr.matchesAll_cons]

theorem matches_word_cons (c : Char) (cs : List Char) :
    (word (c :: cs)).expr.Matches =
      (Expr.set (CharSet.single c)).Matches.andThen (word cs).expr.Matches := by
  rw [expr, List.foldr_cons, Expr.matches_andThen, expr]

theorem matches_word_append (cs cs' : List Char) :
    (word (cs ++ cs')).expr.Matches = (word cs).expr.Matches.andThen (word cs').expr.Matches := by
  induction cs with
  | nil => exact (Matching.nothing_andThen _).symm
  | cons c cs ih =>
    rw [List.cons_append, matches_word_cons, ih, matches_word_cons, Matching.andThen_assoc]

theorem matchesAll_before (f : Form) (fs : List Form) :
    Expr.MatchesAll ((before f fs).map expr) =
      f.expr.Matches.andThen (Expr.MatchesAll (fs.map expr)) := by
  unfold before
  split
  · simp only [List.map_cons, Expr.matchesAll_cons, matches_word_append, Matching.andThen_assoc]
  · rfl

theorem matchesAll_foldr_before (fs : List Form) :
    Expr.MatchesAll ((fs.foldr before []).map expr) = Expr.MatchesAll (fs.map expr) := by
  induction fs with
  | nil => rfl
  | cons f fs ih => rw [List.foldr_cons, matchesAll_before, ih, List.map_cons, Expr.matchesAll_cons]

theorem matchesAll_members (f : Form) :
    Expr.MatchesAll (f.members.map expr) = f.expr.Matches := by
  unfold members
  split
  · rfl
  · rw [expr, matches_exprOfAll]
  · exact Expr.matchesAll_singleton f.expr

/-- **A sequence matches what its members match one after the other.** -/
theorem matches_sequence (fs : List Form) :
    (sequence fs).expr.Matches = Expr.MatchesAll (fs.map expr) := by
  have hmembers : Expr.MatchesAll ((fs.flatMap members).map expr) =
      Expr.MatchesAll (fs.map expr) := by
    induction fs with
    | nil => rfl
    | cons f fs ih =>
      rw [List.flatMap_cons, List.map_append, Expr.matchesAll_append, matchesAll_members, ih,
        List.map_cons, Expr.matchesAll_cons]
  rw [← hmembers, ← matchesAll_foldr_before]
  unfold sequence
  split
  · next h => rw [h]; rfl
  · next f h => rw [h]; exact (Expr.matchesAll_singleton f.expr).symm
  · rw [expr, matches_exprOfAll]

theorem matches_sequence_singleton (f : Form) : (sequence [f]).expr.Matches = f.expr.Matches := by
  rw [matches_sequence, List.map_singleton, Expr.matchesAll_singleton]

/-! ## Counts in order -/

theorem bounded_andThen {e f : Expr} : (e.andThen f).Bounded ↔ e.Bounded ∧ f.Bounded := by
  unfold Expr.andThen
  split <;> simp [Expr.Bounded]

theorem bounded_counted {least : Nat} {most : Option Nat} {e : Expr} (h : ∀ m ∈ most, least ≤ m)
    (he : e.Bounded) : (e.counted least most).Bounded := by
  unfold Expr.counted
  split
  · next least' most' f =>
    split
    · refine ⟨fun k hk => ?_, he.2⟩
      cases most with
      | none => cases hk
      | some m =>
        cases most' with
        | none => cases hk
        | some m' =>
          obtain rfl := Option.some.inj hk
          exact Nat.mul_le_mul (h m rfl) (he.1 m' rfl)
    · exact ⟨h, he⟩
  · exact ⟨h, he⟩

theorem bounded_exprOfAll {fs : List Form} :
    (exprOfAll fs).Bounded ↔ ∀ f ∈ fs, f.expr.Bounded := by
  induction fs with
  | nil => simp [exprOfAll, Expr.Bounded]
  | cons f fs ih => rw [exprOfAll, bounded_andThen, ih, List.forall_mem_cons]

theorem bounded_exprOfAny {fs : List Form} :
    (exprOfAny fs).Bounded ↔ ∀ f ∈ fs, f.expr.Bounded := by
  induction fs with
  | nil => simp [exprOfAny, Expr.Bounded]
  | cons f fs ih =>
    cases fs with
    | nil => simp [exprOfAny]
    | cons g gs =>
      rw [exprOfAny, Expr.Bounded, ih, List.forall_mem_cons (l := g :: gs)]
      exact List.cons_ne_nil g gs

theorem bounded_word (cs : List Char) : (word cs).expr.Bounded := by
  induction cs with
  | nil => trivial
  | cons c cs ih => exact bounded_andThen.mpr ⟨trivial, ih⟩

theorem bounded_ofSet (s : CharSet) : (ofSet s).expr.Bounded := by
  unfold ofSet
  split
  · split
    · exact bounded_word _
    · trivial
  · trivial

theorem bounded_before {f : Form} {fs : List Form} (hf : f.expr.Bounded)
    (hfs : ∀ g ∈ fs, g.expr.Bounded) : ∀ g ∈ before f fs, g.expr.Bounded := by
  unfold before
  split
  · exact List.forall_mem_cons.mpr ⟨bounded_word _, (List.forall_mem_cons.mp hfs).2⟩
  · exact List.forall_mem_cons.mpr ⟨hf, hfs⟩

theorem bounded_members {f : Form} (hf : f.expr.Bounded) : ∀ g ∈ f.members, g.expr.Bounded := by
  unfold members
  split
  · exact List.forall_mem_nil _
  · exact bounded_exprOfAll.mp hf
  · exact List.forall_mem_singleton.mpr hf

theorem bounded_sequence {fs : List Form} (hfs : ∀ f ∈ fs, f.expr.Bounded) :
    (sequence fs).expr.Bounded := by
  have hflat : ∀ g ∈ fs.flatMap members, g.expr.Bounded := by
    intro g hg
    obtain ⟨f, hf, hg⟩ := List.mem_flatMap.mp hg
    exact bounded_members (hfs f hf) g hg
  have hjoined : ∀ g ∈ (fs.flatMap members).foldr before [], g.expr.Bounded := by
    generalize fs.flatMap members = gs at hflat
    induction gs with
    | nil => exact List.forall_mem_nil _
    | cons g gs ih =>
      obtain ⟨hg, hgs⟩ := List.forall_mem_cons.mp hflat
      exact bounded_before hg (ih hgs)
  unfold sequence
  split
  · trivial
  · next f h => exact hjoined f (h ▸ List.mem_singleton_self f)
  · exact bounded_exprOfAll.mpr hjoined

theorem bounded_rounds {least : Nat} {most : Option Nat} {isLazy : Bool} {f : Form}
    (h : ∀ m ∈ most, least ≤ m) (hf : f.expr.Bounded) :
    (rounds least most isLazy f).expr.Bounded := by
  have hleast : ∀ m ∈ if f.isZeroWidth then some (min (most.getD 1) 1) else most,
      (if f.isZeroWidth then min least 1 else least) ≤ m := by
    intro m hm
    by_cases hzero : f.isZeroWidth = true
    · rw [if_pos hzero] at hm ⊢
      obtain rfl := Option.some.inj hm
      cases most with
      | none => exact Nat.min_le_right _ _
      | some k =>
        have := h k rfl
        simp only [Option.getD_some]
        omega
    · rw [if_neg hzero] at hm ⊢
      exact h m hm
  simp only [rounds]
  generalize (if f.isZeroWidth then some (min (most.getD 1) 1) else most) = most' at hleast ⊢
  generalize (if f.isZeroWidth then min least 1 else least) = least' at hleast ⊢
  split
  · trivial
  split
  · exact hf
  · exact bounded_counted hleast hf

/-! ## Choices -/

theorem bounded_options {f : Form} (hf : f.expr.Bounded) : ∀ g ∈ f.options, g.expr.Bounded := by
  unfold options
  split
  · exact bounded_exprOfAny.mp hf
  · exact List.forall_mem_singleton.mpr hf

theorem bounded_of_mapM_concat? {fs : List Form} {gss : List (List Form)}
    (h : fs.mapM concat? = some gss) (hfs : ∀ f ∈ fs, f.expr.Bounded) :
    ∀ gs ∈ gss, ∀ g ∈ gs, g.expr.Bounded := by
  induction fs generalizing gss with
  | nil =>
    obtain rfl := Option.some.inj h
    exact List.forall_mem_nil _
  | cons f fs ih =>
    obtain ⟨hf, hfs⟩ := List.forall_mem_cons.mp hfs
    rw [List.mapM_cons] at h
    obtain ⟨gs, hgs, h⟩ := Option.bind_eq_some_iff.mp h
    obtain ⟨gss', hgss', h⟩ := Option.bind_eq_some_iff.mp h
    obtain rfl := Option.some.inj h
    refine List.forall_mem_cons.mpr ⟨?_, ih hgss' hfs⟩
    unfold concat? at hgs
    split at hgs
    · obtain rfl := Option.some.inj hgs
      exact bounded_exprOfAll.mp hf
    · cases hgs

theorem bounded_choiceWithin (fuel : Nat) {fs : List Form} (hfs : ∀ f ∈ fs, f.expr.Bounded) :
    (choiceWithin fuel fs).expr.Bounded := by
  induction fuel generalizing fs with
  | zero => exact bounded_exprOfAny.mpr hfs
  | succ fuel ih =>
    have hflat : ∀ g ∈ fs.flatMap options, g.expr.Bounded := by
      intro g hg
      obtain ⟨f, hf, hg⟩ := List.mem_flatMap.mp hg
      exact bounded_options (hfs f hf) g hg
    rw [choiceWithin]
    generalize fs.flatMap options = gs at hflat
    split
    · exact hflat _ (List.mem_singleton_self _)
    · exact bounded_ofSet _
    · exact bounded_ofSet _
    · next g gs _ hconcat _ _ =>
      have hmembers := bounded_of_mapM_concat? hconcat hflat
      split
      · exact bounded_exprOfAny.mpr hflat
      · -- the common beginning, and a choice of what is left behind it
        refine bounded_sequence (List.forall_mem_append.mpr ⟨?_, List.forall_mem_singleton.mpr ?_⟩)
        · exact fun f hf => hmembers g List.mem_cons_self f (List.mem_of_mem_take hf)
        · refine ih fun f hf => ?_
          obtain ⟨h, hh, rfl⟩ := List.mem_map.mp hf
          exact bounded_sequence fun f hf => hmembers h hh f (List.mem_of_mem_drop hf)
    · exact bounded_exprOfAny.mpr hflat

theorem bounded_choice {fs : List Form} (hfs : ∀ f ∈ fs, f.expr.Bounded) :
    (choice fs).expr.Bounded := bounded_choiceWithin _ hfs

end Form

end ParserKit
