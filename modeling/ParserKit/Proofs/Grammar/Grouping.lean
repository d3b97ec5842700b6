import ParserKit.Proofs.Grammar.Meaning

/-!
# Grouping does not matter

* `Grammar.meaning_begin`: in a new frame, a goal yields what it yields without one.
* `SettleAlike`: results that become the same when a transaction around them ends. So are those of
  a list of elements with and without a transaction of its own
  (`Grammar.settleAlike_transaction`, `Grammar.settleAlike_choice`).
* `inOrder_append`, `firstOf_append`: lists of elements in two parts.
* `transaction_inOrder_splice`, `transaction_firstOf_splice`: an element of a list may be replaced
  by a list of elements whose results settle alike.
* **`Grammar.equivalent_of_groups`**: a sequence in a sequence, and a choice in a choice, can be
  replaced by their parts.
-/

namespace ParserKit

open TokenStream (Consumes SameFront)
open Context (Abreast)

attribute [ext] TokenStream Context

/-! ## One frame more -/

namespace TokenStream

variable {s s₁ s₂ : TokenStream} {ts : List Token}

theorem SameFront.commit_eq (h : SameFront s₁ s₂) (h₁ : Consumes ts s.begin s₁)
    (h₂ : Consumes ts s s₂) : s₁.commit = s₂ := by
  have ho : s₁.outer = s.record :: s.outer := h₁.outer_eq
  have hr : s₁.record = ts.reverse ++ [] := h₁.record_eq
  unfold TokenStream.commit
  rw [ho]
  refine TokenStream.ext h.input_eq.symm h.buffer_eq.symm h.lookahead_eq.symm ?_ h₂.outer_eq.symm ?_
  · rw [h₂.record_eq, hr, List.append_nil]
  · exact h₁.index_eq.trans h₂.index_eq.symm

/-- Undoing two frames gives back what undoing both as one does. -/
theorem SameFront.rollback_eq (h : SameFront s₁ s₂) (h₁ : Consumes ts s.begin s₁)
    (h₂ : Consumes ts s s₂) : s₁.rollback.rollback = s₂.rollback := by
  have ho : s₁.outer = s.record :: s.outer := h₁.outer_eq
  have hr : s₁.record = ts.reverse := h₁.record_eq.trans (List.append_nil _)
  have hi : s₁.index = s.index + ts.length := h₁.index_eq
  have hundone : s₁.rollback = { s₂ with
      buffer := ts ++ s₂.buffer, record := s.record, index := s.index } := by
    unfold TokenStream.rollback
    rw [ho]
    refine TokenStream.ext h.input_eq.symm ?_ h.lookahead_eq.symm rfl h₂.outer_eq.symm ?_
    · simp only [hr, List.reverse_reverse, h.buffer_eq]
    · simp only [hr, hi, List.length_reverse]
      omega
  rw [hundone]
  unfold TokenStream.rollback
  have hlen : s.index - s.record.length = s₂.index - s₂.record.length := by
    rw [h₂.index_eq, h₂.record_eq, List.length_append, List.length_reverse]
    omega
  have hbuffer : s.record.reverse ++ (ts ++ s₂.buffer) = s₂.record.reverse ++ s₂.buffer := by
    rw [h₂.record_eq, List.reverse_append, List.reverse_reverse, List.append_assoc]
  simp only [hlen, hbuffer]

theorem rollback_eq_commit (h : s.record = []) : s.rollback = s.commit := by
  unfold TokenStream.rollback TokenStream.commit
  cases s.outer <;> simp [h]

end TokenStream

/-- The end of a transaction, as an operation on results. -/
def settled (out : Except ParseError Outcome × Context) : Except ParseError Outcome × Context :=
  (out.1, out.2.settle out.1)

namespace Context.Abreast

variable {cx cx₁ cx₂ : Context} {r : Except ParseError Outcome}

theorem settle_matched (h : Abreast SameFront cx.begin cx cx₁ cx₂) (nodes : List Node) :
    cx₁.settle (.ok (.matched nodes)) = cx₂ := by
  obtain ⟨ts, h₁, h₂⟩ := h.consumes
  exact Context.ext (h.related.commit_eq h₁ h₂) (h.failure_eq rfl).symm

/-- A transaction that is undone makes no difference inside one that is undone as well. -/
theorem settle_settle (h : Abreast SameFront cx.begin cx cx₁ cx₂)
    (hr : ∀ nodes, r ≠ .ok (.matched nodes)) : (cx₁.settle r).settle r = cx₂.settle r := by
  obtain ⟨ts, h₁, h₂⟩ := h.consumes
  have hundone : (⟨cx₁.stream.rollback.rollback, cx₁.lastFailure⟩ : Context) =
      ⟨cx₂.stream.rollback, cx₂.lastFailure⟩ :=
    Context.ext (h.related.rollback_eq h₁ h₂) (h.failure_eq rfl).symm
  rcases r with e | nodes | _
  · exact hundone
  · exact absurd rfl (hr nodes)
  · exact hundone

theorem settle_of_alike (h : Abreast SameFront cx.begin cx cx₁ cx₂)
    (ha : cx.stream.Alike cx₂.stream) (r : Except ParseError Outcome) : cx₁.settle r = cx₂ := by
  obtain ⟨ts, h₁, h₂⟩ := h.consumes
  obtain rfl := h₂.eq_nil_of_index_le (Nat.le_of_eq ha.index_eq)
  have hr : cx₁.stream.record = [] := h₁.record_eq
  rw [← h.settle_matched []]
  rcases r with e | nodes | _
  · exact Context.ext (TokenStream.rollback_eq_commit hr) rfl
  · rfl
  · exact Context.ext (TokenStream.rollback_eq_commit hr) rfl

end Context.Abreast

/-! ## Results that settle alike -/

/-- Two results that become the same when a transaction around them ends. They are the same already,
or they are of a kind that no further element follows. -/
inductive SettleAlike (stops : Except ParseError Outcome → Prop) :
    Except ParseError Outcome × Context → Except ParseError Outcome × Context → Prop
  | refl (out) : SettleAlike stops out out
  | stopped {r cx cx'} (hr : stops r) (h : cx.settle r = cx'.settle r) :
      SettleAlike stops (r, cx) (r, cx')

/-- No further element of a sequence follows. -/
def Unmatched (r : Except ParseError Outcome) : Prop := ∀ nodes, r ≠ .ok (.matched nodes)

/-- No further choice follows, and there is no match. -/
def Fails (r : Except ParseError Outcome) : Prop := ∃ e, r = .error e

theorem SettleAlike.settled_eq {stops : Except ParseError Outcome → Prop}
    {out out' : Except ParseError Outcome × Context} (h : SettleAlike stops out out') :
    settled out = settled out' := by
  cases h with
  | refl => rfl
  | stopped _ h => exact Prod.ext rfl h

namespace Grammar

variable (g : Grammar) (goal : Goal) (cx : Context)

/-- **In a new frame, a goal yields what it yields without one.** -/
theorem meaning_begin :
    (g.meaning goal cx.begin = none ∧ g.meaning goal cx = none) ∨
      ∃ r cx₁ cx₂, g.meaning goal cx.begin = some (r, cx₁) ∧ g.meaning goal cx = some (r, cx₂) ∧
        Abreast SameFront cx.begin cx cx₁ cx₂ := by
  have hfront : SameFront cx.begin.stream cx.stream := ⟨rfl, rfl, rfl⟩
  have hfront' : SameFront cx.stream cx.begin.stream := ⟨rfl, rfl, rfl⟩
  cases h : g.meaning goal cx.begin with
  | none =>
    refine .inl ⟨rfl, ?_⟩
    cases h' : g.meaning goal cx with
    | none => rfl
    | some out =>
      have hd := meaning_eq_some_iff.mp h'
      obtain ⟨cx₁, hd₁, -⟩ := hd.lockstep TokenStream.lockstep_sameFront hfront'
      rw [meaning_eq_some_iff.mpr hd₁] at h
      cases h
  | some out =>
    have hd := meaning_eq_some_iff.mp h
    obtain ⟨cx₂, hd₂, ha⟩ := hd.lockstep TokenStream.lockstep_sameFront hfront
    exact .inr ⟨out.1, out.2, cx₂, rfl, meaning_eq_some_iff.mpr hd₂, ha⟩

theorem Derives.consumes_of_choice_missed {g : Grammar} {cx cx' : Context} {es : List Element}
    (h : g.Derives (.firstOf es) cx (.ok .notMatched) cx') : Consumes [] cx.stream cx'.stream := by
  induction es generalizing cx with
  | nil =>
    cases h
    exact cx'.stream.consumes_refl
  | cons e es ih =>
    cases h with
    | firstOfStop _ hr => exact absurd rfl hr
    | firstOfMore h hs =>
      obtain ⟨ts, hc⟩ := h.consumes
      obtain rfl := hc.eq_nil_of_index_le (Nat.le_of_eq h.alike_of_notMatched.index_eq)
      exact hc.trans (ih hs)

theorem settleAlike_transaction :
    Option.Rel (SettleAlike Unmatched) (transaction (g.meaning goal) cx) (g.meaning goal cx) := by
  rw [transaction_eq]
  obtain ⟨h₁, h₂⟩ | ⟨r, cx₁, cx₂, h₁, h₂, ha⟩ := g.meaning_begin goal cx
  · rw [h₁, h₂]
    exact .none
  · rw [h₁, h₂]
    refine .some ?_
    show SettleAlike Unmatched (r, cx₁.settle r) (r, cx₂)
    rcases r with err | nodes | _
    · exact .stopped nofun (ha.settle_settle nofun)
    · rw [ha.settle_matched nodes]
      exact .refl _
    · exact .stopped nofun (ha.settle_settle nofun)

theorem settleAlike_choice (es : List Element) :
    Option.Rel (SettleAlike Fails) (transaction (g.meaning (.firstOf es)) cx)
      (g.meaning (.firstOf es) cx) := by
  rw [transaction_eq]
  obtain ⟨h₁, h₂⟩ | ⟨r, cx₁, cx₂, h₁, h₂, ha⟩ := g.meaning_begin (.firstOf es) cx
  · rw [h₁, h₂]
    exact .none
  · rw [h₁, h₂]
    refine .some ?_
    show SettleAlike Fails (r, cx₁.settle r) (r, cx₂)
    -- a choice that missed consumed nothing, and further choices follow in the same state
    rcases r with err | nodes | _
    · exact .stopped ⟨err, rfl⟩ (ha.settle_settle nofun)
    · rw [ha.settle_matched nodes]
      exact .refl _
    · have hc := (meaning_eq_some_iff.mp h₂).consumes_of_choice_missed
      rw [ha.settle_of_alike hc.alike]
      exact .refl _

end Grammar

/-! ## Lists of elements in two parts -/

section Lists

variable (f : Element → Attempt) (es fs : List Element) (cx : Context)

/-- Goes on with the elements of a sequence after a match. -/
def andInOrder (out : Except ParseError Outcome × Context) :
    Option (Except ParseError Outcome × Context) :=
  match out.1 with
  | .ok (.matched nodes) =>
    (inOrder f es out.2).map fun more => (more.1.map (.prepend nodes), more.2)
  | _ => some out

def orFirstOf (out : Except ParseError Outcome × Context) :
    Option (Except ParseError Outcome × Context) :=
  match out.1 with
  | .ok .notMatched => firstOf f es out.2
  | _ => some out

theorem prepend_nil (outcome : Outcome) : outcome.prepend [] = outcome := by
  cases outcome <;> rfl

theorem prepend_prepend (nodes more : List Node) (outcome : Outcome) :
    (outcome.prepend more).prepend nodes = outcome.prepend (nodes ++ more) := by
  cases outcome with
  | matched last => exact congrArg Outcome.matched (List.append_assoc nodes more last).symm
  | notMatched => rfl

theorem inOrder_cons_eq_bind (e : Element) :
    inOrder f (e :: es) cx = (f e cx).bind (andInOrder f es) := by
  rw [inOrder_cons]
  congr 1
  funext out
  rcases out with ⟨_ | _ | _, cx'⟩ <;> rfl

theorem firstOf_cons_eq_bind (e : Element) :
    firstOf f (e :: es) cx = (f e cx).bind (orFirstOf f es) := by
  rw [firstOf_cons]
  congr 1
  funext out
  rcases out with ⟨_ | _ | _, cx'⟩ <;> rfl

/-- **A sequence in two parts.** -/
theorem inOrder_append :
    inOrder f (es ++ fs) cx = (inOrder f es cx).bind (andInOrder f fs) := by
  induction es generalizing cx with
  | nil =>
    show inOrder f fs cx = (inOrder f fs cx).map fun more => (more.1.map (.prepend []), more.2)
    have hid (out : Except ParseError Outcome × Context) :
        (out.1.map (Outcome.prepend []), out.2) = out := by
      rcases out with ⟨err | outcome, cx'⟩
      · rfl
      · exact congrArg (fun o => (Except.ok o, cx')) (prepend_nil outcome)
    simp only [hid, Option.map_id']
  | cons e es ih =>
    rw [List.cons_append, inOrder_cons_eq_bind, inOrder_cons_eq_bind, Option.bind_assoc]
    congr 1
    funext out
    rcases out with ⟨err | nodes | _, cx₁⟩
    · rfl
    · simp only [andInOrder, ih]
      rcases inOrder f es cx₁ with _ | ⟨err | more | _, cx₂⟩
      · rfl
      · rfl
      · simp only [Option.bind_some, Option.map_some, Except.map, Outcome.prepend, andInOrder,
          Option.map_map]
        congr 1
        funext out
        rcases out with ⟨err | outcome, cx₃⟩
        · rfl
        · exact congrArg (fun o => (Except.ok o, cx₃)) (prepend_prepend nodes more outcome)
      · rfl
    · rfl

/-- **Choices in two parts.** -/
theorem firstOf_append :
    firstOf f (es ++ fs) cx = (firstOf f es cx).bind (orFirstOf f fs) := by
  induction es generalizing cx with
  | nil => rfl
  | cons e es ih =>
    rw [List.cons_append, firstOf_cons_eq_bind, firstOf_cons_eq_bind, Option.bind_assoc]
    congr 1
    funext out
    rcases out with ⟨err | nodes | _, cx₁⟩
    · rfl
    · rfl
    · exact ih cx₁

end Lists

/-! ## Parts in place of a group -/

section Splices

variable {stops : Except ParseError Outcome → Prop} {f : Element → Attempt} {x : Element}
  {zs : List Element} {o o' : Option (Except ParseError Outcome × Context)}

theorem SettleAlike.rel_refl (o : Option (Except ParseError Outcome × Context)) :
    Option.Rel (SettleAlike stops) o o := by
  cases o with
  | none => exact .none
  | some out => exact .some (.refl out)

theorem Unmatched.map_eq {r : Except ParseError Outcome} (hr : Unmatched r)
    {φ : Outcome → Outcome} (hφ : φ .notMatched = .notMatched) : r.map φ = r := by
  rcases r with err | nodes | _
  · rfl
  · exact absurd rfl (hr nodes)
  · exact congrArg Except.ok hφ

theorem SettleAlike.map {φ : Outcome → Outcome} (hφ : φ .notMatched = .notMatched)
    (h : Option.Rel (SettleAlike Unmatched) o o') :
    Option.Rel (SettleAlike Unmatched) (o.map fun out => (out.1.map φ, out.2))
      (o'.map fun out => (out.1.map φ, out.2)) := by
  cases h with
  | none => exact .none
  | some h =>
    cases h with
    | refl => exact rel_refl _
    | @stopped r cx cx' hr h =>
      simp only [Option.map_some, hr.map_eq hφ]
      exact .some (.stopped hr h)

/-- **Going on after results that settle alike.** Only the same results are followed by anything. -/
theorem SettleAlike.bind {k k' : Except ParseError Outcome × Context →
      Option (Except ParseError Outcome × Context)}
    (h : Option.Rel (SettleAlike stops) o o') (hk : ∀ {r cx}, stops r → k (r, cx) = some (r, cx))
    (hk' : ∀ {r cx}, stops r → k' (r, cx) = some (r, cx))
    (hsame : ∀ out, o' = some out → Option.Rel (SettleAlike stops) (k out) (k' out)) :
    Option.Rel (SettleAlike stops) (o.bind k) (o'.bind k') := by
  cases h with
  | none => exact .none
  | some h =>
    cases h with
    | refl => exact hsame _ rfl
    | @stopped r cx cx' hr h =>
      rw [Option.bind_some, Option.bind_some, hk hr, hk' hr]
      exact .some (.stopped hr h)

theorem andInOrder_of_unmatched {es : List Element} {r : Except ParseError Outcome} {cx : Context}
    (hr : Unmatched r) : andInOrder f es (r, cx) = some (r, cx) := by
  rcases r with err | nodes | _
  · rfl
  · exact absurd rfl (hr nodes)
  · rfl

theorem orFirstOf_of_fails {es : List Element} {r : Except ParseError Outcome} {cx : Context}
    (hr : Fails r) : orFirstOf f es (r, cx) = some (r, cx) := by
  obtain ⟨err, rfl⟩ := hr
  rfl

theorem SettleAlike.transaction_eq (stops : Except ParseError Outcome → Prop) {a b : Attempt}
    {cx : Context} (h : Option.Rel (SettleAlike stops) (a cx.begin) (b cx.begin)) :
    transaction a cx = transaction b cx := by
  rw [ParserKit.transaction_eq, ParserKit.transaction_eq]
  generalize a cx.begin = o, b cx.begin = o' at h
  cases h with
  | none => rfl
  | some h => exact congrArg some h.settled_eq

/-- **An element of a sequence can be replaced** by elements with results that settle alike. -/
theorem transaction_inOrder_splice
    (h : ∀ cx, Option.Rel (SettleAlike Unmatched) (f x cx) (inOrder f zs cx))
    (pre post : List Element) (cx : Context) :
    transaction (inOrder f (pre ++ x :: post)) cx =
      transaction (inOrder f (pre ++ zs ++ post)) cx := by
  have hsplice (cx : Context) : Option.Rel (SettleAlike Unmatched) (inOrder f (x :: post) cx)
      (inOrder f (zs ++ post) cx) := by
    rw [inOrder_cons_eq_bind, inOrder_append]
    exact SettleAlike.bind (h cx) andInOrder_of_unmatched andInOrder_of_unmatched fun _ _ =>
      SettleAlike.rel_refl _
  refine SettleAlike.transaction_eq Unmatched ?_
  rw [List.append_assoc, inOrder_append, inOrder_append]
  rcases inOrder f pre cx.begin with _ | ⟨err | nodes | _, cx₁⟩
  · exact .none
  · exact SettleAlike.rel_refl _
  · exact SettleAlike.map rfl (hsplice cx₁)
  · exact SettleAlike.rel_refl _

/-- **One of several choices can be replaced** by choices with results that settle alike. -/
theorem transaction_firstOf_splice
    (h : ∀ cx, Option.Rel (SettleAlike Fails) (f x cx) (firstOf f zs cx))
    (pre post : List Element) (cx : Context) :
    transaction (firstOf f (pre ++ x :: post)) cx =
      transaction (firstOf f (pre ++ zs ++ post)) cx := by
  have hsplice (cx : Context) : Option.Rel (SettleAlike Fails) (firstOf f (x :: post) cx)
      (firstOf f (zs ++ post) cx) := by
    rw [firstOf_cons_eq_bind, firstOf_append]
    exact SettleAlike.bind (h cx) orFirstOf_of_fails orFirstOf_of_fails fun _ _ =>
      SettleAlike.rel_refl _
  refine SettleAlike.transaction_eq Fails ?_
  rw [List.append_assoc, firstOf_append, firstOf_append]
  rcases firstOf f pre cx.begin with _ | ⟨err | nodes | _, cx₁⟩
  · exact .none
  · exact SettleAlike.rel_refl _
  · exact SettleAlike.rel_refl _
  · exact hsplice cx₁

end Splices

/-! ## Tags -/

def retag (id : String) (out : Except ParseError Outcome × Context) :
    Except ParseError Outcome × Context :=
  (out.1.map (·.mapNodes (·.setId id)), out.2)

theorem retag_retag (t u : String) (out : Except ParseError Outcome × Context) :
    retag t (retag u out) = retag t out := by
  rcases out with ⟨err | nodes | _, cx⟩
  · rfl
  · have hid : (fun n : Node => n.setId t) ∘ (fun n : Node => n.setId u) = (·.setId t) := rfl
    simp only [retag, Except.map, Outcome.mapNodes, List.map_map, hid]
  · rfl

section Tags

variable {f : Element → Attempt}

/-- **Tagging all elements of a list** is tagging what the list yields. Tags that the elements had
are lost. -/
theorem inOrder_retag (hf : ∀ id e, f (.tagged id e) = withId id (f e)) (t : String)
    (inner : List (Element × Option String)) (cx : Context) :
    inOrder f (inner.map fun p => .tagged t p.1) cx =
      (inOrder f (inner.map fun p => p.1.taggedWith p.2) cx).map (retag t) := by
  have htagged (t : String) (e : Element) (cx : Context) :
      f (.tagged t e) cx = (f e cx).map (retag t) := by
    rw [hf, withId_eq]
    rfl
  -- it does not matter whether an element had a tag before
  have hretagged (p : Element × Option String) (cx : Context) :
      f (.tagged t p.1) cx = (f (p.1.taggedWith p.2) cx).map (retag t) := by
    obtain ⟨e, _ | u⟩ := p
    · exact htagged t e cx
    · show f (.tagged t e) cx = (f (.tagged u e) cx).map (retag t)
      rw [htagged, htagged, Option.map_map]
      congr 1
      funext out
      exact (retag_retag t u out).symm
  induction inner generalizing cx with
  | nil => rfl
  | cons p inner ih =>
    rw [List.map_cons, List.map_cons, inOrder_cons_eq_bind, inOrder_cons_eq_bind, hretagged,
      Option.bind_map, Option.map_bind]
    congr 1
    funext out
    rcases out with ⟨err | nodes | _, cx₁⟩
    · rfl
    · simp only [Function.comp_apply, retag, Except.map, Outcome.mapNodes, andInOrder, ih,
        Option.map_map]
      congr 1
      funext out
      rcases out with ⟨err | more | _, cx₂⟩
      · rfl
      · simp [retag, Except.map, Outcome.mapNodes, Outcome.prepend]
      · rfl
    · rfl

end Tags

/-! ## The laws -/

namespace Grammar

/-- **Grouping does not matter.** In a sequence, a sequence can be replaced by its elements. They
keep their ids if it has none itself; otherwise its id takes the place of theirs. In a choice, a
choice can be replaced by its choices. -/
theorem equivalent_of_groups (g : Grammar) :
    (∀ pre inner post : List Element,
      g.Equivalent (.sequence (pre ++ .sequence inner :: post))
        (.sequence (pre ++ inner ++ post))) ∧
    (∀ (t : String) (pre : List Element) (inner : List (Element × Option String))
      (post : List Element),
      g.Equivalent
        (.sequence (pre ++ .tagged t (.sequence (inner.map fun p => p.1.taggedWith p.2)) :: post))
        (.sequence (pre ++ (inner.map fun p => .tagged t p.1) ++ post))) ∧
    (∀ pre inner post : List Element,
      g.Equivalent (.alternatives (pre ++ .alternatives inner :: post))
        (.alternatives (pre ++ inner ++ post))) := by
  have hgroup (inner : List Element) (cx : Context) :
      Option.Rel (SettleAlike Unmatched) (g.meaning (.element (.sequence inner)) cx)
        (inOrder (g.meaning ∘ .element) inner cx) := by
    rw [meaning_sequence, ← meaning_inOrder]
    exact g.settleAlike_transaction _ cx
  refine ⟨fun pre inner post cx r cx' => ?_, fun t pre inner post cx r cx' => ?_,
    fun pre inner post cx r cx' => ?_⟩
  · apply yields_iff_of_meaning_eq
    rw [meaning_sequence, meaning_sequence, meaning_inOrder, meaning_inOrder]
    exact transaction_inOrder_splice (hgroup inner) pre post cx
  · apply yields_iff_of_meaning_eq
    rw [meaning_sequence, meaning_sequence, meaning_inOrder, meaning_inOrder]
    refine transaction_inOrder_splice (fun cx => ?_) pre post cx
    rw [inOrder_retag fun id e => funext fun cx => g.meaning_tagged cx id e]
    show Option.Rel _ (g.meaning (.element (.tagged t _)) cx) _
    rw [meaning_tagged, withId_eq]
    exact SettleAlike.map rfl (hgroup _ cx)
  · apply yields_iff_of_meaning_eq
    rw [meaning_alternatives, meaning_alternatives, meaning_firstOf, meaning_firstOf]
    refine transaction_firstOf_splice (fun cx => ?_) pre post cx
    show Option.Rel _ (g.meaning (.element (.alternatives inner)) cx) _
    rw [meaning_alternatives, ← meaning_firstOf]
    exact g.settleAlike_choice cx inner

end Grammar

end ParserKit
