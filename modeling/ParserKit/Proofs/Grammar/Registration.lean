import ParserKit.Proofs.Grammar.Depth
import ParserKit.Proofs.OrderedMap

/-!
# Histories of registrations

Rules refer to each other by name, so that the order in which they are registered does not matter,
nor what was replaced.

* `Registration`: a change to the tables of a grammar; `Grammar.after`: the grammar after a history
  of them.
* `lastDefinition`, `lastTransform`, `lastRoot`: what a history leaves in force.
* `Grammar.SameTables`: grammars that agree in what is in force. They attempt all elements alike
  (`Grammar.SameTables.attempt_eq`).
* **`Grammar.parse_after_eq`**: histories that leave the same in force lead to the same parses.
-/

namespace ParserKit

/-! ## Grammars with the same tables -/

namespace Grammar

/-- **Grammars have the same tables** if every name has the same rule, every type the same
transform, and the root rule is the same. The order of registration may differ. -/
structure SameTables (g g' : Grammar) : Prop where
  rule_eq : ∀ name, g.rule? name = g'.rule? name
  terminal_eq : ∀ type, g.terminalTransforms.get? type = g'.terminalTransforms.get? type
  root_eq : g.root? = g'.root?

namespace SameTables

variable {g g' : Grammar} (h : g.SameTables g')
include h

theorem matchTerminal_eq (type : String) (cx : Context) :
    g.matchTerminal type cx = g'.matchTerminal type cx := by
  unfold matchTerminal transformTerminal
  rw [h.terminal_eq]

/-- Attempts look up rules by their names, and do not notice in which order they are listed. -/
theorem attemptWithin_eq (n : Nat) : g.attemptWithin n = g'.attemptWithin n := by
  induction n with
  | zero => rfl
  | succ n ih =>
    funext e cx
    cases e with
    | terminal type => simp only [attemptWithin, h.matchTerminal_eq]
    | ref name => simp only [attemptWithin, h.rule_eq, ih]
    | _ => simp only [attemptWithin, ih]

theorem weight_eq (e : Element) : g.weight e = g'.weight e := by
  have hp : g.rules.entries.Perm g'.rules.entries := OrderedMap.perm_entries h.rule_eq
  have hvalues : g.rules.values.Perm g'.rules.values := hp.map Prod.snd
  have hparts : (g.parts e).Perm (g'.parts e) := (hvalues.flatMap_right _).append_left _
  rw [← length_parts, ← length_parts, hparts.length_eq]

theorem attempt_eq (e : Element) (cx : Context) : g.attempt e cx = g'.attempt e cx := by
  unfold attempt depthBound
  rw [h.weight_eq, h.attemptWithin_eq]

theorem attemptRoot_eq (s : TokenStream) : g.attemptRoot s = g'.attemptRoot s := by
  unfold attemptRoot
  rw [h.root_eq]
  cases g'.root? with
  | none => rfl
  | some root =>
    dsimp only
    rw [h.attempt_eq]

theorem parse_eq (s : TokenStream) : g.parse s = g'.parse s := by
  unfold parse
  rw [h.attemptRoot_eq]

end SameTables

end Grammar

/-! ## Histories -/

/-- A change to the tables of a grammar. -/
inductive Registration where
  | rule (name : String) (content : Element) (isRoot : Bool)
  | setRoot (name : String)
  | setTransform (name : String) (transform : Option Transform)
  | setTerminalTransform (type : String) (transform : Transform)

/-- The grammar after a change, whether or not it was refused. -/
def Grammar.register (g : Grammar) : Registration → Grammar
  | .rule name content isRoot => g.addRule name content isRoot
  | .setRoot name => (g.makeRoot name).2
  | .setTransform name transform => (g.changeTransform name transform).2
  | .setTerminalTransform type transform => g.setTerminalTransform type transform

/-- The grammar after a history of changes, the latest of which comes first. -/
def Grammar.after : List Registration → Grammar
  | [] => {}
  | change :: earlier => (after earlier).register change

/-! What a history leaves in force, read from its latest change on. -/

/-- The last definition of a name: its content, and the transform set since. -/
def lastDefinition (name : String) : List Registration → Option (Element × Option Transform)
  | [] => none
  | .rule n content _ :: earlier =>
    if n = name then some (content, none) else lastDefinition name earlier
  | .setTransform n transform :: earlier =>
    if n = name then (lastDefinition name earlier).map fun d => (d.1, transform)
    else lastDefinition name earlier
  | _ :: earlier => lastDefinition name earlier

/-- The last transform that was set for the terminals of a type. -/
def lastTransform (type : String) : List Registration → Option Transform
  | [] => none
  | .setTerminalTransform t transform :: earlier =>
    if t = type then some transform else lastTransform type earlier
  | _ :: earlier => lastTransform type earlier

/-- The name that was made the root last. Only a name that has a definition can be chosen without
being defined anew. -/
def lastRoot : List Registration → Option String
  | [] => none
  | .rule name _ true :: _ => some name
  | .setRoot name :: earlier =>
    if (lastDefinition name earlier).isSome then some name else lastRoot earlier
  | _ :: earlier => lastRoot earlier

namespace Grammar

variable (g : Grammar) (history : List Registration)

theorem register_setRoot (name : String) :
    g.register (.setRoot name) =
      if (g.rule? name).isSome then { g with rootName := some name } else g := by
  show (g.makeRoot name).2 = _
  rw [makeRoot, OrderedMap.contains_eq]
  unfold rule?
  cases g.rules.get? name <;> rfl

theorem register_setTransform (name : String) (transform : Option Transform) :
    g.register (.setTransform name transform) =
      match g.rule? name with
      | some r => { g with rules := g.rules.insert name { r with transform } }
      | none => g := by
  show (g.changeTransform name transform).2 = _
  unfold changeTransform
  cases g.rule? name <;> rfl

/-- **The rule of a name is its last definition.** -/
theorem rule?_after (name : String) :
    (after history).rule? name =
      (lastDefinition name history).map fun d => { name, content := d.1, transform := d.2 } := by
  induction history generalizing name with
  | nil => rfl
  | cons change earlier ih =>
    rw [after]
    cases change with
    | rule n content isRoot =>
      show ((after earlier).rules.insert n { name := n, content }).get? name = _
      rw [OrderedMap.get?_insert, lastDefinition]
      by_cases hn : n = name
      · subst hn
        rw [if_pos rfl, if_pos rfl]
        rfl
      · rw [if_neg hn, if_neg (Ne.symm hn)]
        exact ih name
    | setRoot n =>
      rw [register_setRoot]
      split <;> exact ih name
    | setTransform n transform =>
      rw [register_setTransform, ih n]
      cases hd : lastDefinition n earlier with
      | none =>
        show (after earlier).rule? name = _
        rw [ih name, lastDefinition]
        by_cases hn : n = name
        · subst hn
          rw [hd, if_pos rfl]
          rfl
        · rw [if_neg hn]
      | some d =>
        show ((after earlier).rules.insert n _).get? name = _
        rw [OrderedMap.get?_insert, lastDefinition]
        by_cases hn : n = name
        · subst hn
          rw [if_pos rfl, if_pos rfl, hd]
          rfl
        · rw [if_neg hn, if_neg (Ne.symm hn)]
          exact ih name
    | setTerminalTransform type transform => exact ih name

theorem get?_terminalTransforms_after (type : String) :
    (after history).terminalTransforms.get? type = lastTransform type history := by
  induction history with
  | nil => rfl
  | cons change earlier ih =>
    rw [after]
    cases change with
    | rule => exact ih
    | setRoot =>
      rw [register_setRoot]
      split <;> exact ih
    | setTransform n =>
      rw [register_setTransform]
      cases (after earlier).rule? n <;> exact ih
    | setTerminalTransform t transform =>
      show ((after earlier).terminalTransforms.insert t transform).get? type = _
      rw [OrderedMap.get?_insert, lastTransform, ih]
      exact if_congr eq_comm rfl rfl

theorem rootName_after : (after history).rootName = lastRoot history := by
  induction history with
  | nil => rfl
  | cons change earlier ih =>
    rw [after]
    cases change with
    | rule name content isRoot =>
      cases isRoot with
      | true => rfl
      | false => exact ih
    | setRoot name =>
      rw [register_setRoot, rule?_after, Option.isSome_map, lastRoot]
      split
      · rfl
      · exact ih
    | setTransform n =>
      rw [register_setTransform]
      cases (after earlier).rule? n <;> exact ih
    | setTerminalTransform => exact ih

/-! ## What is left in force -/

theorem isSome_definition_of_lastRoot {name : String} (h : lastRoot history = some name) :
    (lastDefinition name history).isSome := by
  induction history with
  | nil => cases h
  | cons change earlier ih =>
    cases change with
    | rule n content isRoot =>
      rw [lastDefinition]
      split
      · rfl
      · next hn =>
        cases isRoot with
        | true => exact absurd (Option.some.inj h) hn
        | false => exact ih h
    | setRoot n =>
      rw [lastRoot] at h
      split at h
      · next hd =>
        obtain rfl := Option.some.inj h
        exact hd
      · exact ih h
    | setTransform n transform =>
      rw [lastDefinition]
      split
      · rw [Option.isSome_map]
        exact ih h
      · exact ih h
    | setTerminalTransform => exact ih h

theorem setRoot_after_eq_error (name : String) :
    (after history).setRoot name = .error (.undefinedRule name) ↔
      lastDefinition name history = none := by
  have hrule := rule?_after history name
  unfold rule? at hrule
  rw [setRoot, makeRoot, OrderedMap.contains_eq, hrule]
  cases lastDefinition name history <;> simp [ofChange]

theorem lastRoot_eq_none :
    lastRoot history = none ↔
      (∀ name content, .rule name content true ∉ history) ∧
        ∀ name earlier, .setRoot name :: earlier <:+ history →
          (after earlier).setRoot name = .error (.undefinedRule name) := by
  induction history with
  | nil => simp [lastRoot]
  | cons change earlier ih =>
    simp only [List.suffix_cons_iff, List.cons.injEq, List.mem_cons, not_or, or_imp, forall_and]
    cases change with
    | rule n content isRoot =>
      cases isRoot with
      | true => simp [lastRoot]
      | false => simpa [lastRoot] using ih
    | setRoot n =>
      rw [lastRoot]
      cases hd : lastDefinition n earlier with
      | none => simpa [setRoot_after_eq_error, hd] using ih
      | some d => simp [setRoot_after_eq_error, hd]
    | setTransform n transform => simpa [lastRoot] using ih
    | setTerminalTransform type transform => simpa [lastRoot] using ih

theorem transform_of_lastDefinition {name : String} {later : List Registration}
    (content : Element) (isRoot : Bool) (earlier : List Registration)
    (h : ∀ transform, .setTransform name (some transform) ∉ later) :
    ∃ content', lastDefinition name (later ++ .rule name content isRoot :: earlier) =
      some (content', none) := by
  induction later with
  | nil => exact ⟨content, if_pos rfl⟩
  | cons change later ih =>
    obtain ⟨content', hd⟩ := ih fun t ht => h t (List.mem_cons_of_mem _ ht)
    rw [List.cons_append]
    cases change with
    | rule n content'' isRoot' =>
      rw [lastDefinition]
      split
      · exact ⟨content'', rfl⟩
      · exact ⟨content', hd⟩
    | setTransform n transform =>
      rw [lastDefinition, hd]
      split
      · next hn =>
        subst hn
        cases transform with
        | none => exact ⟨content', rfl⟩
        | some t => exact absurd List.mem_cons_self (h t)
      · exact ⟨content', rfl⟩
    | _ => exact ⟨content', hd⟩

theorem sameTables_after {history history' : List Registration}
    (hd : ∀ name, lastDefinition name history = lastDefinition name history')
    (ht : ∀ type, lastTransform type history = lastTransform type history')
    (hr : lastRoot history = lastRoot history') : (after history).SameTables (after history') where
  rule_eq name := by rw [rule?_after, rule?_after, hd]
  terminal_eq type := by rw [get?_terminalTransforms_after, get?_terminalTransforms_after, ht]
  root_eq := by
    have hrule : (after history).rule? = (after history').rule? := by
      funext name
      rw [rule?_after, rule?_after, hd]
    unfold root?
    rw [rootName_after, rootName_after, hr, hrule]

/-- **Only what is left in force counts.** Histories that leave the same definitions with the same
transforms, the same transforms of terminals and the same root lead to the same parses, with the
same streams after them, in whatever order things were registered and replaced. A rule that is
registered anew has no transform until one is set. There is no root rule exactly if no rule was
registered as one, and no choice of one succeeded. -/
theorem parse_after_eq :
    (∀ history history',
      (∀ name, lastDefinition name history = lastDefinition name history') →
      (∀ type, lastTransform type history = lastTransform type history') →
      lastRoot history = lastRoot history' →
      ∀ s, (after history).attemptRoot s = (after history').attemptRoot s ∧
        (after history).parse s = (after history').parse s) ∧
    (∀ name content isRoot later earlier,
      (∀ transform, .setTransform name (some transform) ∉ later) →
      ∃ r, (after (later ++ .rule name content isRoot :: earlier)).rule? name = some r ∧
        r.transform = none) ∧
    ∀ history, (after history).root? = none ↔
      (∀ name content, .rule name content true ∉ history) ∧
        ∀ name earlier, .setRoot name :: earlier <:+ history →
          (after earlier).setRoot name = .error (.undefinedRule name) := by
  refine ⟨fun history history' hd ht hr s => ?_, fun name content isRoot later earlier h => ?_,
    fun history => ?_⟩
  · have htables := sameTables_after hd ht hr
    exact ⟨htables.attemptRoot_eq s, htables.parse_eq s⟩
  · obtain ⟨content', hd⟩ := transform_of_lastDefinition content isRoot earlier h
    refine ⟨⟨name, content', none⟩, ?_, rfl⟩
    rw [rule?_after, hd]
    rfl
  · rw [← lastRoot_eq_none, root?, rootName_after]
    cases hr : lastRoot history with
    | none => simp
    | some name =>
      obtain ⟨d, hd⟩ := Option.isSome_iff_exists.mp (isSome_definition_of_lastRoot history hr)
      simp [rule?_after, hd]

/-- Two rules in either order. In the second history one of them replaces another definition, whose
transform is gone, and the root is chosen afterwards. -/
theorem parse_after_reordering :
    let renamed : Transform := fun n => .ok { n with name := "renamed" }
    let list : Element := .many (.ref "item")
    let history : List Registration :=
      [.setTransform "list" (some renamed), .rule "list" list true,
        .rule "item" (.terminal "A") false]
    let replaced : List Registration :=
      [.setTransform "item" (some renamed), .rule "item" list true]
    let history' : List Registration :=
      [.setRoot "list", .setRoot "missing", .setTransform "list" (some renamed),
        .rule "list" list false] ++
        .rule "item" (.terminal "A") false :: replaced
    let s := TokenStream.ofTokens [.ofType "a" "A" .start .start]
    (after history).parse s = (after history').parse s ∧
      ∃ r, (after history').rule? "item" = some r ∧ r.transform = none := by
  intro renamed list history replaced history' s
  have hd : ∀ name, lastDefinition name history = lastDefinition name history' := by
    intro name
    by_cases hlist : "list" = name
    · subst hlist
      rfl
    by_cases hitem : "item" = name
    · subst hitem
      rfl
    simp [history, history', replaced, lastDefinition, hlist, hitem]
  have hr : lastRoot history = lastRoot history' := by
    simp [history, history', replaced, lastRoot, lastDefinition]
  exact ⟨(parse_after_eq.1 history history' hd (fun _ => rfl) hr s).2,
    parse_after_eq.2.1 "item" (.terminal "A") false _ replaced (by simp)⟩

end Grammar

end ParserKit
