import Mathlib
import ParserKit.Lexer.ConfigJson
import ParserKit.Proofs.Json.Rendering
import ParserKit.Proofs.Json.Same

/-!
# Configurations and their documents

* `Json.Presents`: a document for a structure in which some of its fields are present.
  `Json.Presents.record_eq` says what is read of it.
* `CommentType.Denoted` and the like: the documents of the parts of a configuration.
* `ConfigField`, `LexerConfig.Denotes`: the fields of a configuration, and documents for their
  values.
* `LexerConfig.restrict`: the defaults, overridden in some fields. This is what
  `LexerConfig.ofJson?_eq` reads.
* **`LexerConfig.ofText?_toText`**: a configuration is read back from its text.
* **`LexerConfig.ofText?_partial`**: partial documents mean the defaults overridden.
-/

namespace ParserKit

/-! ## Structures -/

namespace Json

variable {names : List String} {given unknown fields : List (String × Json)} {name : String}
  {j : Json}

/-- **A document for a structure** with the field names `names`, of which just the fields `given`
are present: an object that holds them in any order, once each and mixed with fields of other names,
or an array of the first fields. -/
inductive Presents (names : List String) : List (String × Json) → Json → Prop
  | object {given unknown fields : List (String × Json)} (hunknown : ∀ f ∈ unknown, f.1 ∉ names)
    (hfields : fields.Perm (given ++ unknown)) : Presents names given (.ofFields fields)
  | array {values : List Json} (hvalues : values.length ≤ names.length) :
    Presents names (names.zip values) (.array values)

theorem valuesOf_ofFields (hnodup : (given.map Prod.fst).Nodup)
    (hunknown : ∀ f ∈ unknown, f.1 ∉ names) (hfields : fields.Perm (given ++ unknown))
    (hname : name ∈ names) :
    valuesOf name (fields.map fun f => (some f.1, f.2)) = (given.lookup name).toList := by
  have hnone : unknown.filter (fun f => f.1 == name) = [] := by
    rw [List.filter_eq_nil_iff]
    intro f hf hn
    exact hunknown f hf (eq_of_beq hn ▸ hname)
  have hperm := (hfields.filter fun f => f.1 == name).map Prod.snd
  rw [List.filter_append, hnone, List.append_nil, filter_eq_lookup hnodup] at hperm
  rw [valuesOf_map]
  cases hgiven : given.lookup name with
  | none => exact (hgiven ▸ hperm).eq_nil
  | some value => exact (hgiven ▸ hperm).eq_singleton

theorem map_lookup_zip {values : List Json} (hnames : names.Nodup)
    (hvalues : values.length ≤ names.length) :
    names.map (fun n => (names.zip values).lookup n) =
      values.map some ++ List.replicate (names.length - values.length) none := by
  induction names generalizing values with
  | nil =>
    obtain rfl := List.length_eq_zero_iff.mp (Nat.le_zero.mp hvalues)
    rfl
  | cons n names ih =>
    rw [List.nodup_cons] at hnames
    cases values with
    | nil =>
      rw [List.zip_nil_right]
      simp [List.replicate_succ]
    | cons value values =>
      have hrest : ∀ m ∈ names,
          ((n, value) :: names.zip values).lookup m = (names.zip values).lookup m := by
        intro m hm
        have hne : m ≠ n := by
          rintro rfl
          exact hnames.1 hm
        rw [List.lookup_cons, beq_false_of_ne hne]
      rw [List.zip_cons_cons, List.map_cons, List.map_congr_left hrest,
        ih hnames.2 (by simpa using hvalues)]
      simp

theorem nodup_zip {values : List Json} (hnames : names.Nodup)
    (hvalues : values.length ≤ names.length) : ((names.zip values).map Prod.fst).Nodup := by
  rw [List.zip_eq_zip_take_min, Nat.min_eq_right hvalues, List.take_length, List.map_fst_zip]
  · exact hnames.sublist (List.take_sublist _ _)
  · exact List.length_take_le _ _

/-- **What is read of a structure**: each field that is present. -/
theorem Presents.record_eq (h : Presents names given j) (hnames : names.Nodup)
    (hnodup : (given.map Prod.fst).Nodup) :
    j.record names = some (names.map fun n => given.lookup n) := by
  cases h with
  | @object given unknown fields hunknown hfields =>
    have hvalues : ∀ n ∈ names,
        valuesOf n (fields.map fun f => (some f.1, f.2)) = (given.lookup n).toList :=
      fun n hn => valuesOf_ofFields hnodup hunknown hfields hn
    rw [ofFields, record, if_pos, List.map_congr_left (g := fun n => given.lookup n)]
    · intro n hn
      rw [hvalues n hn]
      cases given.lookup n <;> rfl
    · rw [Bool.and_eq_true, List.all_eq_true, List.all_eq_true]
      refine ⟨fun f hf => ?_, fun n hn => ?_⟩
      · obtain ⟨f, -, rfl⟩ := List.mem_map.mp hf
        rfl
      · rw [hvalues n hn]
        cases given.lookup n <;> rfl
  | @array values hvalues => rw [record, if_pos hvalues, map_lookup_zip hnames hvalues]

theorem presents_ofFields (names : List String) (given : List (String × Json)) :
    (ofFields given).Presents names given :=
  Presents.object (List.forall_mem_nil _) (List.Perm.of_eq (List.append_nil given).symm)

theorem written_ofFields (h : ∀ f ∈ fields, f.2.Written) : (ofFields fields).Written := by
  refine .object fun f hf => ?_
  obtain ⟨g, hg, rfl⟩ := List.mem_map.mp hf
  exact h g hg

/-! ## Lists -/

def Lists {α : Type} (IsItem : α → Json → Prop) (xs : List α) (j : Json) : Prop :=
  ∃ items, j = .array items ∧ List.Forall₂ IsItem xs items

section Lists

variable {α : Type} {IsItem : α → Json → Prop} {xs : List α}

theorem Lists.list?_eq (h : j.Lists IsItem xs) {read : Json → Option α}
    (hread : ∀ {x i}, IsItem x i → read i = some x) : list? read j = some xs := by
  obtain ⟨items, rfl, hitems⟩ := h
  rw [list?]
  induction hitems with
  | nil => rfl
  | cons hx _ ih =>
    rw [List.mapM_cons, hread hx, ih]
    rfl

theorem lists_map {toJson : α → Json} (h : ∀ x, IsItem x (toJson x)) (xs : List α) :
    (array (xs.map toJson)).Lists IsItem xs := by
  refine ⟨_, rfl, ?_⟩
  induction xs with
  | nil => exact .nil
  | cons x xs ih => exact .cons (h x) ih

theorem written_map {toJson : α → Json} (h : ∀ x, (toJson x).Written) (xs : List α) :
    (array (xs.map toJson)).Written := by
  refine .array fun item hitem => ?_
  obtain ⟨x, -, rfl⟩ := List.mem_map.mp hitem
  exact h x

end Lists

end Json

/-! ## The parts of a configuration -/

/-- A document for a comment type. The nesting may be left out where there is none. -/
inductive CommentType.Denoted (t : CommentType) (j : Json) : Prop
  | full (h : j.Presents ["start", "end", "nested"]
      [("start", .ofText t.start), ("end", .ofText t.stop), ("nested", .bool t.nested)])
  | short (hn : t.nested = false) (h : j.Presents ["start", "end", "nested"]
      [("start", .ofText t.start), ("end", .ofText t.stop)])

/-- A document for a string type. The escape sequence may be left out where there is none. -/
inductive StringType.Denoted (t : StringType) (j : Json) : Prop
  | full (h : j.Presents ["name", "delimiter", "escape"]
      [("name", .ofText t.name), ("delimiter", .ofText t.delimiter),
        ("escape", t.escape.elim .null .ofText)])
  | short (he : t.escape = none) (h : j.Presents ["name", "delimiter", "escape"]
      [("name", .ofText t.name), ("delimiter", .ofText t.delimiter)])

def Symbol.Denoted (s : Symbol) (j : Json) : Prop :=
  j.Presents ["sequence", "name"] [("sequence", .ofText s.sequence), ("name", .ofText s.name)]

def TerminalPattern.Denoted (t : TerminalPattern) (j : Json) : Prop :=
  j.Presents ["pattern", "name"] [("pattern", .ofText t.pattern), ("name", .ofText t.name)]

theorem CommentType.Denoted.ofJson?_eq {t : CommentType} {j : Json} (h : t.Denoted j) :
    CommentType.ofJson? j = some t := by
  cases h with
  | full h =>
    rw [CommentType.ofJson?, h.record_eq (by decide) (by simp)]
    rfl
  | short hn h =>
    obtain ⟨start, stop, nested⟩ := t
    obtain rfl : nested = false := hn
    rw [CommentType.ofJson?, h.record_eq (by decide) (by simp)]
    rfl

theorem StringType.Denoted.ofJson?_eq {t : StringType} {j : Json} (h : t.Denoted j) :
    StringType.ofJson? j = some t := by
  obtain ⟨name, delimiter, escape⟩ := t
  cases h with
  | full h =>
    rw [StringType.ofJson?, h.record_eq (by decide) (by simp)]
    cases escape <;> rfl
  | short he h =>
    obtain rfl : escape = none := he
    rw [StringType.ofJson?, h.record_eq (by decide) (by simp)]
    rfl

theorem Symbol.Denoted.ofJson?_eq {s : Symbol} {j : Json} (h : s.Denoted j) :
    Symbol.ofJson? j = some s := by
  rw [Symbol.ofJson?, Json.Presents.record_eq h (by decide) (by simp)]
  rfl

theorem TerminalPattern.Denoted.ofJson?_eq {t : TerminalPattern} {j : Json} (h : t.Denoted j) :
    TerminalPattern.ofJson? j = some t := by
  rw [TerminalPattern.ofJson?, Json.Presents.record_eq h (by decide) (by simp)]
  rfl

/-! ### As they are written -/

theorem CommentType.denoted_toJson (t : CommentType) : t.Denoted t.toJson :=
  .full (Json.presents_ofFields _ _)

theorem StringType.denoted_toJson (t : StringType) : t.Denoted t.toJson := by
  obtain ⟨name, delimiter, escape⟩ := t
  cases escape <;> exact .full (Json.presents_ofFields _ _)

theorem Symbol.denoted_toJson (s : Symbol) : s.Denoted s.toJson := Json.presents_ofFields _ _

theorem TerminalPattern.denoted_toJson (t : TerminalPattern) : t.Denoted t.toJson :=
  Json.presents_ofFields _ _

theorem CommentType.written_toJson (t : CommentType) : t.toJson.Written := by
  refine Json.written_ofFields ?_
  simp [Json.ofText, Json.Written.string, Json.Written.bool]

theorem StringType.written_toJson (t : StringType) : t.toJson.Written := by
  obtain ⟨name, delimiter, escape⟩ := t
  refine Json.written_ofFields ?_
  cases escape <;> simp [Json.ofText, Json.Written.string, Json.Written.null]

theorem Symbol.written_toJson (s : Symbol) : s.toJson.Written := by
  refine Json.written_ofFields ?_
  simp [Json.ofText, Json.Written.string]

theorem TerminalPattern.written_toJson (t : TerminalPattern) : t.toJson.Written := by
  refine Json.written_ofFields ?_
  simp [Json.ofText, Json.Written.string]

/-! ## The fields of a configuration -/

/-- A field of a configuration. -/
inductive ConfigField where
  | whitespace
  | caseSensitive
  | multiType
  | comments
  | strings
  | symbols
  | keywords
  | terminals
deriving DecidableEq

namespace ConfigField

def all : List ConfigField :=
  [whitespace, caseSensitive, multiType, comments, strings, symbols, keywords, terminals]

def name : ConfigField → String
  | whitespace => "whitespace"
  | caseSensitive => "case_sensitive"
  | multiType => "multi_type_tokens"
  | comments => "comment_types"
  | strings => "string_types"
  | symbols => "symbols"
  | keywords => "keywords"
  | terminals => "terminals"

theorem name_injective : Function.Injective name := by
  intro f g h
  cases f <;> cases g <;> simp [name] at h ⊢

end ConfigField

namespace LexerConfig

/-- A document for the value of a field. -/
def Denotes (c : LexerConfig) : ConfigField → Json → Prop
  | .whitespace, j => j = .ofText c.whitespace
  | .caseSensitive, j => j = .bool c.caseSensitive
  | .multiType, j => j = .bool c.multiType
  | .comments, j => j.Lists CommentType.Denoted c.comments
  | .strings, j => j.Lists StringType.Denoted c.strings
  | .symbols, j => j.Lists Symbol.Denoted c.symbols
  | .keywords, j => j.Lists (fun keyword i => i = .ofText keyword) c.keywords
  | .terminals, j => j.Lists TerminalPattern.Denoted c.terminals

/-- **The defaults overridden**: some fields of a configuration, and the defaults of the others. -/
def restrict (c : LexerConfig) (S : List ConfigField) : LexerConfig :=
  let default : LexerConfig := {}
  { whitespace := if .whitespace ∈ S then c.whitespace else default.whitespace
    caseSensitive := if .caseSensitive ∈ S then c.caseSensitive else default.caseSensitive
    multiType := if .multiType ∈ S then c.multiType else default.multiType
    comments := if .comments ∈ S then c.comments else default.comments
    strings := if .strings ∈ S then c.strings else default.strings
    symbols := if .symbols ∈ S then c.symbols else default.symbols
    keywords := if .keywords ∈ S then c.keywords else default.keywords
    terminals := if .terminals ∈ S then c.terminals else default.terminals }

def entries (S : List ConfigField) (values : List Json) : List (String × Json) :=
  (S.map ConfigField.name).zip values

section Partial

variable {c : LexerConfig} {S : List ConfigField} {values : List Json}

theorem lookup_entries (h : List.Forall₂ c.Denotes S values) (f : ConfigField) :
    (f ∉ S ∧ (entries S values).lookup f.name = none) ∨
      (f ∈ S ∧ ∃ v, (entries S values).lookup f.name = some v ∧ c.Denotes f v) := by
  induction h with
  | nil => exact .inl ⟨by simp, rfl⟩
  | @cons g v S values hv _ ih =>
    rw [entries, List.map_cons, List.zip_cons_cons, List.lookup_cons]
    by_cases hf : f = g
    · subst hf
      exact .inr ⟨List.mem_cons_self, v, by simp, hv⟩
    · have hname : f.name ≠ g.name := fun h => hf (ConfigField.name_injective h)
      rw [beq_false_of_ne hname, List.mem_cons]
      simpa only [hf, false_or, entries] using ih

theorem defaultField_entries {α : Type} (h : List.Forall₂ c.Denotes S values) (f : ConfigField)
    (read : Json → Option α) {x : α} (hread : ∀ v, c.Denotes f v → read v = some x) (default : α) :
    defaultField read default ((entries S values).lookup f.name) =
      some (if f ∈ S then x else default) := by
  rcases lookup_entries h f with ⟨hf, hlookup⟩ | ⟨hf, v, hlookup, hv⟩
  · rw [hlookup, if_neg hf]
    rfl
  · rw [hlookup, if_pos hf]
    exact hread v hv

theorem ofJson?_eq {j : Json} (hS : S.Nodup) (h : List.Forall₂ c.Denotes S values)
    (hj : j.Presents fieldNames (entries S values)) : ofJson? j = some (c.restrict S) := by
  have hnodup : ((entries S values).map Prod.fst).Nodup :=
    Json.nodup_zip (List.Nodup.map ConfigField.name_injective hS)
      (by rw [List.length_map]; exact Nat.le_of_eq h.length_eq.symm)
  rw [ofJson?, hj.record_eq (by decide) hnodup]
  have whitespace := defaultField_entries h .whitespace Json.text? fun v hv => congrArg _ hv
  have caseSensitive := defaultField_entries h .caseSensitive Json.flag? fun v hv => congrArg _ hv
  have multiType := defaultField_entries h .multiType Json.flag? fun v hv => congrArg _ hv
  have comments := defaultField_entries h .comments (Json.list? CommentType.ofJson?)
    fun v hv => Json.Lists.list?_eq hv CommentType.Denoted.ofJson?_eq
  have strings := defaultField_entries h .strings (Json.list? StringType.ofJson?)
    fun v hv => Json.Lists.list?_eq hv StringType.Denoted.ofJson?_eq
  have symbols := defaultField_entries h .symbols (Json.list? Symbol.ofJson?)
    fun v hv => Json.Lists.list?_eq hv Symbol.Denoted.ofJson?_eq
  have keywords := defaultField_entries h .keywords (Json.list? Json.text?)
    fun v hv => Json.Lists.list?_eq hv fun hk => congrArg _ hk
  have terminals := defaultField_entries h .terminals (Json.list? TerminalPattern.ofJson?)
    fun v hv => Json.Lists.list?_eq hv TerminalPattern.Denoted.ofJson?_eq
  simp only [ConfigField.name] at *
  simp only [fieldNames, List.map_cons, List.map_nil, Option.bind_eq_bind, Option.bind_some, *]
  rfl

/-- **The two forms of a document agree**, whatever its values are. -/
theorem ofJson?_array {values : List Json} (h : values.length ≤ fieldNames.length) :
    ofJson? (.array values) = ofJson? (.ofFields (fieldNames.zip values)) := by
  have hnames : fieldNames.Nodup := by decide
  have hnodup := Json.nodup_zip hnames h
  rw [ofJson?, ofJson?, (Json.Presents.array h).record_eq hnames hnodup,
    (Json.presents_ofFields _ _).record_eq hnames hnodup]

theorem zip_eq_entries {k : Nat} (h : List.Forall₂ c.Denotes (ConfigField.all.take k) values) :
    fieldNames.zip values = entries (ConfigField.all.take k) values := by
  obtain ⟨rest, hrest⟩ := List.take_prefix k ConfigField.all
  have hnames : fieldNames =
      (ConfigField.all.take k).map ConfigField.name ++ rest.map ConfigField.name := by
    rw [← List.map_append, hrest]
    rfl
  have hlength : ((ConfigField.all.take k).map ConfigField.name).length = values.length := by
    rw [List.length_map, h.length_eq]
  conv => lhs; rw [hnames, ← List.append_nil values]
  rw [List.zip_append hlength, List.zip_nil_right, List.append_nil, entries]

/-- **A document that repeats a field describes nothing.** -/
theorem ofJson?_of_repeated {fields : List (Option String × Json)} {name : String}
    (hname : name ∈ fieldNames) (h : 2 ≤ (fields.map Prod.fst).count (some name)) :
    ofJson? (.object fields) = none := by
  have hlength : (Json.valuesOf name fields).length = (fields.map Prod.fst).count (some name) := by
    rw [Json.valuesOf, List.length_map, ← List.countP_eq_length_filter, List.count_eq_countP,
      List.countP_map]
    rfl
  have hall : (fieldNames.all fun n => decide ((Json.valuesOf n fields).length ≤ 1)) = false := by
    rw [List.all_eq_false]
    exact ⟨name, hname, by rw [hlength, decide_eq_true_eq]; omega⟩
  rw [ofJson?, Json.record, hall, Bool.and_false]
  rfl

end Partial

/-! ## Configurations as they are written -/

def values (c : LexerConfig) : List Json :=
  [.ofText c.whitespace, .bool c.caseSensitive, .bool c.multiType,
    .array (c.comments.map CommentType.toJson), .array (c.strings.map StringType.toJson),
    .array (c.symbols.map Symbol.toJson), textList c.keywords,
    .array (c.terminals.map TerminalPattern.toJson)]

theorem toJson_eq (c : LexerConfig) : c.toJson = .ofFields (entries ConfigField.all c.values) := rfl

theorem denotes_values (c : LexerConfig) : List.Forall₂ c.Denotes ConfigField.all c.values := by
  have hkeywords : Json.Lists (fun keyword i => i = .ofText keyword) c.keywords
      (textList c.keywords) := by
    refine Json.lists_map (fun keyword => ?_) c.keywords
    rfl
  exact .cons rfl <| .cons rfl <| .cons rfl <|
    .cons (Json.lists_map CommentType.denoted_toJson _) <|
    .cons (Json.lists_map StringType.denoted_toJson _) <|
    .cons (Json.lists_map Symbol.denoted_toJson _) <| .cons hkeywords <|
    .cons (Json.lists_map TerminalPattern.denoted_toJson _) .nil

theorem written_toJson (c : LexerConfig) : c.toJson.Written := by
  refine Json.written_ofFields ?_
  simp only [List.forall_mem_cons]
  exact ⟨.string _, .bool _, .bool _, Json.written_map CommentType.written_toJson _,
    Json.written_map StringType.written_toJson _, Json.written_map Symbol.written_toJson _,
    Json.written_map (fun _ => .string _) _, Json.written_map TerminalPattern.written_toJson _,
    List.forall_mem_nil _⟩

/-- **A configuration is read back from its text**, whatever characters it contains. -/
theorem ofText?_toText (c : LexerConfig) : ofText? c.toText = some c := by
  have hall : c.restrict ConfigField.all = c := rfl
  rw [ofText?, toText, Json.parse_render c.written_toJson, Option.bind_some, toJson_eq,
    ofJson?_eq (by decide) c.denotes_values (Json.presents_ofFields _ _), hall]

/-! ## Partial documents -/

/-- **Partial documents mean the defaults overridden.** An object with the values of some fields,
once each, in any order and mixed with fields of other names, describes the configuration with these
values and the defaults of the other fields. So does an array with the values of the first fields,
which is read like the object with these fields. An object that repeats a field describes
nothing. -/
theorem ofText?_partial :
    (∀ (c : LexerConfig) (S : List ConfigField) (values : List Json)
        (unknown fields : List (String × Json)) (text : String),
      S.Nodup → List.Forall₂ c.Denotes S values → (∀ f ∈ unknown, f.1 ∉ fieldNames) →
      fields.Perm (entries S values ++ unknown) → Json.parse text = some (.ofFields fields) →
      ofText? text = some (c.restrict S)) ∧
    (∀ (c : LexerConfig) (k : Nat) (values : List Json) (text : String),
      List.Forall₂ c.Denotes (ConfigField.all.take k) values →
      Json.parse text = some (.array values) →
      ofText? text = some (c.restrict (ConfigField.all.take k))) ∧
    (∀ (values : List Json) (text text' : String), values.length ≤ fieldNames.length →
      Json.parse text = some (.array values) →
      Json.parse text' = some (.ofFields (fieldNames.zip values)) → ofText? text = ofText? text') ∧
    (∀ (name : String) (fields : List (Option String × Json)) (text : String), name ∈ fieldNames →
      2 ≤ (fields.map Prod.fst).count (some name) → Json.parse text = some (.object fields) →
      ofText? text = none) := by
  refine ⟨fun c S values unknown fields text hS h hunknown hfields htext => ?_,
    fun c k values text h htext => ?_, fun values text text' h htext htext' => ?_,
    fun name fields text hname h htext => ?_⟩
  · rw [ofText?, htext]
    exact ofJson?_eq hS h (.object hunknown hfields)
  · have hall : ConfigField.all.Nodup := by decide
    have hlength : values.length ≤ fieldNames.length := by
      rw [← h.length_eq]
      exact List.length_take_le' _ _
    rw [ofText?, htext, Option.bind_some, ofJson?_array hlength, zip_eq_entries h]
    exact ofJson?_eq (hall.sublist (List.take_sublist _ _)) h (Json.presents_ofFields _ _)
  · rw [ofText?, htext, ofText?, htext']
    exact ofJson?_array h
  · rw [ofText?, htext]
    exact ofJson?_of_repeated hname h

/-- Two fields out of order with another one between them, the comment type without its nesting and
out of order as well; an array of two fields; a value of the wrong kind; a field given twice. -/
theorem partial_of_two_fields :
    ofText? ("\x7b\"keywords\":[\"or\"],\"x\":1," ++
          "\"comment_types\":[\x7b\"end\":\"#\",\"start\":\"--\"\x7d]\x7d") =
        some { comments := [⟨"--", "#", false⟩], keywords := ["or"] } ∧
      ofText? "[\" \",false]" = some { whitespace := " ", caseSensitive := false } ∧
      ofText? "[\" \",0]" = ofText? "\x7b\"whitespace\":\" \",\"case_sensitive\":0\x7d" ∧
      ofText? "\x7b\"symbols\":[],\"symbols\":[]\x7d" = none := by
  let c : LexerConfig :=
    { whitespace := " ", caseSensitive := false, comments := [⟨"--", "#", false⟩],
      keywords := ["or"] }
  have hcomment : CommentType.Denoted ⟨"--", "#", false⟩
      (.ofFields [("end", .ofText "#"), ("start", .ofText "--")]) :=
    .short rfl (.object (List.forall_mem_nil _) (.swap _ _ _))
  have hcomments : c.Denotes .comments
      (.array [.ofFields [("end", .ofText "#"), ("start", .ofText "--")]]) :=
    ⟨_, rfl, .cons hcomment .nil⟩
  have hkeywords : c.Denotes .keywords (.array [.ofText "or"]) := ⟨_, rfl, .cons rfl .nil⟩
  obtain ⟨hobject, harray, hsame, hrepeated⟩ := ofText?_partial
  refine ⟨?_, ?_, ?_, ?_⟩
  · exact hobject c [.keywords, .comments] _ [("x", .number "1")] _ _ (by decide)
      (.cons hkeywords (.cons hcomments .nil)) (by decide) (.cons _ (.swap _ _ _)) (by cbv)
  · exact harray c 2 _ _ (.cons rfl (.cons rfl .nil)) (by cbv)
  · exact hsame [.ofText " ", .number "0"] _ _ (by decide) (by cbv) (by cbv)
  · exact hrepeated "symbols" [(some "symbols", .array []), (some "symbols", .array [])] _
      (by decide) (by decide) (by cbv)

end LexerConfig

end ParserKit
