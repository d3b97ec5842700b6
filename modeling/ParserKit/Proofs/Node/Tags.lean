import ParserKit.Node.Markup
import ParserKit.Proofs.Node.Trees
import ParserKit.Text.Class

/-!
# The tags of markup

* `Node.All`: what holds at every node of a tree. `Node.WellNamed`: trees whose names can stand in
  tags.
* `Escaped`: texts in which every markup character is escaped.
* `Tag`, `Tag.read?`: a tag, and how it is read from what stands between its angle brackets.
* `Markup`: tags, and the texts between them. `Markup.read?`, `Markup.render`: how they are read and
  written. `Markup.read?_render`: what is written is read back.
* `Node.tags`, `Node.toMarkup`: the tags of a tree. `Node.valid_toMarkup`: they are valid.
* `Node.lines`: what is written for the tags of a node. **`Node.walkFrom_writer`**: a walk writes
  them, and so **`Node.render_toMarkup`**: what is written for the tags of a tree is its whole text.
-/

namespace ParserKit

/-! ## Names -/

/-- Whether a character may stand in the name of a tag or of an attribute: it is neither white space
nor a sign that tags are made of. -/
def isTagChar (c : Char) : Bool := !(isBlank c || ['<', '>', '/', '=', '"'].contains c)

/-- A name that tags and attributes can have. -/
def IsTagName (s : String) : Prop := s ≠ "" ∧ s.toList.all isTagChar = true

instance : DecidablePred IsTagName := fun _ => inferInstanceAs (Decidable (_ ∧ _))

theorem IsTagName.forall_mem {s : String} (h : IsTagName s) : ∀ c ∈ s.toList, isTagChar c = true :=
  List.all_eq_true.mp h.2

theorem IsTagName.not_mem {s : String} {c : Char} (h : IsTagName s) (hc : isTagChar c = false) :
    c ∉ s.toList := by
  intro hmem
  rw [h.forall_mem c hmem] at hc
  cases hc

/-! ## Trees -/

namespace Node

/-- A property holds at every node of a tree. -/
inductive All (P : Node → Prop) : Node → Prop
  | node {n : Node} (here : P n) (below : ∀ c ∈ n.children, All P c) : All P n

theorem all_iff {P : Node → Prop} {n : Node} : n.All P ↔ P n ∧ ∀ c ∈ n.children, c.All P :=
  ⟨fun | .node here below => ⟨here, below⟩, fun h => .node h.1 h.2⟩

/-- **A tree whose names can stand in tags**: those of its nodes and those of their attributes. -/
def WellNamed (n : Node) : Prop :=
  n.All fun m => IsTagName m.name ∧ ∀ key ∈ m.attrs.names, IsTagName key

end Node

/-! ## Escaped texts -/

/-- The entities, by which markup characters are escaped. -/
def entities : List String := ["&amp;", "&lt;", "&gt;", "&quot;", "&apos;"]

/-- **A text in which every markup character is escaped**: entities, and characters that are neither
angle brackets nor quotes nor ampersands. -/
inductive Escaped : List Char → Prop
  | nil : Escaped []
  | char {c : Char} {s : List Char} (hc : c ∉ ['<', '>', '"', '\'', '&']) (hs : Escaped s) :
    Escaped (c :: s)
  | entity {e : String} {s : List Char} (he : e ∈ entities) (hs : Escaped s) :
    Escaped (e.toList ++ s)

namespace Escaped

variable {s t : List Char} {c : Char}

theorem append (hs : Escaped s) (ht : Escaped t) : Escaped (s ++ t) := by
  induction hs with
  | nil => exact ht
  | char hc _ ih => exact .char hc ih
  | entity he _ ih =>
    rw [List.append_assoc]
    exact .entity he ih

theorem not_mem (hs : Escaped s) (hc : c ∈ ['<', '>', '"', '\'']) : c ∉ s := by
  have hentities : ∀ e ∈ entities, e.toList.all (fun d => d ∉ ['<', '>', '"', '\'']) = true := by
    decide
  induction hs with
  | nil => exact List.not_mem_nil
  | @char d s hd _ ih =>
    rw [List.mem_cons, not_or]
    refine ⟨?_, ih⟩
    rintro rfl
    exact hd (List.mem_append_left ['&'] hc)
  | @entity e s he _ ih =>
    rw [List.mem_append, not_or]
    refine ⟨fun hmem => ?_, ih⟩
    exact of_decide_eq_true (List.all_eq_true.mp (hentities e he) c hmem) hc

theorem replicate_blank (n : Nat) : Escaped (List.replicate n ' ') := by
  induction n with
  | zero => exact .nil
  | succ n ih => exact .char (by decide) ih

end Escaped

theorem escapeMarkup_cases (c : Char) :
    (∃ e ∈ entities, escapeMarkup c = e.toList) ∨
      c ∉ ['<', '>', '"', '\'', '&'] ∧ escapeMarkup c = [c] := by
  unfold escapeMarkup
  split
  · exact .inl ⟨"&amp;", by decide, rfl⟩
  · exact .inl ⟨"&lt;", by decide, rfl⟩
  · exact .inl ⟨"&gt;", by decide, rfl⟩
  · exact .inl ⟨"&quot;", by decide, rfl⟩
  · exact .inl ⟨"&apos;", by decide, rfl⟩
  · next hamp hlt hgt hquot hapos =>
    refine .inr ⟨?_, rfl⟩
    simp only [List.mem_cons, List.not_mem_nil, or_false, not_or]
    exact ⟨hlt, hgt, hquot, hapos, hamp⟩

theorem escaped_markupText (s : String) : Escaped (markupText s) := by
  rw [markupText]
  induction s.toList with
  | nil => exact .nil
  | cons c s ih =>
    rw [List.flatMap_cons]
    rcases escapeMarkup_cases c with ⟨e, he, heq⟩ | ⟨hc, heq⟩
    · rw [heq]
      exact .entity he ih
    · rw [heq]
      exact .char hc ih

/-! ## Tags -/

/-- A tag. The values of its attributes are kept as they are written. -/
inductive Tag where
  | opening (name : String) (attrs : List (String × List Char))
  | single (name : String) (attrs : List (String × List Char))
  | closing (name : String)
  deriving DecidableEq

def readTagName? (s : List Char) : Option (String × List Char) :=
  if (s.takeWhile isTagChar).isEmpty then none
  else some (.ofList (s.takeWhile isTagChar), s.dropWhile isTagChar)

/-- The attributes of a tag, whose text is given cut at the quotes, and what stands behind them.
Each of them has a blank before it and an equals sign before its value. -/
def readTagAttrs? : List (List Char) → Option (List (String × List Char) × List Char)
  | [last] => some ([], last)
  | (' ' :: s) :: value :: more =>
    match readTagName? s, readTagAttrs? more with
    | some (key, ['=']), some (attrs, last) => some ((key, value) :: attrs, last)
    | _, _ => none
  | _ => none

namespace Tag

/-- The tag that begins with a name and attributes, by what stands behind them. -/
def ofEnd? (name : String) (attrs : List (String × List Char)) : List Char → Option Tag
  | [] => some (.opening name attrs)
  | ['/'] => some (.single name attrs)
  | _ => none

def read? : List Char → Option Tag
  | '/' :: s =>
    match readTagName? s with
    | some (name, []) => some (.closing name)
    | _ => none
  | s =>
    (readTagName? s).bind fun (name, s) =>
      (readTagAttrs? (s.splitOn '"')).bind fun (attrs, s) => ofEnd? name attrs s

def attrsBody (attrs : List (String × List Char)) : List Char :=
  attrs.flatMap fun e => ' ' :: e.1.toList ++ '=' :: '"' :: e.2 ++ ['"']

def body : Tag → List Char
  | opening name attrs => name.toList ++ attrsBody attrs
  | single name attrs => name.toList ++ (attrsBody attrs ++ ['/'])
  | closing name => '/' :: name.toList

def name : Tag → String
  | opening name _ | single name _ | closing name => name

def attrs : Tag → List (String × List Char)
  | opening _ attrs | single _ attrs => attrs
  | closing _ => []

/-- **A tag that can be read back**: its names are names, and its values are escaped. -/
structure Valid (t : Tag) : Prop where
  name : IsTagName t.name
  keys : ∀ e ∈ t.attrs, IsTagName e.1
  values : ∀ e ∈ t.attrs, Escaped e.2

end Tag

section

variable {name : String} {attrs : List (String × List Char)} {s : List Char}

theorem readTagName?_append (hname : IsTagName name) (hs : s.head?.any isTagChar = false) :
    readTagName? (name.toList ++ s) = some (name, s) := by
  have htake : s.takeWhile isTagChar = [] := by
    cases s with
    | nil => rfl
    | cons c s => exact List.takeWhile_cons_of_neg (Bool.eq_false_iff.mp hs)
  have hdrop : s.dropWhile isTagChar = s := by
    cases s with
    | nil => rfl
    | cons c s => exact List.dropWhile_cons_of_neg (Bool.eq_false_iff.mp hs)
  rw [readTagName?, List.takeWhile_append_of_pos hname.forall_mem,
    List.dropWhile_append_of_pos hname.forall_mem, htake, hdrop, List.append_nil,
    String.ofList_toList, if_neg]
  rw [List.isEmpty_iff, String.toList_eq_nil_iff]
  exact hname.1

theorem readTagName?_toList (hname : IsTagName name) :
    readTagName? name.toList = some (name, []) := by
  have hread := readTagName?_append (s := []) hname rfl
  rwa [List.append_nil] at hread

theorem readTagAttrs?_splitOn (hkeys : ∀ e ∈ attrs, IsTagName e.1)
    (hvalues : ∀ e ∈ attrs, Escaped e.2) (hs : '"' ∉ s) :
    readTagAttrs? ((Tag.attrsBody attrs ++ s).splitOn '"') = some (attrs, s) := by
  induction attrs with
  | nil => exact congrArg readTagAttrs? (List.splitOn_eq_singleton hs)
  | cons e attrs ih =>
    obtain ⟨key, value⟩ := e
    rw [List.forall_mem_cons] at hkeys hvalues
    have hkey : '"' ∉ ' ' :: (key.toList ++ ['=']) := by
      simp [hkeys.1.not_mem (c := '"') rfl]
    have hvalue : '"' ∉ value := hvalues.1.not_mem (by decide)
    have hbody : Tag.attrsBody ((key, value) :: attrs) ++ s =
        (' ' :: (key.toList ++ ['='])) ++ '"' :: (value ++ '"' :: (Tag.attrsBody attrs ++ s)) := by
      simp [Tag.attrsBody]
    rw [hbody, List.splitOn_append_cons_self_of_not_mem hkey,
      List.splitOn_append_cons_self_of_not_mem hvalue, readTagAttrs?,
      readTagName?_append hkeys.1 rfl, ih hkeys.2 hvalues.2]
    rfl

theorem Tag.read?_append (hname : IsTagName name) (hkeys : ∀ e ∈ attrs, IsTagName e.1)
    (hvalues : ∀ e ∈ attrs, Escaped e.2) (hs : '"' ∉ s) (hend : s.head?.any isTagChar = false) :
    read? (name.toList ++ (attrsBody attrs ++ s)) = ofEnd? name attrs s := by
  have hhead : (attrsBody attrs ++ s).head?.any isTagChar = false := by
    cases attrs with
    | nil => exact hend
    | cons e attrs => rfl
  obtain ⟨c, cs, hcs⟩ : ∃ c cs, name.toList = c :: cs :=
    List.exists_cons_of_ne_nil (by simpa using hname.1)
  have hc : c ≠ '/' := by
    rintro rfl
    exact hname.not_mem (c := '/') rfl (hcs ▸ List.mem_cons_self)
  rw [hcs, List.cons_append, read?, ← List.cons_append, ← hcs, readTagName?_append hname hhead,
    Option.bind_some]
  · dsimp only
    rw [readTagAttrs?_splitOn hkeys hvalues hs, Option.bind_some]
  · simpa using hc

end

namespace Tag

variable {t : Tag}

/-- **A valid tag is read back.** -/
theorem read?_body (h : t.Valid) : read? t.body = some t := by
  cases t with
  | opening name attrs =>
    have hread := read?_append (s := []) h.name h.keys h.values List.not_mem_nil rfl
    rw [List.append_nil] at hread
    exact hread
  | single name attrs => exact read?_append h.name h.keys h.values (by decide) rfl
  | closing name =>
    have hname : IsTagName name := h.name
    rw [body, read?, readTagName?_toList hname]

theorem Valid.not_mem_attrsBody {c : Char} (h : t.Valid) (hc : c = '<' ∨ c = '>') :
    c ∉ attrsBody t.attrs := by
  obtain ⟨hname, hvalue, hsign⟩ :
      isTagChar c = false ∧ c ∈ ['<', '>', '"', '\''] ∧ c ∉ [' ', '=', '"'] := by
    rcases hc with rfl | rfl
    · decide
    · decide
  simp only [List.mem_cons, List.not_mem_nil, or_false, not_or] at hsign
  rw [attrsBody, List.mem_flatMap]
  rintro ⟨e, he, hmem⟩
  simp only [List.mem_cons, List.mem_append, hsign, (h.keys e he).not_mem hname,
    (h.values e he).not_mem hvalue, List.not_mem_nil, or_false] at hmem

theorem Valid.not_mem_body {c : Char} (h : t.Valid) (hc : c = '<' ∨ c = '>') : c ∉ t.body := by
  obtain ⟨hplain, hslash⟩ : isTagChar c = false ∧ c ≠ '/' := by
    rcases hc with rfl | rfl
    · decide
    · decide
  have hname := h.name.not_mem hplain
  have hattrs := h.not_mem_attrsBody hc
  cases t with
  | opening name attrs =>
    rw [body, List.mem_append, not_or]
    exact ⟨hname, hattrs⟩
  | single name attrs =>
    rw [body, List.mem_append, List.mem_append, List.mem_singleton, not_or, not_or]
    exact ⟨hname, hattrs, hslash⟩
  | closing name =>
    rw [body, List.mem_cons, not_or]
    exact ⟨hslash, hname⟩

end Tag

/-! ## Markup -/

/-- Tags, each with the text behind it, and the text before the first of them. -/
structure Markup where
  before : List Char
  tags : List (Tag × List Char)

namespace Markup

/-- Reads a tag and the text behind it, from the end of its left angle bracket. -/
def readPiece? (s : List Char) : Option (Tag × List Char) :=
  match s.splitOn '>' with
  | [body, behind] => (Tag.read? body).map fun t => (t, behind)
  | _ => none

/-- **Reads a text as markup.** -/
def read? (s : String) : Option Markup :=
  match s.toList.splitOn '<' with
  | [] => none
  | before :: pieces => (pieces.mapM readPiece?).map fun tags => ⟨before, tags⟩

def renderTags (tags : List (Tag × List Char)) : List Char :=
  tags.flatMap fun e => '<' :: (e.1.body ++ '>' :: e.2)

def render (m : Markup) : String := .ofList (m.before ++ renderTags m.tags)

/-- **Markup with valid tags and escaped texts.** -/
structure Valid (m : Markup) : Prop where
  before : Escaped m.before
  tags : ∀ e ∈ m.tags, e.1.Valid ∧ Escaped e.2

variable {tags : List (Tag × List Char)} {before : List Char}

theorem renderTags_append (tags tags' : List (Tag × List Char)) :
    renderTags (tags ++ tags') = renderTags tags ++ renderTags tags' :=
  List.flatMap_append

theorem readPiece?_append {t : Tag} {behind : List Char} (ht : t.Valid) (hbehind : Escaped behind) :
    readPiece? (t.body ++ '>' :: behind) = some (t, behind) := by
  have hbody : '>' ∉ t.body := ht.not_mem_body (.inr rfl)
  have htext : '>' ∉ behind := hbehind.not_mem (by decide)
  rw [readPiece?, List.splitOn_append_cons_self_of_not_mem hbody, List.splitOn_eq_singleton htext]
  dsimp only
  rw [Tag.read?_body ht]
  rfl

theorem splitOn_renderTags (htags : ∀ e ∈ tags, e.1.Valid ∧ Escaped e.2) (hbefore : '<' ∉ before) :
    (before ++ renderTags tags).splitOn '<' =
      before :: tags.map fun e => e.1.body ++ '>' :: e.2 := by
  induction tags generalizing before with
  | nil =>
    rw [renderTags, List.flatMap_nil, List.append_nil, List.splitOn_eq_singleton hbefore,
      List.map_nil]
  | cons e tags ih =>
    rw [List.forall_mem_cons] at htags
    have hpiece : '<' ∉ e.1.body ++ '>' :: e.2 := by
      have hbody : '<' ∉ e.1.body := htags.1.1.not_mem_body (.inl rfl)
      have htext : '<' ∉ e.2 := htags.1.2.not_mem (by decide)
      simp [hbody, htext]
    rw [renderTags, List.flatMap_cons, List.cons_append,
      List.splitOn_append_cons_self_of_not_mem hbefore, ← renderTags, ih htags.2 hpiece,
      List.map_cons]

theorem mapM_readPiece? (htags : ∀ e ∈ tags, e.1.Valid ∧ Escaped e.2) :
    (tags.map fun e => e.1.body ++ '>' :: e.2).mapM readPiece? = some tags := by
  induction tags with
  | nil => rfl
  | cons e tags ih =>
    rw [List.forall_mem_cons] at htags
    rw [List.map_cons, List.mapM_cons, readPiece?_append htags.1.1 htags.1.2, ih htags.2]
    rfl

/-- **Valid markup is read back**, so that no text is written for two of them. -/
theorem read?_render {m : Markup} (h : m.Valid) : read? m.render = some m := by
  rw [read?, render, String.toList_ofList,
    splitOn_renderTags h.tags (h.before.not_mem (by decide))]
  dsimp only
  rw [mapM_readPiece? h.tags]
  rfl

end Markup

/-! ## The tags of a tree -/

namespace Node

/-- The attributes of a node as they stand in its tag. The id is the last of them. -/
def tagAttrs (attrs : OrderedMap String) (id : Option String) : List (String × List Char) :=
  attrs.entries.map (fun e => (e.1, markupText e.2)) ++
    id.toList.map fun value => ("id", markupText value)

def markupLine (indent depth : Nat) (text : String) : List Char :=
  if text.isEmpty then [] else padding indent depth ++ markupText text ++ ['\n']

/-- What stands between the opening tag of a node and its first child, which has the given depth. -/
def textLines (indent depth : Nat) (text : String) : List Char :=
  '\n' :: (markupLine indent depth text ++ padding indent depth)

mutual

/-- The tags of a node at a given depth, with the text behind the last of them. -/
def tags (indent depth : Nat) : Node → List Char → List (Tag × List Char)
  | ⟨name, text, attrs, id, children⟩, behind =>
    if children.isEmpty then
      if text.isEmpty then [(.single name (tagAttrs attrs id), behind)]
      else [(.opening name (tagAttrs attrs id), markupText text), (.closing name, behind)]
    else
      (.opening name (tagAttrs attrs id), textLines indent (depth + 1) text) ::
      (tagsAll indent (depth + 1) children (padding indent depth) ++ [(.closing name, behind)])

/-- The tags of several nodes at a given depth, with the start of the line behind the last of them.
-/
def tagsAll (indent depth : Nat) : List Node → List Char → List (Tag × List Char)
  | [], _ => []
  | n :: ns, next =>
    tags indent depth n ('\n' :: if ns.isEmpty then next else padding indent depth) ++
      tagsAll indent depth ns next

end

/-- **The markup of a tree**, with `indent` blanks for each level. -/
def toMarkup (indent : Nat) (n : Node) : Markup := ⟨[], n.tags indent 0 ['\n']⟩

variable {indent depth : Nat} {n : Node} {ns : List Node} {behind next after : List Char}

theorem head_eq_markupHead (name : String) (attrs : OrderedMap String) (id : Option String) :
    '<' :: (name.toList ++ Tag.attrsBody (tagAttrs attrs id)) = markupHead name attrs id := by
  rw [markupHead, tagAttrs, Tag.attrsBody, List.flatMap_append, List.flatMap_map, List.flatMap_map,
    List.append_assoc]
  rfl

/-! ### Writing -/

/-- The lines of a node at a given depth. -/
def lines (indent depth : Nat) (n : Node) : List Char :=
  padding indent depth ++ Markup.renderTags (n.tags indent depth ['\n'])

theorem renderTags_tags_append (n : Node) (behind next : List Char) :
    Markup.renderTags (n.tags indent depth (behind ++ next)) =
      Markup.renderTags (n.tags indent depth behind) ++ next := by
  obtain ⟨name, text, attrs, id, children⟩ := n
  rw [tags, tags]
  split
  · split
    · simp [Markup.renderTags]
    · simp [Markup.renderTags]
  · simp [Markup.renderTags]

/-- The blanks before a node belong to the text behind the tag before it. -/
theorem renderTags_tagsAll (hns : ns ≠ []) (next : List Char) :
    padding indent depth ++ Markup.renderTags (tagsAll indent depth ns next) =
      ns.flatMap (lines indent depth) ++ next := by
  induction ns with
  | nil => exact absurd rfl hns
  | cons n ns ih =>
    rw [tagsAll, Markup.renderTags_append, ← List.singleton_append, renderTags_tags_append]
    cases ns with
    | nil => simp [lines, tagsAll, Markup.renderTags]
    | cons m ns =>
      rw [List.isEmpty_cons, if_neg (by decide), List.append_assoc, ih (List.cons_ne_nil _ _),
        @List.flatMap_cons _ _ n, lines]
      simp only [List.append_assoc]

section

variable (h : n.children.isEmpty = false)
include h

theorem lines_of_children :
    lines indent depth n = padding indent depth ++ (markupHead n.name n.attrs n.id ++
      '>' :: '\n' :: markupLine indent (depth + 1) n.text) ++
        n.children.flatMap (lines indent (depth + 1)) ++
          (padding indent depth ++ markupTail n.name) := by
  obtain ⟨name, text, attrs, id, children⟩ := n
  have hbelow := @renderTags_tagsAll indent (depth + 1) children
    (List.isEmpty_eq_false_iff.mp h) (padding indent depth)
  dsimp only at h ⊢
  rw [List.append_assoc _ _ (_ ++ _), ← List.append_assoc _ (padding _ _), ← hbelow, lines, tags,
    ← head_eq_markupHead, h]
  simp [Markup.renderTags, Tag.body, textLines, markupTail]

theorem enter_of_children (w : MarkupWriter) (parent : Option Node) :
    w.enter n parent = (.descend, w.down.write (padding w.indent w.depth ++
      (markupHead n.name n.attrs n.id ++ '>' :: '\n' ::
        markupLine w.indent (w.depth + 1) n.text))) := by
  by_cases htext : n.text.isEmpty
  · simp [MarkupWriter.enter, MarkupWriter.pad, h, htext, markupLine]
  · simp [MarkupWriter.enter, MarkupWriter.pad, h, htext, markupLine]

theorem leave_of_children (w : MarkupWriter) (parent : Option Node) :
    w.leave n parent = w.up.write (padding w.up.indent w.up.depth ++ markupTail n.name) := by
  rw [MarkupWriter.leave, h, if_neg (by decide), MarkupWriter.pad, MarkupWriter.write_write]

end

theorem walkAll_writer {parent : Node} {w : MarkupWriter}
    (h : ∀ n ∈ ns, ∀ (parent : Option Node) (w : MarkupWriter),
      n.walkFrom MarkupWriter.visitor parent w = (true, w.write (n.lines w.indent w.depth))) :
    walkAll MarkupWriter.visitor parent ns w =
      (true, w.write (ns.flatMap (lines w.indent w.depth))) := by
  induction ns generalizing w with
  | nil => rw [walkAll, List.flatMap_nil, MarkupWriter.write_nil]
  | cons n ns ih =>
    rw [List.forall_mem_cons] at h
    rw [walkAll, h.1]
    dsimp only
    rw [ih h.2, MarkupWriter.write_write, List.flatMap_cons]
    rfl

/-- **A walk writes the lines of a node**, and comes back to the level at which it was. -/
theorem walkFrom_writer (n : Node) : ∀ (parent : Option Node) (w : MarkupWriter),
    n.walkFrom MarkupWriter.visitor parent w = (true, w.write (n.lines w.indent w.depth)) := by
  induction n using induct with
  | node n ih =>
    obtain ⟨name, text, attrs, id, children⟩ := n
    intro parent w
    cases children with
    | nil =>
      by_cases htext : text.isEmpty
      · simp [walkFrom, MarkupWriter.visitor, MarkupWriter.enter, MarkupWriter.leave,
          MarkupWriter.pad, htext, lines, tags, Markup.renderTags, Tag.body, ← head_eq_markupHead]
      · simp [walkFrom, MarkupWriter.visitor, MarkupWriter.enter, MarkupWriter.leave,
          MarkupWriter.pad, htext, lines, tags, Markup.renderTags, Tag.body, ← head_eq_markupHead,
          markupTail]
    | cons child children =>
      rw [walkFrom, MarkupWriter.visitor]
      dsimp only
      rw [enter_of_children rfl, ← MarkupWriter.visitor]
      dsimp only
      rw [walkAll_writer ih]
      dsimp only
      rw [leave_of_children rfl, lines_of_children rfl]
      simp only [MarkupWriter.up_write, MarkupWriter.up_down, MarkupWriter.write_write,
        MarkupWriter.indent_write, MarkupWriter.depth_write, MarkupWriter.indent_down,
        MarkupWriter.depth_down]

/-! ### Validity -/

theorem escaped_padding (indent depth : Nat) : Escaped (padding indent depth) :=
  .replicate_blank _

theorem escaped_textLines (indent depth : Nat) (text : String) :
    Escaped (textLines indent depth text) := by
  have hend : Escaped ['\n'] := .char (by decide) .nil
  have hline : Escaped (markupLine indent depth text) := by
    rw [markupLine]
    split
    · exact .nil
    · exact ((escaped_padding indent depth).append (escaped_markupText text)).append hend
  exact hend.append (hline.append (escaped_padding indent depth))

theorem escaped_of_mem_tagAttrs {attrs : OrderedMap String} {id : Option String} :
    ∀ e ∈ tagAttrs attrs id, Escaped e.2 := by
  intro e he
  rw [tagAttrs, List.mem_append, List.mem_map, List.mem_map] at he
  rcases he with ⟨f, -, rfl⟩ | ⟨value, -, rfl⟩
  · exact escaped_markupText f.2
  · exact escaped_markupText value

theorem isTagName_of_mem_tagAttrs {attrs : OrderedMap String} (id : Option String)
    (h : ∀ key ∈ attrs.names, IsTagName key) : ∀ e ∈ tagAttrs attrs id, IsTagName e.1 := by
  have hid : IsTagName "id" := ⟨by decide, by decide⟩
  intro e he
  rw [tagAttrs, List.mem_append, List.mem_map, List.mem_map] at he
  rcases he with ⟨f, hf, rfl⟩ | ⟨value, -, rfl⟩
  · exact h f.1 (List.mem_map_of_mem hf)
  · exact hid

theorem valid_tagsAll (hnext : Escaped next) (h : ∀ n ∈ ns, ∀ behind : List Char, Escaped behind →
      ∀ e ∈ n.tags indent depth behind, e.1.Valid ∧ Escaped e.2) :
    ∀ e ∈ tagsAll indent depth ns next, e.1.Valid ∧ Escaped e.2 := by
  induction ns with
  | nil => exact List.forall_mem_nil _
  | cons n ns ih =>
    rw [List.forall_mem_cons] at h
    rw [tagsAll, List.forall_mem_append]
    refine ⟨h.1 _ (.char (by decide) ?_), ih h.2⟩
    split
    · exact hnext
    · exact escaped_padding indent depth

theorem valid_tags (h : n.WellNamed) : ∀ (depth : Nat) (behind : List Char), Escaped behind →
    ∀ e ∈ n.tags indent depth behind, e.1.Valid ∧ Escaped e.2 := by
  induction h with
  | @node n here _ ih =>
    obtain ⟨name, text, attrs, id, children⟩ := n
    intro depth behind hbehind
    have hkeys := isTagName_of_mem_tagAttrs id here.2
    have hopening : (Tag.opening name (tagAttrs attrs id)).Valid :=
      ⟨here.1, hkeys, escaped_of_mem_tagAttrs⟩
    have hsingle : (Tag.single name (tagAttrs attrs id)).Valid :=
      ⟨here.1, hkeys, escaped_of_mem_tagAttrs⟩
    have hclosing : (Tag.closing name).Valid :=
      ⟨here.1, List.forall_mem_nil _, List.forall_mem_nil _⟩
    rw [tags]
    split
    · split
      · exact List.forall_mem_singleton.mpr ⟨hsingle, hbehind⟩
      · exact List.forall_mem_cons.mpr ⟨⟨hopening, escaped_markupText text⟩,
          List.forall_mem_singleton.mpr ⟨hclosing, hbehind⟩⟩
    · have htext := escaped_textLines indent (depth + 1) text
      have hbelow := valid_tagsAll (escaped_padding indent depth) fun m hm => ih m hm (depth + 1)
      exact List.forall_mem_cons.mpr ⟨⟨hopening, htext⟩,
        List.forall_mem_append.mpr ⟨hbelow, List.forall_mem_singleton.mpr ⟨hclosing, hbehind⟩⟩⟩

/-- **What is written for the tags of a tree is its whole text.** -/
theorem render_toMarkup (indent : Nat) (n : Node) :
    (n.toMarkup indent).render = n.toXml indent := by
  rw [toXml, walk, walkFrom_writer, MarkupWriter.write, String.empty_append, lines, padding,
    Nat.zero_mul]
  rfl

theorem valid_toMarkup (indent : Nat) (h : n.WellNamed) : (n.toMarkup indent).Valid where
  before := .nil
  tags := valid_tags h 0 ['\n'] (.char (by decide) .nil)

end Node

end ParserKit
