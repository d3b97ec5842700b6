import ParserKit.Position

/-!
# Character sources

* `SourceError`: why a source cannot be acquired, with its wording in `SourceError.message`.
* `Reader`: a text of which some characters have been read.
* **`Source`**: where a tokenizer takes its characters from. There are three kinds: a text in
  memory, a file, and a feed whose characters arrive one by one, possibly with gaps.
* `Source.acquire`, `Source.release`, `Source.next`: the operations on a source. A position is
  always that of the character that comes next.
-/

namespace ParserKit

/-- Why a source cannot be acquired. -/
inductive SourceError where
  | missing
  | directory
  | malformed
  | refused (reason : String)
deriving DecidableEq

def SourceError.message : SourceError → String
  | .missing => "No such file or directory (os error 2)"
  | .directory => "Is a directory (os error 21)"
  | .malformed => "stream did not contain valid UTF-8"
  | .refused reason => reason

/-! ## Texts in memory -/

/-- A text of which some characters have been read: what is left, and where that lies. -/
structure Reader where
  rest : List Char
  position : Position
deriving DecidableEq

namespace Reader

def ofString (text : String) : Reader := ⟨text.toList, .start⟩

def hasMore (r : Reader) : Bool := !r.rest.isEmpty

def next : Reader → Option Char × Reader
  | ⟨[], p⟩ => (none, ⟨[], p⟩)
  | ⟨c :: cs, p⟩ => (some c, ⟨cs, p.advance c⟩)

def remaining (r : Reader) : String := String.ofList r.rest

end Reader

/-! ## Files -/

/-- What lies at the path of a file source. -/
inductive FileEntry where
  | missing
  | directory
  | bytes (data : ByteArray)

/-- The text of a file, which has to be in UTF-8. -/
def FileEntry.read : FileEntry → Except SourceError String
  | .missing => .error .missing
  | .directory => .error .directory
  | .bytes data =>
    match String.fromUTF8? data with
    | some text => .ok text
    | none => .error .malformed

/-! ## Sources -/

/-- A source of characters.

* `text`: a text in memory, readable from the start.
* `file`: a file, which yields characters only between `acquire` and `release`.
* `feed`: a list of arrivals, in which `none` is a gap: a read at which no character arrives.
  `refusal` is the reason for which it cannot be acquired, if there is one. -/
inductive Source where
  | text (reader : Reader)
  | file (entry : FileEntry) (opened : Option Reader)
  | feed (arrivals : List (Option Char)) (position : Position) (refusal : Option String)

namespace Source

def ofString (text : String) : Source := .text (.ofString text)

def ofFile (entry : FileEntry) : Source := .file entry none

/-- A source over a list of arrivals. -/
def ofFeed (arrivals : List (Option Char)) (refusal : Option String) : Source :=
  .feed arrivals .start refusal

/-- Acquires what a source reads from. A file is read anew from its start each time. -/
def acquire : Source → Except SourceError Source
  | .text r => .ok (.text r)
  | .file entry _ => entry.read.map fun text => .file entry (some (.ofString text))
  | .feed arrivals p none => .ok (.feed arrivals p none)
  | .feed _ _ (some reason) => .error (.refused reason)

def release : Source → Source
  | .file entry _ => .file entry none
  | s => s

/-- Whether the source is not exhausted. At a gap the next read yields nothing all the same. -/
def hasMore : Source → Bool
  | .text r => r.hasMore
  | .file _ (some r) => r.hasMore
  | .file _ none => false
  | .feed arrivals _ _ => !arrivals.isEmpty

def next : Source → Option Char × Source
  | .text r => let (c, r) := r.next; (c, .text r)
  | .file entry (some r) => let (c, r) := r.next; (c, .file entry (some r))
  | .file entry none => (none, .file entry none)
  | .feed (some c :: arrivals) p refusal => (some c, .feed arrivals (p.advance c) refusal)
  | .feed (none :: arrivals) p refusal => (none, .feed arrivals p refusal)
  | .feed [] p refusal => (none, .feed [] p refusal)

def position : Source → Position
  | .text r => r.position
  | .file _ (some r) => r.position
  | .file _ none => .start
  | .feed _ p _ => p

/-- How many reads exhaust the source. -/
def size : Source → Nat
  | .text r => r.rest.length
  | .file _ (some r) => r.rest.length
  | .file _ none => 0
  | .feed arrivals _ _ => arrivals.length

/-- Reads located characters, at most `n` of them, up to the end or the first gap. -/
def pull : Nat → Source → Span × Source
  | 0, s => ([], s)
  | n + 1, s =>
    if s.hasMore then
      match s.next with
      | (some c, s') => let (more, s'') := pull n s'; (⟨c, s.position⟩ :: more, s'')
      | (none, s') => ([], s')
    else ([], s)

def drain (s : Source) : String × Source :=
  let (read, s') := s.pull (s.size + 1); (read.content, s')

/-! ### Reading makes a source smaller -/

theorem size_next_le (s : Source) : s.next.2.size ≤ s.size := by
  rcases s with ⟨⟨_ | _, _⟩⟩ | ⟨_, _ | ⟨_ | _, _⟩⟩ | ⟨_ | ⟨_ | _, _⟩, _, _⟩ <;>
    simp [next, size, Reader.next]

theorem size_next_of_some {s s' : Source} {c : Char} (h : s.next = (some c, s')) :
    s'.size + 1 = s.size := by
  rcases s with ⟨⟨_ | _, _⟩⟩ | ⟨_, _ | ⟨_ | _, _⟩⟩ | ⟨_ | ⟨_ | _, _⟩, _, _⟩ <;>
    simp [next, Reader.next] at h <;> simp [← h.2, size]

/-- **What is read and what is left are never more than there was.** -/
theorem size_pull_le (n : Nat) (s : Source) : (s.pull n).1.length + (s.pull n).2.size ≤ s.size := by
  induction n generalizing s with
  | zero => simp [pull]
  | succ n ih =>
    unfold pull
    split
    · split
      · next c s' h => have := ih s'; have := size_next_of_some h; simp; omega
      · next s' h => have := size_next_le s; simp_all
    · simp

end Source

end ParserKit
