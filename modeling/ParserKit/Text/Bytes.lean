/-!
# Ranges of characters as bytes

* `byteLength`: the number of bytes of a text in UTF-8.
* `pieces`: a range of code points, cut where the encoding changes its length or its leading bytes.
* **`byteRanges`**: the sequences of byte ranges that describe the encodings of a range of
  characters, in ascending order.
-/

namespace ParserKit

def bytesOf (c : Char) : List Nat := (String.utf8EncodeChar c).map UInt8.toNat

def byteLength (cs : List Char) : Nat := cs.foldr (fun c n => c.utf8Size + n) 0

/-- Where a range of code points may have to be cut, as the last code points of the parts before the
cuts: at the ends of the encodings of each length, and where the last bytes do not run through all
their values. -/
def cuts (lo hi : Nat) : List Nat :=
  let aligned (digits : Nat) : List Nat :=
    let block := Nat.pow 64 digits
    if lo / block = hi / block then []
    else if lo % block ≠ 0 then [lo / block * block + (block - 1)]
    else if hi % block ≠ block - 1 then [hi / block * block - 1]
    else []
  [0x7F, 0x7FF, 0xFFFF] ++ if hi ≤ 0x7F then [] else aligned 1 ++ aligned 2 ++ aligned 3

/-- A range of code points as parts whose encodings have one length and differ in independent
bytes. -/
def pieces (lo hi : Nat) : List (Nat × Nat) :=
  match h : (cuts lo hi).find? fun m => lo ≤ m && m < hi with
  | none => [(lo, hi)]
  | some m =>
    have hm : lo ≤ m ∧ m < hi := by simpa using List.find?_some h
    pieces lo m ++ pieces (m + 1) hi
termination_by hi - lo

def pieceBytes (piece : Nat × Nat) : List (Nat × Nat) :=
  (bytesOf (Char.ofNat piece.1)).zip (bytesOf (Char.ofNat piece.2))

/-- **The sequences of byte ranges of a range of characters.** There is nothing between the last
code point below the surrogates and the first one above them. -/
def byteRanges (lo hi : Nat) : List (List (Nat × Nat)) :=
  let parts := if lo < 0xE000 ∧ 0xD7FF < hi then pieces lo 0xD7FF ++ pieces 0xE000 hi
    else pieces lo hi
  parts.map pieceBytes

end ParserKit
