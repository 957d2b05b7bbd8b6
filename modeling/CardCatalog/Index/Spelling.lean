import CardCatalog.Index.Catalog

/-!
Spelling candidates from the terms of the index. A candidate starts with the same
character as the word it is to replace and is one or two edits away from it. The nearest
come first, then those that more cards have, then the order of code points decides. This
is the program's `suggest_terms` with `term_frequencies` and `shares_first_char`; the
distance comes from a library.
-/

namespace CardCatalog

namespace Edit

/-- The next row of the distance table: the row above it is read from its second
place on, with the value left of it and the one above that. -/
def walk (c : Char) : Text → List Nat → Nat → Nat → List Nat
  | d :: word, up :: above, left, diagonal =>
    let here := min (min (up + 1) (left + 1)) (diagonal + if d = c then 0 else 1)
    here :: walk c word above here up
  | _, _, _, _ => []

def nextRow (word : Text) (row : List Nat) (c : Char) : List Nat :=
  match row with
  | [] => []
  | first :: above => (first + 1) :: walk c word above (first + 1) first

/-- The least number of insertions, deletions and substitutions of characters. -/
def distance (a b : Text) : Nat :=
  ((a.foldl (nextRow b) (List.range (b.length + 1))).getLast?).getD 0

end Edit

namespace Store

def addCount (total : Dict Nat) (entry : Text × List Posting) : Dict Nat :=
  total.insert entry.1 (((total.get? entry.1).getD 0) + entry.2.length)

/-- Every term of a column with the number of cards that have it. -/
def vocabulary (store : Store) (column : Text) : Dict Nat :=
  (store.segments.flatMap fun s =>
    ((s.column column).map (·.postings.entries)).getD []).foldl addCount .empty

end Store

namespace Spelling

def shortest : Nat := 4
def furthest : Nat := 2

structure Candidate where
  distance : Nat
  frequency : Nat
  term : Text
  deriving DecidableEq

def comesFirst (a b : Candidate) : Bool :=
  a.distance < b.distance || (a.distance == b.distance &&
    (b.frequency < a.frequency || (a.frequency == b.frequency && !(b.term < a.term))))

def candidate? (word : Text) (entry : Text × Nat) : Option Candidate :=
  let distance := Edit.distance word entry.1
  if word.head? = entry.1.head? ∧ 1 ≤ distance ∧ distance ≤ furthest then
    some ⟨distance, entry.2, entry.1⟩
  else none

def candidates (vocabulary : Dict Nat) (word : Text) : List Candidate :=
  (vocabulary.entries.filterMap (candidate? word)).mergeSort comesFirst

end Spelling

namespace Catalog

/-- Pairs of a word and a candidate, column by column and then word by word; short
words and names that are no column are passed over. -/
def spellings (catalog : Catalog) (words fields : List Text) (size : Nat) : List (Text × Text) :=
  let words := words.filter fun word => Spelling.shortest ≤ word.length
  (fields.filter catalog.columns.contains).flatMap fun column =>
    let vocabulary := catalog.store.vocabulary column
    words.flatMap fun word =>
      ((Spelling.candidates vocabulary word).take size).map fun c => (word, c.term)

end Catalog

end CardCatalog
