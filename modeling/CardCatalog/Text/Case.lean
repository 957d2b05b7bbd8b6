import CardCatalog.Text.Basic
import CardCatalog.Text.CaseTable

/-!
Lower case, in two forms. `lowerEach` maps every character by itself; `lower` also
writes a capital sigma that ends a word as the final sigma, for which it looks at the
cased characters around it. `sameLetter` compares by simple case folding, under which a
text never changes its number of characters. The first is how the search library makes
terms, the second how `run` reads a query.
-/

namespace CardCatalog.Text

/-- The dotted capital I is the one character with a longer mapping. -/
def lowerChar (c : Char) : Text :=
  if c = 'İ' then ['i', '\u0307'] else [Stride.move CaseTable.lower c]

def lowerEach (t : Text) : Text := t.flatMap lowerChar

/-- Beyond the characters that casing ignores, the next one is cased. -/
def meetsCased (t : Text) : Bool :=
  match t.dropWhile CaseTable.ignorable.has with
  | [] => false
  | c :: _ => CaseTable.cased.has c

/-- The text before is held in reverse, nearest character first. -/
def lowerAfter (before : Text) : Text → Text
  | [] => []
  | c :: rest =>
    let here :=
      if c = 'Σ' then [if meetsCased before && !meetsCased rest then 'ς' else 'σ']
      else lowerChar c
    here ++ lowerAfter (c :: before) rest

def lower (t : Text) : Text := lowerAfter [] t

/-- The latest letters have no other case here. -/
def foldChar (c : Char) : Char :=
  if Alphabet.latest.has c then c else Stride.move CaseTable.fold c

def sameLetter (a b : Char) : Bool := foldChar a == foldChar b

end CardCatalog.Text
