import CardCatalog.Dict
import CardCatalog.Link
import CardCatalog.Text.Case
import CardCatalog.Text.Scan

/-!
Spelling suggestions. Candidates come in as pairs of a query word and another spelling.
Each candidate becomes a link to the same search with the candidate written behind every
whole-word occurrence of the word it stands for, so a suggestion only ever adds to a
query. The functions are `suggestion_seeds`, `collect_candidates`, `rewrite_query` and
`build_suggestions`.
-/

namespace CardCatalog

namespace Correction

/-- Outside the text counts as no word character. -/
def isWord (c : Option Char) : Bool := c.any Text.isWordChar

def boundary (before after : Option Char) : Bool := isWord before != isWord after

def sameLetters : Text → Text → Bool
  | [], [] => true
  | a :: as, b :: bs => Text.sameLetter a b && sameLetters as bs
  | _, _ => false

/-- The word ignoring case, with a word boundary at both of its ends. -/
def find (word : Text) : Finder Unit := fun before t =>
  let here := t.take word.length
  if sameLetters word here && boundary before here.head? &&
      boundary here.getLast? (t.drop word.length).head? then
    some ((), word.length)
  else none

def atBoundaries (addition : Text) : Option Char → Text → Text
  | before, [] => if boundary before none then addition else []
  | before, c :: rest =>
    (if boundary before (some c) then addition else []) ++
      c :: atBoundaries addition (some c) rest

/-- The spelling found is kept; the empty word occurs at every word boundary. -/
def addBehind (word candidate q : Text) : Text :=
  let addition := ' ' :: candidate
  if word.isEmpty then atBoundaries addition none q
  else
    (Scan.pieces (find word) q).flatMap fun
      | .loose c => [c]
      | .token _ raw => raw ++ addition

end Correction

namespace Suggestion

/-- A number is never misspelt. -/
def seeds (keywords : WordSet) : List Text :=
  keywords.words.filter fun word => !word.all Text.isDigit

abbrev Candidates := Dict (List Text)

def addOption (found : Dict WordSet) (pair : Text × Text) : Dict WordSet :=
  found.insert pair.1 (((found.get? pair.1).getD .empty).insert pair.2)

/-- Options that are words of the query already are dropped; the others are
sorted, each once. -/
def collect (options : List (Text × Text)) (seeds : List Text) : Candidates :=
  let fresh := options.filter fun pair => !seeds.contains pair.2
  (fresh.foldl addOption .empty).filterMap fun _ set => some set.words

def link (params : Link) (word candidate : Text) : Text :=
  { params with query := Correction.addBehind word candidate params.query : Link }.queryString

/-- Words that are no keywords are ignored. Where two words have a candidate in
common, the later word has the link. -/
def links (keywords : WordSet) (candidates : Candidates) (params : Link) : Dict Text :=
  let asked := candidates.entries.filter fun entry => keywords.has entry.1
  let pairs := asked.flatMap fun entry => entry.2.map (entry.1, ·)
  .ofPairs (pairs.map fun pair => (pair.2, link params pair.1 pair.2))

end Suggestion

end CardCatalog
