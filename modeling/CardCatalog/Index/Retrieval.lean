import CardCatalog.Index.Highlight
import CardCatalog.Index.Matching

/-!
From a plan to the hits of a page. All matching cards are ranked, by score or by year;
equal ones stay in the order in which they were added, and a card without a year comes
last, whichever way they are ordered. The total counts every match, but nothing beyond
the ten-thousandth is ever shown. This is the program's `search` with `text_field` and
`hit_from_doc`. That equal cards stay in the order in which they were added is the
search library's doing.
-/

namespace CardCatalog

structure Request where
  plan : Plan
  -- none selected means every type
  types : List Text
  -- without an order the score decides
  order : Option YearOrder
  offset : Nat
  limit : Nat

structure Hit where
  card : Card
  score : Option Float32
  highlights : Dict Text

structure Hits where
  total : Nat
  hits : List Hit

inductive RequestFault where
  | unknownColumn (name : Text)
  deriving DecidableEq

namespace RequestFault

def message : RequestFault → Text
  | unknownColumn name =>
    "field ".toList ++ CollectionFault.tick name ++ " is not in the index schema".toList

end RequestFault

namespace Ranking

def depth : Nat := 10000

def higher (a b : Matching.Found) : Bool := !(a.score < b.score)

/-- A card without a year stands with the last year there is. -/
def earlier (a b : Matching.Found) : Bool :=
  a.card.year.getD Word.highestSigned ≤ b.card.year.getD Word.highestSigned

/-- A card without a year stands with the first year there is. -/
def later (a b : Matching.Found) : Bool :=
  b.card.year.getD Word.lowestSigned ≤ a.card.year.getD Word.lowestSigned

/-- A stable sort, so what is equal keeps its order. -/
def rank (order : Option YearOrder) (found : List Matching.Found) : List Matching.Found :=
  match order with
  | none => found.mergeSort higher
  | some .ascending => found.mergeSort earlier
  | some .descending => found.mergeSort later

end Ranking

namespace Catalog

variable (catalog : Catalog)

/-- The field of a scope has to be a column; the fields of free text need not. -/
def unknownColumn (plan : Plan) : Option Text :=
  plan.leaves.findSome? fun
    | .field name _ => if catalog.columns.contains name then none else some name
    | _ => none

def termsOn (plan : Plan) (column : Text) : List Text :=
  plan.leaves.flatMap fun leaf =>
    let on := match leaf with
      | .field name _ => name == column
      | .phrase _ fields => fields.any (·.name == column)
      | .fuzzy _ fields => fields.any (·.name == column)
    if on then Analysis.terms leaf.text else []

def share (plan : Plan) (column term : Text) : Option Float32 :=
  if (termsOn plan column).contains term then
    some (1 / (1 + Float32.ofNat (catalog.store.frequency column term)))
  else none

def hit (plan : Plan) (order : Option YearOrder) (found : Matching.Found) : Hit :=
  let card := catalog.shown found.card
  { card
    score := if order.isSome then none else some found.score
    highlights := card.fields.filterMap fun column text =>
      Highlight.ofText (catalog.share plan column) text }

def ranked (plan : Plan) (types : List Text) (order : Option YearOrder) : List Matching.Found :=
  Ranking.rank order (Matching.found catalog.store catalog.columns plan types)

def retrieve (request : Request) : Except RequestFault Hits :=
  match catalog.unknownColumn request.plan with
  | some name => .error (.unknownColumn name)
  | none =>
    let ranked := catalog.ranked request.plan request.types request.order
    let shown :=
      if Ranking.depth ≤ request.offset ∨ request.limit = 0 then []
      else (ranked.drop request.offset).take (min request.limit (Ranking.depth - request.offset))
    .ok ⟨ranked.length, shown.map (catalog.hit request.plan request.order)⟩

end Catalog

end CardCatalog
