import CardCatalog.Dict
import CardCatalog.Query.Year

/-!
What a query asks for. A plan is a conjunction of groups, a group a conjunction of
clauses, and a clause one leaf or a conjunction of leaves; nothing nests deeper. The
year range only filters, it never ranks. Keywords are the literal words of the query,
used for suggestions and shown beside the results. Its types are `QueryPlan`, `Group`,
`Clause`, `WeightedField` and `YearRange`, and `keywords` is `add_keywords`.
-/

namespace CardCatalog

structure WeightedField where
  name : Text
  weight : Float32

inductive Leaf where
  -- every word of the value occurs in the one field
  | field (name value : Text)
  -- the words stand next to each other in one of the fields
  | phrase (text : Text) (fields : List WeightedField)
  -- some word occurs in one of the fields
  | fuzzy (text : Text) (fields : List WeightedField)

inductive Clause where
  | one (leaf : Leaf)
  | all (leaves : List Leaf)

abbrev Group := List Clause

structure Plan where
  groups : List Group
  years : Option YearRange

structure Compiled where
  plan : Plan
  keywords : WordSet

namespace Leaf

def text : Leaf → Text
  | field _ value => value
  | phrase text _ => text
  | fuzzy text _ => text

end Leaf

namespace Clause

def leaves : Clause → List Leaf
  | one leaf => [leaf]
  | all leaves => leaves

/-- No leaf is no clause, a single leaf stands for itself. -/
def ofLeaves : List Leaf → Option Clause
  | [] => none
  | [leaf] => some (one leaf)
  | leaves => some (all leaves)

theorem leaves_ofLeaves (ls : List Leaf) : ((ofLeaves ls).elim [] leaves) = ls := by
  match ls with
  | [] => rfl
  | [_] => rfl
  | _ :: _ :: _ => rfl

end Clause

namespace Plan

def leaves (plan : Plan) : List Leaf := plan.groups.flatMap (·.flatMap Clause.leaves)

/-- Groups without a clause ask for nothing; a plan has at least one other group. -/
def ofGroups (groups : List Group) (years : Option YearRange) : Option Plan :=
  match groups.filter (!·.isEmpty) with
  | [] => none
  | asked => some ⟨asked, years⟩

end Plan

namespace Text

/-- The words of a text, double quotes around them removed. -/
def keywords (t : Text) : List Text :=
  ((words t).map (stripped isQuote)).filter (!·.isEmpty)

end Text

end CardCatalog
