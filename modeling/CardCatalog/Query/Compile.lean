import CardCatalog.Query.Phrase
import CardCatalog.Query.Scope

/-!
From the text of a query to its plan. The year range comes out first, then `&` separates
the groups that all have to match, then every group gives up its field scopes, and the
rest of it is free text. A query without anything to search for has no plan; a year
range alone is nothing to search for. This is the program's `QueryCompiler` with
`compile` and `compile_segment`.
-/

namespace CardCatalog

/-- The names that can be scoped, and the fields that free text searches. -/
structure SearchFields where
  scopable : List Text
  weighted : List WeightedField

namespace Query

def emptyMessage : String := "query contains no search terms"

variable (fields : SearchFields)

def isAnd (c : Char) : Bool := c = '&'

/-- A segment that has no colon cannot have a scope. -/
def parts (segment : Text) : Scoped :=
  if segment.contains ':' then Scope.split fields.scopable segment else ⟨[], segment⟩

def group (segment : Text) : Group :=
  let cut := parts fields segment
  cut.scopes.map (fun scope => .one (.field scope.field scope.value)) ++
    (Phrase.compile fields.weighted cut.leftover).toList

def keywords (segment : Text) : List Text :=
  let cut := parts fields segment
  cut.scopes.flatMap (Text.keywords ·.value) ++ Text.keywords cut.leftover

def segments (t : Text) : List Text :=
  ((Text.splitOn isAnd t).map Text.trim).filter (!·.isEmpty)

def compile (q : Text) : Option Compiled :=
  let (years, rest) := YearRange.extract q
  let asked := segments rest
  (Plan.ofGroups (asked.map (group fields)) years).map fun plan =>
    ⟨plan, WordSet.ofList (asked.flatMap (keywords fields))⟩

end Query

end CardCatalog
