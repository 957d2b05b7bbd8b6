import CardCatalog.Search

/-!
What the program has to say, as JSON: compiled queries, cards, counts and result pages.
Members stand in a fixed order. How a score is written is up to the caller, since it is
the one number that nobody reads exactly. The members are those that the program derives
for its results, and for `CompiledQuery`.
-/

namespace CardCatalog.Json

def record (members : List (String × Json)) : Json :=
  .object (members.map fun m => (m.1.toList, m.2))

def tag (name : String) : String × Json := ("type", .string name.toList)

def weightedField (f : WeightedField) : Json :=
  record [("name", .string f.name), ("weight", single f.weight)]

def weightedFields (fs : List WeightedField) : Json := .array (fs.map weightedField)

def leaf : Leaf → Json
  | .field name value =>
    record [tag "field", ("field", .string name), ("value", .string value)]
  | .phrase text fields =>
    record [tag "phrase", ("text", .string text), ("fields", weightedFields fields)]
  | .fuzzy text fields =>
    record [tag "fuzzy", ("text", .string text), ("fields", weightedFields fields)]

def clause : Clause → Json
  | .one l => leaf l
  | .all ls => record [tag "all", ("clauses", .array (ls.map leaf))]

def group (g : Group) : Json := record [("clauses", .array (g.map clause))]

def years (r : YearRange) : Json := record [("start", nat r.first), ("end", nat r.last)]

def plan (p : Plan) : Json :=
  record (("groups", .array (p.groups.map group)) ::
    (p.years.map fun r => ("year_range", years r)).toList)

def compiled (c : Compiled) : Json :=
  record [("plan", plan c.plan), ("keywords", texts c.keywords.words)]

def counts (c : CardCounts) : Json :=
  record [("total", nat c.total),
    ("doctypes", .object (c.types.entries.map fun e => (e.1, nat e.2)))]

variable (score : Float32 → Json)

def hit (h : Hit) : Json :=
  record [("id", .string h.card.id), ("doctype", .string h.card.type),
    ("score", optional score h.score), ("year", optional int h.card.year),
    ("fields", dict h.card.fields), ("highlights", dict h.highlights)]

def card (c : Card) : Json := hit single ⟨c, none, .empty⟩

def outcome : Outcome → Json
  | .empty query => record [("status", .string "empty".toList), ("q", .string query)]
  | .results p =>
    record [("status", .string "results".toList), ("q", .string p.query),
      ("keywords", texts p.keywords.words), ("total", nat p.total), ("page", nat p.page),
      ("pages", .array (p.pages.map nat)), ("page_link_prefix", .string p.pageStem),
      ("hits", .array (p.hits.map (hit score))), ("suggestions", dict p.suggestions)]

end CardCatalog.Json
