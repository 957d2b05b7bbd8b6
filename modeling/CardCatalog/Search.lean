import CardCatalog.Collection.Config
import CardCatalog.Index.Retrieval
import CardCatalog.Index.Spelling
import CardCatalog.Paging
import CardCatalog.Suggestion

/-!
One search, from what a user typed to a page of results. The query is read in lower
case; a query without search terms has no result page. Links to the other pages name the
types that were searched, and only the first page carries spelling suggestions. This is
the program's `Searcher` with `run` and `suggestions`.
-/

namespace CardCatalog

structure SearchParams where
  query : Text
  -- none means all
  types : List Text
  -- comma-separated keys, descending with a hyphen in front
  sort : Option Text
  -- counted from one
  page : Nat

structure ResultPage where
  query : Text
  keywords : WordSet
  total : Nat
  page : Nat
  pages : List Nat
  pageStem : Text
  hits : List Hit
  suggestions : Dict Text

inductive Outcome where
  -- nothing to search for
  | empty (query : Text)
  | results (page : ResultPage)

inductive SearchFault where
  | collection (fault : CollectionFault)
  | request (fault : RequestFault)
  deriving DecidableEq

namespace SearchFault

def message : SearchFault → Text
  | collection fault => fault.message
  | request fault => fault.message

end SearchFault

namespace Search

variable (config : Config) (catalog : Catalog)

def suggestions (keywords : WordSet) (link : Link) : Dict Text :=
  let seeds := Suggestion.seeds keywords
  let options := catalog.spellings seeds config.suggestFields config.suggestSize
  Suggestion.links keywords (Suggestion.collect options seeds) link

def request (selection : List DocumentType) (plan : Plan) (params : SearchParams) : Request :=
  { plan
    types := selection.map (·.name)
    order := params.sort.bind (YearOrder.resolve selection)
    offset := Word.mul (max params.page 1 - 1) config.pageSize
    limit := config.pageSize }

def link (selection : List DocumentType) (params : SearchParams) : Link :=
  { query := params.query
    types := selection.map (·.name)
    sort := params.sort.filter (!·.isEmpty) }

def page (selection : List DocumentType) (compiled : Compiled) (params : SearchParams)
    (found : Hits) : ResultPage :=
  let number := max params.page 1
  let link := link selection params
  { query := params.query
    keywords := compiled.keywords
    total := found.total
    page := number
    pages := Paging.pages (Paging.window found.total number config.pageSize)
    pageStem := link.pageStem
    hits := found.hits
    suggestions := if number = 1 then suggestions config catalog compiled.keywords link else .empty }

def run (params : SearchParams) : Except SearchFault Outcome :=
  match config.collection.select params.types with
  | .error f => .error (.collection f)
  | .ok selection =>
    match Query.compile (Selection.searchFields selection) (Text.lower params.query) with
    | none => .ok (.empty params.query)
    | some compiled =>
      match catalog.retrieve (request config selection compiled.plan params) with
      | .error f => .error (.request f)
      | .ok found => .ok (.results (page config catalog selection compiled params found))

end Search

end CardCatalog
