import CardCatalog.Search

/-!
What lies behind a page of results: the types that were selected, the query as it
was read with their fields, and what the index found. The number of the page only
decides which part of it is shown.
-/

namespace CardCatalog

namespace Search

/-- The steps of a search that comes to a page of results. -/
structure Answered (config : Config) (catalog : Catalog) (params : SearchParams)
    (selection : List DocumentType) (compiled : Compiled) (found : Hits) : Prop where
  selected : config.collection.select params.types = .ok selection
  made : Query.compile (Selection.searchFields selection) (Text.lower params.query) =
    some compiled
  found : catalog.retrieve (request config selection compiled.plan params) = .ok found

variable {config : Config} {catalog : Catalog} {params : SearchParams}

theorem run_of_answered {selection : List DocumentType} {compiled : Compiled} {found : Hits}
    (answered : Answered config catalog params selection compiled found) :
    run config catalog params =
      .ok (.results (page config catalog selection compiled params found)) := by
  simp only [run, answered.selected, answered.made, answered.found]

theorem answered_of_run {shown : ResultPage}
    (ran : run config catalog params = .ok (.results shown)) :
    ∃ selection compiled found, Answered config catalog params selection compiled found ∧
      shown = page config catalog selection compiled params found := by
  cases selected : config.collection.select params.types with
  | error fault =>
    simp only [run, selected] at ran
    cases ran
  | ok selection =>
    cases made : Query.compile (Selection.searchFields selection) (Text.lower params.query) with
    | none =>
      simp only [run, selected, made] at ran
      cases ran
    | some compiled =>
      cases answered : catalog.retrieve (request config selection compiled.plan params) with
      | error fault =>
        simp only [run, selected, made, answered] at ran
        cases ran
      | ok found =>
        simp only [run, selected, made, answered] at ran
        cases ran
        exact ⟨selection, compiled, found, ⟨selected, made, answered⟩, rfl⟩

end Search

end CardCatalog
