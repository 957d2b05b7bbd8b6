import CardCatalog.Command.Arguments
import CardCatalog.Proofs.Collection.Accepted
import CardCatalog.Proofs.Link
import CardCatalog.Proofs.Search.Pages

/-!
Following the links of a result. A link names the types that were searched, in the
place of those that were asked for, and leaves out an empty sort; what is read back
from it is another way to ask for the same search.
-/

namespace CardCatalog

theorem Arguments.count?_natural {n : Nat} (word : n ≤ Word.greatest) :
    count? (Text.natural n) = some n := by
  have digits : (Text.natural n).all Text.isDigit = true := by
    rw [List.all_eq_true]
    exact fun c => Text.isDigit_of_mem_natural
  have unsigned : ∀ rest, Text.natural n ≠ '+' :: rest := by
    intro rest signed
    have plus : Text.isDigit '+' = true := Text.isDigit_of_mem_natural (by rw [signed]; simp)
    cases plus
  have filled : (Text.natural n).isEmpty = false := by
    rw [List.isEmpty_eq_false_iff]
    exact Nat.toDigits_ne_nil
  unfold count?
  split
  · rename_i rest signed
    exact absurd signed (unsigned rest)
  · simp [digits, filled, Text.number_natural, word]

namespace SearchParams

def values (name : String) (pairs : List (Text × Text)) : List Text :=
  (pairs.filter (·.1 == name.toList)).map (·.2)

/-- The search that a link stands for. -/
def ofLink? (link : Text) : Option SearchParams := do
  let pairs ← Link.parameters? link
  let query ← (values "q" pairs).head?
  let page ← (values "page" pairs).head?.bind Arguments.count?
  return ⟨query, values "index" pairs, (values "sort" pairs).head?, page⟩

theorem values_append (name : String) (pairs more : List (Text × Text)) :
    values name (pairs ++ more) = values name pairs ++ values name more := by
  simp [values]

theorem values_map (name key : String) (given : List Text) :
    values name (given.map (key.toList, ·)) = if key.toList = name.toList then given else [] := by
  by_cases same : key.toList = name.toList <;> simp [values, List.filter_map, Function.comp_def, same]

theorem values_pairs (name : String) (link : Link) : values name link.pairs =
    (if "q".toList = name.toList then [link.query] else []) ++
      (if "index".toList = name.toList then link.types else []) ++
      (if "sort".toList = name.toList then link.sortSpec.toList else []) := by
  have shape : link.pairs = [link.query].map ("q".toList, ·) ++ link.types.map ("index".toList, ·) ++
      link.sortSpec.toList.map ("sort".toList, ·) := by
    cases sort : link.sortSpec <;> simp [Link.pairs, sort]
  simp only [shape, values_append, values_map]

theorem ofLink?_pageStem (link : Link) {n : Nat} (word : n ≤ Word.greatest) :
    ofLink? (link.pageStem ++ Text.natural n) =
      some ⟨link.query, link.types, link.sortSpec, n⟩ := by
  have all (name : String) : values name (link.pairs ++ [("page".toList, Text.natural n)]) =
      values name link.pairs ++ (if "page".toList = name.toList then [Text.natural n] else []) := by
    rw [values_append, ← values_map]
    rfl
  rw [ofLink?, Link.parameters?_pageStem]
  simp only [Option.bind_eq_bind, Option.bind_some, all, values_pairs]
  simp [Arguments.count?_natural word]

end SearchParams

namespace Search

variable {config : Config} {catalog : Catalog} {params : SearchParams}

theorem resolve_sortSpec (selection : List DocumentType) (sort : Option Text) :
    (sort.filter (!·.isEmpty)).bind (YearOrder.resolve selection) =
      sort.bind (YearOrder.resolve selection) := by
  cases sort with
  | none => rfl
  | some spec =>
    cases spec with
    | nil => rfl
    | cons c rest => rfl

theorem run_resolved (valid : Collection.ofTypes config.collection.types = .ok config.collection)
    {selection : List DocumentType}
    (selected : config.collection.select params.types = .ok selection) (n : Nat) :
    run config catalog ⟨params.query, selection.map (·.name), params.sort.filter (!·.isEmpty), n⟩ =
      run config catalog { params with page := n } := by
  have again := Collection.select_names valid selected
  have sorted := resolve_sortSpec selection params.sort
  have once : (params.sort.filter (!·.isEmpty)).filter (!·.isEmpty) =
      params.sort.filter (!·.isEmpty) := by
    simp [Option.filter_filter]
  simp only [run, selected, again, request, sorted, page, link, once]

/-- A page link, completed by any page number and read as a query string, leads to
the outcome that the search itself has for this page. -/
theorem following_page_link (accepted : config.Accepted) {shown : ResultPage}
    (ran : run config catalog params = .ok (.results shown)) {n : Nat}
    (word : n ≤ Word.greatest) :
    ∃ followed, SearchParams.ofLink? (shown.pageStem ++ Text.natural n) = some followed ∧
      run config catalog followed = run config catalog { params with page := n } := by
  obtain ⟨selection, compiled, found, answered, rfl⟩ := answered_of_run ran
  refine ⟨_, SearchParams.ofLink?_pageStem (link selection params) word, ?_⟩
  have spec : (link selection params).sortSpec = params.sort.filter (!·.isEmpty) := by
    simp [Link.sortSpec, link, Option.filter_filter]
  rw [spec]
  exact run_resolved accepted.valid answered.selected n

def unsorted : SearchParams := ⟨"Jan ".toList, [], some [], 1⟩

/-- The link to the second page names the type and no sort. -/
theorem following_page_link_accounts :
    ∃ shown followed, run ledgerConfig accounts unsorted = .ok (.results shown) ∧
      shown.pageStem = "?q=Jan%20&index=kasboek&page=".toList ∧
      SearchParams.ofLink? (shown.pageStem ++ Text.natural 2) = some followed ∧
      run ledgerConfig accounts followed = run ledgerConfig accounts { unsorted with page := 2 } := by
  have accepted : ledgerConfig.Accepted := ⟨⟨1, 5, [], [ledger]⟩, rfl⟩
  have known : accounts.unknownColumn compiledJan.plan = none := by decide +kernel
  have answered : Answered ledgerConfig accounts unsorted [ledger] compiledJan _ :=
    ⟨rfl, by rfl, Catalog.retrieve_known known⟩
  have ran := run_of_answered answered
  obtain ⟨followed, read, same⟩ := following_page_link accepted ran (n := 2) (by decide)
  exact ⟨_, followed, ran, by decide +kernel, read, same⟩

end Search

end CardCatalog
