import CardCatalog.Proofs.Collection.Selection
import CardCatalog.Proofs.Index.Reachable
import CardCatalog.Proofs.Query.Columns
import CardCatalog.Proofs.Search.Pages

/-!
What can go wrong with a search: the name of a type that the collection does not
have, and nothing else. That a scope names no column of the index is a fault of the
index, too, but no search comes to it, because a query only names fields of the types
that were selected.
-/

namespace CardCatalog

namespace Collection

theorem columns_of_compile {c : Collection} {names : List Text} {selection : List DocumentType}
    (selected : c.select names = .ok selection) {q : Text} {compiled : Compiled}
    (made : Query.compile (Selection.searchFields selection) q = some compiled) :
    ∀ leaf ∈ compiled.plan.leaves, ∀ column ∈ leaf.columns, column ∈ c.columns := by
  intro leaf member column inside
  have usable := Query.columns_of_compile made leaf member column inside
  obtain ⟨type, chosen, field⟩ := Selection.type_of_searchFields usable
  exact mem_columns (mem_of_select selected type chosen) field

end Collection

namespace Catalog

theorem retrieve_ok {catalog : Catalog} {request : Request}
    (known : ∀ leaf ∈ request.plan.leaves, ∀ column ∈ leaf.columns, column ∈ catalog.columns) :
    ∃ found, catalog.retrieve request = .ok found := by
  have all : catalog.unknownColumn request.plan = none := by
    rw [unknownColumn_eq_none]
    exact fun name value member => known _ member name (by simp [Leaf.columns])
  exact ⟨_, retrieve_known all⟩

theorem known_of_compile {catalog : Catalog} {c : Collection} (opened : catalog.collection = c)
    {names : List Text} {selection : List DocumentType} (selected : c.select names = .ok selection)
    {q : Text} {compiled : Compiled}
    (made : Query.compile (Selection.searchFields selection) q = some compiled) :
    catalog.unknownColumn compiled.plan = none := by
  rw [unknownColumn_eq_none, columns, opened]
  exact fun name value member =>
    Collection.columns_of_compile selected made _ member name (by simp [Leaf.columns])

end Catalog

namespace Search

variable {config : Config} {catalog : Catalog}

theorem run_error {params : SearchParams} (opened : catalog.collection = config.collection)
    {fault : SearchFault} :
    run config catalog params = .error fault ↔
      ∃ unknown, config.collection.select params.types = .error unknown ∧
        fault = .collection unknown := by
  unfold run
  cases selected : config.collection.select params.types with
  | error unknown => simp [eq_comm]
  | ok selection =>
    simp only [reduceCtorEq, false_and, exists_false, iff_false]
    cases made : Query.compile (Selection.searchFields selection) (Text.lower params.query) with
    | none => simp
    | some compiled =>
      have known := Collection.columns_of_compile selected made
      rw [← opened] at known
      obtain ⟨found, answered⟩ :=
        @Catalog.retrieve_ok catalog (request config selection compiled.plan params) known
      simp [answered]

/-- A search is refused exactly when it asks for a type that the collection does not
have, and the first such name is what it is told. Every column that its plan is looked
up in is one of the index, so there is nothing else to be refused for. -/
theorem refused_iff_unknown_type (reachable : catalog.Reachable)
    (opened : catalog.collection = config.collection) (params : SearchParams) :
    ((∃ fault, run config catalog params = .error fault) ↔
        ∃ name ∈ params.types, name ∉ config.collection.typeNames) ∧
      (∀ fault, run config catalog params = .error fault →
        ∃ before name after, params.types = before ++ name :: after ∧
          (∀ n ∈ before, n ∈ config.collection.typeNames) ∧
          name ∉ config.collection.typeNames ∧ fault = .collection (.unknownType name)) ∧
      ∀ selection compiled, config.collection.select params.types = .ok selection →
        Query.compile (Selection.searchFields selection) (Text.lower params.query) =
          some compiled →
        ∀ leaf ∈ compiled.plan.leaves, ∀ column ∈ leaf.columns,
          column ∈ catalog.columns ∧ column ∈ catalog.store.columns := by
  refine ⟨?_, ?_, ?_⟩
  · rw [← Collection.select_fails_iff]
    simp only [run_error opened]
    constructor
    · rintro ⟨_, unknown, failed, _⟩
      exact ⟨unknown, failed⟩
    · rintro ⟨unknown, failed⟩
      exact ⟨_, unknown, failed, rfl⟩
  · intro fault refused
    obtain ⟨unknown, failed, rfl⟩ := (run_error opened).mp refused
    obtain ⟨before, name, after, split, known, absent, rfl⟩ := Collection.select_error.mp failed
    exact ⟨before, name, after, split, known, absent, rfl⟩
  · intro selection compiled selected made leaf member column inside
    have own : column ∈ catalog.columns := by
      rw [Catalog.columns, opened]
      exact Collection.columns_of_compile selected made leaf member column inside
    exact ⟨own, (Catalog.regular_of_reachable reachable).columns column own⟩

-- Two names that the ledger does not know, behind one that it does.
def misdirected : SearchParams :=
  ⟨"naam:jan".toList, ["kasboek", "akte", "brief"].map String.toList, none, 1⟩

theorem refused_misdirected :
    accounts.Reachable ∧ accounts.collection = ledgerConfig.collection ∧
      (∃ fault, run ledgerConfig accounts misdirected = .error fault) ∧
      ∀ fault, run ledgerConfig accounts misdirected = .error fault →
        fault.message = "unknown document type: akte".toList := by
  have reachable : accounts.Reachable := ledger_reachable _
  have opened : accounts.collection = ledgerConfig.collection := rfl
  obtain ⟨refused, first, _⟩ := refused_iff_unknown_type reachable opened misdirected
  refine ⟨reachable, opened, refused.mpr ⟨"brief".toList, by decide, by decide⟩, ?_⟩
  intro fault failed
  obtain ⟨before, name, after, split, known, absent, rfl⟩ := first fault failed
  have asked : "kasboek".toList :: "akte".toList :: ["brief".toList] = before ++ name :: after := split
  match before with
  | [] =>
    cases asked
    exact absurd (by decide) absent
  | [_] =>
    cases asked
    rfl
  | _ :: second :: _ =>
    obtain ⟨same, _⟩ := List.cons.inj (List.cons.inj asked).2
    exact absurd (known second (by simp)) (by rw [← same]; decide)

end Search

end CardCatalog
