import CardCatalog.Proofs.Index.Session
import CardCatalog.Proofs.Query.Shape

/-!
What a search for a compiled query means. The only fault is a scope on a field
that is no column; otherwise the total counts the live cards whose own text the
plan holds of, and the hits are such cards as reading their ids shows them.
-/

namespace CardCatalog

namespace Query

-- Compiled plans have no empty conjunction, for which the scores and the meaning differ.
theorem full_of_compile {fields : SearchFields} {q : Text} {compiled : Compiled}
    (made : compile fields q = some compiled) (types : List Text) :
    compiled.plan.Full types := by
  obtain ⟨some, groups⟩ := groups_ne_nil made
  exact ⟨Or.inl some, fun g inside => (groups g inside).1, fun g inside => (groups g inside).2⟩

end Query

namespace Catalog

def holding (catalog : Catalog) (request : Request) : List Card :=
  catalog.store.cards.filter fun card =>
    decide (Holds.plan catalog.columns card request.plan request.types)

theorem matched_eq_holding {request : Request} (full : request.plan.Full request.types)
    (catalog : Catalog) : catalog.matched request = catalog.holding request := by
  refine List.filter_congr fun card _ => ?_
  simp [full]

/-- The index and the declarative reading of a plan agree for every compiled query,
in whatever state the index is. -/
theorem retrieve_exact {catalog : Catalog} (reachable : catalog.Reachable)
    {fields : SearchFields} {q : Text} {compiled : Compiled}
    (made : Query.compile fields q = some compiled) {request : Request}
    (asked : request.plan = compiled.plan) :
    ((∃ fault, catalog.retrieve request = .error fault) ↔
      ∃ name value, Leaf.field name value ∈ request.plan.leaves ∧ name ∉ catalog.columns) ∧
    ∀ found, catalog.retrieve request = .ok found →
      found.total = (catalog.holding request).length ∧
      (found.hits.map (·.card.id)).Nodup ∧
      ∀ hit ∈ found.hits, ∃ card ∈ catalog.holding request,
        hit.card.id = card.id ∧ catalog.get? card.id = some hit.card := by
  have regular := regular_of_reachable reachable
  have full : request.plan.Full request.types := asked ▸ Query.full_of_compile made request.types
  have matched := matched_eq_holding full catalog
  refine ⟨catalog.retrieve_error_iff request, fun found answered => ⟨?_, ?_, ?_⟩⟩
  · rw [← matched]
    exact total_eq_length answered regular
  · exact hits_ids_nodup answered regular
  · intro hit member
    obtain ⟨card, inside, same⟩ := mem_hits answered regular member
    have live := (List.mem_filter.mp inside).1
    refine ⟨card, matched ▸ inside, ?_, ?_⟩
    · rw [same]
      rfl
    · rw [same]
      exact get?_of_mem regular live

-- Three deeds, one of which was replaced, and a scope beside a phrase.
def deeds : DocumentType :=
  { name := "akte".toList
    title := none
    fields := [⟨"koper".toList, none⟩, ⟨"inhoud".toList, some 1⟩]
    sortColumns := .empty
    yearSource := none }

def deed (id buyer text : String) : Session.Step :=
  .add ⟨id.toList, deeds.name, none,
    (Dict.empty.insert "koper".toList buyer.toList).insert "inhoud".toList text.toList⟩

def register : Catalog :=
  Session.after (.create ⟨[deeds]⟩)
    [deed "1" "jan" "aan de bakker", deed "2" "jan" "bakker de oude", .commit,
      deed "3" "Jan Smid" "huis; de Bakker.", deed "1" "piet" "aan de bakker", .commit]

def bakersPlan : Plan :=
  ⟨[[.one (.field "koper".toList "jan".toList),
    .one (.phrase "de bakker".toList (Selection.weightedFields [deeds]))]], none⟩

theorem retrieve_exact_register :
    register.Reachable ∧
      Query.compile (Selection.searchFields [deeds]) "koper:jan \"de bakker\"".toList =
        some ⟨bakersPlan, .ofList ["jan".toList, "de".toList, "bakker".toList]⟩ ∧
      ∀ found, register.retrieve ⟨bakersPlan, [], none, 0, 10⟩ = .ok found → found.total = 1 := by
  have reachable : register.Reachable :=
    Session.reachable_after (.create (show Collection.ofTypes [deeds] = .ok ⟨[deeds]⟩ from rfl)) _
  have made : Query.compile (Selection.searchFields [deeds]) "koper:jan \"de bakker\"".toList =
      some ⟨bakersPlan, .ofList ["jan".toList, "de".toList, "bakker".toList]⟩ := by rfl
  have counted : (register.holding ⟨bakersPlan, [], none, 0, 10⟩).length = 1 := by decide +kernel
  refine ⟨reachable, made, fun found answered => ?_⟩
  exact ((retrieve_exact reachable made rfl).2 found answered).1.trans counted

end Catalog

end CardCatalog
