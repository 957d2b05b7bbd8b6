import CardCatalog.Index.Retrieval
import CardCatalog.Proofs.Index.Latest
import CardCatalog.Proofs.Index.Meaning

/-!
What a request answers, read off the store alone. Ranking and the window only
move and cut what was found, so the total counts every card for which the plan
holds, and each hit is one of them as the index shows it.
-/

namespace CardCatalog

/-- A store whose segments all have its columns and that shows no id twice, read
with columns that it has. -/
structure Catalog.Regular (catalog : Catalog) : Prop where
  columns : ∀ name ∈ catalog.columns, name ∈ catalog.store.columns
  segments : ∀ s ∈ catalog.store.segments, s.columns = catalog.store.columns
  unique : (catalog.store.cards.map (·.id)).Nodup

theorem Ranking.rank_perm (order : Option YearOrder) (found : List Matching.Found) :
    (rank order found).Perm found := by
  match order with
  | none => exact List.mergeSort_perm found higher
  | some .ascending => exact List.mergeSort_perm found earlier
  | some .descending => exact List.mergeSort_perm found later

namespace Catalog

variable {catalog : Catalog}

theorem unknownColumn_eq_none (catalog : Catalog) (plan : Plan) :
    catalog.unknownColumn plan = none ↔ plan.Known catalog.columns := by
  rw [unknownColumn, List.findSome?_eq_none_iff]
  constructor
  · intro none name value member
    have known := none _ member
    simpa using known
  · intro known l member
    cases l with
    | field name value => simpa using known name value member
    | phrase text fields => rfl
    | fuzzy text fields => rfl

theorem retrieve_error_iff (catalog : Catalog) (request : Request) :
    (∃ fault, catalog.retrieve request = .error fault) ↔
      ∃ name value, Leaf.field name value ∈ request.plan.leaves ∧ name ∉ catalog.columns := by
  have known := catalog.unknownColumn_eq_none request.plan
  unfold retrieve
  cases missing : catalog.unknownColumn request.plan with
  | some name =>
    have unknown : ¬ request.plan.Known catalog.columns := by
      rw [← known, missing]
      simp
    simpa [Plan.Known] using unknown
  | none =>
    have all : request.plan.Known catalog.columns := known.mp missing
    constructor
    · rintro ⟨fault, same⟩
      cases same
    · rintro ⟨name, value, member, absent⟩
      exact absurd (all name value member) absent

def matched (catalog : Catalog) (request : Request) : List Card :=
  catalog.store.cards.filter fun card =>
    decide (request.plan.Full request.types ∧
      Holds.plan catalog.columns card request.plan request.types)

section Answered

variable {request : Request} {found : Hits} (answered : catalog.retrieve request = .ok found)
include answered

theorem known_of_retrieve : request.plan.Known catalog.columns := by
  intro name value member
  by_contra absent
  obtain ⟨fault, refused⟩ := (catalog.retrieve_error_iff request).mpr ⟨name, value, member, absent⟩
  rw [answered] at refused
  cases refused

theorem ranked_perm (regular : catalog.Regular) :
    ((catalog.ranked request.plan request.types request.order).map (·.card)).Perm
      (catalog.matched request) := by
  rw [matched, ← Matching.cards_found catalog.store request.types
    (fun s inside name column => regular.segments s inside ▸ regular.columns name column)
    (known_of_retrieve answered)]
  exact (Ranking.rank_perm _ _).map _

theorem total_eq_length (regular : catalog.Regular) :
    found.total = (catalog.matched request).length := by
  rw [← (ranked_perm answered regular).length_eq, List.length_map]
  unfold retrieve at answered
  split at answered
  · cases answered
  · cases answered
    rfl

theorem hits_sublist :
    (found.hits.map (·.card)).Sublist
      ((catalog.ranked request.plan request.types request.order).map fun f =>
        catalog.shown f.card) := by
  unfold retrieve at answered
  split at answered
  · cases answered
  · cases answered
    rw [List.map_map]
    refine List.Sublist.map _ ?_
    split
    · exact List.nil_sublist _
    · exact (List.take_sublist _ _).trans (List.drop_sublist _ _)

theorem mem_hits (regular : catalog.Regular) {hit : Hit} (member : hit ∈ found.hits) :
    ∃ card ∈ catalog.matched request, hit.card = catalog.shown card := by
  have inside := (hits_sublist answered).subset (List.mem_map.mpr ⟨hit, member, rfl⟩)
  obtain ⟨f, ranked, same⟩ := List.mem_map.mp inside
  have among := (ranked_perm answered regular).subset (List.mem_map.mpr ⟨f, ranked, rfl⟩)
  exact ⟨f.card, among, same.symm⟩

theorem hits_ids_nodup (regular : catalog.Regular) : (found.hits.map (·.card.id)).Nodup := by
  have ids : ((catalog.ranked request.plan request.types request.order).map (·.card.id)).Nodup := by
    have moved := (ranked_perm answered regular).map (·.id)
    rw [List.map_map] at moved
    exact moved.nodup_iff.mpr (regular.unique.sublist (List.filter_sublist.map _))
  have cut := (hits_sublist answered).map (·.id)
  rw [List.map_map, List.map_map] at cut
  exact ids.sublist cut

end Answered

theorem total_retrieve (regular : catalog.Regular) (request : Request) :
    (catalog.retrieve request).map (·.total) =
      match catalog.unknownColumn request.plan with
      | some name => .error (.unknownColumn name)
      | none => .ok (catalog.matched request).length := by
  cases answered : catalog.retrieve request with
  | ok found =>
    rw [(catalog.unknownColumn_eq_none request.plan).mpr (known_of_retrieve answered)]
    exact congrArg Except.ok (total_eq_length answered regular)
  | error fault =>
    cases missing : catalog.unknownColumn request.plan with
    | none =>
      rw [retrieve, missing] at answered
      cases answered
    | some name =>
      rw [retrieve, missing] at answered
      cases answered
      rfl

theorem get?_of_mem (regular : catalog.Regular) {card : Card} (live : card ∈ catalog.store.cards) :
    catalog.get? card.id = some (catalog.shown card) := by
  rw [get?, Latest.find_unique regular.unique live]
  rfl

theorem get?_of_hit (regular : catalog.Regular) {request : Request} {found : Hits}
    (answered : catalog.retrieve request = .ok found) {hit : Hit} (member : hit ∈ found.hits) :
    catalog.get? hit.card.id = some hit.card := by
  obtain ⟨card, matched, same⟩ := mem_hits answered regular member
  rw [same]
  exact get?_of_mem regular (List.mem_filter.mp matched).1

end Catalog

end CardCatalog
