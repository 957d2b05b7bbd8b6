import CardCatalog.Proofs.Index.Hits

/-!
The states that an index can come to: created for a collection, given cards,
committed, and closed and opened again for the same or another collection. Every
one of them is regular, whatever the order of these steps was.
-/

namespace CardCatalog

namespace Store

theorem unique_commit {s : Store} (unique : (s.cards.map (·.id)).Nodup) (added : List Card) :
    ((s.commit added).cards.map (·.id)).Nodup := by
  rw [cards_commit, List.map_append, List.nodup_append]
  refine ⟨unique.sublist (List.filter_sublist.map _), Latest.cards_ids_nodup added, ?_⟩
  intro id old other new same
  obtain ⟨card, kept, rfl⟩ := List.mem_map.mp old
  obtain ⟨later, fresh, rfl⟩ := List.mem_map.mp new
  have replaced := (Latest.replaced_iff added card).mpr ⟨later, Latest.mem_cards fresh, same.symm⟩
  have stays := (List.mem_filter.mp kept).2
  simp [replaced] at stays

theorem segments_commit {s : Store} (regular : ∀ seg ∈ s.segments, seg.columns = s.columns)
    (added : List Card) : ∀ seg ∈ (s.commit added).segments, seg.columns = s.columns := by
  unfold commit
  split
  · exact regular
  · intro seg member
    rcases List.mem_append.mp member with old | new
    · obtain ⟨before, inside, rfl⟩ := List.mem_map.mp (List.mem_filter.mp old).1
      exact regular before inside
    · rw [List.mem_singleton.mp new]
      rfl

end Store

namespace Catalog

theorem regular_create (collection : Collection) : (create collection).Regular where
  columns := fun _ member => member
  segments := fun _ member => absurd member List.not_mem_nil
  unique := List.nodup_nil

theorem add_card {catalog : Catalog} {entry : Entry} {card : Card}
    (made : entry.card? catalog.collection = .ok card) :
    catalog.add entry = .ok { catalog with pending := catalog.pending ++ [card] } := by
  rw [add, made]
  rfl

theorem add_fault {catalog : Catalog} {entry : Entry} {fault : EntryFault}
    (made : entry.card? catalog.collection = .error fault) : catalog.add entry = .error fault := by
  rw [add, made]
  rfl

theorem add_ok {catalog after : Catalog} {entry : Entry} (added : catalog.add entry = .ok after) :
    ∃ card, entry.card? catalog.collection = .ok card ∧
      after = { catalog with pending := catalog.pending ++ [card] } := by
  cases made : entry.card? catalog.collection with
  | error fault =>
    rw [add_fault made] at added
    cases added
  | ok card =>
    rw [add_card made] at added
    cases added
    exact ⟨card, rfl, rfl⟩

theorem regular_add {catalog after : Catalog} {entry : Entry} (regular : catalog.Regular)
    (added : catalog.add entry = .ok after) : after.Regular := by
  obtain ⟨card, _, rfl⟩ := add_ok added
  exact ⟨regular.columns, regular.segments, regular.unique⟩

theorem regular_commit {catalog : Catalog} (regular : catalog.Regular) :
    catalog.commit.Regular where
  columns := fun name member =>
    (Store.columns_commit catalog.store catalog.pending).symm ▸ regular.columns name member
  segments := fun s member =>
    (Store.segments_commit regular.segments catalog.pending s member).trans
      (Store.columns_commit catalog.store catalog.pending).symm
  unique := Store.unique_commit regular.unique catalog.pending

theorem open?_eq_some {collection : Collection} {store : Store} {catalog : Catalog} :
    open? collection store = some catalog ↔
      (∀ name ∈ collection.columns, name ∈ store.columns) ∧ catalog = ⟨collection, store, []⟩ := by
  have covered : collection.columns.all store.columns.contains = true ↔
      ∀ name ∈ collection.columns, name ∈ store.columns := by
    simp
  unfold open?
  split
  · rename_i yes
    rw [Option.some.injEq, and_iff_right (covered.mp yes), eq_comm]
  · rename_i no
    simp [mt covered.mpr no]

theorem open?_eq_none {collection : Collection} {store : Store} :
    open? collection store = none ↔ ¬ ∀ name ∈ collection.columns, name ∈ store.columns := by
  rw [Option.eq_none_iff_forall_ne_some]
  constructor
  · intro none covered
    exact none _ (open?_eq_some.mpr ⟨covered, rfl⟩)
  · intro missing catalog opens
    exact missing (open?_eq_some.mp opens).1

theorem regular_open {catalog opened : Catalog} {collection : Collection}
    (regular : catalog.Regular) (opens : open? collection catalog.store = some opened) :
    opened.Regular := by
  obtain ⟨covered, rfl⟩ := open?_eq_some.mp opens
  exact ⟨covered, regular.segments, regular.unique⟩

/-- Reading an index does not change it, so only these steps matter. -/
inductive Reachable : Catalog → Prop where
  | create {types : List DocumentType} {collection : Collection}
      (valid : Collection.ofTypes types = .ok collection) : Reachable (create collection)
  | add {catalog after : Catalog} {entry : Entry} :
      Reachable catalog → catalog.add entry = .ok after → Reachable after
  | commit {catalog : Catalog} : Reachable catalog → Reachable catalog.commit
  | reopen {catalog opened : Catalog} {types : List DocumentType} {collection : Collection}
      (valid : Collection.ofTypes types = .ok collection) :
      Reachable catalog → open? collection catalog.store = some opened → Reachable opened

theorem regular_of_reachable {catalog : Catalog} (reachable : catalog.Reachable) :
    catalog.Regular := by
  induction reachable with
  | create _ => exact regular_create _
  | add _ added ih => exact regular_add ih added
  | commit _ ih => exact regular_commit ih
  | reopen _ _ opens ih => exact regular_open ih opens

theorem valid_of_reachable {catalog : Catalog} (reachable : catalog.Reachable) :
    ∃ types, Collection.ofTypes types = .ok catalog.collection := by
  induction reachable with
  | create valid => exact ⟨_, valid⟩
  | add _ added ih =>
    obtain ⟨_, _, rfl⟩ := add_ok added
    exact ih
  | commit _ ih => exact ih
  | reopen valid _ opens _ =>
    obtain ⟨_, rfl⟩ := open?_eq_some.mp opens
    exact ⟨_, valid⟩

end Catalog

end CardCatalog
